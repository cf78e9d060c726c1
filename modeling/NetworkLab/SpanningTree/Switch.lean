import Mathlib.Data.List.FinRange
import Mathlib.Data.Prod.Lex
import Mathlib.Data.Int.Order.Basic
import Mathlib.Tactic.SplitIfs
import NetworkLab.Lib.MinScan

/-!
# A spanning-tree switch

The state of one switch and the functions of `06-stp/stp.c` that read or change
it.  Fields of a config message are in host order: every `hton` of the sender is
undone by the `ntoh` of the receiver.  `u64`, `u32` and `u16` fields are `Nat`,
`int` fields are `Int`; where the code converts an `int` to an unsigned type or
back, the conversion is written out.
-/
set_option autoImplicit false

namespace NetworkLab.SpanningTree

def STP_BRIDGE_PRIORITY : Nat := 32768
def STP_PORT_PRIORITY : Nat := 128
def STP_HELLO_TIME : Int := 2000 * 256 / 1000
def STP_MAX_PORTS : Nat := 32

def toU32 (x : Int) : Nat := (x % 4294967296).toNat

def toI32 (x : Nat) : Int := if x < 2147483648 then x else (x : Int) - 4294967296

def toU16 (x : Int) : Nat := (x % 65536).toNat

theorem toI32_toU32 {x : Int} (nonneg : 0 ≤ x) (below : x < 2147483648) :
    toI32 (toU32 x) = x := by
  simp only [toI32, toU32]
  split_ifs <;> omega

/-- The sum of two `int`s.  An overflow, undefined in C, wraps as it does on the machine. -/
def addInt (x y : Int) : Int := toI32 (toU32 (x + y))

theorem addInt_eq {x y : Int} (low : -2147483648 ≤ x + y) (high : x + y < 2147483648) :
    addInt x y = x + y := by
  simp only [addInt, toI32, toU32]
  split_ifs <;> omega

theorem addInt_range (x y : Int) : -2147483648 ≤ addInt x y ∧ addInt x y < 2147483648 := by
  simp only [addInt, toI32, toU32]
  split_ifs <;> omega

theorem addInt_of_nonneg {x : Int} (nonneg : 0 ≤ x) (below : x < 2147483648)
    (kept : 0 ≤ addInt x 1) : addInt x 1 = x + 1 := by
  apply addInt_eq (by omega)
  by_contra overflow
  have atBound : x = 2147483647 := by omega
  rw [atBound] at kept
  exact absurd kept (by decide)

theorem toU32_cast {x : Int} (nonneg : 0 ≤ x) (below : x < 2147483648) :
    (toU32 x : Int) = x := by
  simp only [toU32]
  omega

/-- `struct stp_port`; `iface`, `port_name` and the back pointer are not read. -/
structure StpPort where
  portId : Int
  pathCost : Int
  designatedRoot : Nat
  designatedSwitch : Nat
  designatedPort : Int
  designatedCost : Int
deriving DecidableEq, Repr

/-- `struct stp_config`, less the fields that the receiver ignores. -/
structure StpConfig where
  rootId : Nat
  rootPathCost : Nat
  switchId : Nat
  portId : Nat
deriving DecidableEq, Repr

/-- `stp_timer_t`, less its handler and list node. -/
structure StpTimer where
  active : Bool
  time : Int
  timeout : Int
deriving DecidableEq, Repr

/-- `struct stp` with `n = nports`; `root_port` is an index into `ports`. -/
structure Stp (n : Nat) where
  switchId : Nat
  designatedRoot : Nat
  rootPathCost : Int
  rootPort : Option (Fin n)
  helloTimer : StpTimer
  ports : Fin n → StpPort

def prior (r1 r2 : Nat) (c1 c2 : Int) (s1 s2 : Nat) (p1 p2 : Int) : Bool :=
  if r1 < r2 then true else if r2 < r1 then false else
  if c1 < c2 then true else if c2 < c1 then false else
  if s1 < s2 then true else if s2 < s1 then false else
  if p1 < p2 then true else false

/-- A priority vector: root, cost, switch and port, compared in this order. -/
abbrev PriorityVector := Nat ×ₗ Int ×ₗ Nat ×ₗ Int

def vector (r : Nat) (c : Int) (s : Nat) (p : Int) : PriorityVector :=
  toLex (r, toLex (c, toLex (s, p)))

theorem vector_lt_iff {r1 r2 : Nat} {c1 c2 : Int} {s1 s2 : Nat} {p1 p2 : Int} :
    vector r1 c1 s1 p1 < vector r2 c2 s2 p2 ↔
      r1 < r2 ∨ r1 = r2 ∧ (c1 < c2 ∨ c1 = c2 ∧ (s1 < s2 ∨ s1 = s2 ∧ p1 < p2)) := by
  simp only [vector, Prod.Lex.toLex_lt_toLex]

theorem vector_le_iff {r1 r2 : Nat} {c1 c2 : Int} {s1 s2 : Nat} {p1 p2 : Int} :
    vector r1 c1 s1 p1 ≤ vector r2 c2 s2 p2 ↔
      r1 < r2 ∨ r1 = r2 ∧ (c1 < c2 ∨ c1 = c2 ∧ (s1 < s2 ∨ s1 = s2 ∧ p1 ≤ p2)) := by
  simp only [vector, Prod.Lex.toLex_le_toLex]

theorem prior_eq_lt (r1 r2 : Nat) (c1 c2 : Int) (s1 s2 : Nat) (p1 p2 : Int) :
    prior r1 r2 c1 c2 s1 s2 p1 p2 = decide (vector r1 c1 s1 p1 < vector r2 c2 s2 p2) := by
  rw [Bool.eq_iff_iff, decide_eq_true_iff, vector_lt_iff]
  simp only [prior]
  split_ifs <;> simp <;> omega

/-! ## Timers -/

def stpInitTimer (timeout : Int) : StpTimer := ⟨false, 0, timeout⟩

def stpStartTimer (timer : StpTimer) (time : Int) : StpTimer :=
  { timer with active := true, time := time }

def stpStopTimer (timer : StpTimer) : StpTimer := { timer with active := false }

section
variable {n : Nat}

/-! ## Sending -/

def stpIsRootSwitch (stp : Stp n) : Bool := stp.designatedRoot == stp.switchId

def stpPortIsDesignated (stp : Stp n) (p : StpPort) : Bool :=
  p.designatedSwitch == stp.switchId && p.designatedPort == p.portId

inductive StpPortState
  | root
  | designated
  | alternate
deriving DecidableEq, Repr

def stpPortState (stp : Stp n) (p : StpPort) : StpPortState :=
  if stp.rootPort.any (fun r => p.portId == (stp.ports r).portId) then .root
  else if p.designatedSwitch == stp.switchId && p.designatedPort == p.portId then .designated
  else .alternate

/-- The packet handed to `stp_port_send_packet`, if one is sent. -/
def stpPortSendConfig (stp : Stp n) (p : StpPort) : Option StpConfig :=
  if !stpIsRootSwitch stp && stp.rootPort.isNone then none
  else some
    { rootId := stp.designatedRoot
      rootPathCost := toU32 stp.rootPathCost
      switchId := stp.switchId
      portId := toU16 p.portId }

/-- The packets sent, each with the port it leaves by, in port order. -/
def stpSendConfig (stp : Stp n) : List (Fin n × StpConfig) :=
  (List.finRange n).filterMap fun i =>
    if stpPortIsDesignated stp (stp.ports i) then
      (stpPortSendConfig stp (stp.ports i)).map fun config => (i, config)
    else none

def stpHandleHelloTimeout (stp : Stp n) (now : Int) : Stp n × List (Fin n × StpConfig) :=
  ({ stp with helloTimer := stpStartTimer stp.helloTimer now }, stpSendConfig stp)

/-! ## Handling a config message -/

/-- `PRIOR` of the received config over the vector of the port.  The cost of the
config is a `u32`, so the cost of the port is compared as one. -/
def configPrior (config : StpConfig) (p : StpPort) : Bool :=
  prior config.rootId p.designatedRoot config.rootPathCost (toU32 p.designatedCost)
    config.switchId p.designatedSwitch config.portId p.designatedPort

/-- `PRIOR` of one port's vector over another's. -/
def portPrior (p q : StpPort) : Bool :=
  prior p.designatedRoot q.designatedRoot p.designatedCost q.designatedCost
    p.designatedSwitch q.designatedSwitch p.designatedPort q.designatedPort

def storeConfig (stp : Stp n) (i : Fin n) (config : StpConfig) : Stp n :=
  { stp with
    ports := Function.update stp.ports i
      { stp.ports i with
        designatedRoot := config.rootId
        designatedPort := config.portId
        designatedSwitch := config.switchId
        designatedCost := toI32 config.rootPathCost } }

/-- `not_de_port[i]` together with the test for `"ALTERNATE"`. -/
def isAlternate (stp : Stp n) (i : Fin n) : Bool :=
  !stpPortIsDesignated stp (stp.ports i) && stpPortState stp (stp.ports i) == .alternate

/-- The first loop takes the first alternate port, the second one, from index 1
on, replaces it by any alternate port with a prior vector. -/
def findRootPort (stp : Stp n) : Option (Fin n) :=
  match (List.finRange n).find? (isAlternate stp) with
  | none => none
  | some first => some <| (List.finRange n).tail.foldl (fun rootPort i =>
      if isAlternate stp i && portPrior (stp.ports i) (stp.ports rootPort) then i else rootPort)
      first

/-- The fields of the switch that follow from the selected root port.  Without
one, the body of the second loop makes the switch its own root, but it runs only
when there is a port of index 1; `root_port` keeps its old value. -/
def updateSwitch (stp : Stp n) (rootPort : Option (Fin n)) : Stp n :=
  match rootPort with
  | none => if n = 1 then stp else { stp with designatedRoot := stp.switchId, rootPathCost := 0 }
  | some r =>
    { stp with
      designatedRoot := (stp.ports r).designatedRoot
      rootPort := some r
      rootPathCost := addInt (stp.ports r).designatedCost (stp.ports r).pathCost }

def relabelPort (stp : Stp n) (p : StpPort) : StpPort :=
  if stpPortIsDesignated stp p then
    { p with designatedRoot := stp.designatedRoot, designatedCost := stp.rootPathCost }
  else if stpPortState stp p == .alternate && decide (stp.rootPathCost < p.designatedCost) then
    { p with
      designatedRoot := stp.designatedRoot
      designatedCost := stp.rootPathCost
      designatedSwitch := stp.switchId
      designatedPort := p.portId }
  else p

def relabelPorts (stp : Stp n) : Stp n := { stp with ports := fun i => relabelPort stp (stp.ports i) }

def stopHelloTimer (stp : Stp n) : Stp n :=
  if stpIsRootSwitch stp then stp else { stp with helloTimer := stpStopTimer stp.helloTimer }

def adoptConfig (stp : Stp n) (i : Fin n) (config : StpConfig) : Stp n :=
  let stored := storeConfig stp i config
  stopHelloTimer (relabelPorts (updateSwitch stored (findRootPort stored)))

def stpHandleConfigPacket (stp : Stp n) (i : Fin n) (config : StpConfig) :
    Stp n × List (Fin n × StpConfig) :=
  if configPrior config (stp.ports i) then
    let next := adoptConfig stp i config
    (next, stpSendConfig next)
  else
    (stp, ((stpPortSendConfig stp (stp.ports i)).map fun config => (i, config)).toList)

/-! ## What handling a config does -/

def portVector (p : StpPort) : PriorityVector :=
  vector p.designatedRoot p.designatedCost p.designatedSwitch p.designatedPort

theorem portPrior_eq (p q : StpPort) : portPrior p q = decide (portVector p < portVector q) :=
  prior_eq_lt ..

theorem stpPortIsDesignated_iff (stp : Stp n) (p : StpPort) :
    stpPortIsDesignated stp p = true ↔
      p.designatedSwitch = stp.switchId ∧ p.designatedPort = p.portId := by
  simp [stpPortIsDesignated]

@[simp] theorem storeConfig_switchId (stp : Stp n) (i : Fin n) (config : StpConfig) :
    (storeConfig stp i config).switchId = stp.switchId := rfl

@[simp] theorem storeConfig_rootPort (stp : Stp n) (i : Fin n) (config : StpConfig) :
    (storeConfig stp i config).rootPort = stp.rootPort := rfl

@[simp] theorem storeConfig_designatedRoot (stp : Stp n) (i : Fin n) (config : StpConfig) :
    (storeConfig stp i config).designatedRoot = stp.designatedRoot := rfl

@[simp] theorem storeConfig_rootPathCost (stp : Stp n) (i : Fin n) (config : StpConfig) :
    (storeConfig stp i config).rootPathCost = stp.rootPathCost := rfl

theorem storeConfig_port_self (stp : Stp n) (i : Fin n) (config : StpConfig) :
    (storeConfig stp i config).ports i =
      { stp.ports i with
        designatedRoot := config.rootId
        designatedPort := config.portId
        designatedSwitch := config.switchId
        designatedCost := toI32 config.rootPathCost } := by
  simp [storeConfig]

theorem storeConfig_port_other (stp : Stp n) {i j : Fin n} (config : StpConfig) (other : j ≠ i) :
    (storeConfig stp i config).ports j = stp.ports j := by
  simp [storeConfig, Function.update_of_ne other]

@[simp] theorem storeConfig_portId (stp : Stp n) (i j : Fin n) (config : StpConfig) :
    ((storeConfig stp i config).ports j).portId = (stp.ports j).portId := by
  by_cases same : j = i
  · subst same
    rw [storeConfig_port_self]
  · rw [storeConfig_port_other stp config same]

@[simp] theorem storeConfig_pathCost (stp : Stp n) (i j : Fin n) (config : StpConfig) :
    ((storeConfig stp i config).ports j).pathCost = (stp.ports j).pathCost := by
  by_cases same : j = i
  · subst same
    rw [storeConfig_port_self]
  · rw [storeConfig_port_other stp config same]

theorem isAlternate_not_designated {stp : Stp n} {i : Fin n} (alternate : isAlternate stp i = true) :
    stpPortIsDesignated stp (stp.ports i) = false := by
  simp only [isAlternate, Bool.and_eq_true, Bool.not_eq_true'] at alternate
  exact alternate.1

theorem findRootPort_eq (stp : Stp n) :
    findRootPort stp = ((List.finRange n).find? (isAlternate stp)).map fun first =>
      Lib.minScan (fun i => portVector (stp.ports i)) (isAlternate stp) first
        (List.finRange n).tail := by
  simp only [findRootPort, Lib.minScan, portPrior_eq]
  cases (List.finRange n).find? (isAlternate stp) <;> rfl

theorem findRootPort_none {stp : Stp n} (notFound : findRootPort stp = none) (i : Fin n) :
    isAlternate stp i = false := by
  rw [findRootPort_eq, Option.map_eq_none_iff, List.find?_eq_none] at notFound
  simpa using notFound i (List.mem_finRange i)

theorem findRootPort_alternate {stp : Stp n} {r : Fin n} (found : findRootPort stp = some r) :
    isAlternate stp r = true := by
  rw [findRootPort_eq] at found
  obtain ⟨first, isFirst, rfl⟩ := Option.map_eq_some_iff.mp found
  rcases Lib.minScan_mem (fun i => portVector (stp.ports i)) (isAlternate stp) first
    (List.finRange n).tail with same | later
  · rw [same]
    exact List.find?_some isFirst
  · exact later.2

/-- The selected port has a least vector among the alternate ports.  The second
loop leaves out index 0, which matters only if that port is alternate; then it
is the first candidate. -/
theorem findRootPort_least {stp : Stp n} {r i : Fin n} (found : findRootPort stp = some r)
    (alternate : isAlternate stp i = true) :
    portVector (stp.ports r) ≤ portVector (stp.ports i) := by
  rw [findRootPort_eq] at found
  obtain ⟨first, isFirst, rfl⟩ := Option.map_eq_some_iff.mp found
  have member : i ∈ List.finRange n := List.mem_finRange i
  cases ports : List.finRange n with
  | nil => simp [ports] at member
  | cons zero rest =>
      rw [ports] at member isFirst
      rcases List.mem_cons.mp member with rfl | later
      · have firstEq : first = i := by simpa [List.find?, alternate] using isFirst.symm
        rw [firstEq]
        exact Lib.minScan_le_candidate (fun i => portVector (stp.ports i)) _ _ _
      · exact Lib.minScan_le (fun i => portVector (stp.ports i)) _ _ _ _ later alternate

@[simp] theorem updateSwitch_switchId (stp : Stp n) (r : Option (Fin n)) :
    (updateSwitch stp r).switchId = stp.switchId := by
  cases r <;> simp only [updateSwitch]
  split_ifs <;> rfl

@[simp] theorem updateSwitch_ports (stp : Stp n) (r : Option (Fin n)) :
    (updateSwitch stp r).ports = stp.ports := by
  cases r <;> simp only [updateSwitch]
  split_ifs <;> rfl

@[simp] theorem relabelPort_portId (stp : Stp n) (p : StpPort) :
    (relabelPort stp p).portId = p.portId := by
  simp only [relabelPort]
  split_ifs <;> rfl

@[simp] theorem relabelPort_pathCost (stp : Stp n) (p : StpPort) :
    (relabelPort stp p).pathCost = p.pathCost := by
  simp only [relabelPort]
  split_ifs <;> rfl

/-- A port either carries the switch's own vector after the last loop, or it is
left as it was. -/
theorem relabelPort_cases (stp : Stp n) (p : StpPort) :
    ((relabelPort stp p).designatedRoot = stp.designatedRoot ∧
      (relabelPort stp p).designatedCost = stp.rootPathCost ∧
      (relabelPort stp p).designatedSwitch = stp.switchId ∧
      (relabelPort stp p).designatedPort = p.portId ∧
      (stpPortIsDesignated stp p = true ∨
        stpPortState stp p = .alternate ∧ stp.rootPathCost < p.designatedCost)) ∨
    (relabelPort stp p = p ∧ stpPortIsDesignated stp p = false ∧
      (stpPortState stp p = .alternate → p.designatedCost ≤ stp.rootPathCost)) := by
  simp only [relabelPort]
  split_ifs with designated takeover
  · obtain ⟨onSwitch, onPort⟩ := (stpPortIsDesignated_iff stp p).mp designated
    exact Or.inl ⟨rfl, rfl, onSwitch, onPort, Or.inl designated⟩
  · simp only [Bool.and_eq_true, beq_iff_eq, decide_eq_true_eq] at takeover
    exact Or.inl ⟨rfl, rfl, rfl, rfl, Or.inr takeover⟩
  · simp only [Bool.and_eq_true, beq_iff_eq, decide_eq_true_eq, not_and, Int.not_lt] at takeover
    exact Or.inr ⟨rfl, by simpa using designated, takeover⟩

@[simp] theorem stopHelloTimer_switchId (stp : Stp n) :
    (stopHelloTimer stp).switchId = stp.switchId := by
  simp only [stopHelloTimer]
  split_ifs <;> rfl

@[simp] theorem stopHelloTimer_designatedRoot (stp : Stp n) :
    (stopHelloTimer stp).designatedRoot = stp.designatedRoot := by
  simp only [stopHelloTimer]
  split_ifs <;> rfl

@[simp] theorem stopHelloTimer_rootPathCost (stp : Stp n) :
    (stopHelloTimer stp).rootPathCost = stp.rootPathCost := by
  simp only [stopHelloTimer]
  split_ifs <;> rfl

@[simp] theorem stopHelloTimer_rootPort (stp : Stp n) :
    (stopHelloTimer stp).rootPort = stp.rootPort := by
  simp only [stopHelloTimer]
  split_ifs <;> rfl

@[simp] theorem stopHelloTimer_ports (stp : Stp n) : (stopHelloTimer stp).ports = stp.ports := by
  simp only [stopHelloTimer]
  split_ifs <;> rfl

@[simp] theorem adoptConfig_switchId (stp : Stp n) (i : Fin n) (config : StpConfig) :
    (adoptConfig stp i config).switchId = stp.switchId := by
  simp [adoptConfig, relabelPorts]

/-- The port loop of `adoptConfig` sees the switch fields of the new state. -/
theorem adoptConfig_port (stp : Stp n) (i j : Fin n) (config : StpConfig) :
    (adoptConfig stp i config).ports j =
      relabelPort (updateSwitch (storeConfig stp i config) (findRootPort (storeConfig stp i config)))
        ((storeConfig stp i config).ports j) := by
  simp [adoptConfig, relabelPorts]

/-- With a root port selected, the switch takes root and cost from its vector;
otherwise it keeps them or becomes its own root, and `root_port` stays. -/
theorem adoptConfig_switch (stp : Stp n) (i : Fin n) (config : StpConfig) :
    (∃ r, findRootPort (storeConfig stp i config) = some r ∧
      (adoptConfig stp i config).rootPort = some r ∧
      (adoptConfig stp i config).designatedRoot =
        ((storeConfig stp i config).ports r).designatedRoot ∧
      (adoptConfig stp i config).rootPathCost =
        addInt ((storeConfig stp i config).ports r).designatedCost (stp.ports r).pathCost) ∨
    (findRootPort (storeConfig stp i config) = none ∧
      (adoptConfig stp i config).rootPort = stp.rootPort ∧
      ((adoptConfig stp i config).designatedRoot = stp.designatedRoot ∧
        (adoptConfig stp i config).rootPathCost = stp.rootPathCost ∨
      (adoptConfig stp i config).designatedRoot = stp.switchId ∧
        (adoptConfig stp i config).rootPathCost = 0)) := by
  cases found : findRootPort (storeConfig stp i config) with
  | some r =>
      refine Or.inl ⟨r, rfl, ?_, ?_, ?_⟩ <;>
        simp [adoptConfig, found, relabelPorts, updateSwitch]
  | none =>
      refine Or.inr ⟨rfl, ?_⟩
      by_cases onePort : n = 1
      · refine ⟨?_, Or.inl ⟨?_, ?_⟩⟩ <;>
          simp [adoptConfig, found, relabelPorts, updateSwitch, onePort]
      · refine ⟨?_, Or.inr ⟨?_, ?_⟩⟩ <;>
          simp [adoptConfig, found, relabelPorts, updateSwitch, onePort]

/-- The role of a port depends on the switch id and on the id of the root port. -/
theorem stpPortState_adoptConfig (stp : Stp n) (i : Fin n) (config : StpConfig) (p : StpPort) :
    stpPortState (adoptConfig stp i config) p =
      stpPortState (updateSwitch (storeConfig stp i config)
        (findRootPort (storeConfig stp i config))) p := by
  simp [stpPortState, adoptConfig, relabelPorts]

/-- After `adoptConfig` a port carries the switch's own new vector, or it is as
`storeConfig` left it: not designated, and if it is alternate, then not dearer
than the switch. -/
theorem adoptConfig_port_cases (stp : Stp n) (i j : Fin n) (config : StpConfig) :
    (((adoptConfig stp i config).ports j).designatedRoot =
        (adoptConfig stp i config).designatedRoot ∧
      ((adoptConfig stp i config).ports j).designatedCost =
        (adoptConfig stp i config).rootPathCost ∧
      ((adoptConfig stp i config).ports j).designatedSwitch = stp.switchId ∧
      ((adoptConfig stp i config).ports j).designatedPort = (stp.ports j).portId ∧
      (stpPortIsDesignated (storeConfig stp i config) ((storeConfig stp i config).ports j) = true ∨
        stpPortState (adoptConfig stp i config) ((storeConfig stp i config).ports j) =
            .alternate ∧
          (adoptConfig stp i config).rootPathCost <
            ((storeConfig stp i config).ports j).designatedCost)) ∨
    ((adoptConfig stp i config).ports j = (storeConfig stp i config).ports j ∧
      stpPortIsDesignated (storeConfig stp i config) ((storeConfig stp i config).ports j) = false ∧
      (stpPortState (adoptConfig stp i config) ((storeConfig stp i config).ports j) = .alternate →
        ((storeConfig stp i config).ports j).designatedCost ≤
          (adoptConfig stp i config).rootPathCost)) := by
  have rootEq : (adoptConfig stp i config).designatedRoot =
      (updateSwitch (storeConfig stp i config)
        (findRootPort (storeConfig stp i config))).designatedRoot := by
    simp [adoptConfig, relabelPorts]
  have costEq : (adoptConfig stp i config).rootPathCost =
      (updateSwitch (storeConfig stp i config)
        (findRootPort (storeConfig stp i config))).rootPathCost := by
    simp [adoptConfig, relabelPorts]
  have sameDesignated : ∀ p, stpPortIsDesignated (updateSwitch (storeConfig stp i config)
      (findRootPort (storeConfig stp i config))) p =
        stpPortIsDesignated (storeConfig stp i config) p := by
    intro p
    simp [stpPortIsDesignated]
  rw [adoptConfig_port, rootEq, costEq, stpPortState_adoptConfig, ← sameDesignated]
  rcases relabelPort_cases (updateSwitch (storeConfig stp i config)
    (findRootPort (storeConfig stp i config))) ((storeConfig stp i config).ports j) with own | kept
  · left
    obtain ⟨root, cost, onSwitch, onPort, reason⟩ := own
    refine ⟨root, cost, ?_, ?_, reason⟩
    · rw [onSwitch]
      simp
    · rw [onPort]
      simp
  · exact Or.inr kept

/-- A config that is prior to the vector of the port changes the switch, unless
the port is designated even with the vector of the config. -/
theorem adoptConfig_ne {stp : Stp n} {i : Fin n} {config : StpConfig}
    (notDesignated : stpPortIsDesignated (storeConfig stp i config)
      ((storeConfig stp i config).ports i) = false)
    (superior : portVector ((storeConfig stp i config).ports i) < portVector (stp.ports i)) :
    adoptConfig stp i config ≠ stp := by
  intro unchanged
  have switch := adoptConfig_switch stp i config
  rcases adoptConfig_port_cases stp i i config with
    ⟨root, cost, -, -, designated | ⟨alternate, cheaper⟩⟩ | ⟨kept, -⟩
  · rw [designated] at notDesignated
    cases notDesignated
  · -- the config's root must be smaller, so the port was worth selecting
    rw [unchanged] at root cost alternate cheaper switch
    have isAlternateHere : isAlternate (storeConfig stp i config) i = true := by
      have sameRole : stpPortState (storeConfig stp i config)
          ((storeConfig stp i config).ports i) =
            stpPortState stp ((storeConfig stp i config).ports i) := by
        simp [stpPortState]
      simp [isAlternate, notDesignated, sameRole, alternate]
    rcases switch with ⟨r, found, -, rootEq, -⟩ | ⟨none, -⟩
    · have least := findRootPort_least found isAlternateHere
      simp only [portVector, vector_lt_iff] at superior
      simp only [portVector, vector_le_iff] at least
      omega
    · rw [findRootPort_none none i] at isAlternateHere
      cases isAlternateHere
  · rw [unchanged] at kept
    rw [kept] at superior
    exact lt_irrefl _ superior

@[simp] theorem adoptConfig_portId (stp : Stp n) (i j : Fin n) (config : StpConfig) :
    ((adoptConfig stp i config).ports j).portId = (stp.ports j).portId := by
  rw [adoptConfig_port]
  simp

@[simp] theorem adoptConfig_pathCost (stp : Stp n) (i j : Fin n) (config : StpConfig) :
    ((adoptConfig stp i config).ports j).pathCost = (stp.ports j).pathCost := by
  rw [adoptConfig_port]
  simp

/-- Every config sent carries the sender's id, root and root path cost. -/
theorem stpPortSendConfig_some {stp : Stp n} {p : StpPort} {config : StpConfig}
    (sent : stpPortSendConfig stp p = some config) :
    config = ⟨stp.designatedRoot, toU32 stp.rootPathCost, stp.switchId, toU16 p.portId⟩ := by
  simp only [stpPortSendConfig] at sent
  split_ifs at sent
  exact (Option.some.inj sent).symm

theorem stpSendConfig_mem {stp : Stp n} {i : Fin n} {config : StpConfig}
    (sent : (i, config) ∈ stpSendConfig stp) :
    stpPortIsDesignated stp (stp.ports i) = true ∧
      stpPortSendConfig stp (stp.ports i) = some config := by
  obtain ⟨j, -, found⟩ := List.mem_filterMap.mp sent
  split_ifs at found with designated
  obtain ⟨config', sentBy, pairEq⟩ := Option.map_eq_some_iff.mp found
  cases pairEq
  exact ⟨designated, sentBy⟩

/-- Every packet that handling a config sends is a `stp_port_send_config` of the
new state. -/
theorem stpHandleConfigPacket_sent {stp : Stp n} {i j : Fin n} {config sent : StpConfig}
    (member : (j, sent) ∈ (stpHandleConfigPacket stp i config).2) :
    stpPortSendConfig (stpHandleConfigPacket stp i config).1
      ((stpHandleConfigPacket stp i config).1.ports j) = some sent := by
  simp only [stpHandleConfigPacket] at member ⊢
  split_ifs at member ⊢ with superior
  · exact (stpSendConfig_mem member).2
  · simp only [Option.mem_toList, Option.map_eq_some_iff] at member
    obtain ⟨config', sentBy, pairEq⟩ := member
    cases pairEq
    exact sentBy

/-! ## Initial state -/

abbrev Mac := Fin 6 → UInt8

/-- The switch id that `stp_init` computes from the mac of the first interface. -/
def stpSwitchId (mac : Mac) : Nat :=
  ((List.finRange 6).foldl (fun macAddr i => (macAddr <<< 8) + (mac i).toNat) 0) |||
    (STP_BRIDGE_PRIORITY <<< 48)

def stpPortId (i : Nat) : Int := ((STP_PORT_PRIORITY <<< 8) ||| (i + 1) : Nat)

def stpPortInit (switchId designatedRoot : Nat) (rootPathCost portId : Int) : StpPort :=
  { portId := portId
    pathCost := 1
    designatedRoot := designatedRoot
    designatedSwitch := switchId
    designatedPort := portId
    designatedCost := rootPathCost }

def stpInit (mac : Mac) (n : Nat) (now : Int) : Stp n :=
  let switchId := stpSwitchId mac
  { switchId := switchId
    designatedRoot := switchId
    rootPathCost := 0
    rootPort := none
    helloTimer := stpStartTimer (stpInitTimer STP_HELLO_TIME) now
    ports := fun i => stpPortInit switchId switchId 0 (stpPortId i) }

end

end NetworkLab.SpanningTree
