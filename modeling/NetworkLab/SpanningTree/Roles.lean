import NetworkLab.SpanningTree.Selection

/-!
# Ports, roles and the hello timer

Three facts that the handlers of `06-stp/stp.c` rely on: a port that sends is
designated, a designated port carries the vector of the switch, and the hello
timer runs exactly on a switch that is its own root.  The second holds for every
sequence of configs.  The first fails when a port that is not designated hears a
config that is not prior to its vector, the third when the switch loses its last
alternate port.
-/
set_option autoImplicit false

namespace NetworkLab.SpanningTree

open Lib Lib.Run

/-! ## A switch without a root port is its own root -/

section
variable {n : Nat}

def RootWithoutPort (stp : Stp n) : Prop :=
  stp.rootPort = none → stp.designatedRoot = stp.switchId

theorem stpInit_rootWithoutPort (mac : Mac) (now : Int) : RootWithoutPort (stpInit mac n now) :=
  fun _ => rfl

theorem stpHandleConfigPacket_rootWithoutPort {stp : Stp n} (alone : RootWithoutPort stp)
    (i : Fin n) (config : StpConfig) :
    RootWithoutPort (stpHandleConfigPacket stp i config).1 := by
  simp only [stpHandleConfigPacket]
  split_ifs with superior
  · intro noRootPort
    rcases adoptConfig_switch stp i config with
      ⟨r, -, rootPort, -, -⟩ | ⟨-, kept, ⟨root, -⟩ | ⟨root, -⟩⟩
    · rw [rootPort] at noRootPort
      cases noRootPort
    · rw [kept] at noRootPort
      rw [root, adoptConfig_switchId]
      exact alone noRootPort
    · rw [root, adoptConfig_switchId]
  · exact alone

theorem RootWithoutPort.sends {stp : Stp n} (alone : RootWithoutPort stp) (p : StpPort) :
    ∃ config, stpPortSendConfig stp p = some config := by
  simp only [stpPortSendConfig]
  cases rootPort : stp.rootPort with
  | none => simp [stpIsRootSwitch, alone rootPort]
  | some r => simp

/-! ## Who sends -/

/-- Every packet sent leaves by a port that is designated at that moment. -/
def SentByDesignated (result : Stp n × List (Fin n × StpConfig)) : Prop :=
  ∀ sent ∈ result.2, stpPortIsDesignated result.1 (result.1.ports sent.1) = true

theorem stpHandleHelloTimeout_designated (stp : Stp n) (now : Int) :
    SentByDesignated (stpHandleHelloTimeout stp now) :=
  fun _ member => (stpSendConfig_mem member).1

/-- The branch that answers a config does not look at the role of the port. -/
theorem stpHandleConfigPacket_designated_iff {stp : Stp n} (alone : RootWithoutPort stp)
    (i : Fin n) (config : StpConfig) :
    SentByDesignated (stpHandleConfigPacket stp i config) ↔
      configPrior config (stp.ports i) = true ∨ stpPortIsDesignated stp (stp.ports i) = true := by
  simp only [stpHandleConfigPacket, SentByDesignated]
  split_ifs with superior
  · exact ⟨fun _ => Or.inl superior, fun _ sent member => (stpSendConfig_mem member).1⟩
  · obtain ⟨answer, sends⟩ := alone.sends (stp.ports i)
    simp [sends, superior]

end

/-! ## Only designated ports speak -/

section
variable {ι : Type} [DecidableEq ι] {T : Topology ι}

/-- Every config that the switch acting in this step sends leaves by a designated port. -/
def OnlyDesignatedSpeak (net : Network T) (event : Event ι) : Prop :=
  match event with
  | .helloTimeout s now => SentByDesignated (stpHandleHelloTimeout (net.stp s) now)
  | .deliver k => ∀ m, net.flight[k]? = some m →
      SentByDesignated (stpHandleConfigPacket (net.stp m.dst.1) m.dst.2 m.config)
  | .lose _ => True
  | .duplicate _ => True

omit [DecidableEq ι] in
instance (net : Network T) (event : Event ι) : Decidable (OnlyDesignatedSpeak net event) :=
  match event with
  | .helloTimeout s now => inferInstanceAs (Decidable
      (∀ sent ∈ (stpHandleHelloTimeout (net.stp s) now).2, stpPortIsDesignated _ _ = true))
  | .deliver k => inferInstanceAs (Decidable (∀ m ∈ net.flight[k]?,
      ∀ sent ∈ (stpHandleConfigPacket (net.stp m.dst.1) m.dst.2 m.config).2,
        stpPortIsDesignated _ _ = true))
  | .lose _ => isTrue trivial
  | .duplicate _ => isTrue trivial

/-- A config that is delivered is prior to the vector of its port, or the port is
designated. -/
def HeardWell (net : Network T) (event : Event ι) : Prop :=
  match event with
  | .deliver k => ∀ m, net.flight[k]? = some m →
      configPrior m.config ((net.stp m.dst.1).ports m.dst.2) = true ∨
        stpPortIsDesignated (net.stp m.dst.1) ((net.stp m.dst.1).ports m.dst.2) = true
  | _ => True

theorem step_rootWithoutPort {net next : Network T} {event : Event ι}
    (alone : ∀ s, RootWithoutPort (net.stp s)) (taken : step net event = some next) :
    ∀ s, RootWithoutPort (next.stp s) := by
  have kept := step_preserves (fun _ stp => RootWithoutPort stp) (fun _ _ => True)
    (fun _ => True) alone (fun _ _ => trivial) (fun _ => trivial)
    (fun s now before _ => ⟨before, fun _ _ => trivial⟩)
    (fun m _ _ before _ => ⟨stpHandleConfigPacket_rootWithoutPort before m.dst.2 m.config,
      fun _ _ => trivial⟩) taken
  exact kept.1

omit [DecidableEq ι] in
theorem onlyDesignatedSpeak_iff {net : Network T} {event : Event ι}
    (alone : ∀ s, RootWithoutPort (net.stp s)) :
    OnlyDesignatedSpeak net event ↔ HeardWell net event := by
  cases event with
  | helloTimeout s now =>
      exact ⟨fun _ => trivial, fun _ => stpHandleHelloTimeout_designated (net.stp s) now⟩
  | deliver k =>
      apply forall_congr'
      intro m
      apply imp_congr_right
      intro _
      exact stpHandleConfigPacket_designated_iff (alone m.dst.1) m.dst.2 m.config
  | lose k => exact Iff.rfl
  | duplicate k => exact Iff.rfl

/-- In a run from `stp_init`, only designated ports send as long as no root or
alternate port hears a config that its own vector is as good as. -/
theorem only_designated_ports_speak (T : Topology ι) (now : ι → Int) (events : List (Event ι)) :
    EachStep step (fun net event _ => OnlyDesignatedSpeak net event) (initial T now) events ↔
      Guarded step HeardWell (initial T now) events := by
  have preserved : ∀ (net : Network T) event next, (∀ s, RootWithoutPort (net.stp s)) →
      HeardWell net event → step net event = some next → ∀ s, RootWithoutPort (next.stp s) :=
    fun _ _ _ alone _ => step_rootWithoutPort alone
  apply eachStep_iff_guarded step preserved
  · intro net event next alone _
    exact onlyDesignatedSpeak_iff alone
  · intro net event alone stuck
    cases event with
    | deliver k =>
        intro m found
        simp [step, found] at stuck
    | helloTimeout s now => trivial
    | lose k => trivial
    | duplicate k => trivial
  · intro s
    exact stpInit_rootWithoutPort (T.mac s) (now s)

/-- `b2` answers the second of two equal configs of the root on its root port. -/
theorem repeated_config_answered :
    ¬ ∀ events, EachStep step (fun net event _ => OnlyDesignatedSpeak net event)
      (initial line fun _ => 0) events := by
  intro always
  have answered : ∃ net ∈ run step (initial line fun _ => 0)
      [.helloTimeout 0 0, .duplicate 0, .deliver 0], ∃ next ∈ step net (.deliver 0),
        ¬ OnlyDesignatedSpeak net (.deliver 0) := by decide
  obtain ⟨net, success, next, taken, answers⟩ := answered
  exact answers (eachStep_last step _ (always _) success taken)

end

/-! ## One switch with arbitrary neighbours -/

section
variable {n : Nat}

inductive SwitchEvent (n : Nat)
  | config (i : Fin n) (received : StpConfig)
  | helloTimeout (now : Int)

def SwitchEvent.CostBelow : SwitchEvent n → Prop
  | .config _ received => received.rootPathCost < 2147483647
  | .helloTimeout _ => True

instance : DecidablePred (SwitchEvent.CostBelow (n := n)) := fun event =>
  match event with
  | .config _ received => inferInstanceAs (Decidable (received.rootPathCost < 2147483647))
  | .helloTimeout _ => isTrue trivial

def switchStep (stp : Stp n) : SwitchEvent n → Option (Stp n)
  | .config i received => some (stpHandleConfigPacket stp i received).1
  | .helloTimeout now => some (stpHandleHelloTimeout stp now).1

structure CarriesOwnVector (stp : Stp n) (p : StpPort) : Prop where
  root : p.designatedRoot = stp.designatedRoot
  cost : p.designatedCost = stp.rootPathCost
  onSwitch : p.designatedSwitch = stp.switchId
  onPort : p.designatedPort = p.portId

structure States (config : StpConfig) (p : StpPort) : Prop where
  root : config.rootId = p.designatedRoot
  cost : (config.rootPathCost : Int) = p.designatedCost
  onSwitch : config.switchId = p.designatedSwitch
  onPort : (config.portId : Int) = p.designatedPort

/-- Costs are neither negative nor too large, so that no conversion changes one.  A
port that is not designated has its cost from a config. -/
structure CostsKept (stp : Stp n) : Prop where
  nonneg : 0 ≤ stp.rootPathCost
  below : stp.rootPathCost < 2147483648
  heard : ∀ i, stpPortIsDesignated stp (stp.ports i) = false →
    0 ≤ (stp.ports i).designatedCost ∧ (stp.ports i).designatedCost < 2147483647
  pathCost : ∀ i, (stp.ports i).pathCost = 1
  portId : ∀ i, (stp.ports i).portId = stpPortId i
  own : ∀ i, stpPortIsDesignated stp (stp.ports i) = true → CarriesOwnVector stp (stp.ports i)

theorem stpInit_costsKept (mac : Mac) (now : Int) : CostsKept (stpInit mac n now) where
  nonneg := le_refl 0
  below := by simp [stpInit]
  heard i notDesignated := by simp [stpPortIsDesignated, stpInit, stpPortInit] at notDesignated
  pathCost _ := rfl
  portId _ := rfl
  own _ _ := ⟨rfl, rfl, rfl, rfl⟩

/-- After `storeConfig` too a port that is not designated has its cost from a config. -/
theorem CostsKept.storeConfig_heard {stp : Stp n} (kept : CostsKept stp) {i j : Fin n}
    {config : StpConfig} (below : config.rootPathCost < 2147483647)
    (notDesignated : stpPortIsDesignated (storeConfig stp i config)
      ((storeConfig stp i config).ports j) = false) :
    0 ≤ ((storeConfig stp i config).ports j).designatedCost ∧
      ((storeConfig stp i config).ports j).designatedCost < 2147483647 := by
  by_cases same : j = i
  · subst same
    rw [storeConfig_port_self]
    simp only [toI32]
    split_ifs <;> omega
  · rw [storeConfig_port_other stp config same] at notDesignated ⊢
    exact kept.heard j (by simpa [stpPortIsDesignated] using notDesignated)

theorem adoptConfig_costsKept {stp : Stp n} (kept : CostsKept stp) (i : Fin n)
    {config : StpConfig} (below : config.rootPathCost < 2147483647) :
    CostsKept (adoptConfig stp i config) := by
  have switchCost : 0 ≤ (adoptConfig stp i config).rootPathCost ∧
      (adoptConfig stp i config).rootPathCost < 2147483648 := by
    rcases adoptConfig_switch stp i config with
      ⟨r, found, -, -, cost⟩ | ⟨-, -, ⟨-, cost⟩ | ⟨-, cost⟩⟩
    · have heard := kept.storeConfig_heard below
        (isAlternate_not_designated (findRootPort_alternate found))
      rw [cost, kept.pathCost r, addInt_eq (by omega) (by omega)]
      omega
    · rw [cost]
      exact ⟨kept.nonneg, kept.below⟩
    · rw [cost]
      omega
  refine ⟨switchCost.1, switchCost.2, ?_, ?_, ?_, ?_⟩
  · intro j notDesignated
    obtain ⟨sameVector, stillNot, -⟩ := adoptConfig_kept notDesignated
    rw [sameVector]
    exact kept.storeConfig_heard below stillNot
  · intro j
    rw [adoptConfig_pathCost]
    exact kept.pathCost j
  · intro j
    rw [adoptConfig_portId]
    exact kept.portId j
  · intro j designated
    obtain ⟨root, cost⟩ := adoptConfig_own designated
    obtain ⟨onSwitch, onPort⟩ := (stpPortIsDesignated_iff _ _).mp designated
    exact ⟨root, cost, onSwitch, onPort⟩

theorem switchStep_costsKept {stp next : Stp n} {event : SwitchEvent n} (kept : CostsKept stp)
    (below : event.CostBelow) (taken : switchStep stp event = some next) : CostsKept next := by
  cases event with
  | config i received =>
      cases Option.some.inj taken
      simp only [stpHandleConfigPacket]
      split_ifs
      · exact adoptConfig_costsKept kept i below
      · exact kept
  | helloTimeout now =>
      cases Option.some.inj taken
      exact ⟨kept.nonneg, kept.below, kept.heard, kept.pathCost, kept.portId,
        fun i designated => ⟨(kept.own i designated).root, (kept.own i designated).cost,
          (kept.own i designated).onSwitch, (kept.own i designated).onPort⟩⟩

theorem CostsKept.states {stp : Stp n} (kept : CostsKept stp) (ports : n ≤ STP_MAX_PORTS)
    {i : Fin n} (designated : stpPortIsDesignated stp (stp.ports i) = true) {config : StpConfig}
    (sent : stpPortSendConfig stp (stp.ports i) = some config) :
    States config (stp.ports i) := by
  obtain ⟨root, cost, onSwitch, onPort⟩ := kept.own i designated
  have portFits := toU16_stpPortId (Fin.castLE ports i)
  rw [stpPortSendConfig_some sent]
  constructor
  · exact root.symm
  · rw [cost]
    exact toU32_cast kept.nonneg kept.below
  · exact onSwitch.symm
  · rw [onPort, kept.portId i]
    exact portFits

/-- Designated ports carry the switch's own vector, whatever the neighbours send. -/
theorem designated_ports_carry_own_vector (mac : Mac) (now : Int) (ports : n ≤ STP_MAX_PORTS)
    (events : List (SwitchEvent n)) (below : ∀ event ∈ events, event.CostBelow) :
    Always switchStep (fun stp => ∀ i, stpPortIsDesignated stp (stp.ports i) = true →
      CarriesOwnVector stp (stp.ports i) ∧ ∀ config,
        stpPortSendConfig stp (stp.ports i) = some config → States config (stp.ports i))
      (stpInit mac n now) events := by
  have kept : Always switchStep CostsKept (stpInit mac n now) events := by
    apply always_of_guarded switchStep (fun _ _ _ => switchStep_costsKept) events
      (stpInit_costsKept mac now)
    exact guarded_of_forall switchStep events below
  apply always_mono switchStep _ events kept
  intro stp costsKept i designated
  exact ⟨costsKept.own i designated, fun config sent => costsKept.states ports designated sent⟩

end

theorem designated_ports_carry_own_vector_two :
    Always switchStep (fun stp => ∀ i, stpPortIsDesignated stp (stp.ports i) = true →
      CarriesOwnVector stp (stp.ports i) ∧ ∀ config,
        stpPortSendConfig stp (stp.ports i) = some config → States config (stp.ports i))
      (stpInit (lineMac 1) 2 0)
      [.config 0 ⟨stpSwitchId (lineMac 0), 0, stpSwitchId (lineMac 0), 32769⟩, .helloTimeout 512] :=
  designated_ports_carry_own_vector (lineMac 1) 0 (by decide) _ (by decide)

/-! ## The hello timer and the root port -/

section
variable {n : Nat}

def stpCheckTimer (timer : StpTimer) (now : Int) : StpTimer × Bool :=
  if timer.active && decide (timer.time + timer.timeout ≤ now) then
    ({ timer with active := false }, true)
  else (timer, false)

/-- The list of timers holds the hello timer only.  Its handler reads the clock
again, at `tick`. -/
def stpTimerRunOnce (stp : Stp n) (now tick : Int) : Stp n × List (Fin n × StpConfig) :=
  let checked := stpCheckTimer stp.helloTimer now
  let stopped := { stp with helloTimer := checked.1 }
  if checked.2 then stpHandleHelloTimeout stopped tick else (stopped, [])

inductive TimedEvent (n : Nat)
  | config (i : Fin n) (received : StpConfig)
  | timerRunOnce (now tick : Int)

def timedStep (stp : Stp n) : TimedEvent n → Option (Stp n)
  | .config i received => some (stpHandleConfigPacket stp i received).1
  | .timerRunOnce now tick => some (stpTimerRunOnce stp now tick).1

/-- The hello timer runs on a root switch, and `root_port` is `NULL` on it. -/
structure InRole (stp : Stp n) : Prop where
  timer : stp.helloTimer.active = true ↔ stp.designatedRoot = stp.switchId
  rootPort : stp.rootPort = none ↔ stp.designatedRoot = stp.switchId

/-- No root in sight is worse than the switch itself. -/
structure RootsBelow (stp : Stp n) : Prop where
  switch : stp.designatedRoot ≤ stp.switchId
  port : ∀ i, (stp.ports i).designatedRoot ≤ stp.switchId

/-- With the received vector in place, either an alternate port leads to another
root, or there is no alternate port and nothing to undo. -/
def RoleFollows (stp : Stp n) : TimedEvent n → Prop
  | .config i received =>
    configPrior received (stp.ports i) = true →
      (∃ j, isAlternate (storeConfig stp i received) j = true ∧
        ((storeConfig stp i received).ports j).designatedRoot ≠ stp.switchId) ∨
      ((∀ j, isAlternate (storeConfig stp i received) j = false) ∧
        (n = 1 ∨ stp.rootPort = none))
  | .timerRunOnce _ _ => True

theorem stpTimerRunOnce_kept (stp : Stp n) (now tick : Int) :
    (stpTimerRunOnce stp now tick).1.switchId = stp.switchId ∧
      (stpTimerRunOnce stp now tick).1.designatedRoot = stp.designatedRoot ∧
      (stpTimerRunOnce stp now tick).1.rootPort = stp.rootPort ∧
      (stpTimerRunOnce stp now tick).1.ports = stp.ports := by
  simp only [stpTimerRunOnce]
  split_ifs <;> exact ⟨rfl, rfl, rfl, rfl⟩

theorem stpTimerRunOnce_active (stp : Stp n) (now tick : Int) :
    (stpTimerRunOnce stp now tick).1.helloTimer.active = stp.helloTimer.active := by
  cases active : stp.helloTimer.active with
  | true =>
      simp only [stpTimerRunOnce, stpCheckTimer, active]
      by_cases due : stp.helloTimer.time + stp.helloTimer.timeout ≤ now
      · simp [due, stpHandleHelloTimeout, stpStartTimer]
      · simp [due, active]
  | false => simp [stpTimerRunOnce, stpCheckTimer, active]

theorem storeConfig_rootsBelow {stp : Stp n} (roots : RootsBelow stp) {i : Fin n}
    {received : StpConfig} (superior : configPrior received (stp.ports i) = true) (j : Fin n) :
    ((storeConfig stp i received).ports j).designatedRoot ≤ stp.switchId := by
  by_cases same : j = i
  · subst same
    rw [storeConfig_port_self]
    exact le_trans (configPrior_root_le superior) (roots.port j)
  · rw [storeConfig_port_other stp received same]
    exact roots.port j

theorem adoptConfig_rootsBelow {stp : Stp n} (roots : RootsBelow stp) {i : Fin n}
    {received : StpConfig} (superior : configPrior received (stp.ports i) = true) :
    RootsBelow (adoptConfig stp i received) := by
  have stored := storeConfig_rootsBelow roots superior
  have switch : (adoptConfig stp i received).designatedRoot ≤ stp.switchId := by
    rcases adoptConfig_switch stp i received with
      ⟨r, -, -, root, -⟩ | ⟨-, -, ⟨root, -⟩ | ⟨root, -⟩⟩
    · rw [root]
      exact stored r
    · rw [root]
      exact roots.switch
    · rw [root]
  constructor
  · rw [adoptConfig_switchId]
    exact switch
  · intro j
    rw [adoptConfig_switchId]
    rcases adoptConfig_port_cases stp i j received with ⟨root, -⟩ | ⟨same, -⟩
    · rw [root]
      exact switch
    · rw [same]
      exact stored j

theorem stopHelloTimer_active (stp : Stp n) :
    (stopHelloTimer stp).helloTimer.active = true ↔
      stp.helloTimer.active = true ∧ stp.designatedRoot = stp.switchId := by
  simp only [stopHelloTimer]
  split_ifs with isRoot
  · simp [beq_iff_eq.mp isRoot]
  · have notRoot : stp.designatedRoot ≠ stp.switchId := by
      simpa [stpIsRootSwitch] using isRoot
    simp [stpStopTimer, notRoot]

@[simp] theorem updateSwitch_helloTimer (stp : Stp n) (r : Option (Fin n)) :
    (updateSwitch stp r).helloTimer = stp.helloTimer := by
  cases r <;> simp only [updateSwitch]
  split_ifs <;> rfl

/-- The timer is stopped on a switch that is not its root, and never started here. -/
theorem adoptConfig_active (stp : Stp n) (i : Fin n) (received : StpConfig) :
    (adoptConfig stp i received).helloTimer.active = true ↔
      stp.helloTimer.active = true ∧
        (adoptConfig stp i received).designatedRoot = stp.switchId := by
  simp [adoptConfig, stopHelloTimer_active, relabelPorts, storeConfig]

/-- Some alternate port leads to another root exactly when the selected one does. -/
theorem findRootPort_root_iff {stp : Stp n} (below : ∀ j, (stp.ports j).designatedRoot ≤ stp.switchId)
    {r : Fin n} (found : findRootPort stp = some r) :
    (stp.ports r).designatedRoot ≠ stp.switchId ↔
      ∃ j, isAlternate stp j = true ∧ (stp.ports j).designatedRoot ≠ stp.switchId := by
  constructor
  · intro other
    exact ⟨r, findRootPort_alternate found, other⟩
  · rintro ⟨j, alternate, other⟩
    have least := findRootPort_least found alternate
    simp only [portVector, vector_le_iff] at least
    have smaller := below j
    omega

theorem adoptConfig_inRole_iff {stp : Stp n} (inRole : InRole stp) (roots : RootsBelow stp)
    {i : Fin n} {received : StpConfig} (superior : configPrior received (stp.ports i) = true) :
    InRole (adoptConfig stp i received) ↔
      (∃ j, isAlternate (storeConfig stp i received) j = true ∧
        ((storeConfig stp i received).ports j).designatedRoot ≠ stp.switchId) ∨
      ((∀ j, isAlternate (storeConfig stp i received) j = false) ∧
        (n = 1 ∨ stp.rootPort = none)) := by
  have active := adoptConfig_active stp i received
  rcases adoptConfig_switch stp i received with
    ⟨r, found, rootPort, root, -⟩ | ⟨none, rootPort, -⟩
  · rw [← storeConfig_switchId stp i received,
      ← findRootPort_root_iff (storeConfig_rootsBelow roots superior) found]
    have alternate := findRootPort_alternate found
    constructor
    · intro next
      apply Or.inl
      intro sameRoot
      have noRootPort := next.rootPort.mpr (by rw [root, sameRoot, adoptConfig_switchId]; rfl)
      rw [rootPort] at noRootPort
      cases noRootPort
    · rintro (other | ⟨noneAlternate, -⟩)
      · constructor
        · rw [active, root, adoptConfig_switchId]
          exact ⟨fun both => absurd both.2 other, fun same => absurd same other⟩
        · rw [rootPort, root, adoptConfig_switchId]
          exact ⟨fun impossible => (by cases impossible), fun same => absurd same other⟩
      · rw [noneAlternate r] at alternate
        cases alternate
  · have noneAlternate := findRootPort_none none
    have noWay : ¬ ∃ j, isAlternate (storeConfig stp i received) j = true ∧
        ((storeConfig stp i received).ports j).designatedRoot ≠ stp.switchId := by
      rintro ⟨j, alternate, -⟩
      rw [noneAlternate j] at alternate
      cases alternate
    rw [or_iff_right noWay, and_iff_right noneAlternate]
    by_cases onePort : n = 1
    · have root : (adoptConfig stp i received).designatedRoot = stp.designatedRoot := by
        simp [adoptConfig, none, relabelPorts, updateSwitch, onePort]
      constructor
      · exact fun _ => Or.inl onePort
      · intro _
        constructor
        · rw [active, root, adoptConfig_switchId, ← inRole.timer, and_self]
        · rw [rootPort, root, adoptConfig_switchId]
          exact inRole.rootPort
    · have root : (adoptConfig stp i received).designatedRoot = stp.switchId := by
        simp [adoptConfig, none, relabelPorts, updateSwitch, onePort]
      rw [or_iff_right onePort]
      constructor
      · intro next
        rw [← rootPort, next.rootPort, root, adoptConfig_switchId]
      · intro noRootPort
        have wasRoot := inRole.rootPort.mp noRootPort
        constructor
        · rw [active, root, adoptConfig_switchId, inRole.timer]
          exact ⟨fun _ => rfl, fun _ => ⟨wasRoot, rfl⟩⟩
        · rw [rootPort, root, adoptConfig_switchId]
          exact ⟨fun _ => rfl, fun _ => noRootPort⟩

theorem timedStep_rootsBelow {stp next : Stp n} {event : TimedEvent n} (roots : RootsBelow stp)
    (taken : timedStep stp event = some next) : RootsBelow next := by
  cases event with
  | config i received =>
      cases Option.some.inj taken
      simp only [stpHandleConfigPacket]
      split_ifs with superior
      · exact adoptConfig_rootsBelow roots superior
      · exact roots
  | timerRunOnce now tick =>
      cases Option.some.inj taken
      obtain ⟨id, root, -, ports⟩ := stpTimerRunOnce_kept stp now tick
      constructor
      · rw [id, root]
        exact roots.switch
      · intro i
        rw [id, ports]
        exact roots.port i

theorem timedStep_inRole_iff {stp next : Stp n} {event : TimedEvent n} (inRole : InRole stp)
    (roots : RootsBelow stp) (taken : timedStep stp event = some next) :
    InRole next ↔ RoleFollows stp event := by
  cases event with
  | config i received =>
      cases Option.some.inj taken
      simp only [stpHandleConfigPacket, RoleFollows]
      split_ifs with superior
      · rw [forall_prop_of_true superior]
        exact adoptConfig_inRole_iff inRole roots superior
      · exact ⟨fun _ impossible => absurd impossible superior, fun _ => inRole⟩
  | timerRunOnce now tick =>
      cases Option.some.inj taken
      obtain ⟨id, root, rootPort, -⟩ := stpTimerRunOnce_kept stp now tick
      apply iff_of_true _ trivial
      constructor
      · rw [stpTimerRunOnce_active, id, root]
        exact inRole.timer
      · rw [rootPort, id, root]
        exact inRole.rootPort

/-- The hello timer and `root_port` match the root role in all states of a run
exactly when every config that is adopted lets the role follow. -/
theorem hello_timer_in_role (mac : Mac) (now : Int) (events : List (TimedEvent n)) :
    Always timedStep InRole (stpInit mac n now) events ↔
      Guarded timedStep RoleFollows (stpInit mac n now) events := by
  have preserved : ∀ (stp : Stp n) event next, RootsBelow stp →
      timedStep stp event = some next → RootsBelow next := fun _ _ _ => timedStep_rootsBelow
  apply always_iff_guarded timedStep preserved
  · intro stp event next roots inRole taken
    exact timedStep_inRole_iff inRole roots taken
  · intro stp event roots stuck
    cases event <;> cases stuck
  · exact ⟨le_refl _, fun _ => le_refl _⟩
  · exact ⟨⟨fun _ => rfl, fun _ => rfl⟩, ⟨fun _ => rfl, fun _ => rfl⟩⟩

/-- `b2` hears of `b1` twice on the same port, the second time with a lower cost. -/
theorem role_lost_without_alternate :
    ¬ ∀ events, Always timedStep InRole (stpInit (lineMac 1) 2 0) events := by
  intro always
  have lost : ∃ stp ∈ run timedStep (stpInit (lineMac 1) 2 0)
      [.config 0 ⟨stpSwitchId (lineMac 0), 1, stpSwitchId (lineMac 2), 32769⟩,
        .config 0 ⟨stpSwitchId (lineMac 0), 0, stpSwitchId (lineMac 0), 32769⟩],
      stp.designatedRoot = stp.switchId ∧ stp.rootPort ≠ none ∧
        stp.helloTimer.active = false := by decide
  obtain ⟨stp, success, isRoot, hasRootPort, -⟩ := lost
  exact hasRootPort ((always_last timedStep _ (always _) success).rootPort.mpr isRoot)

end

end NetworkLab.SpanningTree
