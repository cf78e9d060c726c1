import Mathlib.Data.Fin.VecNotation
import Mathlib.Data.Fintype.Sigma
import Mathlib.Data.List.Basic
import NetworkLab.Lib.Run
import NetworkLab.Lib.Walk
import NetworkLab.SpanningTree.Switch

/-!
# A network of switches

Switches are indexed by a type `ι`; links join ports in pairs.  A config that
leaves a port is in flight to the port at the other end of its link, where it may
be delivered in any order, lost or duplicated.
-/
set_option autoImplicit false

namespace NetworkLab.SpanningTree

open Lib Lib.Run

structure Topology (ι : Type) where
  mac : ι → Mac
  nports : ι → Nat
  nports_le : ∀ s, nports s ≤ STP_MAX_PORTS
  link : (Σ s, Fin (nports s)) → Option (Σ s, Fin (nports s))
  link_symm : ∀ p q, link p = some q → link q = some p
  link_ne : ∀ p, link p ≠ some p
  switchId_injective : Function.Injective fun s => stpSwitchId (mac s)

variable {ι : Type}

namespace Topology

abbrev Port (T : Topology ι) : Type := Σ s, Fin (T.nports s)

def switchId (T : Topology ι) (s : ι) : Nat := stpSwitchId (T.mac s)

def Adj (T : Topology ι) (u v : ι) : Prop :=
  ∃ (i : Fin (T.nports u)) (j : Fin (T.nports v)), T.link ⟨u, i⟩ = some ⟨v, j⟩

theorem switchId_inj (T : Topology ι) {u v : ι} (same : T.switchId u = T.switchId v) : u = v :=
  T.switchId_injective same

theorem Adj.symm {T : Topology ι} {u v : ι} (adjacent : T.Adj u v) : T.Adj v u := by
  obtain ⟨i, j, joined⟩ := adjacent
  exact ⟨j, i, T.link_symm _ _ joined⟩

theorem link_adj (T : Topology ι) {p q : T.Port} (joined : T.link p = some q) : T.Adj p.1 q.1 :=
  ⟨p.2, q.2, joined⟩

end Topology

structure Message (T : Topology ι) where
  src : T.Port
  dst : T.Port
  config : StpConfig

structure Network (T : Topology ι) where
  stp : ∀ s, Stp (T.nports s)
  flight : List (Message T)

/-- The packets that switch `s` sends, less those on ports without a link. -/
def emit (T : Topology ι) (s : ι) (packets : List (Fin (T.nports s) × StpConfig)) :
    List (Message T) :=
  packets.filterMap fun packet =>
    (T.link ⟨s, packet.1⟩).map fun dst => ⟨⟨s, packet.1⟩, dst, packet.2⟩

def initial (T : Topology ι) (now : ι → Int) : Network T :=
  { stp := fun s => stpInit (T.mac s) (T.nports s) (now s), flight := [] }

/-- `deliver`, `lose` and `duplicate` act on the message at a position of `flight`. -/
inductive Event (ι : Type)
  | helloTimeout (s : ι) (now : Int)
  | deliver (k : Nat)
  | lose (k : Nat)
  | duplicate (k : Nat)

variable [DecidableEq ι] {T : Topology ι}

/-- Switch `s` moves to a new state and sends packets. -/
def act (net : Network T) (s : ι) (result : Stp (T.nports s) × List (Fin (T.nports s) × StpConfig)) :
    Network T :=
  { stp := Function.update net.stp s result.1, flight := net.flight ++ emit T s result.2 }

def step (net : Network T) : Event ι → Option (Network T)
  | .helloTimeout s now => some (act net s (stpHandleHelloTimeout (net.stp s) now))
  | .deliver k => (net.flight[k]?).map fun message =>
      act { net with flight := net.flight.eraseIdx k } message.dst.1
        (stpHandleConfigPacket (net.stp message.dst.1) message.dst.2 message.config)
  | .lose k => (net.flight[k]?).map fun _ => { net with flight := net.flight.eraseIdx k }
  | .duplicate k => (net.flight[k]?).map fun message =>
      { net with flight := net.flight ++ [message] }

theorem act_stp_self (net : Network T) (s : ι)
    (result : Stp (T.nports s) × List (Fin (T.nports s) × StpConfig)) :
    (act net s result).stp s = result.1 := by
  simp [act]

theorem act_stp_other (net : Network T) {s t : ι}
    (result : Stp (T.nports s) × List (Fin (T.nports s) × StpConfig)) (other : t ≠ s) :
    (act net s result).stp t = net.stp t := by
  simp [act, Function.update_of_ne other]

omit [DecidableEq ι] in
theorem emit_mem {s : ι} {packets : List (Fin (T.nports s) × StpConfig)} {message : Message T}
    (member : message ∈ emit T s packets) :
    ∃ i, (i, message.config) ∈ packets ∧ message.src = ⟨s, i⟩ ∧
      T.link message.src = some message.dst := by
  obtain ⟨packet, sent, mapped⟩ := List.mem_filterMap.mp member
  obtain ⟨dst, joined, messageEq⟩ := Option.map_eq_some_iff.mp mapped
  subst messageEq
  exact ⟨packet.1, sent, rfl, joined⟩

theorem act_flight {net : Network T} {s : ι}
    {result : Stp (T.nports s) × List (Fin (T.nports s) × StpConfig)} {m : Message T}
    (member : m ∈ (act net s result).flight) : m ∈ net.flight ∨ m ∈ emit T s result.2 :=
  List.mem_append.mp member

/-- A step only loses or repeats messages, or lets one switch act on its hello
timeout or on a message in flight. -/
theorem step_cases {net next : Network T} {event : Event ι} (taken : step net event = some next) :
    (next.stp = net.stp ∧ ∀ m ∈ next.flight, m ∈ net.flight) ∨
    (∃ s now, event = .helloTimeout s now ∧
      next = act net s (stpHandleHelloTimeout (net.stp s) now)) ∨
    (∃ k m, event = .deliver k ∧ net.flight[k]? = some m ∧
      next = act { net with flight := net.flight.eraseIdx k } m.dst.1
        (stpHandleConfigPacket (net.stp m.dst.1) m.dst.2 m.config)) := by
  cases event with
  | helloTimeout s now => exact Or.inr (Or.inl ⟨s, now, rfl, (Option.some.inj taken).symm⟩)
  | deliver k =>
      obtain ⟨m, found, rfl⟩ := Option.map_eq_some_iff.mp taken
      exact Or.inr (Or.inr ⟨k, m, rfl, found, rfl⟩)
  | lose k =>
      obtain ⟨m, found, rfl⟩ := Option.map_eq_some_iff.mp taken
      exact Or.inl ⟨rfl, fun m member => List.mem_of_mem_eraseIdx member⟩
  | duplicate k =>
      obtain ⟨m, found, rfl⟩ := Option.map_eq_some_iff.mp taken
      refine Or.inl ⟨rfl, ?_⟩
      intro m' member
      rcases List.mem_append.mp member with old | new
      · exact old
      · rw [List.mem_singleton.mp new]
        exact List.mem_of_getElem? found

/-- A property that each switch has by itself and one that each message has by
itself are kept by every step if the two handlers keep them.  `Allowed` is what
is assumed of the states that the switches move to. -/
theorem step_preserves (SwitchInv Allowed : ∀ s, Stp (T.nports s) → Prop)
    (MessageInv : Message T → Prop) {net next : Network T} {event : Event ι}
    (switches : ∀ s, SwitchInv s (net.stp s)) (messages : ∀ m ∈ net.flight, MessageInv m)
    (allowed : ∀ s, Allowed s (next.stp s))
    (hello : ∀ s now, SwitchInv s (net.stp s) →
      Allowed s (stpHandleHelloTimeout (net.stp s) now).1 →
      SwitchInv s (stpHandleHelloTimeout (net.stp s) now).1 ∧
      ∀ m ∈ emit T s (stpHandleHelloTimeout (net.stp s) now).2, MessageInv m)
    (handle : ∀ m ∈ net.flight, MessageInv m → SwitchInv m.dst.1 (net.stp m.dst.1) →
      Allowed m.dst.1 (stpHandleConfigPacket (net.stp m.dst.1) m.dst.2 m.config).1 →
      SwitchInv m.dst.1 (stpHandleConfigPacket (net.stp m.dst.1) m.dst.2 m.config).1 ∧
      ∀ sent ∈ emit T m.dst.1 (stpHandleConfigPacket (net.stp m.dst.1) m.dst.2 m.config).2,
        MessageInv sent)
    (taken : step net event = some next) :
    (∀ s, SwitchInv s (next.stp s)) ∧ ∀ m ∈ next.flight, MessageInv m := by
  have after : ∀ (before : Network T) (s : ι)
      (result : Stp (T.nports s) × List (Fin (T.nports s) × StpConfig)),
      before.stp = net.stp → (∀ m ∈ before.flight, MessageInv m) →
      SwitchInv s result.1 → (∀ m ∈ emit T s result.2, MessageInv m) →
      (∀ t, SwitchInv t ((act before s result).stp t)) ∧
        ∀ m ∈ (act before s result).flight, MessageInv m := by
    intro before s result sameStp flying changed sent
    constructor
    · intro t
      by_cases same : t = s
      · subst same
        rw [act_stp_self]
        exact changed
      · rw [act_stp_other before result same, sameStp]
        exact switches t
    · intro m member
      rcases act_flight member with old | new
      · exact flying m old
      · exact sent m new
  rcases step_cases taken with ⟨sameStp, fewer⟩ | ⟨s, now, -, rfl⟩ | ⟨k, m, -, found, rfl⟩
  · rw [sameStp]
    exact ⟨switches, fun m member => messages m (fewer m member)⟩
  · have allowedHere := allowed s
    rw [act_stp_self] at allowedHere
    have changed := hello s now (switches s) allowedHere
    exact after net s _ rfl messages changed.1 changed.2
  · have member : m ∈ net.flight := List.mem_of_getElem? found
    have allowedHere := allowed m.dst.1
    rw [act_stp_self] at allowedHere
    have handled := handle m member (messages m member) (switches m.dst.1) allowedHere
    exact after { net with flight := net.flight.eraseIdx k } m.dst.1 _ rfl
      (fun m' inFlight => messages m' (List.mem_of_mem_eraseIdx inFlight)) handled.1 handled.2

/-- All costs are below 2^31.  A sum that reaches it is a negative `int`. -/
def CostsBelow (net : Network T) : Prop :=
  ∀ s, (0 ≤ (net.stp s).rootPathCost ∧ (net.stp s).rootPathCost < 2147483648) ∧
    ∀ i, 0 ≤ ((net.stp s).ports i).designatedCost ∧
      ((net.stp s).ports i).designatedCost < 2147483648

omit [DecidableEq ι] in
instance [Fintype ι] : DecidablePred (CostsBelow (T := T)) := fun net =>
  inferInstanceAs (Decidable (∀ s,
    (0 ≤ (net.stp s).rootPathCost ∧ (net.stp s).rootPathCost < 2147483648) ∧
    ∀ i, 0 ≤ ((net.stp s).ports i).designatedCost ∧
      ((net.stp s).ports i).designatedCost < 2147483648))

/-! ## Three switches in a line -/

def lineMac (s : Fin 3) : Mac := ![0, 0, 0, 0, s.val.toUInt8 + 1, 1]

def lineNports : Fin 3 → Nat := ![1, 2, 1]

def lineLink : (Σ s, Fin (lineNports s)) → Option (Σ s, Fin (lineNports s))
  | ⟨0, _⟩ => some ⟨1, ⟨0, by decide⟩⟩
  | ⟨1, i⟩ => if i.val = 0 then some ⟨0, ⟨0, by decide⟩⟩ else some ⟨2, ⟨0, by decide⟩⟩
  | ⟨2, _⟩ => some ⟨1, ⟨1, by decide⟩⟩

def line : Topology (Fin 3) where
  mac := lineMac
  nports := lineNports
  nports_le := by decide
  link := lineLink
  link_symm := by decide
  link_ne := by decide
  switchId_injective := by decide

instance : DecidableRel line.Adj := fun u v =>
  inferInstanceAs (Decidable (∃ (i : Fin (lineNports u)) (j : Fin (lineNports v)),
    lineLink ⟨u, i⟩ = some ⟨v, j⟩))

theorem line_connected : ∀ u v, ∃ n, Walk line.Adj n u v := by
  have within : ∀ u v : Fin 3, Walk line.Adj (max u.val v.val - min u.val v.val) u v := by decide
  exact fun u v => ⟨_, within u v⟩

end NetworkLab.SpanningTree
