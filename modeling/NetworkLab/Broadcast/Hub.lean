import Mathlib.Algebra.BigOperators.Group.Finset.Basic
import Mathlib.Algebra.GroupWithZero.Nat
import Mathlib.Data.Fintype.Sigma
import NetworkLab.Lib.Cabling
import NetworkLab.Lib.InFlight
import NetworkLab.Lib.Run
import NetworkLab.Switching.LearningSwitch

/-!
# A network of hubs

`fd_to_iface`, `broadcast_packet`, `handle_packet` and one round of `ustack_run` of the hub in
`04-broadcast`, and the copies of one packet on the cables between hubs.  A host is a device
with one interface: what it receives it sends nowhere.
-/
set_option autoImplicit false

namespace NetworkLab.Broadcast

open Lib Lib.Run Relation Switching

/-- The bytes that `recvfrom` puts into the buffer: at least one, and `ETH_FRAME_LEN` at most. -/
abbrev Packet := List UInt8

def fdToIface (ifaceList : IfaceList) (fd : Int) : Option IfaceInfo :=
  ifaceList.ifaces.find? fun iface => iface.fd = fd

def broadcastPacket (ifaceList : IfaceList) (iface : IfaceInfo) (packet : Packet) :
    List (IfaceInfo × Packet) :=
  (ifaceList.ifaces.filter fun out => out.fd ≠ iface.fd).map fun out => (out, packet)

def handlePacket (ifaceList : IfaceList) (iface : IfaceInfo) (packet : Packet) :
    List (IfaceInfo × Packet) :=
  broadcastPacket ifaceList iface packet

/-- What `ustack_run` sends for a packet on the socket `fd`.  The socket captures the packets
that the device sends itself too (`outgoing`).  `none` is a null pointer in `handle_packet`. -/
def ustackRun (ifaceList : IfaceList) (fd : Int) (outgoing : Bool) (packet : Packet) :
    Option (List (IfaceInfo × Packet)) :=
  if packet.length = 0 then some []
  else if outgoing then some []
  else (fdToIface ifaceList fd).map fun iface => handlePacket ifaceList iface packet

structure Plant (Device : Type) where
  ifaceList : Device → IfaceList
  cable : Device × Int → Option (Device × Int)
  cable_symm : ∀ p q, cable p = some q → cable q = some p
  cable_ne : ∀ p, cable p ≠ some p
  cable_iface : ∀ p q, cable p = some q → ∃ iface ∈ (ifaceList p.1).ifaces, iface.fd = p.2

variable {Device : Type}

namespace Plant

def cabling (T : Plant Device) : Cabling Device (Device × Int) where
  device := Prod.fst
  cable := T.cable
  cable_symm := T.cable_symm
  cable_ne := T.cable_ne

def ports [Fintype Device] (T : Plant Device) : Nat := ∑ d, (T.ifaceList d).ifaces.length

end Plant

/-- What is sent out of interfaces without a cable goes nowhere. -/
def emit {Data : Type} (T : Plant Device) (d : Device) (sent : List (IfaceInfo × Data)) :
    List ((Device × Int) × Data) :=
  (sent.filter fun out => (T.cable (d, out.1.fd)).isSome).map fun out => ((d, out.1.fd), out.2)

/-- A copy of the packet, with the port by which it left. -/
abbrev Copy (Device : Type) := (Device × Int) × Packet

structure Network (Device : Type) where
  inFlight : List (Copy Device)
  received : List (Copy Device)
  lost : List (Copy Device)

/-- The source has sent the packet out of all its interfaces: a host has only one. -/
def start (T : Plant Device) (source : Device) (packet : Packet) : Network Device where
  inFlight := emit T source ((T.ifaceList source).ifaces.map fun out => (out, packet))
  received := []
  lost := []

inductive Event
  | deliver (k : Nat)
  | lose (k : Nat)

def Event.Delivers : Event → Prop
  | .deliver _ => True
  | .lose _ => False

def step (T : Plant Device) (net : Network Device) : Event → Option (Network Device)
  | .deliver k => do
    let copy ← net.inFlight[k]?
    let port ← T.cable copy.1
    let sent ← ustackRun (T.ifaceList port.1) port.2 false copy.2
    some { net with
      inFlight := net.inFlight.eraseIdx k ++ emit T port.1 sent
      received := net.received ++ [copy] }
  | .lose k => do
    let copy ← net.inFlight[k]?
    some { net with inFlight := net.inFlight.eraseIdx k, lost := net.lost ++ [copy] }

/-- The copies that came to a device. -/
def Network.arrivals [DecidableEq Device] (T : Plant Device) (net : Network Device) (d : Device) :
    List (Copy Device) :=
  net.received.filter fun copy => (T.cable copy.1).any fun port => port.1 = d

/-! ## What a device sends on -/

theorem fdToIface_of_cable (T : Plant Device) {p q : Device × Int} (joined : T.cable p = some q) :
    ∃ iface, fdToIface (T.ifaceList p.1) p.2 = some iface ∧ iface.fd = p.2 := by
  obtain ⟨iface, here, socket⟩ := T.cable_iface p q joined
  have found : (fdToIface (T.ifaceList p.1) p.2).isSome := by
    unfold fdToIface
    rw [List.find?_isSome]
    exact ⟨iface, here, by simp [socket]⟩
  obtain ⟨other, isFound⟩ := Option.isSome_iff_exists.mp found
  exact ⟨other, isFound, by simpa using List.find?_some isFound⟩

theorem emit_mem {Data : Type} {T : Plant Device} {d : Device} {sent : List (IfaceInfo × Data)}
    {copy : (Device × Int) × Data} : copy ∈ emit T d sent ↔
      copy.1.1 = d ∧ (T.cable copy.1).isSome ∧
        ∃ out, (out, copy.2) ∈ sent ∧ out.fd = copy.1.2 := by
  obtain ⟨⟨device, fd⟩, data⟩ := copy
  simp only [emit, List.mem_map, List.mem_filter, Prod.exists, Prod.mk.injEq]
  constructor
  · rintro ⟨out, data', ⟨sentHere, joined⟩, ⟨rfl, rfl⟩, rfl⟩
    exact ⟨rfl, joined, out, sentHere, rfl⟩
  · rintro ⟨rfl, joined, out, sentHere, rfl⟩
    exact ⟨out, data, ⟨sentHere, joined⟩, ⟨rfl, rfl⟩, rfl⟩

theorem emit_nodup (T : Plant Device) (d : Device) {sent : List (IfaceInfo × Packet)}
    (sockets : (sent.map fun out => out.1.fd).Nodup) : ((emit T d sent).map Prod.fst).Nodup := by
  have ports : (emit T d sent).map Prod.fst =
      ((sent.filter fun out => (T.cable (d, out.1.fd)).isSome).map fun out => out.1.fd).map
        fun fd => (d, fd) := by
    simp [emit]
  rw [ports]
  have kept := (List.filter_sublist (p := fun out => (T.cable (d, out.1.fd)).isSome)
    (l := sent)).map fun out => out.1.fd
  exact (kept.nodup sockets).map fun fd other same => congrArg Prod.snd same

theorem start_mem {T : Plant Device} {source : Device} {packet : Packet} {copy : Copy Device} :
    copy ∈ (start T source packet).inFlight ↔
      copy.1.1 = source ∧ (T.cable copy.1).isSome ∧ copy.2 = packet := by
  obtain ⟨port, packet'⟩ := copy
  simp only [start, emit_mem, List.mem_map, Prod.mk.injEq]
  constructor
  · rintro ⟨onSource, joined, out, ⟨-, -, -, rfl⟩, -⟩
    exact ⟨onSource, joined, rfl⟩
  · rintro ⟨rfl, joined, rfl⟩
    obtain ⟨q, isPort⟩ := Option.isSome_iff_exists.mp joined
    obtain ⟨iface, here, socket⟩ := T.cable_iface port q isPort
    exact ⟨rfl, joined, iface, ⟨iface, here, rfl, rfl⟩, socket⟩

theorem start_nodup (T : Plant Device) (source : Device) (packet : Packet) :
    ((start T source packet).inFlight.map Prod.fst).Nodup := by
  apply emit_nodup
  rw [List.map_map]
  exact (T.ifaceList source).sockets

structure SendsOn (T : Plant Device) (copy : Copy Device) (sent : List (Copy Device)) : Prop where
  mem_iff : ∀ next, next ∈ sent ↔
    T.cabling.Onward copy.1 next.1 ∧ (T.cable next.1).isSome ∧ next.2 = copy.2
  nodup : (sent.map Prod.fst).Nodup

theorem ustackRun_sendsOn (T : Plant Device) {copy : Copy Device} {q : Device × Int}
    (frame : copy.2 ≠ []) (joined : T.cable copy.1 = some q) :
    ∃ sent, ustackRun (T.ifaceList q.1) q.2 false copy.2 = some sent ∧
      SendsOn T copy (emit T q.1 sent) := by
  obtain ⟨iface, found, socket⟩ := fdToIface_of_cable T (T.cable_symm _ _ joined)
  have nonempty : copy.2.length ≠ 0 := by simpa using frame
  refine ⟨handlePacket (T.ifaceList q.1) iface copy.2, ?_, ?_, ?_⟩
  · rw [ustackRun, if_neg nonempty, found]
    rfl
  · rintro ⟨next, packet⟩
    simp only [emit_mem, handlePacket, broadcastPacket, List.mem_map, List.mem_filter,
      decide_eq_true_eq, Prod.mk.injEq, socket]
    constructor
    · rintro ⟨onDevice, cabled, out, ⟨_, ⟨_, other⟩, rfl, rfl⟩, outSocket⟩
      refine ⟨⟨q, joined, onDevice, ?_⟩, cabled, rfl⟩
      rintro rfl
      exact other outSocket
    · rintro ⟨⟨q', joined', onDevice, other⟩, cabled, rfl⟩
      cases Option.some.inj (joined.symm.trans joined')
      obtain ⟨far, isPort⟩ := Option.isSome_iff_exists.mp cabled
      obtain ⟨out, here, outSocket⟩ := T.cable_iface next far isPort
      have sameDevice : next.1 = q.1 := onDevice
      rw [sameDevice] at here
      refine ⟨onDevice, cabled, out, ⟨out, ⟨here, ?_⟩, rfl, rfl⟩, outSocket⟩
      intro same
      exact other (Prod.ext onDevice (outSocket.symm.trans same))
  · apply emit_nodup
    rw [handlePacket, broadcastPacket, List.map_map]
    exact ((List.filter_sublist.map _).nodup (T.ifaceList q.1).sockets)

/-! ## One step -/

section Step

variable {T : Plant Device} {net next : Network Device}

theorem step_cases {event : Event} (frames : ∀ copy ∈ net.inFlight, copy.2 ≠ [])
    (taken : step T net event = some next) :
    (∃ k copy sent, event = .deliver k ∧ net.inFlight[k]? = some copy ∧ SendsOn T copy sent ∧
      next = { net with
        inFlight := net.inFlight.eraseIdx k ++ sent
        received := net.received ++ [copy] }) ∨
    (∃ k copy, event = .lose k ∧ net.inFlight[k]? = some copy ∧
      next = { net with inFlight := net.inFlight.eraseIdx k, lost := net.lost ++ [copy] }) := by
  cases event with
  | deliver k =>
      simp only [step, Option.bind_eq_bind, Option.bind_eq_some_iff] at taken
      obtain ⟨copy, here, q, joined, sent, runs, result⟩ := taken
      have frame := frames copy (List.mem_of_getElem? here)
      obtain ⟨sent', runs', sendsOn⟩ := ustackRun_sendsOn T frame joined
      cases Option.some.inj (runs.symm.trans runs')
      exact Or.inl ⟨k, copy, _, rfl, here, sendsOn, (Option.some.inj result).symm⟩
  | lose k =>
      simp only [step, Option.bind_eq_bind, Option.bind_eq_some_iff] at taken
      obtain ⟨copy, here, result⟩ := taken
      exact Or.inr ⟨k, copy, rfl, here, (Option.some.inj result).symm⟩

theorem exists_deliver {copy : Copy Device} {rest : List (Copy Device)}
    (flying : net.inFlight = copy :: rest) (frame : copy.2 ≠ [])
    (cabled : (T.cable copy.1).isSome) : ∃ next, step T net (.deliver 0) = some next := by
  obtain ⟨q, joined⟩ := Option.isSome_iff_exists.mp cabled
  obtain ⟨sent, runs, -⟩ := ustackRun_sendsOn T frame joined
  simp [step, flying, joined, runs]

end Step

/-! ## Copies on their way from the source -/

/-- The copies made so far: those on cables, those received and those lost. -/
def Network.copies (net : Network Device) : List (Copy Device) :=
  net.inFlight ++ net.received ++ net.lost

/-- Every copy is the packet, left by a port on a way from the source, and was sent by the source
or by a device that had received one; no port is used twice. -/
structure Spreading (T : Plant Device) (source : Device) (packet : Packet)
    (net : Network Device) : Prop where
  onWay : ∀ copy ∈ net.copies, T.cabling.Leaves source copy.1 ∧ (T.cable copy.1).isSome ∧
    copy.2 = packet
  caused : ∀ copy ∈ net.copies, copy.1.1 = source ∨
    ∃ cause ∈ net.received, T.cabling.Enters cause.1 copy.1.1
  once : (net.copies.map Prod.fst).Nodup

theorem start_spreading (T : Plant Device) (source : Device) (packet : Packet) :
    Spreading T source packet (start T source packet) := by
  have copies : (start T source packet).copies = (start T source packet).inFlight := by
    simp [Network.copies, start]
  refine ⟨?_, ?_, ?_⟩
  · intro copy member
    rw [copies, start_mem] at member
    obtain ⟨onSource, cabled, same⟩ := member
    exact ⟨onSource ▸ Cabling.Leaves.first (C := T.cabling) copy.1, cabled, same⟩
  · intro copy member
    rw [copies, start_mem] at member
    exact Or.inl member.1
  · rw [copies]
    exact start_nodup T source packet

section Steps

variable {T : Plant Device} {source : Device} {packet : Packet} {net next : Network Device}

theorem Spreading.frames (spreading : Spreading T source packet net) (frame : packet ≠ []) :
    ∀ copy ∈ net.inFlight, copy.2 ≠ [] := by
  intro copy flying
  have member : copy ∈ net.copies := by simp [Network.copies, flying]
  rw [(spreading.onWay copy member).2.2]
  exact frame

/-- When a copy comes to a device, no copy was there before. -/
theorem Spreading.first_arrival (spreading : Spreading T source packet net)
    (loopFree : T.cabling.LoopFree source) {copy other : Copy Device} {d : Device}
    (flying : copy ∈ net.inFlight) (enters : T.cabling.Enters copy.1 d)
    (received : other ∈ net.received) : ¬ T.cabling.Enters other.1 d := by
  intro again
  have way := (spreading.onWay copy (by simp [Network.copies, flying])).1
  have way' := (spreading.onWay other (by simp [Network.copies, received])).1
  have same := loopFree.entry_unique way way' enters again
  have once := spreading.once
  simp only [Network.copies, List.map_append, List.nodup_append] at once
  exact once.1.2.2 copy.1 (List.mem_map_of_mem flying) other.1 (List.mem_map_of_mem received) same

theorem Spreading.fresh (spreading : Spreading T source packet net)
    (loopFree : T.cabling.LoopFree source) {copy other onward : Copy Device}
    (flying : copy ∈ net.inFlight) (goesOn : T.cabling.Onward copy.1 onward.1)
    (member : other ∈ net.copies) : other.1 ≠ onward.1 := by
  intro same
  have enters : T.cabling.Enters copy.1 onward.1.1 := goesOn.enters
  rcases spreading.caused other member with onSource | ⟨cause, received, again⟩
  · have way := (spreading.onWay copy (by simp [Network.copies, flying])).1
    rw [← same, onSource] at enters
    exact loopFree.source_not_entered way enters
  · rw [same] at again
    exact spreading.first_arrival loopFree flying enters received again

theorem deliver_copies {copy : Copy Device} {k : Nat} (sent : List (Copy Device))
    (here : net.inFlight[k]? = some copy) :
    (({ net with
        inFlight := net.inFlight.eraseIdx k ++ sent
        received := net.received ++ [copy] } : Network Device).copies).Perm
      (net.copies ++ sent) := by
  classical
  have taken := perm_eraseIdx_append here
  rw [List.perm_iff_count] at taken ⊢
  intro other
  have count := taken other
  simp only [Network.copies, List.count_append] at count ⊢
  omega

theorem lose_copies {copy : Copy Device} {k : Nat} (here : net.inFlight[k]? = some copy) :
    (({ net with
        inFlight := net.inFlight.eraseIdx k
        lost := net.lost ++ [copy] } : Network Device).copies).Perm net.copies := by
  classical
  have taken := perm_eraseIdx_append here
  rw [List.perm_iff_count] at taken ⊢
  intro other
  have count := taken other
  simp only [Network.copies, List.count_append] at count ⊢
  omega

theorem step_spreading {event : Event} (spreading : Spreading T source packet net)
    (frame : packet ≠ []) (loopFree : T.cabling.LoopFree source)
    (taken : step T net event = some next) : Spreading T source packet next := by
  rcases step_cases (spreading.frames frame) taken with
    ⟨k, copy, sent, -, here, sendsOn, rfl⟩ | ⟨k, copy, -, here, rfl⟩
  · have perm := deliver_copies sent here
    have flying := List.mem_of_getElem? here
    have member : copy ∈ net.copies := by simp [Network.copies, flying]
    obtain ⟨way, -, isPacket⟩ := spreading.onWay copy member
    refine ⟨?_, ?_, ?_⟩
    · intro other otherMember
      rcases List.mem_append.mp (perm.mem_iff.mp otherMember) with old | new
      · exact spreading.onWay other old
      · obtain ⟨onward, cabled, same⟩ := (sendsOn.mem_iff other).mp new
        exact ⟨way.next onward, cabled, same.trans isPacket⟩
    · intro other otherMember
      rcases List.mem_append.mp (perm.mem_iff.mp otherMember) with old | new
      · rcases spreading.caused other old with onSource | ⟨cause, received, enters⟩
        · exact Or.inl onSource
        · exact Or.inr ⟨cause, List.mem_append_left _ received, enters⟩
      · obtain ⟨onward, -, -⟩ := (sendsOn.mem_iff other).mp new
        exact Or.inr ⟨copy, by simp, onward.enters⟩
    · rw [(perm.map Prod.fst).nodup_iff, List.map_append, List.nodup_append]
      refine ⟨spreading.once, sendsOn.nodup, ?_⟩
      rintro port used port' new
      obtain ⟨other, otherMember, rfl⟩ := List.mem_map.mp used
      obtain ⟨onward, onwardSent, rfl⟩ := List.mem_map.mp new
      exact spreading.fresh loopFree flying ((sendsOn.mem_iff onward).mp onwardSent).1 otherMember
  · have perm := lose_copies here
    refine ⟨?_, ?_, ?_⟩
    · intro other member
      exact spreading.onWay other (perm.mem_iff.mp member)
    · intro other member
      exact spreading.caused other (perm.mem_iff.mp member)
    · exact (perm.map Prod.fst).nodup_iff.mpr spreading.once

theorem run_spreading {final : Network Device} (events : List Event) (frame : packet ≠ [])
    (loopFree : T.cabling.LoopFree source)
    (success : run (step T) (start T source packet) events = some final) :
    Spreading T source packet final :=
  invariant_run (step T)
    (fun _ _ _ spreading taken => step_spreading spreading frame loopFree taken) events
    (start_spreading T source packet) success

end Steps

/-! ## Everything is reached -/

/-- Nothing is lost, and every port of a way from the source has been used, or a copy that
is on a cable leads there. -/
structure Complete (T : Plant Device) (source : Device) (packet : Packet)
    (net : Network Device) : Prop where
  frames : ∀ copy ∈ net.inFlight, copy.2 = packet ∧ (T.cable copy.1).isSome
  noneLost : net.lost = []
  covers : ∀ p, T.cabling.Leaves source p → (T.cable p).isSome →
    (∃ copy ∈ net.received, copy.1 = p) ∨
      ∃ copy ∈ net.inFlight, ReflTransGen T.cabling.Onward copy.1 p

theorem start_complete (T : Plant Device) (source : Device) (packet : Packet) :
    Complete T source packet (start T source packet) := by
  refine ⟨fun copy flying => ?_, rfl, ?_⟩
  · obtain ⟨-, cabled, same⟩ := start_mem.mp flying
    exact ⟨same, cabled⟩
  · rintro p ⟨first, fromSource, way⟩ cabled
    have firstCabled : (T.cable first).isSome := by
      rcases ReflTransGen.cases_head way with rfl | ⟨_, ⟨q, joined, -⟩, -⟩
      · exact cabled
      · exact Option.isSome_iff_exists.mpr ⟨q, joined⟩
    exact Or.inr ⟨(first, packet), start_mem.mpr ⟨fromSource, firstCabled, rfl⟩, way⟩

section Steps

variable {T : Plant Device} {source : Device} {packet : Packet} {net next : Network Device}

theorem step_complete {event : Event} (complete : Complete T source packet net)
    (frame : packet ≠ []) (delivers : event.Delivers) (taken : step T net event = some next) :
    Complete T source packet next := by
  have frames : ∀ copy ∈ net.inFlight, copy.2 ≠ [] := by
    intro copy flying
    rw [(complete.frames copy flying).1]
    exact frame
  rcases step_cases frames taken with
    ⟨k, copy, sent, -, here, sendsOn, rfl⟩ | ⟨k, copy, rfl, -, -⟩
  · have flying := List.mem_of_getElem? here
    refine ⟨?_, complete.noneLost, ?_⟩
    · intro other member
      rcases List.mem_append.mp member with old | new
      · exact complete.frames other (List.mem_of_mem_eraseIdx old)
      · obtain ⟨-, cabled, same⟩ := (sendsOn.mem_iff other).mp new
        exact ⟨same.trans (complete.frames copy flying).1, cabled⟩
    · intro p leaves cabled
      rcases complete.covers p leaves cabled with ⟨other, received, port⟩ | ⟨other, onCable, way⟩
      · exact Or.inl ⟨other, List.mem_append_left _ received, port⟩
      · rcases mem_eraseIdx_append here onCable with stays | rfl
        · exact Or.inr ⟨other, List.mem_append_left _ stays, way⟩
        · rcases ReflTransGen.cases_head way with rfl | ⟨w, onward, rest⟩
          · exact Or.inl ⟨other, by simp, rfl⟩
          · have wCabled : (T.cable w).isSome := by
              rcases ReflTransGen.cases_head rest with rfl | ⟨_, ⟨q, joined, -⟩, -⟩
              · exact cabled
              · exact Option.isSome_iff_exists.mpr ⟨q, joined⟩
            have isSent := (sendsOn.mem_iff (w, other.2)).mpr ⟨onward, wCabled, rfl⟩
            exact Or.inr ⟨(w, other.2), List.mem_append_right _ isSent, rest⟩
  · exact delivers.elim

theorem run_complete {final : Network Device} (events : List Event) (frame : packet ≠ [])
    (delivers : ∀ event ∈ events, event.Delivers)
    (success : run (step T) (start T source packet) events = some final) :
    Complete T source packet final :=
  invariant_guarded_run (step T)
    (fun _ _ _ complete condition taken => step_complete complete frame condition taken) events
    (start_complete T source packet) (guarded_of_forall (step T) events delivers) success

end Steps

/-! ## Once to every device -/

variable [DecidableEq Device]

theorem mem_arrivals {T : Plant Device} {net : Network Device} {d : Device} {copy : Copy Device} :
    copy ∈ net.arrivals T d ↔ copy ∈ net.received ∧ T.cabling.Enters copy.1 d := by
  rw [Network.arrivals, List.mem_filter, Option.any_eq_true_iff_get]
  refine and_congr_right fun _ => ?_
  cases joined : T.cable copy.1 <;> simp [Cabling.Enters, Plant.cabling, joined]

theorem Spreading.arrivals_le_one {T : Plant Device} {source : Device} {packet : Packet}
    {net : Network Device} (spreading : Spreading T source packet net)
    (loopFree : T.cabling.LoopFree source) (d : Device) : (net.arrivals T d).length ≤ 1 := by
  have ports : ((net.arrivals T d).map Prod.fst).Nodup := by
    have part : (net.arrivals T d).Sublist net.copies := by
      refine List.filter_sublist.trans ?_
      exact (List.sublist_append_right _ _).trans (List.sublist_append_left _ _)
    exact (part.map Prod.fst).nodup spreading.once
  match arrivals : net.arrivals T d with
  | [] => exact Nat.zero_le 1
  | [_] => exact Nat.le_refl 1
  | copy :: other :: rest =>
      have first := mem_arrivals.mp (arrivals ▸ List.mem_cons_self : copy ∈ net.arrivals T d)
      have second := mem_arrivals.mp
        (arrivals ▸ List.mem_cons_of_mem _ List.mem_cons_self : other ∈ net.arrivals T d)
      have way := (spreading.onWay copy (by simp [Network.copies, first.1])).1
      have way' := (spreading.onWay other (by simp [Network.copies, second.1])).1
      have same := loopFree.entry_unique way way' first.2 second.2
      rw [arrivals] at ports
      simp [same] at ports

/-- In a plant without loops, a packet that a device sends comes to every other device at most
once and not back to its source, unchanged; and exactly once to every device with a chain of
cables to the source, when nothing is lost and no copy is left on a cable. -/
theorem flooded_once (T : Plant Device) (source : Device) (packet : Packet) (frame : packet ≠ [])
    (loopFree : T.cabling.LoopFree source) (events : List Event) (final : Network Device)
    (success : run (step T) (start T source packet) events = some final) :
    (∀ d, (final.arrivals T d).length ≤ 1) ∧ final.arrivals T source = [] ∧
    (∀ copy ∈ final.copies, copy.2 = packet) ∧
    ((∀ event ∈ events, event.Delivers) → final.inFlight = [] →
      ∀ d, d ≠ source → ReflTransGen T.cabling.Adjacent source d →
        (final.arrivals T d).length = 1) := by
  have spreading := run_spreading events frame loopFree success
  refine ⟨spreading.arrivals_le_one loopFree, ?_, ?_, ?_⟩
  · rw [List.eq_nil_iff_forall_not_mem]
    intro copy member
    obtain ⟨received, enters⟩ := mem_arrivals.mp member
    have way := (spreading.onWay copy (by simp [Network.copies, received])).1
    exact loopFree.source_not_entered way enters
  · exact fun copy member => (spreading.onWay copy member).2.2
  · intro delivers quiet d other connected
    have complete := run_complete events frame delivers success
    obtain ⟨p, leaves, q, joined, onDevice⟩ := Cabling.exists_enters connected other
    have cabled : (T.cable p).isSome := Option.isSome_iff_exists.mpr ⟨q, joined⟩
    rcases complete.covers p leaves cabled with ⟨copy, received, port⟩ | ⟨copy, flying, -⟩
    · have member : copy ∈ final.arrivals T d :=
        mem_arrivals.mpr ⟨received, q, port ▸ joined, onDevice⟩
      have atMost := spreading.arrivals_le_one loopFree d
      have atLeast := List.length_pos_of_mem member
      omega
    · rw [quiet] at flying
      cases flying

/-! ## Storms -/

section Storm

variable {T : Plant Device} {source : Device} {packet : Packet} {net next : Network Device}

omit [DecidableEq Device] in
theorem run_length {net final : Network Device} (events : List Event)
    (success : run (step T) net events = some final) :
    final.received.length + final.lost.length =
      net.received.length + net.lost.length + events.length := by
  induction events generalizing net with
  | nil =>
      cases Option.some.inj success
      simp
  | cons event rest ih =>
      obtain ⟨next, taken, later⟩ := run_cons_some (step T) success
      have counted : next.received.length + next.lost.length =
          net.received.length + net.lost.length + 1 := by
        cases event with
        | deliver k =>
            simp only [step, Option.bind_eq_bind, Option.bind_eq_some_iff] at taken
            obtain ⟨copy, -, q, -, sent, -, result⟩ := taken
            cases Option.some.inj result
            simp only [List.length_append, List.length_singleton]
            omega
        | lose k =>
            simp only [step, Option.bind_eq_bind, Option.bind_eq_some_iff] at taken
            obtain ⟨copy, -, result⟩ := taken
            cases Option.some.inj result
            simp only [List.length_append, List.length_singleton]
            omega
      rw [ih later, counted, List.length_cons]
      omega

omit [DecidableEq Device] in
theorem Spreading.copies_le [Fintype Device] (spreading : Spreading T source packet net) :
    net.copies.length ≤ T.ports := by
  let all : List (Device × Int) := Finset.univ.toList.flatMap fun d =>
    (T.ifaceList d).ifaces.map fun iface => (d, iface.fd)
  have within : net.copies.map Prod.fst ⊆ all := by
    intro port used
    obtain ⟨copy, member, rfl⟩ := List.mem_map.mp used
    obtain ⟨q, joined⟩ := Option.isSome_iff_exists.mp (spreading.onWay copy member).2.1
    obtain ⟨iface, here, socket⟩ := T.cable_iface copy.1 q joined
    refine List.mem_flatMap.mpr ⟨copy.1.1, by simp, List.mem_map.mpr ⟨iface, here, ?_⟩⟩
    exact Prod.ext rfl socket
  have fewer := (spreading.once.subperm within).length_le
  simpa [all, Plant.ports, List.length_flatMap, Finset.sum_map_toList] using fewer

omit [DecidableEq Device] in
theorem step_endless {event : Event} (frames : ∀ copy ∈ net.inFlight, copy.2 ≠ [])
    (delivers : event.Delivers) (taken : step T net event = some next)
    (endless : ∃ copy ∈ net.inFlight, T.cabling.Endless copy.1) :
    ∃ copy ∈ next.inFlight, T.cabling.Endless copy.1 := by
  obtain ⟨copy, flying, goesOn⟩ := endless
  rcases step_cases frames taken with
    ⟨k, taken, sent, -, here, sendsOn, rfl⟩ | ⟨k, copy, rfl, -, -⟩
  · rcases mem_eraseIdx_append here flying with stays | rfl
    · exact ⟨copy, List.mem_append_left _ stays, goesOn⟩
    · obtain ⟨onward, leads, endless⟩ := goesOn.next
      obtain ⟨-, ⟨q, joined, -⟩, -⟩ := endless.next
      have isSent := (sendsOn.mem_iff (onward, copy.2)).mpr
        ⟨leads, Option.isSome_iff_exists.mpr ⟨q, joined⟩, rfl⟩
      exact ⟨(onward, copy.2), List.mem_append_right _ isSent, endless⟩
  · exact delivers.elim

omit [DecidableEq Device] in
/-- Without loops, delivering the copies one after the other comes to an end. -/
theorem exists_quiet [Fintype Device] (frame : packet ≠ []) (loopFree : T.cabling.LoopFree source)
    (spreading : Spreading T source packet net) (complete : Complete T source packet net) :
    ∃ events final, (∀ event ∈ events, Event.Delivers event) ∧
      run (step T) net events = some final ∧ final.inFlight = [] := by
  induction left : T.ports - net.received.length using Nat.strong_induction_on
    generalizing net with
  | _ left ih =>
      cases flying : net.inFlight with
      | nil => exact ⟨[], net, by simp, rfl, flying⟩
      | cons copy rest =>
          have member : copy ∈ net.inFlight := flying ▸ List.mem_cons_self
          obtain ⟨next, taken⟩ := exists_deliver flying (spreading.frames frame copy member)
            (complete.frames copy member).2
          have counted := run_length (T := T) [.deliver 0] (by simpa using taken)
          have spreads := step_spreading spreading frame loopFree taken
          have completes := step_complete complete frame (show (Event.deliver 0).Delivers from trivial) taken
          have bound := spreads.copies_le
          simp only [complete.noneLost, completes.noneLost, List.length_nil, List.length_singleton]
            at counted
          simp only [Network.copies, List.length_append] at bound
          obtain ⟨events, final, delivers, success, quiet⟩ :=
            ih (T.ports - next.received.length) (by omega) spreads completes rfl
          refine ⟨.deliver 0 :: events, final, ?_, ?_, quiet⟩
          · intro event member
            rcases List.mem_cons.mp member with rfl | later
            · trivial
            · exact delivers event later
          · rw [run_cons, taken]
            exact success

omit [DecidableEq Device] in
/-- Where there is a loop, a packet that gets into it is never off the cables. -/
theorem run_endless {final : Network Device} (events : List Event) (frame : packet ≠ [])
    (loops : ¬ T.cabling.LoopFree source) (delivers : ∀ event ∈ events, event.Delivers)
    (success : run (step T) (start T source packet) events = some final) :
    final.inFlight ≠ [] := by
  obtain ⟨first, onSource, endless⟩ := Cabling.exists_endless loops
  obtain ⟨-, ⟨q, joined, -⟩, -⟩ := endless.next
  have cabled : (T.cable first).isSome := Option.isSome_iff_exists.mpr ⟨q, joined⟩
  have initially : Complete T source packet (start T source packet) ∧
      ∃ copy ∈ (start T source packet).inFlight, T.cabling.Endless copy.1 :=
    ⟨start_complete T source packet,
      (first, packet), start_mem.mpr ⟨onSource, cabled, rfl⟩, endless⟩
  have stays (net : Network Device) (event : Event) (next : Network Device)
      (holds : Complete T source packet net ∧ ∃ copy ∈ net.inFlight, T.cabling.Endless copy.1)
      (condition : event.Delivers) (taken : step T net event = some next) :
      Complete T source packet next ∧ ∃ copy ∈ next.inFlight, T.cabling.Endless copy.1 := by
    have frames : ∀ copy ∈ net.inFlight, copy.2 ≠ [] :=
      fun copy flying => (holds.1.frames copy flying).1 ▸ frame
    exact ⟨step_complete holds.1 frame condition taken,
      step_endless frames condition taken holds.2⟩
  have kept := invariant_guarded_run (step T) stays events initially
    (guarded_of_forall (step T) events delivers) success
  obtain ⟨-, copy, flying, -⟩ := kept
  exact List.ne_nil_of_mem flying

end Storm

omit [DecidableEq Device] in
/-- A packet dies out exactly when no loop of cables can be reached from its source: then
no order of deliveries takes more steps than there are interfaces; otherwise, as long as nothing
is lost, copies are on the cables forever. -/
theorem storm_iff_loop [Fintype Device] (T : Plant Device) (source : Device) (packet : Packet)
    (frame : packet ≠ []) :
    (T.cabling.LoopFree source ↔ ∃ events final, (∀ event ∈ events, Event.Delivers event) ∧
      run (step T) (start T source packet) events = some final ∧ final.inFlight = []) ∧
    (T.cabling.LoopFree source → ∀ events final,
      run (step T) (start T source packet) events = some final → events.length ≤ T.ports) := by
  refine ⟨⟨?_, ?_⟩, ?_⟩
  · intro loopFree
    exact exists_quiet frame loopFree (start_spreading T source packet)
      (start_complete T source packet)
  · rintro ⟨events, final, delivers, success, quiet⟩
    by_contra loops
    exact run_endless events frame loops delivers success quiet
  · intro loopFree events final success
    have counted := run_length events success
    have bound := (run_spreading events frame loopFree success).copies_le
    simp only [Network.copies, List.length_append] at bound
    simp only [start, List.length_nil] at counted
    omega

/-! ## Two hosts on a hub -/

/-- The numbers of three devices. -/
local instance threeNumbers : NeZero 3 := ⟨by decide⟩

def oneHubCable (p : Fin 3 × Int) : Option (Fin 3 × Int) :=
  if p = (0, 3) then some (1, 3) else if p = (1, 3) then some (0, 3)
  else if p = (1, 4) then some (2, 3) else if p = (2, 3) then some (1, 4) else none

def oneHub : Plant (Fin 3) where
  ifaceList
    | 0 => ⟨[⟨3, "h1-eth0"⟩], by decide⟩
    | 1 => ⟨[⟨3, "b1-eth0"⟩, ⟨4, "b1-eth1"⟩], by decide⟩
    | 2 => ⟨[⟨3, "h2-eth0"⟩], by decide⟩
  cable := oneHubCable
  cable_symm := by
    intro p q joined
    unfold oneHubCable at joined
    split_ifs at joined with a b c d <;> cases joined <;> subst_vars <;> decide
  cable_ne := by
    intro p joined
    unfold oneHubCable at joined
    split_ifs at joined with a b c d <;> cases joined <;> simp_all
  cable_iface := by
    intro p q joined
    unfold oneHubCable at joined
    split_ifs at joined with a b c d <;> cases joined <;> subst_vars <;> decide

/-- From a host to the hub, and from the hub to the other host, which has no other port. -/
theorem oneHub_loopFree (source : Fin 3) : oneHub.cabling.LoopFree source := by
  apply Cabling.loopFree_of_rank source fun p : Fin 3 × Int =>
    if oneHubCable p = none then 0 else if p.1 = 1 then 1 else 2
  rintro p ⟨d, fd⟩ ⟨q, joined, onDevice, other⟩
  change oneHubCable p = some q at joined
  change d = q.1 at onDevice
  subst onDevice
  by_cases hub : q.1 = 1
  · have fromHost : p.1 ≠ 1 := by
      unfold oneHubCable at joined
      split_ifs at joined with a b c e <;> cases joined <;> simp_all
    simp only [joined, fromHost, hub, reduceCtorEq, if_false, if_true]
    split_ifs <;> omega
  · have unused : oneHubCable (q.1, fd) = none := by
      unfold oneHubCable at joined ⊢
      split_ifs at joined with a b c e <;> cases joined <;> simp_all [Prod.ext_iff]
    simp only [joined, unused, reduceCtorEq, if_false, if_true]
    split_ifs <;> omega

def relayed : Network (Fin 3) where
  inFlight := []
  received := [((0, 3), [1, 2]), ((1, 4), [1, 2])]
  lost := []

theorem flooded_once_hub : (relayed.arrivals oneHub 2).length = 1 :=
  (flooded_once oneHub 0 [1, 2] (by decide) (oneHub_loopFree 0) [.deliver 0, .deliver 0] relayed
    rfl).2.2.2 (by simp [Event.Delivers]) rfl 2 (by decide)
    (.tail (.single ⟨(0, 3), rfl, (1, 3), rfl, rfl⟩) ⟨(1, 4), rfl, (2, 3), rfl, rfl⟩)

theorem storm_iff_loop_hub : ∃ events final, (∀ event ∈ events, Event.Delivers event) ∧
    run (step oneHub) (start oneHub 0 [1, 2]) events = some final ∧ final.inFlight = [] :=
  (storm_iff_loop oneHub 0 [1, 2] (by decide)).1.mp (oneHub_loopFree 0)

end NetworkLab.Broadcast
