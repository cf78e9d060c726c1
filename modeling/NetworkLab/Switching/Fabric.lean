import NetworkLab.Broadcast.Hub
import NetworkLab.Switching.LearningSwitch

/-!
# Learning switches without loops

Switches that run `handle_packet` of `05-switching`, and the hosts that they connect, over any
time in which no clock goes back: `sweep_aged_mac_port_entry` frees no entry then.  Where the
cables make no loop, every switch on the way to a host knows it when the last one does, so
frames for a host that a switch knows take one way to it.
-/
set_option autoImplicit false

namespace NetworkLab.Switching

open Lib Lib.Run Relation Broadcast

/-- A plant with hosts, each with one interface and an address of its own hash. -/
structure Fabric (Device : Type) extends Plant Device where
  mac : Device → Option Mac
  single : ∀ h m, mac h = some m → (ifaceList h).ifaces.length ≤ 1
  hash_injective : ∀ h g m n, mac h = some m → mac g = some n → hash8 m = hash8 n → h = g

variable {Device : Type}

namespace Fabric

/-- The tables of the switches, the frames on the cables, each with the port by which it left,
and the frames that came to hosts. -/
structure State (Device : Type) where
  tables : Device → HashTable
  inFlight : List ((Device × Int) × Frame)
  received : List ((Device × Int) × Frame)

/-- A host sends a frame from its own address; the frame at a position of `inFlight` arrives at
a time, or is lost. -/
inductive Event (Device : Type)
  | send (h : Device) (etherDhost : Mac) (payload : List UInt8)
  | deliver (k : Nat) (now : Int)
  | lose (k : Nat)

variable [DecidableEq Device] (F : Fabric Device)

/-- `ustack_run` hands the frame to `handle_packet` of a switch. -/
def forward (state : State Device) (port : Device × Int) (frame : Frame) (now : Int) :
    Option (State Device) := do
  let iface ← fdToIface (F.ifaceList port.1) port.2
  let (table, sent) :=
    handlePacket (F.ifaceList port.1) (state.tables port.1) ⟨iface, frame, now⟩
  some { state with
    tables := Function.update state.tables port.1 table
    inFlight := state.inFlight ++ emit F.toPlant port.1 sent }

def step (state : State Device) : Event Device → Option (State Device)
  | .send h etherDhost payload => do
    let m ← F.mac h
    let frame : Frame := ⟨etherDhost, m, payload⟩
    let sent := (F.ifaceList h).ifaces.map fun out => (out, frame)
    some { state with inFlight := state.inFlight ++ emit F.toPlant h sent }
  | .deliver k now => do
    let copy ← state.inFlight[k]?
    let port ← F.cable copy.1
    let rest := { state with inFlight := state.inFlight.eraseIdx k }
    if (F.mac port.1).isSome then some { rest with received := rest.received ++ [copy] }
    else F.forward rest port copy.2 now
  | .lose k => do
    let _ ← state.inFlight[k]?
    some { state with inFlight := state.inFlight.eraseIdx k }

end Fabric

def Fabric.initial : Fabric.State Device where
  tables := fun _ _ => []
  inFlight := []
  received := []

/-! ## The port of an address -/

/-- The address and the port of the entry that a lookup of the address uses. -/
def portFor (table : HashTable) (mac : Mac) : Option (Mac × IfaceInfo) :=
  ((table (hash8 mac)).map MacPortEntry.learned).head?

theorem handlePacket_portFor (ifaceList : IfaceList) (table : HashTable) (arrival : Arrival)
    (mac : Mac) : portFor (handlePacket ifaceList table arrival).1 mac =
      match portFor table mac with
      | some known => some known
      | none =>
        if hash8 mac = hash8 arrival.frame.etherShost then
          some (arrival.frame.etherShost, arrival.iface)
        else none := by
  unfold portFor
  rw [handlePacket_learned]
  cases learned : (table (hash8 mac)).map MacPortEntry.learned with
  | nil =>
      by_cases same : hash8 mac = hash8 arrival.frame.etherShost
      · simp [same]
      · simp [same]
  | cons known rest => simp

theorem handlePacket_sent_portFor (ifaceList : IfaceList) (table : HashTable) (arrival : Arrival) :
    (handlePacket ifaceList table arrival).2 =
      match portFor table arrival.frame.etherDhost with
      | some known => [(known.2, arrival.frame)]
      | none => broadcastPacket ifaceList arrival.iface arrival.frame := by
  have found := lookupPort_found arrival.frame.etherDhost true arrival.now table
  rw [← portFor] at found
  unfold handlePacket
  dsimp only
  rw [found]
  cases portFor table arrival.frame.etherDhost with
  | none => split <;> rfl
  | some known => split <;> rfl

theorem handlePacket_sent_frame (ifaceList : IfaceList) (table : HashTable) (arrival : Arrival)
    {out : IfaceInfo} {frame : Frame}
    (sent : (out, frame) ∈ (handlePacket ifaceList table arrival).2) : frame = arrival.frame := by
  rw [handlePacket_sent_portFor] at sent
  cases known : portFor table arrival.frame.etherDhost with
  | some entry =>
      rw [known] at sent
      exact congrArg Prod.snd (List.mem_singleton.mp sent)
  | none =>
      simp only [known, broadcastPacket, List.mem_map, Prod.mk.injEq] at sent
      obtain ⟨-, -, -, same⟩ := sent
      exact same.symm

namespace Fabric

section Steps

variable {F : Fabric Device} {state next : State Device}

def handledAt [DecidableEq Device] (F : Fabric Device) (state : State Device) (k : Nat)
    (port : Device × Int) (arrival : Arrival) : State Device :=
  let result := handlePacket (F.ifaceList port.1) (state.tables port.1) arrival
  { state with
    tables := Function.update state.tables port.1 result.1
    inFlight := state.inFlight.eraseIdx k ++ emit F.toPlant port.1 result.2 }

/-- What a step does: a host sends, a host or a switch receives, or a frame is lost. -/
theorem step_cases [DecidableEq Device] {event : Event Device}
    (taken : F.step state event = some next) :
    (∃ h m etherDhost payload, F.mac h = some m ∧ next = { state with
        inFlight := state.inFlight ++ emit F.toPlant h
          ((F.ifaceList h).ifaces.map fun out => (out, ⟨etherDhost, m, payload⟩)) }) ∨
    (∃ k copy port, state.inFlight[k]? = some copy ∧ F.cable copy.1 = some port ∧
      F.mac port.1 ≠ none ∧ next = { state with
        inFlight := state.inFlight.eraseIdx k, received := state.received ++ [copy] }) ∨
    (∃ k now copy port iface, event = .deliver k now ∧ state.inFlight[k]? = some copy ∧
      F.cable copy.1 = some port ∧ F.mac port.1 = none ∧
      iface ∈ (F.ifaceList port.1).ifaces ∧ iface.fd = port.2 ∧
      next = F.handledAt state k port ⟨iface, copy.2, now⟩) ∨
    (∃ k copy, event = .lose k ∧ state.inFlight[k]? = some copy ∧
      next = { state with inFlight := state.inFlight.eraseIdx k }) := by
  cases event with
  | send h etherDhost payload =>
      simp only [step, Option.bind_eq_bind, Option.bind_eq_some_iff] at taken
      obtain ⟨m, isHost, result⟩ := taken
      exact Or.inl ⟨h, m, etherDhost, payload, isHost, (Option.some.inj result).symm⟩
  | deliver k now =>
      simp only [step, Option.bind_eq_bind, Option.bind_eq_some_iff] at taken
      obtain ⟨copy, here, port, joined, result⟩ := taken
      split_ifs at result with isHost
      · refine Or.inr (Or.inl ⟨k, copy, port, here, joined, ?_, (Option.some.inj result).symm⟩)
        exact Option.isSome_iff_ne_none.mp isHost
      · simp only [forward, Option.bind_eq_bind, Option.bind_eq_some_iff] at result
        obtain ⟨iface, found, result⟩ := result
        rw [Bool.not_eq_true, Option.isSome_eq_false_iff, Option.isNone_iff_eq_none] at isHost
        have socket : iface.fd = port.2 := by simpa using List.find?_some found
        exact Or.inr (Or.inr (Or.inl ⟨k, now, copy, port, iface, rfl, here, joined, isHost,
          List.mem_of_find?_eq_some found, socket, (Option.some.inj result).symm⟩))
  | lose k =>
      simp only [step, Option.bind_eq_bind, Option.bind_eq_some_iff] at taken
      obtain ⟨copy, here, result⟩ := taken
      exact Or.inr (Or.inr (Or.inr ⟨k, copy, rfl, here, (Option.some.inj result).symm⟩))

end Steps

/-! ## Entries point to the hosts -/

def State.Knows (state : State Device) (d : Device) (m : Mac) : Prop :=
  (portFor (state.tables d) m).isSome

/-- The device is the host, or a switch that knows its address. -/
def State.Aware (state : State Device) (h : Device) (m : Mac) (d : Device) : Prop :=
  d = h ∨ state.Knows d m

/-- The entry of a switch is of the host's address, and its port is the one by which frames from
the host come, from a device that is aware of the host itself. -/
structure PointsTo (F : Fabric Device) (state : State Device) (h : Device) (m : Mac) (d : Device)
    (known : Mac × IfaceInfo) : Prop where
  switch : F.mac d = none
  address : known.1 = m
  iface : known.2 ∈ (F.ifaceList d).ifaces
  back : ∃ p, F.cable p = some (d, known.2.fd) ∧ F.cabling.Leaves h p ∧ state.Aware h m p.1

/-- Every entry points to its host, and every frame on a cable left a device that is aware of the
frame's source. -/
structure Sound (F : Fabric Device) (state : State Device) : Prop where
  entries : ∀ h m, F.mac h = some m → ∀ d known, portFor (state.tables d) m = some known →
    PointsTo F state h m d known
  copies : ∀ copy ∈ state.inFlight, (F.cable copy.1).isSome ∧
    ∃ h, F.mac h = some copy.2.etherShost ∧ state.Aware h copy.2.etherShost copy.1.1

theorem initial_sound (F : Fabric Device) : Sound F initial where
  entries h m _ d known found := by simp [initial, portFor] at found
  copies copy flying := by cases flying

section Sound

variable {F : Fabric Device} {state next : State Device}

/-- A frame that arrives where its source is unknown came on a way from the source. -/
theorem Sound.leaves_source (sound : Sound F state) {copy : (Device × Int) × Frame}
    {port : Device × Int} {h : Device} (isHost : F.mac h = some copy.2.etherShost)
    (aware : state.Aware h copy.2.etherShost copy.1.1) (joined : F.cable copy.1 = some port)
    (unaware : ¬ state.Aware h copy.2.etherShost port.1) : F.cabling.Leaves h copy.1 := by
  rcases aware with onHost | knows
  · rw [← onHost]
    exact Cabling.Leaves.first (C := F.cabling) copy.1
  · obtain ⟨known, isKnown⟩ := Option.isSome_iff_exists.mp knows
    obtain ⟨p, joinedBack, leaves, awareBack⟩ := (sound.entries h _ isHost _ known isKnown).back
    refine leaves.next ⟨_, joinedBack, rfl, ?_⟩
    intro same
    -- the port of the entry leads back to a device that is aware of the host
    have back := F.cable_symm _ _ joinedBack
    rw [← same, joined] at back
    exact unaware (Option.some.inj back ▸ awareBack)

variable [DecidableEq Device]

theorem handledAt_portFor {k : Nat} {port : Device × Int} {arrival : Arrival} (d : Device)
    (m : Mac) : portFor ((F.handledAt state k port arrival).tables d) m =
      match portFor (state.tables d) m with
      | some known => some known
      | none =>
        if d = port.1 ∧ hash8 m = hash8 arrival.frame.etherShost then
          some (arrival.frame.etherShost, arrival.iface)
        else none := by
  by_cases same : d = port.1
  · subst same
    simp only [handledAt, Function.update_self, handlePacket_portFor, true_and]
  · simp only [handledAt, Function.update_of_ne same, same, false_and, if_false]
    cases portFor (state.tables d) m <;> rfl

theorem State.Aware.handledAt {k : Nat} {port : Device × Int} {arrival : Arrival} {h d : Device}
    {m : Mac} (aware : state.Aware h m d) :
    (F.handledAt state k port arrival).Aware h m d := by
  rcases aware with onHost | knows
  · exact Or.inl onHost
  · obtain ⟨known, isKnown⟩ := Option.isSome_iff_exists.mp knows
    right
    rw [State.Knows, handledAt_portFor, isKnown]
    rfl

theorem PointsTo.handledAt {k : Nat} {port : Device × Int} {arrival : Arrival} {h d : Device}
    {m : Mac} {known : Mac × IfaceInfo} (points : PointsTo F state h m d known) :
    PointsTo F (F.handledAt state k port arrival) h m d known := by
  obtain ⟨p, joined, leaves, aware⟩ := points.back
  exact ⟨points.switch, points.address, points.iface, p, joined, leaves, aware.handledAt⟩

theorem handledAt_sound {k : Nat} {now : Int} {copy : (Device × Int) × Frame}
    {port : Device × Int} {iface : IfaceInfo} (sound : Sound F state)
    (here : state.inFlight[k]? = some copy) (joined : F.cable copy.1 = some port)
    (switch : F.mac port.1 = none) (present : iface ∈ (F.ifaceList port.1).ifaces)
    (socket : iface.fd = port.2) : Sound F (F.handledAt state k port ⟨iface, copy.2, now⟩) := by
  obtain ⟨-, source, isSource, aware⟩ := sound.copies copy (List.mem_of_getElem? here)
  refine ⟨?_, ?_⟩
  · intro h m isHost d known found
    rw [handledAt_portFor] at found
    cases before : portFor (state.tables d) m with
    | some old =>
        rw [before] at found
        cases found
        exact (sound.entries h m isHost d _ before).handledAt
    | none =>
        simp only [before, Option.ite_none_right_eq_some, Option.some.injEq] at found
        obtain ⟨⟨rfl, sameHash⟩, rfl⟩ := found
        obtain rfl := F.hash_injective _ _ _ _ isHost isSource sameHash
        obtain rfl := Option.some.inj (isHost.symm.trans isSource)
        have unaware : ¬ state.Aware h copy.2.etherShost port.1 := by
          rintro (onHost | knows)
          · rw [← onHost, switch] at isHost
            cases isHost
          · rw [State.Knows, before] at knows
            cases knows
        refine ⟨switch, rfl, present, copy.1, ?_, sound.leaves_source isHost aware joined unaware,
          aware.handledAt⟩
        rw [joined, socket]
  · intro other member
    rcases List.mem_append.mp member with old | new
    · obtain ⟨cabled, h, isHost, awareOld⟩ := sound.copies other (List.mem_of_mem_eraseIdx old)
      exact ⟨cabled, h, isHost, awareOld.handledAt⟩
    · obtain ⟨onDevice, cabled, out, sent, -⟩ := emit_mem.mp new
      have frame : other.2 = copy.2 := handlePacket_sent_frame _ _ _ sent
      refine ⟨cabled, source, frame ▸ isSource, Or.inr ?_⟩
      rw [State.Knows, handledAt_portFor, onDevice, frame]
      cases portFor (state.tables port.1) copy.2.etherShost <;> simp

theorem step_sound {event : Event Device} (sound : Sound F state)
    (taken : F.step state event = some next) : Sound F next := by
  rcases step_cases taken with ⟨h, m, etherDhost, payload, isHost, rfl⟩ |
    ⟨k, copy, port, here, joined, -, rfl⟩ |
    ⟨k, now, copy, port, iface, -, here, joined, switch, present, socket, rfl⟩ |
    ⟨k, copy, -, -, rfl⟩
  · refine ⟨fun h m isHost d known found => ?_, ?_⟩
    · obtain ⟨switch, address, iface, back⟩ := sound.entries h m isHost d known found
      exact ⟨switch, address, iface, back⟩
    · intro copy member
      rcases List.mem_append.mp member with old | new
      · exact sound.copies copy old
      · obtain ⟨onHost, cabled, out, sent, -⟩ := emit_mem.mp new
        obtain ⟨-, -, -, frame⟩ := by simpa only [List.mem_map, Prod.mk.injEq] using sent
        rw [← frame]
        exact ⟨cabled, h, isHost, Or.inl onHost⟩
  · refine ⟨fun h m isHost d known found => ?_, fun other member => ?_⟩
    · obtain ⟨switch, address, iface, back⟩ := sound.entries h m isHost d known found
      exact ⟨switch, address, iface, back⟩
    · exact sound.copies other (List.mem_of_mem_eraseIdx member)
  · exact handledAt_sound sound here joined switch present socket
  · refine ⟨fun h m isHost d known found => ?_, fun other member => ?_⟩
    · obtain ⟨switch, address, iface, back⟩ := sound.entries h m isHost d known found
      exact ⟨switch, address, iface, back⟩
    · exact sound.copies other (List.mem_of_mem_eraseIdx member)

theorem run_sound {final : State Device} (events : List (Event Device))
    (success : run F.step initial events = some final) : Sound F final :=
  invariant_run F.step (fun _ _ _ sound taken => step_sound sound taken) events
    (initial_sound F) success

theorem step_portFor {event : Event Device} {d : Device} {m : Mac} {known : Mac × IfaceInfo}
    (found : portFor (state.tables d) m = some known) (taken : F.step state event = some next) :
    portFor (next.tables d) m = some known := by
  rcases step_cases taken with ⟨h, m, etherDhost, payload, -, rfl⟩ | ⟨k, copy, port, -, -, -, rfl⟩ |
    ⟨k, now, copy, port, iface, -, -, -, -, -, -, rfl⟩ | ⟨k, copy, -, -, rfl⟩
  · exact found
  · exact found
  · rw [handledAt_portFor, found]
  · exact found

theorem run_portFor {final : State Device} (events : List (Event Device)) {d : Device} {m : Mac}
    {known : Mac × IfaceInfo} (found : portFor (state.tables d) m = some known)
    (success : run F.step state events = some final) : portFor (final.tables d) m = some known :=
  invariant_run F.step (fun _ _ _ found taken => step_portFor found taken) events found success

end Sound

/-! ## The way to a host -/

/-- Ports from device to device, the last of them joined to the host. -/
def RouteTo (F : Fabric Device) (h : Device) : Device → List (Device × Int) → Prop
  | d, [] => d = h
  | d, port :: rest => port.1 = d ∧ ∃ far, F.cable port = some far ∧ RouteTo F h far.1 rest

/-- The entries of the switches along a route lead along it. -/
def Follows (F : Fabric Device) (state : State Device) (m : Mac) (route : List (Device × Int)) :
    Prop :=
  ∀ port ∈ route, F.mac port.1 = none ∧ ∃ known, portFor (state.tables port.1) m = some known ∧
    known.2 ∈ (F.ifaceList port.1).ifaces ∧ known.2.fd = port.2

theorem Sound.exists_route {F : Fabric Device} {state : State Device} (sound : Sound F state)
    {h : Device} {m : Mac} (isHost : F.mac h = some m) (loopFree : F.cabling.LoopFree h) {n : Nat}
    {d : Device} {first p : Device × Int} {known : Mac × IfaceInfo}
    (found : portFor (state.tables d) m = some known)
    (joined : F.cable p = some (d, known.2.fd)) (fromHost : first.1 = h)
    (walk : Walk F.cabling.Onward n first p) :
    ∃ route, RouteTo F h d route ∧ Follows F state m route ∧ (route.map Prod.fst).Nodup ∧
      ∀ port ∈ route, port.1 = d ∨
        ∃ q, q.1 = port.1 ∧ F.cabling.Leaves h q ∧ ReflTransGen F.cabling.Onward q p := by
  induction n generalizing d p known with
  | zero =>
      cases walk
      obtain ⟨switch, -, iface, -⟩ := sound.entries h m isHost d known found
      refine ⟨[(d, known.2.fd)], ⟨rfl, first, F.cable_symm _ _ joined, fromHost⟩, ?_, by simp, ?_⟩
      · intro port member
        cases List.mem_singleton.mp member
        exact ⟨switch, known, found, iface, rfl⟩
      · intro port member
        cases List.mem_singleton.mp member
        exact Or.inl rfl
  | succ n ih =>
      have leaves : F.cabling.Leaves h p := ⟨first, fromHost, walk.reaches⟩
      obtain ⟨switch, -, iface, p', joined', -, aware⟩ := sound.entries h m isHost d known found
      obtain rfl := Cabling.cable_injective (C := F.cabling) joined joined'
      obtain ⟨w, earlier, onward⟩ := walk.last_step
      have leavesW : F.cabling.Leaves h w := ⟨first, fromHost, earlier.reaches⟩
      rcases aware with onHost | knows
      · exact absurd (onHost ▸ onward.enters) (loopFree.source_not_entered leavesW)
      · obtain ⟨known', found'⟩ := Option.isSome_iff_exists.mp knows
        obtain ⟨-, -, -, p', joined', leaves', -⟩ := sound.entries h m isHost _ known' found'
        obtain rfl := loopFree.entry_unique leavesW leaves' onward.enters ⟨_, joined', rfl⟩
        obtain ⟨route, leads, follows, nodup, before⟩ := ih found' joined' earlier
        have behind : ∀ port ∈ route, ∃ q, q.1 = port.1 ∧ F.cabling.Leaves h q ∧
            ReflTransGen F.cabling.Onward q p := by
          intro port member
          rcases before port member with onNext | ⟨q, onDevice, leavesQ, way⟩
          · exact ⟨p, onNext.symm, leaves, .refl⟩
          · exact ⟨q, onDevice, leavesQ, way.tail onward⟩
        refine ⟨(d, known.2.fd) :: route, ⟨rfl, p, F.cable_symm _ _ joined, leads⟩, ?_, ?_, ?_⟩
        · intro port member
          rcases List.mem_cons.mp member with rfl | later
          · exact ⟨switch, known, found, iface, rfl⟩
          · exact follows port later
        · rw [List.map_cons, List.nodup_cons]
          refine ⟨?_, nodup⟩
          intro again
          obtain ⟨port, member, onDevice⟩ := List.mem_map.mp again
          obtain ⟨q, onPort, leavesQ, way⟩ := behind port member
          obtain ⟨k, back⟩ := exists_walk_of_reaches way
          exact loopFree.not_back leavesQ back ⟨_, joined, (onPort.trans onDevice).symm⟩
        · intro port member
          rcases List.mem_cons.mp member with rfl | later
          · exact Or.inl rfl
          · exact Or.inr (behind port later)

variable [DecidableEq Device]

/-- Once a switch knows a host, there is a route from it to the host, over every device at most
once, along which from then on every switch sends every frame for the host, wherever it came
from, and sends it nowhere else. -/
theorem known_host_reached (F : Fabric Device) {h : Device} {m : Mac} (isHost : F.mac h = some m)
    (loopFree : F.cabling.LoopFree h) (events : List (Event Device)) (state : State Device)
    (success : run F.step initial events = some state) (d : Device) (knows : state.Knows d m) :
    ∃ route, RouteTo F h d route ∧ (route.map Prod.fst).Nodup ∧
      ∀ later final, run F.step state later = some final → ∀ port ∈ route,
        F.mac port.1 = none ∧ ∃ out ∈ (F.ifaceList port.1).ifaces, out.fd = port.2 ∧
          ∀ arrival : Arrival, arrival.frame.etherDhost = m →
            (handlePacket (F.ifaceList port.1) (final.tables port.1) arrival).2 =
              [(out, arrival.frame)] := by
  have sound := run_sound events success
  obtain ⟨known, found⟩ := Option.isSome_iff_exists.mp knows
  obtain ⟨-, -, -, p, joined, ⟨first, fromHost, way⟩, -⟩ := sound.entries h m isHost d known found
  obtain ⟨n, walk⟩ := exists_walk_of_reaches way
  obtain ⟨route, leads, follows, nodup, -⟩ :=
    sound.exists_route isHost loopFree found joined fromHost walk
  refine ⟨route, leads, nodup, ?_⟩
  intro later final goesOn port member
  obtain ⟨switch, entry, foundHere, present, socket⟩ := follows port member
  refine ⟨switch, entry.2, present, socket, ?_⟩
  intro arrival destined
  rw [handlePacket_sent_portFor, destined, run_portFor later foundHere goesOn]

/-! ## No frame is dropped -/

def Event.Keeps : Event Device → Prop
  | .lose _ => False
  | _ => True

/-- The frame has come to the host since the state with so many frames received, or a copy of it
is on a cable that leads to the host. -/
def OnItsWay (F : Fabric Device) (h : Device) (frame : Frame) (base : Nat)
    (state : State Device) : Prop :=
  base ≤ state.received.length ∧
    ((∃ copy ∈ state.received.drop base, copy.2 = frame ∧ F.cabling.Enters copy.1 h) ∨
      ∃ copy ∈ state.inFlight, copy.2 = frame ∧
        ∃ last, ReflTransGen F.cabling.Onward copy.1 last ∧ F.cabling.Enters last h)

section OnItsWay

variable {F : Fabric Device} {state next : State Device} {h : Device} {frame : Frame} {base : Nat}

omit [DecidableEq Device] in
theorem cabled_of_way {p last : Device × Int} (way : ReflTransGen F.cabling.Onward p last)
    (enters : F.cabling.Enters last h) : ∃ far, F.cable p = some far := by
  rcases ReflTransGen.cases_head way with rfl | ⟨w, ⟨q, joined, -⟩, -⟩
  · obtain ⟨q, joined, -⟩ := enters
    exact ⟨q, joined⟩
  · exact ⟨q, joined⟩

omit [DecidableEq Device] in
/-- A way to a host leads over switches only: another host has no second interface. -/
theorem switch_of_way {port w last : Device × Int} {g : Device} {m : Mac}
    (isHost : F.mac g = some m) (onHost : port.1 = g) {p : Device × Int}
    (joined : F.cable p = some port) (onward : F.cabling.Onward p w)
    (way : ReflTransGen F.cabling.Onward w last) (enters : F.cabling.Enters last h) : False := by
  obtain ⟨far, cabled⟩ := cabled_of_way way enters
  obtain ⟨q, joined', onDevice, other⟩ := onward
  obtain rfl := Option.some.inj (joined.symm.trans joined')
  obtain ⟨iface, present, socket⟩ := F.cable_iface _ _ (F.cable_symm _ _ joined)
  obtain ⟨out, there, outSocket⟩ := F.cable_iface w far cabled
  have sameDevice : w.1 = port.1 := onDevice
  rw [sameDevice] at there
  have one := F.single g m isHost
  rw [← onHost] at one
  match interfaces : (F.ifaceList port.1).ifaces with
  | [] => simp [interfaces] at present
  | [only] =>
      rw [interfaces, List.mem_singleton] at present there
      exact other (Prod.ext sameDevice (outSocket.symm.trans (there ▸ present ▸ socket)))
  | _ :: _ :: _ => simp [interfaces] at one

omit [DecidableEq Device] in
/-- What a switch sends for a frame on its way to a host is on its way there as well. -/
theorem Sound.forwards (sound : Sound F state) {m : Mac} (isHost : F.mac h = some m)
    {p port last : Device × Int} {iface : IfaceInfo} {arrival : Arrival}
    (destined : arrival.frame.etherDhost = m) (fromIface : arrival.iface = iface)
    (joined : F.cable p = some port) (switch : F.mac port.1 = none) (socket : iface.fd = port.2)
    (way : ReflTransGen F.cabling.Onward p last) (enters : F.cabling.Enters last h) :
    ∃ copy ∈ emit F.toPlant port.1
        (handlePacket (F.ifaceList port.1) (state.tables port.1) arrival).2,
      copy.2 = arrival.frame ∧
        ∃ last, ReflTransGen F.cabling.Onward copy.1 last ∧ F.cabling.Enters last h := by
  have notHost : port.1 ≠ h := by
    intro same
    rw [same, isHost] at switch
    cases switch
  rw [handlePacket_sent_portFor, destined]
  cases found : portFor (state.tables port.1) m with
  | some known =>
      obtain ⟨-, -, -, back, backJoined, ⟨first, fromHost, wayFrom⟩, -⟩ :=
        sound.entries h m isHost port.1 known found
      have ahead := F.cable_symm _ _ backJoined
      obtain ⟨q, firstJoined, wayTo⟩ := Cabling.exists_way_back wayFrom backJoined
      refine ⟨((port.1, known.2.fd), arrival.frame), ?_, rfl, q, wayTo, first,
        F.cable_symm _ _ firstJoined, fromHost⟩
      exact emit_mem.mpr ⟨rfl, Option.isSome_iff_exists.mpr ⟨_, ahead⟩, known.2,
        List.mem_singleton.mpr rfl, rfl⟩
  | none =>
      rcases ReflTransGen.cases_head way with rfl | ⟨w, onward, rest⟩
      · obtain ⟨q, joined', onHost⟩ := enters
        obtain rfl := Option.some.inj (joined.symm.trans joined')
        exact absurd onHost notHost
      · obtain ⟨far, cabled⟩ := cabled_of_way rest enters
        obtain ⟨q, joined', onDevice, other⟩ := onward
        obtain rfl := Option.some.inj (joined.symm.trans joined')
        obtain ⟨out, there, outSocket⟩ := F.cable_iface w far cabled
        have sameDevice : w.1 = port.1 := onDevice
        rw [sameDevice] at there
        refine ⟨(w, arrival.frame), ?_, rfl, last, rest, enters⟩
        refine emit_mem.mpr ⟨sameDevice, Option.isSome_iff_exists.mpr ⟨far, cabled⟩, out, ?_, outSocket⟩
        refine List.mem_map.mpr ⟨out, List.mem_filter.mpr ⟨there, ?_⟩, rfl⟩
        rw [decide_eq_true_iff, fromIface, socket, outSocket]
        intro same
        exact other (Prod.ext sameDevice same)

omit [DecidableEq Device] in
theorem mem_drop_append {copies : List ((Device × Int) × Frame)} {copy : (Device × Int) × Frame}
    (within : base ≤ copies.length) (last : (Device × Int) × Frame) :
    copy ∈ (copies ++ [last]).drop base ↔ copy ∈ copies.drop base ∨ copy = last := by
  rw [List.drop_append_of_le_length within, List.mem_append, List.mem_singleton]

omit [DecidableEq Device] in
theorem OnItsWay.received {k : Nat} {copy : (Device × Int) × Frame} {port : Device × Int}
    (on : OnItsWay F h frame base state) (here : state.inFlight[k]? = some copy)
    (joined : F.cable copy.1 = some port) (host : F.mac port.1 ≠ none) :
    OnItsWay F h frame base { state with
      inFlight := state.inFlight.eraseIdx k, received := state.received ++ [copy] } := by
  obtain ⟨within, rest⟩ := on
  refine ⟨by simp only [List.length_append]; omega, ?_⟩
  rcases rest with ⟨old, received, same, enters⟩ | ⟨flying, inFlight, same, last, way, enters⟩
  · exact Or.inl ⟨old, (mem_drop_append within copy).mpr (Or.inl received), same, enters⟩
  · rcases mem_eraseIdx_append here inFlight with stays | rfl
    · exact Or.inr ⟨flying, stays, same, last, way, enters⟩
    · rcases ReflTransGen.cases_head way with rfl | ⟨w, onward, onFrom⟩
      · exact Or.inl ⟨flying, (mem_drop_append within flying).mpr (Or.inr rfl), same, enters⟩
      · obtain ⟨m, isHost⟩ := Option.ne_none_iff_exists'.mp host
        exact (switch_of_way isHost rfl joined onward onFrom enters).elim

theorem step_onItsWay {event : Event Device} (sound : Sound F state)
    (isHost : F.mac h = some frame.etherDhost) (on : OnItsWay F h frame base state)
    (keeps : event.Keeps) (taken : F.step state event = some next) :
    OnItsWay F h frame base next := by
  rcases step_cases taken with ⟨g, m, etherDhost, payload, -, rfl⟩ |
    ⟨k, copy, port, here, joined, host, rfl⟩ |
    ⟨k, now, copy, port, iface, -, here, joined, switch, -, socket, rfl⟩ |
    ⟨k, copy, rfl, -, -⟩
  · obtain ⟨within, received | ⟨flying, inFlight, rest⟩⟩ := on
    · exact ⟨within, Or.inl received⟩
    · exact ⟨within, Or.inr ⟨flying, List.mem_append_left _ inFlight, rest⟩⟩
  · exact on.received here joined host
  · obtain ⟨within, received | ⟨flying, inFlight, same, last, way, enters⟩⟩ := on
    · exact ⟨within, Or.inl received⟩
    · refine ⟨within, Or.inr ?_⟩
      rcases mem_eraseIdx_append here inFlight with stays | rfl
      · exact ⟨flying, List.mem_append_left _ stays, same, last, way, enters⟩
      · let arrival : Arrival := ⟨iface, flying.2, now⟩
        have destined : arrival.frame.etherDhost = frame.etherDhost := congrArg Frame.etherDhost same
        obtain ⟨sent, member, sameFrame, onward⟩ :=
          sound.forwards isHost destined rfl joined switch socket way enters
        exact ⟨sent, List.mem_append_right _ member, sameFrame.trans same, onward⟩
  · exact keeps.elim

end OnItsWay

/-- A frame for a host with a chain of cables to the sender comes to that host, after any
earlier frames and whatever the switches know, when no frame is lost and none of its copies is
left on a cable. -/
theorem frame_delivered (F : Fabric Device) {g h : Device} {m n : Mac} (isSender : F.mac g = some n)
    (isHost : F.mac h = some m) (other : h ≠ g)
    (connected : ReflTransGen F.cabling.Adjacent g h) (payload : List UInt8)
    (events later : List (Event Device)) (state final : State Device)
    (success : run F.step initial events = some state)
    (goesOn : run F.step state (.send g m payload :: later) = some final)
    (keeps : ∀ event ∈ later, event.Keeps)
    (quiet : ∀ copy ∈ final.inFlight, copy.2 ≠ ⟨m, n, payload⟩) :
    ∃ copy ∈ final.received.drop state.received.length,
      copy.2 = ⟨m, n, payload⟩ ∧ F.cabling.Enters copy.1 h := by
  obtain ⟨sent, taken, afterwards⟩ := run_cons_some F.step goesOn
  have sound := step_sound (run_sound events success) taken
  have initially : OnItsWay F h ⟨m, n, payload⟩ state.received.length sent := by
    obtain ⟨last, ⟨first, fromSender, way⟩, enters⟩ := Cabling.exists_enters connected other
    obtain ⟨far, cabled⟩ := cabled_of_way way enters
    obtain ⟨iface, present, socket⟩ := F.cable_iface first far cabled
    simp only [step, isSender, Option.bind_eq_bind, Option.bind_some] at taken
    cases Option.some.inj taken
    have onSender : first.1 = g := fromSender
    rw [onSender] at present
    refine ⟨le_refl _, Or.inr ⟨(first, ⟨m, n, payload⟩), List.mem_append_right _ ?_, rfl, last, way,
      enters⟩⟩
    exact emit_mem.mpr ⟨onSender, Option.isSome_iff_exists.mpr ⟨far, cabled⟩, iface,
      List.mem_map.mpr ⟨iface, present, rfl⟩, socket⟩
  have kept := invariant_guarded_run F.step
    (fun _ _ _ holds condition taken =>
      And.intro (step_sound holds.1 taken) (step_onItsWay holds.1 isHost holds.2 condition taken))
    later ⟨sound, initially⟩ (guarded_of_forall F.step later keeps) afterwards
  rcases kept.2.2 with received | ⟨copy, flying, same, -⟩
  · exact received
  · exact absurd same (quiet copy flying)

end Fabric

/-! ## Two hosts on a switch -/

/-- The numbers of the hosts and the switch. -/
local instance threeNumbers : NeZero 3 := ⟨by decide⟩

def twoMacs : Fin 3 → Option Mac
  | 0 => some (macOf 1 0)
  | 1 => none
  | 2 => some (macOf 2 0)

def twoHosts : Fabric (Fin 3) where
  toPlant := oneHub
  mac := twoMacs
  single := by
    have one : ∀ h, ∀ _ ∈ twoMacs h, (oneHub.ifaceList h).ifaces.length ≤ 1 := by decide
    exact one
  hash_injective := by
    have apart : ∀ h g, ∀ m ∈ twoMacs h, ∀ n ∈ twoMacs g, hash8 m = hash8 n → h = g := by decide
    intro h g m n isHost isOther same
    exact apart h g m isHost n isOther same

namespace Fabric

def learned : State (Fin 3) :=
  let sent : Option (State (Fin 3)) :=
    run twoHosts.step initial [.send 0 (macOf 2 0) [], .deliver 0 0, .deliver 0 0]
  sent.getD initial

theorem known_host_reached_twoHosts : ∃ route, RouteTo twoHosts 0 1 route := by
  obtain ⟨route, leads, -⟩ := known_host_reached twoHosts (h := 0) (m := macOf 1 0) rfl
    (oneHub_loopFree 0) [.send 0 (macOf 2 0) [], .deliver 0 0, .deliver 0 0] learned rfl 1 rfl
  exact ⟨route, leads⟩

theorem frame_delivered_twoHosts :
    ∃ copy ∈ learned.received.drop 0, copy.2 = ⟨macOf 2 0, macOf 1 0, []⟩ ∧
      twoHosts.cabling.Enters copy.1 2 :=
  frame_delivered twoHosts (g := 0) (h := 2) rfl rfl (by decide)
    (.tail (.single ⟨(0, 3), rfl, (1, 3), rfl, rfl⟩) ⟨(1, 4), rfl, (2, 3), rfl, rfl⟩) []
    [] [.deliver 0 0, .deliver 0 0] initial learned rfl rfl (by simp [Event.Keeps])
    (by intro copy flying; cases flying)

end Fabric

end NetworkLab.Switching
