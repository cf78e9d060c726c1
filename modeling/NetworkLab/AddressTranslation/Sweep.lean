import NetworkLab.AddressTranslation.RoundTrip

/-!
# The sweep of finished flows

`nat_timeout` beside the packets that were translated, which are kept here by mapping.
`struct nat_connection` is never written, so the sweep deletes idle mappings only, and it
gives no port back.  It does what it is for as long as there is nothing to delete.
-/
set_option autoImplicit false

namespace NetworkLab.AddressTranslation

open Lib Lib.Run Lib.Buckets

def TCP_FIN : UInt8 := 0x01
def TCP_ACK : UInt8 := 0x10

structure TcpPacket where
  addresses : Packet
  flags : UInt8
  seq : UInt32
  ack : UInt32
  plLen : UInt16
deriving DecidableEq

/-- The sequence number behind a packet with a FIN. -/
def TcpPacket.finEnd (packet : TcpPacket) : UInt32 := packet.seq + packet.plLen.toUInt32 + 1

structure Sighting where
  outbound : Bool
  packet : TcpPacket
  time : Int

/-- The table, and the packets that were translated by the mapping of an internal address
in a bucket since the mapping was added. -/
structure Watched where
  nat : NatTable
  traffic : UInt8 → UInt32 × UInt16 → List Sighting

inductive FlowEvent
  | outbound (packet : TcpPacket) (now : Int)
  | inbound (packet : TcpPacket) (now : Int)
  | sweep (now : Int)

def FlowEvent.event : FlowEvent → Event
  | .outbound packet now => .translate packet.addresses .dirOut now
  | .inbound packet now => .translate packet.addresses .dirIn now
  | .sweep now => .sweep now

def record (traffic : UInt8 → UInt32 × UInt16 → List Sighting) (b : UInt8)
    (internal : UInt32 × UInt16) (sightings : List Sighting) :
    UInt8 → UInt32 × UInt16 → List Sighting :=
  fun c other => if c = b ∧ other = internal then sightings else traffic c other

/-- A packet that needs a new mapping is the first of its flow. -/
def Watched.observe (watched : Watched) :
    FlowEvent → UInt8 → UInt32 × UInt16 → List Sighting
  | .outbound packet now =>
    let b := hash8 packet.addresses.daddr
    let internal := (packet.addresses.saddr, packet.addresses.sport)
    let earlier := if Unmapped watched.nat packet.addresses then [] else watched.traffic b internal
    record watched.traffic b internal
      (earlier ++ [{ outbound := true, packet := packet, time := now }])
  | .inbound packet now =>
    let b := hash8 packet.addresses.saddr
    match (watched.nat.natMappingList b).find?
        (matchesExternal packet.addresses.daddr packet.addresses.dport) with
    | none => watched.traffic
    | some natEntry =>
      record watched.traffic b natEntry.internal
        (watched.traffic b natEntry.internal ++
          [{ outbound := false, packet := packet, time := now }])
  | .sweep _ => watched.traffic

section Statement

variable (longestPrefixMatch : UInt32 → Option RtEntry)

def flowStep (watched : Watched) (event : FlowEvent) : Option Watched :=
  (step longestPrefixMatch watched.nat event.event).map fun nat =>
    { nat := nat, traffic := watched.observe event }

def startWatched : Watched := { nat := natTableInit, traffic := fun _ _ => [] }

/-- One side has sent a FIN, and a later packet of the other side acknowledges it. -/
def FinAcked (packets : List Sighting) (outbound : Bool) : Prop :=
  ∃ fin ack : Sighting, [fin, ack].Sublist packets ∧
    fin.outbound = outbound ∧ fin.packet.flags &&& TCP_FIN ≠ 0 ∧
    ack.outbound = !outbound ∧ ack.packet.flags &&& TCP_ACK ≠ 0 ∧
    ack.packet.ack - fin.packet.finEnd < 2147483648

def Ended (packets : List Sighting) : Prop := FinAcked packets true ∧ FinAcked packets false

def Idle (now : Int) (packets : List Sighting) : Prop :=
  ∃ last ∈ packets.getLast?, TCP_ESTABLISHED_TIMEOUT < now - last.time

/-- The sweep keeps a mapping that is neither idle nor ended, deletes the others, and leaves
assigned the ports of the mappings that it keeps. -/
structure SweepsExactly (before : Watched) (now : Int) (after : Watched) : Prop where
  mappings : ∀ b m, m ∈ after.nat.natMappingList b ↔ m ∈ before.nat.natMappingList b ∧
    ¬ Idle now (before.traffic b m.internal) ∧ ¬ Ended (before.traffic b m.internal)
  ports : ∀ port : UInt16, after.nat.assignedPorts port.toNat = true ↔
    ∃ m, after.nat.natMappingList.Member m ∧ m.externalPort = port

def StepSweeps (before : Watched) (event : FlowEvent) (after : Watched) : Prop :=
  match event with
  | .sweep now => SweepsExactly before now after
  | _ => True

/-- The mapping has a port that `getport` took from the pool. -/
def NatMapping.Pooled (m : NatMapping) : Prop := m.externalPort ≠ UInt16.ofNat NAT_PORT_MAX

/-- A sweep comes while no mapping with a port of the pool is idle or has ended, and every
other mapping is idle. -/
def NothingToFree (watched : Watched) : FlowEvent → Prop
  | .sweep now => ∀ b, ∀ m ∈ watched.nat.natMappingList b,
      (m.Pooled → ¬ Idle now (watched.traffic b m.internal) ∧
        ¬ Ended (watched.traffic b m.internal)) ∧
      (¬ m.Pooled → Idle now (watched.traffic b m.internal))
  | _ => True

end Statement

/-! ## The time of the last packet -/

section Times

variable {nat : NatTable} {traffic : UInt8 → UInt32 × UInt16 → List Sighting}
  {b : UInt8} {m : NatMapping} {now : Int}

def TimedBy (traffic : UInt8 → UInt32 × UInt16 → List Sighting) (b : UInt8) (m : NatMapping) :
    Prop :=
  (traffic b m.internal).getLast?.map Sighting.time = some m.updateTime

def Timed (nat : NatTable) (traffic : UInt8 → UInt32 × UInt16 → List Sighting) : Prop :=
  ∀ b, ∀ m ∈ nat.natMappingList b, TimedBy traffic b m

theorem idle_iff (timed : TimedBy traffic b m) :
    Idle now (traffic b m.internal) ↔ TCP_ESTABLISHED_TIMEOUT < now - m.updateTime := by
  obtain ⟨last, isLast, time⟩ := Option.map_eq_some_iff.mp timed
  rw [Idle, isLast, ← time]
  simp

/-- A mapping that is found is touched when its packet is recorded. -/
theorem timed_touchFirst {p : NatMapping → Bool} {found : NatMapping} {earlier : List Sighting}
    (sighting : Sighting) (unique : InternalUnique nat)
    (isFound : (nat.natMappingList b).find? p = some found)
    (others : ∀ c, ∀ m ∈ nat.natMappingList c, c ≠ b ∨ m.internal ≠ found.internal →
      TimedBy traffic c m) :
    Timed (nat.touchFirst b p sighting.time)
      (record traffic b found.internal (earlier ++ [sighting])) := by
  intro c m member
  by_cases here : c = b
  · subst here
    have touched : m ∈ updateFirst p (NatMapping.touch sighting.time) (nat.natMappingList c) := by
      simpa [NatTable.touchFirst] using member
    rcases mem_updateFirst (unique c) touched with ⟨x, first, rfl⟩ | ⟨old, different⟩
    · cases Option.some.inj (isFound.symm.trans first)
      simp [TimedBy, record, NatMapping.touch, NatMapping.internal]
    · have other := different found isFound
      rw [TimedBy, record, if_neg (fun same => other same.2)]
      exact others c m old (.inr other)
  · have old : m ∈ nat.natMappingList c := by
      simpa [NatTable.touchFirst, Function.update_of_ne here] using member
    rw [TimedBy, record, if_neg (fun same => here same.1)]
    exact others c m old (.inl here)

end Times

/-! ## What every run keeps -/

section Invariant

variable {longestPrefixMatch : UInt32 → Option RtEntry} {watched next : Watched}
  {event : FlowEvent}

def NatMapping.assignment (m : NatMapping) : (UInt32 × UInt16) × UInt16 :=
  (m.internal, m.externalPort)

/-- A port of the pool belongs to one mapping. -/
def PoolDistinct (nat : NatTable) : Prop :=
  ∀ b c, ∀ x ∈ (nat.natMappingList b).map NatMapping.assignment,
    ∀ y ∈ (nat.natMappingList c).map NatMapping.assignment,
      x.2 = y.2 → x.2 ≠ UInt16.ofNat NAT_PORT_MAX → b = c ∧ x = y

def InPool (nat : NatTable) : Prop := ∀ i, nat.assignedPorts i = true → i ∈ portPool

def Held (nat : NatTable) : Prop :=
  ∀ i, nat.assignedPorts i = true →
    ∃ b, UInt16.ofNat i ∈ (nat.natMappingList b).map NatMapping.externalPort

/-- `struct nat_connection` is as `memset` leaves it. -/
def Unwritten (nat : NatTable) : Prop :=
  ∀ b, ∀ conn ∈ (nat.natMappingList b).map NatMapping.conn, conn = noConnection

structure Tended (watched : Watched) : Prop where
  unique : InternalUnique watched.nat
  allocated : Allocated watched.nat
  unwritten : Unwritten watched.nat
  timed : Timed watched.nat watched.traffic
  distinct : PoolDistinct watched.nat
  inPool : InPool watched.nat

structure Unspent (watched : Watched) : Prop extends Tended watched where
  held : Held watched.nat

section Touch

variable {nat : NatTable} (b : UInt8) (p : NatMapping → Bool) (now : Int)

theorem touchFirst_unwritten : Unwritten (nat.touchFirst b p now) ↔ Unwritten nat := by
  simp only [Unwritten, touchFirst_map nat NatMapping.conn b p now fun _ => rfl]

theorem touchFirst_poolDistinct : PoolDistinct (nat.touchFirst b p now) ↔ PoolDistinct nat := by
  simp only [PoolDistinct, touchFirst_map nat NatMapping.assignment b p now fun _ => rfl]

theorem touchFirst_held : Held (nat.touchFirst b p now) ↔ Held nat := by
  simp only [Held, touchFirst_assignedPorts,
    touchFirst_map nat NatMapping.externalPort b p now fun _ => rfl]

end Touch

section Grow

variable {nat : NatTable} {packet : Packet} {rtEntry : RtEntry}

theorem grow_unwritten (unwritten : Unwritten nat) : Unwritten (nat.grow packet rtEntry) := by
  intro b conn member
  obtain ⟨m, inBucket, rfl⟩ := List.mem_map.mp member
  rcases mem_append.mp inBucket with old | ⟨-, rfl⟩
  · exact unwritten b _ (List.mem_map_of_mem old)
  · rfl

theorem grow_inPool (inPool : InPool nat) : InPool (nat.grow packet rtEntry) := by
  intro i assigned
  by_cases exhausted : Exhausted nat.assignedPorts
  · rw [NatTable.grow, getport_exhausted exhausted] at assigned
    exact inPool i assigned
  · obtain ⟨j, jInPool, -, port⟩ := getport_free exhausted
    rw [NatTable.grow, port] at assigned
    by_cases same : i = j
    · exact same ▸ jInPool
    · exact inPool i (by simpa [same] using assigned)

theorem grow_held (held : Held nat) : Held (nat.grow packet rtEntry) := by
  have stays : ∀ i, nat.assignedPorts i = true → ∃ b, UInt16.ofNat i ∈
      ((nat.grow packet rtEntry).natMappingList b).map NatMapping.externalPort := by
    intro i assigned
    obtain ⟨b, member⟩ := held i assigned
    exact ⟨b, ((sublist_append nat.natMappingList _ _ b).map _).subset member⟩
  intro i assigned
  by_cases exhausted : Exhausted nat.assignedPorts
  · rw [NatTable.grow, getport_exhausted exhausted] at assigned
    exact stays i assigned
  · obtain ⟨j, -, -, port⟩ := getport_free exhausted
    by_cases same : i = j
    · refine ⟨hash8 packet.daddr, List.mem_map.mpr ⟨newMapping nat packet rtEntry, ?_, ?_⟩⟩
      · exact mem_append.mpr (.inr ⟨rfl, rfl⟩)
      · rw [newMapping, port, same]
    · rw [NatTable.grow, port] at assigned
      exact stays i (by simpa [same] using assigned)

theorem newPort_fresh (allocated : Allocated nat) {b : UInt8} {m : NatMapping}
    (member : m ∈ nat.natMappingList b)
    (same : m.externalPort = (newMapping nat packet rtEntry).externalPort) : ¬ m.Pooled := by
  intro pooled
  obtain ⟨i, inPool, assigned, port⟩ := (allocated m ⟨b, member⟩).resolve_left pooled
  by_cases exhausted : Exhausted nat.assignedPorts
  · apply pooled
    rw [same, newMapping, getport_exhausted exhausted]
  · obtain ⟨j, jInPool, free, given⟩ := getport_free exhausted
    rw [port, newMapping, given] at same
    have equal := portPool_ofNat_inj (mem_portPool.mp inPool).2.le (mem_portPool.mp jInPool).2.le same
    rw [equal, free] at assigned
    cases assigned

theorem grow_poolDistinct (allocated : Allocated nat) (distinct : PoolDistinct nat) :
    PoolDistinct (nat.grow packet rtEntry) := by
  intro b c x xMember y yMember same pooled
  obtain ⟨m, mInBucket, rfl⟩ := List.mem_map.mp xMember
  obtain ⟨n, nInBucket, rfl⟩ := List.mem_map.mp yMember
  rcases mem_append.mp mInBucket with mOld | ⟨rfl, rfl⟩
  · rcases mem_append.mp nInBucket with nOld | ⟨rfl, rfl⟩
    · exact distinct b c _ (List.mem_map_of_mem mOld) _ (List.mem_map_of_mem nOld) same pooled
    · have same' : m.externalPort = (newMapping nat packet rtEntry).externalPort := same
      exact absurd pooled (newPort_fresh allocated mOld same')
  · rcases mem_append.mp nInBucket with nOld | ⟨rfl, rfl⟩
    · have same' : n.externalPort = (newMapping nat packet rtEntry).externalPort := same.symm
      have pooled' : n.Pooled := fun last => pooled (same.trans last)
      exact absurd pooled' (newPort_fresh allocated nOld same')
    · exact ⟨rfl, rfl⟩

end Grow

section Sweep

variable {nat : NatTable} (now : Int)

theorem natTimeout_unwritten (unwritten : Unwritten nat) : Unwritten (natTimeout nat now) :=
  fun b conn member => unwritten b conn
    (((natTimeout_sublist nat now b).map NatMapping.conn).subset member)

theorem natTimeout_poolDistinct (distinct : PoolDistinct nat) : PoolDistinct (natTimeout nat now) :=
  fun b c x xMember y yMember => distinct b c
    x (((natTimeout_sublist nat now b).map NatMapping.assignment).subset xMember)
    y (((natTimeout_sublist nat now c).map NatMapping.assignment).subset yMember)

theorem natTimeout_timed {traffic : UInt8 → UInt32 × UInt16 → List Sighting}
    (timed : Timed nat traffic) : Timed (natTimeout nat now) traffic :=
  fun b m member => timed b m ((natTimeout_sublist nat now b).subset member)

end Sweep

theorem Tended.sweep (tended : Tended watched) (now : Int) :
    Tended { watched with nat := natTimeout watched.nat now } where
  unique := natTimeout_internalUnique now tended.unique
  allocated := natTimeout_allocated now tended.allocated
  unwritten := natTimeout_unwritten now tended.unwritten
  timed := natTimeout_timed now tended.timed
  distinct := natTimeout_poolDistinct now tended.distinct
  inPool := tended.inPool

/-- A table whose found mapping is touched, with any record that has its packets in time. -/
theorem Tended.touch (tended : Tended watched) (b : UInt8) (p : NatMapping → Bool) (now : Int)
    {traffic : UInt8 → UInt32 × UInt16 → List Sighting}
    (timed : Timed (watched.nat.touchFirst b p now) traffic) :
    Tended { nat := watched.nat.touchFirst b p now, traffic := traffic } where
  unique := touchFirst_internalUnique b p now tended.unique
  allocated := touchFirst_allocated b p now tended.allocated
  unwritten := (touchFirst_unwritten b p now).mpr tended.unwritten
  timed := timed
  distinct := (touchFirst_poolDistinct b p now).mpr tended.distinct
  inPool := tended.inPool

theorem Tended.outbound_new (tended : Tended watched) {packet : TcpPacket} {rtEntry : RtEntry}
    (now : Int) (unmapped : Unmapped watched.nat packet.addresses) :
    Tended
      { nat := (watched.nat.grow packet.addresses rtEntry).touchFirst
          (hash8 packet.addresses.daddr)
          (matchesInternal packet.addresses.saddr packet.addresses.sport) now,
        traffic := watched.observe (.outbound packet now) } := by
  have unique : InternalUnique (watched.nat.grow packet.addresses rtEntry) :=
    grow_internalUnique unmapped tended.unique
  have isNew : (newMapping watched.nat packet.addresses rtEntry).internal =
      (packet.addresses.saddr, packet.addresses.sport) := rfl
  have isFound := @find?_grow watched.nat packet.addresses rtEntry unmapped
  have others : ∀ c, ∀ m ∈ (watched.nat.grow packet.addresses rtEntry).natMappingList c,
      c ≠ hash8 packet.addresses.daddr ∨
        m.internal ≠ (newMapping watched.nat packet.addresses rtEntry).internal →
      TimedBy watched.traffic c m := by
    intro c m member different
    rcases mem_append.mp member with old | ⟨rfl, rfl⟩
    · exact tended.timed c m old
    · rcases different with bucket | internal
      · exact absurd rfl bucket
      · exact absurd rfl internal
  have recorded : watched.observe (.outbound packet now) =
      record watched.traffic (hash8 packet.addresses.daddr)
        (newMapping watched.nat packet.addresses rtEntry).internal
        ([] ++ [{ outbound := true, packet := packet, time := now }]) := by
    rw [Watched.observe, if_pos unmapped, isNew]
  have inPool : InPool (watched.nat.grow packet.addresses rtEntry) := grow_inPool tended.inPool
  refine ⟨touchFirst_internalUnique _ _ now unique,
    touchFirst_allocated _ _ now (grow_allocated tended.allocated),
    (touchFirst_unwritten _ _ now).mpr (grow_unwritten tended.unwritten), ?_,
    (touchFirst_poolDistinct _ _ now).mpr (grow_poolDistinct tended.allocated tended.distinct),
    inPool⟩
  have timed : Timed
      ((watched.nat.grow packet.addresses rtEntry).touchFirst (hash8 packet.addresses.daddr)
        (matchesInternal packet.addresses.saddr packet.addresses.sport) now)
      (record watched.traffic (hash8 packet.addresses.daddr)
        (newMapping watched.nat packet.addresses rtEntry).internal
        ([] ++ [{ outbound := true, packet := packet, time := now }])) :=
    timed_touchFirst ⟨true, packet, now⟩ unique isFound others
  rw [recorded]
  exact timed

theorem Tended.translated (tended : Tended watched) {b : UInt8} {p : NatMapping → Bool}
    {found : NatMapping} (isFound : (watched.nat.natMappingList b).find? p = some found)
    (sighting : Sighting) :
    Tended
      { nat := watched.nat.touchFirst b p sighting.time,
        traffic := record watched.traffic b found.internal
          (watched.traffic b found.internal ++ [sighting]) } := by
  apply tended.touch
  exact timed_touchFirst sighting tended.unique isFound fun c m member _ => tended.timed c m member

/-- What a packet does: it finds no mapping, or the one that it finds is touched, or it is
given a new one. -/
theorem flowStep_cases (taken : flowStep longestPrefixMatch watched event = some next) :
    (∃ now, event = .sweep now ∧ next = { watched with nat := natTimeout watched.nat now }) ∨
    next = watched ∨
    (∃ b p found sighting, (watched.nat.natMappingList b).find? p = some found ∧
      next = { nat := watched.nat.touchFirst b p sighting.time,
               traffic := record watched.traffic b found.internal
                 (watched.traffic b found.internal ++ [sighting]) }) ∨
    ∃ packet now rtEntry, event = .outbound packet now ∧ Unmapped watched.nat packet.addresses ∧
      next =
        { nat := (watched.nat.grow packet.addresses rtEntry).touchFirst
            (hash8 packet.addresses.daddr)
            (matchesInternal packet.addresses.saddr packet.addresses.sport) now,
          traffic := watched.observe (.outbound packet now) } := by
  obtain ⟨nat, stepped, rfl⟩ := Option.map_eq_some_iff.mp taken
  cases event with
  | sweep now =>
      cases Option.some.inj stepped
      exact .inl ⟨now, rfl, rfl⟩
  | inbound packet now =>
      have translated : (doTranslation longestPrefixMatch watched.nat packet.addresses .dirIn
        now).map Prod.fst = some nat := stepped
      right
      cases found : (watched.nat.natMappingList (hash8 packet.addresses.saddr)).find?
          (matchesExternal packet.addresses.daddr packet.addresses.dport) with
      | none =>
          simp only [doTranslation, if_pos, found, Option.map_some] at translated
          cases Option.some.inj translated
          have unseen : watched.observe (.inbound packet now) = watched.traffic := by
            simp only [Watched.observe, found]
          rw [unseen]
          exact .inl rfl
      | some natEntry =>
          simp only [doTranslation, if_pos, found, Option.map_some] at translated
          cases Option.some.inj translated
          simp only [Watched.observe, found]
          exact .inr (.inl ⟨_, _, natEntry, ⟨false, packet, now⟩, found, rfl⟩)
  | outbound packet now =>
      have translated : (doTranslation longestPrefixMatch watched.nat packet.addresses .dirOut
        now).map Prod.fst = some nat := stepped
      right
      cases found : (watched.nat.natMappingList (hash8 packet.addresses.daddr)).find?
          (matchesInternal packet.addresses.saddr packet.addresses.sport) with
      | none =>
          cases route : longestPrefixMatch packet.addresses.daddr with
          | none =>
              simp only [doTranslation, if_neg dirOut_ne_dirIn, found, insertNatEntry, route,
                Option.map_none] at translated
              cases translated
          | some rtEntry =>
              rw [doTranslation_unmapped now dirOut_ne_dirIn found route] at translated
              cases Option.some.inj translated
              exact .inr (.inr ⟨packet, now, rtEntry, rfl, found, rfl⟩)
      | some natEntry =>
          have mapped : ¬ Unmapped watched.nat packet.addresses := by simp [Unmapped, found]
          have internal := matchesInternal_iff.mp (List.find?_some found)
          simp only [doTranslation, if_neg dirOut_ne_dirIn, found, Option.map_some] at translated
          cases Option.some.inj translated
          simp only [Watched.observe, if_neg mapped, ← internal]
          exact .inr (.inl ⟨_, _, natEntry, ⟨true, packet, now⟩, found, rfl⟩)

theorem flowStep_tended (tended : Tended watched)
    (taken : flowStep longestPrefixMatch watched event = some next) : Tended next := by
  rcases flowStep_cases taken with ⟨now, -, rfl⟩ | rfl | ⟨b, p, found, sighting, isFound, rfl⟩ |
    ⟨packet, now, rtEntry, -, unmapped, rfl⟩
  · exact tended.sweep now
  · exact tended
  · exact tended.translated isFound sighting
  · exact tended.outbound_new now unmapped

theorem Tended.mem_natTimeout (tended : Tended watched) {now : Int} {b : UInt8} {m : NatMapping} :
    m ∈ (natTimeout watched.nat now).natMappingList b ↔
      m ∈ watched.nat.natMappingList b ∧ ¬ Idle now (watched.traffic b m.internal) := by
  have kept : m ∈ (natTimeout watched.nat now).natMappingList b ↔
      m ∈ watched.nat.natMappingList b ∧ ¬ Finished now m := by
    simp [natTimeout, List.mem_filter]
  rw [kept]
  apply and_congr_right
  intro member
  have blank := tended.unwritten b m.conn (List.mem_map_of_mem member)
  rw [idle_iff (tended.timed b m member), Finished, blank]
  simp [noConnection]

theorem Tended.sweep_held (tended : Tended watched) (held : Held watched.nat) {now : Int}
    (nothing : NothingToFree watched (.sweep now)) : Held (natTimeout watched.nat now) := by
  intro i assigned
  obtain ⟨b, member⟩ := held i assigned
  obtain ⟨m, inBucket, port⟩ := List.mem_map.mp member
  have inPool := mem_portPool.mp (tended.inPool i assigned)
  have pooled : m.Pooled := by
    intro last
    have equal := portPool_ofNat_inj inPool.2.le le_rfl (port.symm.trans last)
    omega
  have stays := tended.mem_natTimeout.mpr ⟨inBucket, ((nothing b m inBucket).1 pooled).1⟩
  exact ⟨b, List.mem_map.mpr ⟨m, stays, port⟩⟩

theorem flowStep_held (tended : Tended watched) (held : Held watched.nat)
    (nothing : NothingToFree watched event)
    (taken : flowStep longestPrefixMatch watched event = some next) : Held next.nat := by
  rcases flowStep_cases taken with ⟨now, rfl, rfl⟩ | rfl | ⟨b, p, found, sighting, isFound, rfl⟩ |
    ⟨packet, now, rtEntry, -, unmapped, rfl⟩
  · exact tended.sweep_held held nothing
  · exact held
  · exact (touchFirst_held b p sighting.time).mpr held
  · exact (touchFirst_held _ _ now).mpr (grow_held held)

theorem mem_portPool_of_pooled (tended : Tended watched) {b : UInt8} {m : NatMapping}
    (member : m ∈ watched.nat.natMappingList b) (pooled : m.Pooled) :
    watched.nat.assignedPorts m.externalPort.toNat = true := by
  obtain ⟨i, inPool, assigned, port⟩ := (tended.allocated m ⟨b, member⟩).resolve_left pooled
  have bounds := mem_portPool.mp inPool
  have small : NAT_PORT_MAX < UInt16.size := by decide
  rw [port, UInt16.toNat_ofNat_of_lt' (by omega)]
  exact assigned

theorem Tended.nothingToFree (tended : Tended watched) {now : Int}
    (exactly : SweepsExactly watched now { watched with nat := natTimeout watched.nat now }) :
    NothingToFree watched (.sweep now) := by
  intro b m member
  have busy : ¬ Idle now (watched.traffic b m.internal) →
      m ∈ (natTimeout watched.nat now).natMappingList b :=
    fun notIdle => tended.mem_natTimeout.mpr ⟨member, notIdle⟩
  constructor
  · intro pooled
    have assigned := mem_portPool_of_pooled tended member pooled
    obtain ⟨holder, ⟨c, stays⟩, port⟩ := (exactly.ports m.externalPort).mp assigned
    have inTable := (tended.mem_natTimeout.mp stays).1
    have same := tended.distinct b c _ (List.mem_map_of_mem member) _ (List.mem_map_of_mem inTable)
      port.symm pooled
    cases same.1
    have equal : m = holder := by
      have internal : m.internal = holder.internal := congrArg Prod.fst same.2
      exact List.inj_on_of_nodup_map (tended.unique b) member inTable internal
    exact ((exactly.mappings b m).mp (equal ▸ stays)).2
  · intro last
    by_contra notIdle
    have assigned := (exactly.ports m.externalPort).mpr ⟨m, ⟨b, busy notIdle⟩, rfl⟩
    have inPool := mem_portPool.mp (tended.inPool _ assigned)
    have small : NAT_PORT_MAX < UInt16.size := by decide
    rw [not_not.mp last, UInt16.toNat_ofNat_of_lt' small] at inPool
    exact absurd inPool.2 (Nat.lt_irrefl NAT_PORT_MAX)

theorem Tended.sweepsExactly (tended : Tended watched) (held : Held watched.nat) {now : Int}
    (nothing : NothingToFree watched (.sweep now)) :
    SweepsExactly watched now { watched with nat := natTimeout watched.nat now } := by
  have pooled : ∀ {b m}, m ∈ (natTimeout watched.nat now).natMappingList b → m.Pooled := by
    intro b m stays
    have kept := tended.mem_natTimeout.mp stays
    by_contra last
    exact kept.2 ((nothing b m kept.1).2 last)
  constructor
  · intro b m
    constructor
    · intro stays
      have member := (tended.mem_natTimeout.mp stays).1
      exact ⟨member, (nothing b m member).1 (pooled stays)⟩
    · intro kept
      exact tended.mem_natTimeout.mpr ⟨kept.1, kept.2.1⟩
  · intro port
    constructor
    · intro assigned
      obtain ⟨b, member⟩ := tended.sweep_held held nothing _ assigned
      obtain ⟨m, inBucket, same⟩ := List.mem_map.mp member
      rw [UInt16.ofNat_toNat] at same
      exact ⟨m, ⟨b, inBucket⟩, same⟩
    · intro kept
      obtain ⟨m, ⟨b, stays⟩, same⟩ := kept
      have member := (tended.mem_natTimeout.mp stays).1
      rw [← same]
      exact mem_portPool_of_pooled tended member (pooled stays)

theorem startWatched_tended : Tended startWatched where
  unique := fun _ => List.nodup_nil
  allocated := by
    intro m member
    obtain ⟨b, inBucket⟩ := member
    cases inBucket
  unwritten := fun _ _ member => nomatch member
  timed := fun _ _ member => nomatch member
  distinct := fun _ _ _ member => nomatch member
  inPool := fun _ assigned => nomatch assigned

end Invariant

/-- Every sweep of a run deletes exactly the finished mappings, and gives exactly their ports
back, if and only if every sweep comes while there is nothing to free. -/
theorem sweeps_exact_iff (longestPrefixMatch : UInt32 → Option RtEntry)
    (events : List FlowEvent) :
    EachStep (flowStep longestPrefixMatch) StepSweeps startWatched events ↔
      Guarded (flowStep longestPrefixMatch) NothingToFree startWatched events := by
  have starts : Unspent startWatched :=
    ⟨startWatched_tended, fun _ assigned => nomatch assigned⟩
  refine eachStep_iff_guarded (flowStep longestPrefixMatch) ?_ ?_ ?_ events starts
  · intro watched event next unspent nothing taken
    have tended := flowStep_tended unspent.toTended taken
    exact ⟨tended, flowStep_held unspent.toTended unspent.held nothing taken⟩
  · intro watched event next unspent taken
    cases event with
    | sweep now =>
        cases Option.some.inj taken
        have tended := unspent.toTended
        exact ⟨tended.nothingToFree, tended.sweepsExactly unspent.held⟩
    | outbound packet now => exact Iff.rfl
    | inbound packet now => exact Iff.rfl
  · intro watched event _ stuck
    cases event with
    | sweep now => cases stuck
    | outbound packet now => trivial
    | inbound packet now => trivial

/-- The first packet of a flow, and nothing for 61 seconds: the mapping goes, and its port
stays assigned. -/
theorem idle_port_stays :
    ¬ ∀ events, EachStep (flowStep oneInterface) StepSweeps startWatched events := by
  intro exactly
  let packet : TcpPacket :=
    { addresses := flowPacket 0, flags := TCP_ACK, seq := 1, ack := 1, plLen := 0 }
  have mapped : step oneInterface natTableInit (.translate (flowPacket 0) .dirOut 0) =
      some (flowTable 1) := by
    have ran := @flowTable_run 1 (by decide)
    rw [List.range_one, List.map_singleton, run_cons] at ran
    obtain ⟨next, stepped, same⟩ := Option.bind_eq_some_iff.mp ran
    rw [stepped]
    exact same
  have first : run (flowStep oneInterface) startWatched [.outbound packet 0] =
      some ⟨flowTable 1, startWatched.observe (.outbound packet 0)⟩ := by
    have stepped : flowStep oneInterface startWatched (.outbound packet 0) =
        some ⟨flowTable 1, startWatched.observe (.outbound packet 0)⟩ :=
      congrArg (Option.map fun nat => (⟨nat, startWatched.observe (.outbound packet 0)⟩ : Watched))
        mapped
    rw [run_cons, stepped]
    rfl
  have swept := eachStep_last (flowStep oneInterface) _ (exactly ([.outbound packet 0] ++
    [.sweep 61])) first rfl
  have ports := (swept.ports 12345).mp (by
    rw [flowTable_swept]
    decide)
  obtain ⟨m, ⟨b, member⟩, -⟩ := ports
  rw [flowTable_swept] at member
  cases member

end NetworkLab.AddressTranslation
