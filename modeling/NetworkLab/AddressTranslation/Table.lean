import Mathlib.Data.List.Basic
import NetworkLab.Lib.Buckets
import NetworkLab.Lib.Run

/-!
# The NAT table

`nat.c`: the hash table of mappings, the port pool, the translation of a packet and
the sweep of finished flows.  The routing lookup `longest_prefix_match` is outside
this program and is a parameter; its `none` is the NULL that `insert_nat_entry`
would dereference.  Addresses and ports are in host order.
-/
set_option autoImplicit false

namespace NetworkLab.AddressTranslation

open Lib Lib.Run

def NAT_PORT_MIN : Nat := 12345
def NAT_PORT_MAX : Nat := 23456
def TCP_ESTABLISHED_TIMEOUT : Int := 60

/-- `dirIn` is from the public network to the private one. -/
inductive PacketDir
  | dirIn
  | dirOut
  | dirInvalid
deriving DecidableEq

theorem dirOut_ne_dirIn : PacketDir.dirOut ≠ .dirIn := by decide

structure NatConnection where
  internalFin : UInt8
  externalFin : UInt8
  internalSeqEnd : UInt32
  externalSeqEnd : UInt32
  internalAck : UInt32
  externalAck : UInt32
deriving DecidableEq

structure NatMapping where
  internalIp : UInt32
  externalIp : UInt32
  internalPort : UInt16
  externalPort : UInt16
  updateTime : Int
  conn : NatConnection
deriving DecidableEq

structure NatTable where
  natMappingList : Buckets UInt8 NatMapping
  assignedPorts : Nat → Bool

structure IfaceInfo where
  index : Nat
  ip : UInt32

structure RtEntry where
  iface : IfaceInfo

structure Packet where
  saddr : UInt32
  daddr : UInt32
  sport : UInt16
  dport : UInt16
deriving DecidableEq

inductive Action
  | icmpSendPacket (packet : Packet)
  | free
  | ipSendPacket (packet : Packet)
deriving DecidableEq

def NatMapping.internal (m : NatMapping) : UInt32 × UInt16 := (m.internalIp, m.internalPort)

def NatMapping.external (m : NatMapping) : UInt32 × UInt16 := (m.externalIp, m.externalPort)

def NatMapping.touch (now : Int) (m : NatMapping) : NatMapping := { m with updateTime := now }

@[simp] theorem NatMapping.touch_internal (now : Int) (m : NatMapping) :
    (m.touch now).internal = m.internal := rfl

@[simp] theorem NatMapping.touch_external (now : Int) (m : NatMapping) :
    (m.touch now).external = m.external := rfl

def hash8 (ip : UInt32) : UInt8 :=
  (ip >>> 24).toUInt8 ^^^ (ip >>> 16).toUInt8 ^^^ (ip >>> 8).toUInt8 ^^^ ip.toUInt8

/-- The ports that `getport` tries, in its order. -/
def portPool : List Nat := List.range' NAT_PORT_MIN (NAT_PORT_MAX - NAT_PORT_MIN)

/-- The first free port of the pool; `NAT_PORT_MAX` when the loop finds none. -/
def getport (assigned : Nat → Bool) : Nat × (Nat → Bool) :=
  match portPool.find? fun i => !assigned i with
  | some i => (i, fun j => if j = i then true else assigned j)
  | none => (NAT_PORT_MAX, assigned)

def noConnection : NatConnection :=
  { internalFin := 0, externalFin := 0, internalSeqEnd := 0, externalSeqEnd := 0,
    internalAck := 0, externalAck := 0 }

section Translation

variable (longestPrefixMatch : UInt32 → Option RtEntry)

def insertNatEntry (nat : NatTable) (internalIp : UInt32) (sport : UInt16) (destIp : UInt32)
    (head : UInt8) : Option (NatMapping × NatTable) :=
  (longestPrefixMatch destIp).map fun rtEntry =>
    let (port, assigned) := getport nat.assignedPorts
    let temp : NatMapping :=
      { internalIp := internalIp, externalIp := rtEntry.iface.ip, internalPort := sport,
        externalPort := UInt16.ofNat port, updateTime := 0, conn := noConnection }
    (temp, { natMappingList := nat.natMappingList.append head temp, assignedPorts := assigned })

/-- `nat_entry->update_time = time(NULL)` on the first entry of a bucket that matches. -/
def NatTable.touchFirst (nat : NatTable) (b : UInt8) (p : NatMapping → Bool) (now : Int) :
    NatTable :=
  { nat with
    natMappingList := Function.update nat.natMappingList b
      (updateFirst p (NatMapping.touch now) (nat.natMappingList b)) }

def matchesExternal (ip : UInt32) (port : UInt16) (m : NatMapping) : Bool :=
  m.externalIp == ip && m.externalPort == port

def matchesInternal (ip : UInt32) (port : UInt16) (m : NatMapping) : Bool :=
  m.internalIp == ip && m.internalPort == port

/-- `do_translation`.  An inbound packet without a mapping is freed and then still
handed to `ip_send_packet`. -/
def doTranslation (nat : NatTable) (packet : Packet) (dir : PacketDir) (now : Int) :
    Option (NatTable × List Action) :=
  if dir = .dirIn then
    let head := hash8 packet.saddr
    let found := matchesExternal packet.daddr packet.dport
    match (nat.natMappingList head).find? found with
    | none => some (nat, [.icmpSendPacket packet, .free, .ipSendPacket packet])
    | some natEntry =>
      some (nat.touchFirst head found now,
        [.ipSendPacket
          { packet with daddr := natEntry.internalIp, dport := natEntry.internalPort }])
  else
    let head := hash8 packet.daddr
    let found := matchesInternal packet.saddr packet.sport
    match (nat.natMappingList head).find? found with
    | none =>
      (insertNatEntry longestPrefixMatch nat packet.saddr packet.sport packet.daddr head).map
        fun (natEntry, inserted) =>
          (inserted.touchFirst head found now,
            [.ipSendPacket
              { packet with saddr := natEntry.externalIp, sport := natEntry.externalPort }])
    | some natEntry =>
      some (nat.touchFirst head found now,
        [.ipSendPacket
          { packet with saddr := natEntry.externalIp, sport := natEntry.externalPort }])

/-- The condition under which the sweep at `now` deletes a mapping. -/
def Finished (now : Int) (m : NatMapping) : Prop :=
  m.conn.externalFin = 1 ∧ m.conn.internalFin = 1 ∧
      m.conn.externalSeqEnd = m.conn.internalAck ∧ m.conn.internalSeqEnd = m.conn.externalAck ∨
    TCP_ESTABLISHED_TIMEOUT < now - m.updateTime

instance (now : Int) (m : NatMapping) : Decidable (Finished now m) :=
  inferInstanceAs (Decidable (_ ∧ _ ∧ _ ∧ _ ∨ _))

/-- One round of `nat_timeout`.  The port of a deleted mapping stays assigned. -/
def natTimeout (nat : NatTable) (now : Int) : NatTable :=
  { nat with
    natMappingList := fun b =>
      (nat.natMappingList b).filter fun m => !decide (Finished now m) }

def natTableInit : NatTable :=
  { natMappingList := fun _ => [], assignedPorts := fun _ => false }

inductive Event
  | translate (packet : Packet) (dir : PacketDir) (now : Int)
  | sweep (now : Int)

def step (nat : NatTable) : Event → Option NatTable
  | .translate packet dir now => (doTranslation longestPrefixMatch nat packet dir now).map Prod.fst
  | .sweep now => some (natTimeout nat now)

end Translation

section Lemmas

variable {longestPrefixMatch : UInt32 → Option RtEntry} {nat next : NatTable}

theorem matchesExternal_iff {ip : UInt32} {port : UInt16} {m : NatMapping} :
    matchesExternal ip port m = true ↔ m.external = (ip, port) := by
  simp [matchesExternal, NatMapping.external]

theorem matchesInternal_iff {ip : UInt32} {port : UInt16} {m : NatMapping} :
    matchesInternal ip port m = true ↔ m.internal = (ip, port) := by
  simp [matchesInternal, NatMapping.internal]

@[simp] theorem touchFirst_assignedPorts (b : UInt8) (p : NatMapping → Bool) (now : Int) :
    (nat.touchFirst b p now).assignedPorts = nat.assignedPorts := rfl

theorem touchFirst_map {κ : Type} (nat : NatTable) (key : NatMapping → κ) (b : UInt8)
    (p : NatMapping → Bool) (now : Int) (kept : ∀ m, key (m.touch now) = key m) (c : UInt8) :
    ((nat.touchFirst b p now).natMappingList c).map key = (nat.natMappingList c).map key := by
  unfold NatTable.touchFirst
  by_cases same : c = b
  · subst same
    simp [map_updateFirst p kept]
  · simp [Function.update_of_ne same]

def newMapping (nat : NatTable) (packet : Packet) (rtEntry : RtEntry) : NatMapping :=
  { internalIp := packet.saddr, externalIp := rtEntry.iface.ip, internalPort := packet.sport,
    externalPort := UInt16.ofNat (getport nat.assignedPorts).1, updateTime := 0,
    conn := noConnection }

def NatTable.grow (nat : NatTable) (packet : Packet) (rtEntry : RtEntry) : NatTable :=
  { natMappingList :=
      nat.natMappingList.append (hash8 packet.daddr) (newMapping nat packet rtEntry),
    assignedPorts := (getport nat.assignedPorts).2 }

@[simp] theorem grow_natMappingList (packet : Packet) (rtEntry : RtEntry) :
    (nat.grow packet rtEntry).natMappingList =
      nat.natMappingList.append (hash8 packet.daddr) (newMapping nat packet rtEntry) := rfl

/-- No mapping serves this outbound packet yet. -/
def Unmapped (nat : NatTable) (packet : Packet) : Prop :=
  (nat.natMappingList (hash8 packet.daddr)).find? (matchesInternal packet.saddr packet.sport) = none

instance (nat : NatTable) (packet : Packet) : Decidable (Unmapped nat packet) :=
  inferInstanceAs (Decidable (_ = none))

theorem unmapped_iff {packet : Packet} :
    Unmapped nat packet ↔ (packet.saddr, packet.sport) ∉
      (nat.natMappingList (hash8 packet.daddr)).map NatMapping.internal := by
  simp [Unmapped, List.find?_eq_none, matchesInternal_iff]

theorem find?_grow {packet : Packet} {rtEntry : RtEntry} (unmapped : Unmapped nat packet) :
    ((nat.grow packet rtEntry).natMappingList (hash8 packet.daddr)).find?
      (matchesInternal packet.saddr packet.sport) = some (newMapping nat packet rtEntry) := by
  have isNew : (newMapping nat packet rtEntry).internal = (packet.saddr, packet.sport) := rfl
  rw [grow_natMappingList, Buckets.append_same, List.find?_append, unmapped, Option.none_or,
    List.find?_cons_of_pos (matchesInternal_iff.mpr isNew)]

theorem doTranslation_cases {packet : Packet} {dir : PacketDir} {now : Int}
    {actions : List Action}
    (taken : doTranslation longestPrefixMatch nat packet dir now = some (next, actions)) :
    ((dir = .dirIn ∨ ¬ Unmapped nat packet) ∧
      (next = nat ∨ ∃ b p, next = nat.touchFirst b p now)) ∨
    (dir ≠ .dirIn ∧ Unmapped nat packet ∧
      ∃ rtEntry, longestPrefixMatch packet.daddr = some rtEntry ∧
        next = (nat.grow packet rtEntry).touchFirst (hash8 packet.daddr)
          (matchesInternal packet.saddr packet.sport) now) := by
  unfold doTranslation at taken
  split_ifs at taken with inbound
  · refine Or.inl ⟨Or.inl inbound, ?_⟩
    cases found : (nat.natMappingList (hash8 packet.saddr)).find?
        (matchesExternal packet.daddr packet.dport) with
    | none =>
        simp only [found, Option.some.injEq, Prod.mk.injEq] at taken
        exact Or.inl taken.1.symm
    | some natEntry =>
        simp only [found, Option.some.injEq, Prod.mk.injEq] at taken
        exact Or.inr ⟨_, _, taken.1.symm⟩
  · cases found : (nat.natMappingList (hash8 packet.daddr)).find?
        (matchesInternal packet.saddr packet.sport) with
    | none =>
        right
        simp only [found, insertNatEntry, Option.map_map] at taken
        obtain ⟨rtEntry, route, result⟩ := Option.map_eq_some_iff.mp taken
        exact ⟨inbound, found, rtEntry, route, (congrArg Prod.fst result).symm⟩
    | some natEntry =>
        have mapped : ¬ Unmapped nat packet := by simp [Unmapped, found]
        simp only [found, Option.some.injEq, Prod.mk.injEq] at taken
        exact Or.inl ⟨Or.inr mapped, Or.inr ⟨_, _, taken.1.symm⟩⟩

theorem doTranslation_unmapped {packet : Packet} {dir : PacketDir} {rtEntry : RtEntry} (now : Int)
    (outbound : dir ≠ .dirIn) (unmapped : Unmapped nat packet)
    (route : longestPrefixMatch packet.daddr = some rtEntry) :
    doTranslation longestPrefixMatch nat packet dir now =
      some ((nat.grow packet rtEntry).touchFirst (hash8 packet.daddr)
          (matchesInternal packet.saddr packet.sport) now,
        [.ipSendPacket
          { packet with
            saddr := rtEntry.iface.ip,
            sport := UInt16.ofNat (getport nat.assignedPorts).1 }]) := by
  unfold Unmapped at unmapped
  simp only [doTranslation, if_neg outbound, unmapped, insertNatEntry, route, Option.map_some]
  rfl

theorem step_cases {event : Event} (taken : step longestPrefixMatch nat event = some next) :
    (∃ packet dir now actions, event = .translate packet dir now ∧
      doTranslation longestPrefixMatch nat packet dir now = some (next, actions)) ∨
    (∃ now, event = .sweep now ∧ next = natTimeout nat now) := by
  cases event with
  | translate packet dir now =>
      obtain ⟨⟨table, actions⟩, translated, rfl⟩ := Option.map_eq_some_iff.mp taken
      exact Or.inl ⟨packet, dir, now, actions, rfl, translated⟩
  | sweep now => exact Or.inr ⟨now, rfl, (Option.some.inj taken).symm⟩

end Lemmas

end NetworkLab.AddressTranslation
