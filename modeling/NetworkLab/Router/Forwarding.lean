import NetworkLab.Checksum
import NetworkLab.Lib.Walk
import NetworkLab.Router.ArpCache

/-!
# Forwarding by the router

`handle_ip_packet` and `ip_forward_packet` of `08-router/ip.c`, and the journey of a packet from
router to router.  The functions work on the memory that starts with the packet: `none` stands
for an access behind it, and for the failed assertion of `checksum`.
-/
set_option autoImplicit false

namespace NetworkLab.Router

open Lib Lib.Bytes
open NetworkLab.ArpCache (ETH_ALEN)

def ETHER_HDR_SIZE : Nat := 14

def checksum (buffer : List UInt8) (offset nbytes : Nat) (sum : UInt32) : Option UInt16 :=
  if nbytes % 2 = 0 then do
    let sum ← sumWords buffer offset (nbytes / 2) sum
    let sum := (sum >>> 16) + (sum &&& 0xffff)
    let sum := sum + (sum >>> 16)
    some (~~~sum).toUInt16
  else none

def ipChecksum (packet : List UInt8) : Option UInt16 := do
  let ihl ← read8 packet ETHER_HDR_SIZE
  let cleared ← write packet (ETHER_HDR_SIZE + 10) (bytes16 0)
  checksum cleared ETHER_HDR_SIZE (ihl.toNat % 16 * 4) 0

inductive Disposal where
  | answered (type code : UInt8) (packet : List UInt8)
  | forwarded (iface : IfaceInfo) (nextHop : UInt32) (packet : List UInt8)

def ipForwardPacket (rtable : List RtEntry) (ipDst : UInt32) (packet : List UInt8) :
    Option Disposal := do
  let ttl ← read8 packet (ETHER_HDR_SIZE + 8)
  let packet ← write packet (ETHER_HDR_SIZE + 8) [ttl - 1]
  -- `ttl` is lowered before it is tested, and it is never below 0.
  if ttl - 1 ≤ 0 then some (.answered 11 0 packet)
  else do
    let sum ← ipChecksum packet
    let packet ← write packet (ETHER_HDR_SIZE + 10) (bytes16Little sum)
    match longestPrefixMatch rtable ipDst with
    | some dst => some (.forwarded dst.iface (if dst.gw = 0 then ipDst else dst.gw) packet)
    | none => some (.answered 3 0 packet)

def isEchoRequest (iface : IfaceInfo) (packet : List UInt8) : Option Bool := do
  let protocol ← read8 packet (ETHER_HDR_SIZE + 9)
  if protocol = 1 then do
    let ihl ← read8 packet ETHER_HDR_SIZE
    let type ← read8 packet (ETHER_HDR_SIZE + ihl.toNat % 16 * 4)
    let daddr ← read32 packet (ETHER_HDR_SIZE + 16)
    some (type == 8 && iface.ip == daddr)
  else some false

def handleIpPacket (iface : IfaceInfo) (rtable : List RtEntry) (packet : List UInt8) :
    Option Disposal := do
  let packet ← write packet ETH_ALEN iface.mac.toList
  if ← isEchoRequest iface packet then some (.answered 8 0 packet)
  else do
    let daddr ← read32 packet (ETHER_HDR_SIZE + 16)
    ipForwardPacket rtable daddr packet

/-! ## Journeys -/

/-- A router that a packet comes to: the Ethernet header of the frame, the interface, the table
at that time, and what lies in memory behind the packet. -/
structure Visit where
  ether : Vector UInt8 14
  iface : IfaceInfo
  rtable : List RtEntry
  behind : List UInt8

def Visit.received (visit : Visit) (packet : List UInt8) : List UInt8 :=
  visit.ether.toList ++ packet.drop ETHER_HDR_SIZE

def Visit.sent (visit : Visit) (packet : List UInt8) : Option (List UInt8) :=
  match handleIpPacket visit.iface visit.rtable (visit.received packet ++ visit.behind) with
  | some (.forwarded _ _ copy) => some (copy.take (visit.received packet).length)
  | _ => none

/-- The copies that are forwarded when a packet comes to one router after the other, up to the
router that does not forward it. -/
def journey (packet : List UInt8) : List Visit → List (List UInt8)
  | [] => []
  | visit :: later =>
    match visit.sent packet with
    | some copy => copy :: journey copy later
    | none => []

def ipTtl (packet : List UInt8) : Nat := ((read8 packet (ETHER_HDR_SIZE + 8)).getD 0).toNat

/-- The `ttl` of a copy is at least 1 and smaller than the one received. -/
def Ages (received sent : List UInt8) : Prop := 1 ≤ ipTtl sent ∧ ipTtl sent < ipTtl received

structure HopsBounded (packet : List UInt8) (visits : List Visit) : Prop where
  ages : (packet :: journey packet visits).IsChain Ages
  hops : (journey packet visits).length ≤ ipTtl packet

/-! ## One router -/

section OneRouter

variable {packet memory copy : List UInt8} {iface out : IfaceInfo} {nextHop : UInt32}
variable {rtable : List RtEntry}

theorem ipForwardPacket_forwarded {ipDst : UInt32}
    (forwards : ipForwardPacket rtable ipDst memory = some (.forwarded out nextHop copy)) :
    ∃ ttl, read8 memory (ETHER_HDR_SIZE + 8) = some ttl ∧ ttl ≠ 1 ∧
      read8 copy (ETHER_HDR_SIZE + 8) = some (ttl - 1) := by
  obtain ⟨ttl, readsTtl, forwards⟩ := Option.bind_eq_some_iff.mp forwards
  obtain ⟨aged, agedWritten, forwards⟩ := Option.bind_eq_some_iff.mp forwards
  split_ifs at forwards with expired
  · cases forwards
  · obtain ⟨sum, -, forwards⟩ := Option.bind_eq_some_iff.mp forwards
    obtain ⟨summed, sumWritten, forwards⟩ := Option.bind_eq_some_iff.mp forwards
    have isCopy : copy = summed := by
      cases route : longestPrefixMatch rtable ipDst with
      | none =>
          rw [route] at forwards
          cases forwards
      | some entry =>
          rw [route] at forwards
          cases forwards
          rfl
    have fits := (exists_write_iff _ _ _).mp ⟨_, sumWritten⟩
    have kept : read8 summed (ETHER_HDR_SIZE + 8) = read8 aged (ETHER_HDR_SIZE + 8) := by
      apply (stable_read8 (ETHER_HDR_SIZE + 8)).before_write _ sumWritten
      rw [exists_read8_iff, List.length_take]
      omega
    refine ⟨ttl, readsTtl, ?_, ?_⟩
    · intro last
      rw [last] at expired
      exact expired (by decide)
    · rw [isCopy, kept]
      exact read8_write agedWritten

/-- What is forwarded is a packet that does not expire, with its `ttl` lowered. -/
theorem handleIpPacket_forwarded
    (forwards : handleIpPacket iface rtable memory = some (.forwarded out nextHop copy)) :
    ∃ ttl, read8 memory (ETHER_HDR_SIZE + 8) = some ttl ∧ ttl ≠ 1 ∧
      read8 copy (ETHER_HDR_SIZE + 8) = some (ttl - 1) := by
  obtain ⟨marked, written, forwards⟩ := Option.bind_eq_some_iff.mp forwards
  obtain ⟨echo, -, forwards⟩ := Option.bind_eq_some_iff.mp forwards
  split_ifs at forwards
  · cases forwards
  · obtain ⟨daddr, -, forwards⟩ := Option.bind_eq_some_iff.mp forwards
    have aged := ipForwardPacket_forwarded forwards
    rwa [read8_behind_write written (by rw [Vector.length_toList]; decide)] at aged

theorem length_received (visit : Visit) (packet : List UInt8) :
    (visit.received packet).length = ETHER_HDR_SIZE + (packet.length - ETHER_HDR_SIZE) := by
  rw [Visit.received, List.length_append, List.length_drop, visit.ether.length_toList,
    ETHER_HDR_SIZE]

theorem read8_received (visit : Visit) (packet : List UInt8) :
    read8 (visit.received packet) (ETHER_HDR_SIZE + 8) = read8 packet (ETHER_HDR_SIZE + 8) := by
  have place : visit.ether.toList.length = ETHER_HDR_SIZE := visit.ether.length_toList
  rw [Visit.received, read8_behind _ _ 8 place, read8, read8, List.getElem?_drop]

theorem ages_of_lowered {ttl : UInt8} (received : read8 packet (ETHER_HDR_SIZE + 8) = some ttl)
    (sent : read8 copy (ETHER_HDR_SIZE + 8) = some (ttl - 1)) (alive : ttl ≠ 0)
    (another : ttl ≠ 1) : Ages packet copy := by
  have positive : ttl.toNat ≠ 0 := fun zero => alive (UInt8.toNat_inj.mp zero)
  have notLast : ttl.toNat ≠ 1 := fun one => another (UInt8.toNat_inj.mp one)
  have lowered : (ttl - 1).toNat = ttl.toNat - 1 := by
    have small := ttl.toNat_lt
    rw [UInt8.toNat_sub]
    change (256 - 1 + ttl.toNat) % 256 = ttl.toNat - 1
    omega
  rw [Ages, ipTtl, ipTtl, received, sent, Option.getD_some, Option.getD_some, lowered]
  omega

theorem sent_ages {visit : Visit} (alive : ipTtl packet ≠ 0)
    (forwards : visit.sent packet = some copy) : Ages packet copy := by
  cases readsTtl : read8 packet (ETHER_HDR_SIZE + 8) with
  | none =>
      rw [ipTtl, readsTtl] at alive
      exact absurd rfl alive
  | some ttl =>
      rw [ipTtl, readsTtl, Option.getD_some] at alive
      unfold Visit.sent at forwards
      split at forwards
      case h_2 => cases forwards
      case h_1 out nextHop written handled =>
        cases forwards
        obtain ⟨seen, readsSeen, another, lowered⟩ := handleIpPacket_forwarded handled
        have same : ttl = seen :=
          (stable_read8 _).eq ((read8_received visit packet).trans readsTtl) readsSeen
        have inside : ETHER_HDR_SIZE + 8 < (visit.received packet).length := by
          have long := (exists_read8_iff _ _).mp ⟨ttl, readsTtl⟩
          rw [length_received]
          omega
        rw [← same] at another lowered
        apply ages_of_lowered readsTtl _ (fun zero => alive (congrArg UInt8.toNat zero)) another
        rw [read8, List.getElem?_take_of_lt inside]
        exact lowered

theorem checksum_even (buffer : List UInt8) (offset : Nat) {nbytes : Nat} (sum : UInt32)
    (even : nbytes % 2 = 0) :
    checksum buffer offset nbytes sum = NetworkLab.checksum buffer offset nbytes sum := by
  have notOdd : ¬ nbytes % 2 ≠ 0 := fun odd => odd even
  simp only [checksum, NetworkLab.checksum, if_pos even, if_neg notOdd]

theorem exists_ipChecksum (long : ETHER_HDR_SIZE + 60 ≤ memory.length) :
    ∃ sum, ipChecksum memory = some sum := by
  rw [ETHER_HDR_SIZE] at long
  obtain ⟨ihl, readsIhl⟩ := (exists_read8_iff memory ETHER_HDR_SIZE).mpr (by
    rw [ETHER_HDR_SIZE]
    omega)
  obtain ⟨cleared, written⟩ := (exists_write_iff memory (ETHER_HDR_SIZE + 10) (bytes16 0)).mpr (by
    rw [ETHER_HDR_SIZE, length_bytes16]
    omega)
  have fits : ETHER_HDR_SIZE + ihl.toNat % 16 * 4 ≤ cleared.length := by
    rw [length_write written, ETHER_HDR_SIZE]
    omega
  obtain ⟨sum, summed⟩ := (exists_checksum_iff cleared ETHER_HDR_SIZE (ihl.toNat % 16 * 4) 0).mpr
    (.inr fits)
  rw [← checksum_even _ _ _ (by omega)] at summed
  refine ⟨sum, ?_⟩
  simp only [ipChecksum, readsIhl, written, summed, Option.bind_eq_bind, Option.bind_some]

/-- Only a `ttl` of 1 keeps a packet with a route from being forwarded. -/
theorem exists_forwarded {ipDst : UInt32} {ttl : UInt8} {entry : RtEntry}
    (long : ETHER_HDR_SIZE + 60 ≤ memory.length)
    (readsTtl : read8 memory (ETHER_HDR_SIZE + 8) = some ttl) (another : ttl ≠ 1)
    (route : longestPrefixMatch rtable ipDst = some entry) :
    ∃ copy, ipForwardPacket rtable ipDst memory =
      some (.forwarded entry.iface (if entry.gw = 0 then ipDst else entry.gw) copy) := by
  obtain ⟨aged, agedWritten⟩ := (exists_write_iff memory (ETHER_HDR_SIZE + 8) [ttl - 1]).mpr
    (by rw [List.length_singleton]; omega)
  obtain ⟨sum, summed⟩ := exists_ipChecksum (long.trans (length_write agedWritten).ge)
  obtain ⟨copy, written⟩ := (exists_write_iff aged (ETHER_HDR_SIZE + 10) (bytes16Little sum)).mpr
    (by rw [length_write agedWritten, length_bytes16Little]; omega)
  have alive : ¬ ttl - 1 ≤ 0 := by
    intro expired
    apply another
    have zero : ttl - 1 = 0 := UInt8.le_zero_iff.mp expired
    rw [← UInt8.sub_add_cancel ttl 1, zero, UInt8.zero_add]
  refine ⟨copy, ?_⟩
  simp only [ipForwardPacket, readsTtl, agedWritten, if_neg alive, summed, written, route,
    Option.bind_eq_bind, Option.bind_some]

theorem isEchoRequest_other {daddr : UInt32} (long : ETHER_HDR_SIZE + 61 ≤ memory.length)
    (readsDst : read32 memory (ETHER_HDR_SIZE + 16) = some daddr) (other : iface.ip ≠ daddr) :
    isEchoRequest iface memory = some false := by
  obtain ⟨protocol, readsProtocol⟩ := (exists_read8_iff memory (ETHER_HDR_SIZE + 9)).mpr (by omega)
  obtain ⟨ihl, readsIhl⟩ := (exists_read8_iff memory ETHER_HDR_SIZE).mpr (by omega)
  obtain ⟨type, readsType⟩ :=
    (exists_read8_iff memory (ETHER_HDR_SIZE + ihl.toNat % 16 * 4)).mpr (by omega)
  simp [isEchoRequest, readsProtocol, readsIhl, readsType, readsDst, other]

theorem exists_handled {daddr : UInt32} {ttl : UInt8} {entry : RtEntry}
    (long : ETHER_HDR_SIZE + 61 ≤ memory.length)
    (readsTtl : read8 memory (ETHER_HDR_SIZE + 8) = some ttl) (another : ttl ≠ 1)
    (readsDst : read32 memory (ETHER_HDR_SIZE + 16) = some daddr) (other : iface.ip ≠ daddr)
    (route : longestPrefixMatch rtable daddr = some entry) :
    ∃ copy, handleIpPacket iface rtable memory =
      some (.forwarded entry.iface (if entry.gw = 0 then daddr else entry.gw) copy) := by
  have macSize : iface.mac.toList.length = 6 := iface.mac.length_toList
  rw [ETHER_HDR_SIZE] at long
  obtain ⟨marked, written⟩ := (exists_write_iff memory ETH_ALEN iface.mac.toList).mpr (by
    rw [macSize, ETH_ALEN]
    omega)
  have place : ETH_ALEN + iface.mac.toList.length = 12 := by rw [macSize, ETH_ALEN]
  have longMarked := long.trans (length_write written).ge
  rw [← read8_behind_write written (by rw [place]; decide)] at readsTtl
  rw [← read32_behind_write written (by rw [place]; decide)] at readsDst
  have echo := isEchoRequest_other longMarked readsDst other
  obtain ⟨copy, forwards⟩ := exists_forwarded (Nat.le_of_succ_le longMarked) readsTtl another route
  refine ⟨copy, ?_⟩
  simp only [handleIpPacket, written, echo, readsDst, Option.bind_eq_bind, Option.bind_some]
  exact forwards

end OneRouter

def openRouter (ipDst : UInt32) : Visit where
  ether := Vector.replicate 14 0
  iface := { index := 0, mac := noMac, ip := ipDst + 1 }
  rtable := [{ dest := ipDst, mask := 0xffffffff, gw := 0,
               iface := { index := 1, mac := noMac, ip := 0 } }]
  behind := List.replicate 80 0

theorem longestPrefixMatch_host (ipDst : UInt32) (gw : UInt32) (iface : IfaceInfo) :
    longestPrefixMatch [{ dest := ipDst, mask := 0xffffffff, gw := gw, iface := iface }] ipDst =
      some { dest := ipDst, mask := 0xffffffff, gw := gw, iface := iface } := by
  simp [longestPrefixMatch]

theorem read8_padded {packet : List UInt8} (expired : ipTtl packet = 0) (visit : Visit)
    {count : Nat} (long : ETHER_HDR_SIZE + 8 < count) :
    read8 (visit.received packet ++ List.replicate count 0) (ETHER_HDR_SIZE + 8) = some 0 := by
  have same := read8_received visit packet
  rw [ipTtl, ← same] at expired
  cases readsTtl : read8 (visit.received packet) (ETHER_HDR_SIZE + 8) with
  | none =>
      have short := List.getElem?_eq_none_iff.mp readsTtl
      rw [read8_append _ _ short, read8, List.getElem?_replicate, if_pos (by omega)]
  | some ttl =>
      rw [readsTtl, Option.getD_some] at expired
      exact (stable_read8 _ _ _ _ readsTtl).trans (congrArg some (UInt8.toNat_inj.mp expired))

theorem exists_sent_expired {packet : List UInt8} (expired : ipTtl packet = 0) :
    ∃ visit : Visit, ∃ copy, visit.sent packet = some copy := by
  obtain ⟨memory, isMemory⟩ : ∃ memory, (openRouter 0).received packet ++
      List.replicate 80 0 = memory := ⟨_, rfl⟩
  have long : ETHER_HDR_SIZE + 61 ≤ memory.length := by
    rw [← isMemory, List.length_append, List.length_replicate, ETHER_HDR_SIZE]
    omega
  have readsTtl : read8 memory (ETHER_HDR_SIZE + 8) = some 0 := by
    rw [← isMemory]
    exact read8_padded expired _ (by decide)
  obtain ⟨ipDst, readsDst⟩ := (exists_read32_iff memory (ETHER_HDR_SIZE + 16)).mpr (by omega)
  have other : (openRouter ipDst).iface.ip ≠ ipDst := by simp [openRouter]
  obtain ⟨copy, handled⟩ := exists_handled long readsTtl (by decide) readsDst other
    (longestPrefixMatch_host ipDst 0 { index := 1, mac := noMac, ip := 0 })
  rw [← isMemory] at handled
  refine ⟨openRouter ipDst, copy.take ((openRouter 0).received packet).length, ?_⟩
  unfold Visit.sent
  split
  case h_1 out hop written forwards =>
    have same := handled.symm.trans forwards
    cases same
    rfl
  case h_2 other =>
    exact absurd handled (other _ _ _)

/-! ## From router to router -/

theorem ages_journey {packet : List UInt8} (alive : ipTtl packet ≠ 0) (visits : List Visit) :
    (packet :: journey packet visits).IsChain Ages := by
  induction visits generalizing packet with
  | nil => exact .singleton packet
  | cons visit visits ih =>
      rw [journey]
      cases sent : visit.sent packet with
      | none => exact .singleton packet
      | some copy =>
          have ages := sent_ages alive sent
          exact List.isChain_cons_cons.mpr ⟨ages, ih (Nat.ne_of_gt ages.1)⟩

theorem hopsBounded_of_alive {packet : List UInt8} (alive : ipTtl packet ≠ 0)
    (visits : List Visit) : HopsBounded packet visits := by
  have ages := ages_journey alive visits
  have short := length_le_of_descending ipTtl 1 ages
  exact ⟨ages, short.trans (Nat.sub_le _ 1)⟩

/-- The hops of a packet are bounded in every network if it does not come with a `ttl` of 0. -/
theorem hops_bounded_iff (packet : List UInt8) :
    (∀ visits, HopsBounded packet visits) ↔ ipTtl packet ≠ 0 := by
  constructor
  · intro bounded expired
    obtain ⟨visit, copy, sent⟩ := exists_sent_expired expired
    have hops := (bounded [visit]).hops
    rw [journey, sent, expired] at hops
    exact absurd hops (Nat.not_succ_le_zero _)
  · intro alive visits
    exact hopsBounded_of_alive alive visits

def expiredPacket : List UInt8 :=
  List.replicate ETHER_HDR_SIZE 0 ++
    [0x45, 0, 0, 20, 0, 1, 0, 0, 0, 17, 0, 0, 10, 0, 0, 2, 10, 0, 0, 1]

def circle : List Visit := List.replicate 3 (openRouter 0x0A000001)

theorem expired_packet_lives :
    (journey expiredPacket circle).map ipTtl = [255, 254, 253] ∧
      ¬ HopsBounded expiredPacket circle := by
  have circles : (journey expiredPacket circle).map ipTtl = [255, 254, 253] := by decide
  refine ⟨circles, fun bounded => ?_⟩
  have hops := bounded.hops
  have count := congrArg List.length circles
  rw [List.length_map] at count
  rw [count] at hops
  exact absurd hops (by decide)

end NetworkLab.Router
