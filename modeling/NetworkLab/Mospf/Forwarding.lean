import NetworkLab.Lib.Walk
import NetworkLab.Mospf.Packets

/-!
# Forwarding

`ip_forward_packet`, and the journey of a packet from router to router.  `none` stands for a
read behind the end of a packet and for the failed assertion of `handle_ip_packet`.
-/
set_option autoImplicit false

namespace NetworkLab.Mospf

open Lib.Bytes Lib.OnesComplement

def ICMP_DEST_UNREACH : UInt8 := 3
def ICMP_TIME_EXCEEDED : UInt8 := 11
def ICMP_NET_UNREACH : UInt8 := 0
def ICMP_EXC_TTL : UInt8 := 0

inductive Disposal where
  | delivered
  | answered (type code : UInt8)
  | forwarded (copy : IpSent)

def lowerTtl (ttl : UInt8) (packet : List UInt8) : Option (List UInt8) := do
  let packet ← write packet (ETHER_HDR_SIZE + 8) [ttl - 1]
  let sum ← ipChecksum packet
  write packet (ETHER_HDR_SIZE + 10) (bytes16Little sum)

def ipForwardPacket (rtable : List RtEntry) (ipDst : UInt32) (packet : List UInt8) :
    Option Disposal := do
  let ttl ← read8 packet (ETHER_HDR_SIZE + 8)
  if ttl ≤ 1 then some (.answered ICMP_TIME_EXCEEDED ICMP_EXC_TTL)
  else do
    let packet ← lowerTtl ttl packet
    match longestPrefixMatch rtable ipDst with
    | none => some (.answered ICMP_DEST_UNREACH ICMP_NET_UNREACH)
    | some entry =>
      some (.forwarded
        { iface := entry.iface, nextHop := getNextHop entry ipDst, packet := packet })

def handleIpPacket (ip : UInt32) (rtable : List RtEntry) (packet : List UInt8) :
    Option Disposal := do
  let daddr ← read32 packet (ETHER_HDR_SIZE + 16)
  if daddr = ip then some .delivered
  else if daddr = MOSPF_ALLSPFRouters then do
    let protocol ← read8 packet (ETHER_HDR_SIZE + 9)
    if protocol = IPPROTO_MOSPF then some .delivered else none
  else ipForwardPacket rtable daddr packet

/-! ## Journeys -/

/-- A router that a packet comes to: the Ethernet header of the frame, the address of the
interface, and the table at that time. -/
structure Visit where
  ether : Vector UInt8 14
  ip : UInt32
  rtable : List RtEntry

def Visit.received (visit : Visit) (packet : List UInt8) : List UInt8 :=
  visit.ether.toList ++ packet.drop ETHER_HDR_SIZE

/-- The copies that are forwarded when a packet comes to one router after the other, up to the
router that does not forward it. -/
def journey (packet : List UInt8) : List Visit → List IpSent
  | [] => []
  | visit :: later =>
    match handleIpPacket visit.ip visit.rtable (visit.received packet) with
    | some (.forwarded copy) => copy :: journey copy.packet later
    | _ => []

def ipTtl (packet : List UInt8) : Nat := ((read8 packet (ETHER_HDR_SIZE + 8)).getD 0).toNat

def ipHdrSize (packet : List UInt8) : Nat :=
  ((read8 packet ETHER_HDR_SIZE).getD 0).toNat % 16 * 4

/-- The words of the header; the checksum counts as one also where `ihl` leaves it out. -/
def headerWords (packet : List UInt8) : List Nat :=
  let header := (packet.drop ETHER_HDR_SIZE).take (ipHdrSize packet)
  if 12 ≤ ipHdrSize packet then networkWords header
  else networkWords (header ++ (packet.drop (ETHER_HDR_SIZE + 10)).take 2)

/-- A copy has one hop less to go and a header with the right checksum. -/
structure LegalCopy (received sent : List UInt8) : Prop where
  alive : 1 < ipTtl received
  ttl : ipTtl sent + 1 = ipTtl received
  checksum : onesSum 65535 (headerWords sent) = 0xffff

theorem LegalCopy.of_drop {received copy sent : List UInt8} (legal : LegalCopy copy sent)
    (same : received.drop ETHER_HDR_SIZE = copy.drop ETHER_HDR_SIZE) :
    LegalCopy received sent := by
  have ttl : ipTtl received = ipTtl copy := by
    unfold ipTtl read8
    rw [← List.getElem?_drop, ← List.getElem?_drop, same]
  constructor
  · rw [ttl]
    exact legal.alive
  · rw [ttl]
    exact legal.ttl
  · exact legal.checksum

/-! ## One router -/

section OneRouter

variable {packet lowered : List UInt8} {ttl : UInt8}

theorem lowerTtl_cases (lowers : lowerTtl ttl packet = some lowered) :
    ∃ ether start field rest : List UInt8, ∃ sum : UInt16, ether.length = ETHER_HDR_SIZE ∧
      start.length = 10 ∧ field.length = 2 ∧ start[8]? = some (ttl - 1) ∧
      ipChecksum (ether ++ (start ++ (field ++ rest))) = some sum ∧
      lowered = ether ++ (start ++ (bytes16Little sum ++ rest)) := by
  obtain ⟨aged, agedWritten, lowers⟩ := Option.bind_eq_some_iff.mp lowers
  obtain ⟨sum, summed, stored⟩ := Option.bind_eq_some_iff.mp lowers
  have size := (exists_write_iff aged (ETHER_HDR_SIZE + 10) (bytes16Little sum)).mp ⟨_, stored⟩
  rw [length_bytes16Little] at size
  obtain ⟨ether, behindEther, rfl, etherSize⟩ := exists_cut aged ETHER_HDR_SIZE (by omega)
  rw [List.length_append] at size
  obtain ⟨start, behindStart, rfl, startSize⟩ := exists_cut behindEther 10 (by omega)
  rw [List.length_append] at size
  obtain ⟨field, rest, rfl, fieldSize⟩ := exists_cut behindStart 2 (by omega)
  refine ⟨ether, start, field, rest, sum, etherSize, startSize, fieldSize, ?_, summed, ?_⟩
  · have written := read8_write agedWritten
    rw [read8_behind _ _ 8 etherSize] at written
    rwa [read8, List.getElem?_append_left (by omega)] at written
  · rw [← List.append_assoc ether, write_append (ether ++ start) field (bytes16Little sum) rest _
      (by rw [List.length_append, etherSize, startSize])
      (fieldSize.trans (length_bytes16Little sum).symm)] at stored
    rw [← Option.some.inj stored, List.append_assoc]

theorem ipTtl_lowerTtl (lowers : lowerTtl ttl packet = some lowered) :
    ipTtl lowered = (ttl - 1).toNat := by
  obtain ⟨ether, start, field, rest, sum, etherSize, startSize, -, aged, -, rfl⟩ :=
    lowerTtl_cases lowers
  rw [ipTtl, read8_behind _ _ 8 etherSize, read8, List.getElem?_append_left (by omega), aged,
    Option.getD_some]

theorem sum_memoryWords_field {front : List UInt8} (rest : List UInt8) (field : UInt16)
    (even : front.length % 2 = 0) :
    (memoryWords (front ++ (bytes16Little field ++ rest))).sum =
      (memoryWords (front ++ (bytes16Little 0 ++ rest))).sum + field.toNat := by
  rw [memoryWords_append _ even, memoryWords_append _ even,
    memoryWords_append rest (by rw [length_bytes16Little]),
    memoryWords_append rest (by rw [length_bytes16Little]), memoryWords_bytes16Little,
    memoryWords_bytes16Little]
  simp only [List.sum_append, List.sum_cons, List.sum_nil, UInt16.toNat_zero]
  omega

section Parts

variable {ether start field rest : List UInt8} (etherSize : ether.length = ETHER_HDR_SIZE)
variable (startSize : start.length = 10) (fieldSize : field.length = 2)

include etherSize startSize

theorem read8_start (later : List UInt8) :
    read8 (ether ++ (start ++ later)) ETHER_HDR_SIZE = start[0]? :=
  (read8_behind ether _ 0 etherSize).trans (List.getElem?_append_left (by omega))

include fieldSize

/-- The checksum complements the header with a zero in its place, as far as `ihl` says. -/
theorem ipChecksum_complements {sum : UInt16}
    (summed : ipChecksum (ether ++ (start ++ (field ++ rest))) = some sum) :
    ∃ quarter, (∀ later, ipHdrSize (ether ++ (start ++ later)) = quarter * 4) ∧
      quarter * 4 ≤ (start ++ (bytes16 0 ++ rest)).length ∧
      folded 65535 ((memoryWords ((start ++ (bytes16 0 ++ rest)).take (quarter * 4))).sum +
        sum.toNat) = 65535 := by
  obtain ⟨ihl, readsIhl, summed⟩ := Option.bind_eq_some_iff.mp summed
  obtain ⟨cleared, written, summed⟩ := Option.bind_eq_some_iff.mp summed
  rw [← List.append_assoc ether, write_append (ether ++ start) field (bytes16 0) rest _
    (by rw [List.length_append, etherSize, startSize])
    (fieldSize.trans (length_bytes16 0).symm), List.append_assoc] at written
  rw [← Option.some.inj written] at summed
  obtain ⟨quarter, isQuarter, fits⟩ : ∃ quarter, ihl.toNat % 16 = quarter ∧ quarter < 16 :=
    ⟨_, rfl, Nat.mod_lt _ (by decide)⟩
  rw [isQuarter] at summed
  have inside := (exists_checksum_iff _ _ _ _).mp ⟨sum, summed⟩
  rw [List.length_append, etherSize] at inside
  have long : quarter * 4 ≤ (start ++ (bytes16 0 ++ rest)).length := by omega
  have length : ((start ++ (bytes16 0 ++ rest)).take (quarter * 4)).length = quarter * 4 :=
    List.length_take_of_le long
  refine ⟨quarter, fun later => ?_, long, ?_⟩
  · rw [ipHdrSize, read8_start etherSize startSize, ← read8_start etherSize startSize (field ++ rest),
      readsIhl, Option.getD_some, isQuarter]
  · rw [← List.take_append_drop (quarter * 4) (start ++ (bytes16 0 ++ rest))] at summed
    nth_rewrite 3 [← length] at summed
    exact checksum_complements etherSize (by omega) (by omega) summed

end Parts

theorem headerWords_lowerTtl (lowers : lowerTtl ttl packet = some lowered) :
    onesSum 65535 (headerWords lowered) = 0xffff := by
  obtain ⟨ether, start, field, rest, sum, etherSize, startSize, fieldSize, -, summed, rfl⟩ :=
    lowerTtl_cases lowers
  obtain ⟨quarter, size, long, full⟩ :=
    ipChecksum_complements etherSize startSize fieldSize summed
  have behind : (ether ++ (start ++ (bytes16Little sum ++ rest))).drop ETHER_HDR_SIZE =
      start ++ (bytes16Little sum ++ rest) := by
    rw [← etherSize, List.drop_left]
  have cut (field : UInt16) (large : 12 ≤ quarter * 4) :
      (start ++ (bytes16Little field ++ rest)).take (quarter * 4) =
        start ++ (bytes16Little field ++ rest.take (quarter * 4 - 10 - 2)) := by
    rw [List.take_append, List.take_append, startSize, length_bytes16Little,
      List.take_of_length_le (by omega), List.take_of_length_le (by rw [length_bytes16Little]; omega)]
  rw [headerWords, size, behind]
  by_cases large : 12 ≤ quarter * 4
  · rw [if_pos large]
    apply onesSum_networkWords_eq
    have zero : bytes16 0 = bytes16Little 0 := rfl
    rw [zero, cut 0 large] at full
    rw [cut sum large, sum_memoryWords_field _ sum (by rw [startSize])]
    exact full
  · have small : quarter * 4 ≤ start.length := by omega
    have field : (bytes16Little sum ++ rest).take 2 = bytes16Little sum :=
      List.take_left' (length_bytes16Little sum)
    rw [if_neg large, ← List.drop_drop, behind, ← startSize, List.drop_left, field]
    apply onesSum_networkWords_eq
    have length := List.length_take_of_le long
    rw [List.take_append_of_le_length small] at full length ⊢
    rw [memoryWords_append _ (by omega), List.sum_append, memoryWords_bytes16Little,
      List.sum_singleton]
    exact full

theorem handleIpPacket_forwarded {ip : UInt32} {rtable : List RtEntry} {copy : IpSent}
    (forwards : handleIpPacket ip rtable packet = some (.forwarded copy)) :
    LegalCopy packet copy.packet := by
  obtain ⟨daddr, -, forwards⟩ := Option.bind_eq_some_iff.mp forwards
  split_ifs at forwards with own all
  · cases forwards
  · obtain ⟨protocol, -, forwards⟩ := Option.bind_eq_some_iff.mp forwards
    split_ifs at forwards
    cases forwards
  · obtain ⟨ttl, readsTtl, forwards⟩ := Option.bind_eq_some_iff.mp forwards
    split_ifs at forwards with expired
    · cases forwards
    · obtain ⟨lowered, lowers, forwards⟩ := Option.bind_eq_some_iff.mp forwards
      have received : ipTtl packet = ttl.toNat := by rw [ipTtl, readsTtl, Option.getD_some]
      have alive : 1 < ttl.toNat := UInt8.lt_iff_toNat_lt.mp (UInt8.not_le.mp expired)
      have isLowered : copy.packet = lowered := by
        cases route : longestPrefixMatch rtable daddr with
        | none =>
          rw [route] at forwards
          cases forwards
        | some entry =>
          rw [route] at forwards
          cases forwards
          rfl
      rw [isLowered]
      constructor
      · rw [received]
        exact alive
      · have small := ttl.toNat_lt
        rw [ipTtl_lowerTtl lowers, received, UInt8.toNat_sub]
        change (256 - 1 + ttl.toNat) % 256 + 1 = ttl.toNat
        omega
      · exact headerWords_lowerTtl lowers

end OneRouter

/-! ## From router to router -/

theorem isChain_journey (packet : List UInt8) (visits : List Visit) :
    (packet :: (journey packet visits).map IpSent.packet).IsChain LegalCopy := by
  induction visits generalizing packet with
  | nil => exact .singleton packet
  | cons visit visits ih =>
    rw [journey]
    cases handled : handleIpPacket visit.ip visit.rtable (visit.received packet) with
    | none => exact .singleton packet
    | some disposal =>
      cases disposal with
      | delivered => exact .singleton packet
      | answered type code => exact .singleton packet
      | forwarded copy =>
        have same : packet.drop ETHER_HDR_SIZE = (visit.received packet).drop ETHER_HDR_SIZE := by
          rw [Visit.received]
          exact (List.drop_left' visit.ether.length_toList).symm
        exact List.isChain_cons_cons.mpr
          ⟨(handleIpPacket_forwarded handled).of_drop same, ih copy.packet⟩

theorem LegalCopy.ttl_lt {received sent : List UInt8} (legal : LegalCopy received sent) :
    1 ≤ ipTtl sent ∧ ipTtl sent < ipTtl received := by
  have alive := legal.alive
  have ttl := legal.ttl
  omega

theorem length_lt_ttl {packet : List UInt8} {copies : List (List UInt8)}
    (legal : (packet :: copies).IsChain LegalCopy) : copies.length ≤ ipTtl packet - 1 :=
  Lib.length_le_of_descending ipTtl 1 (legal.imp fun _ _ copied => copied.ttl_lt)

/-- On every journey, each copy is legal for the packet that the router received, and there are
fewer copies than the `ttl` of the packet says. -/
theorem journeys_bounded (packet : List UInt8) (visits : List Visit) :
    (packet :: (journey packet visits).map IpSent.packet).IsChain LegalCopy ∧
      (journey packet visits).length ≤ ipTtl packet - 1 := by
  have legal := isChain_journey packet visits
  have bound := length_lt_ttl legal
  rw [List.length_map] at bound
  exact ⟨legal, bound⟩

end NetworkLab.Mospf
