import NetworkLab.Mospf.Packets

/-!
# ICMP messages

What the two versions of `icmp_send_packet` share: copies between buffers, the checksum of a
message, and the echo that a packet carries.  `none` stands for an access outside a buffer and
for a failed assertion.
-/
set_option autoImplicit false

namespace NetworkLab.Icmp

open Lib.Bytes
open NetworkLab.Mospf (ETHER_HDR_SIZE IP_BASE_HDR_SIZE ipHeader)

def ICMP_HDR_SIZE : Nat := 8
def ICMP_COPIED_DATA_LEN : Nat := 8
def IPPROTO_ICMP : UInt8 := 1

def ICMP_ECHOREQUEST : UInt8 := 8
def ICMP_ECHOREPLY : UInt8 := 0
def ICMP_DEST_UNREACH : UInt8 := 3
def ICMP_TIME_EXCEEDED : UInt8 := 11

def ICMP_NET_UNREACH : UInt8 := 0
def ICMP_EXC_TTL : UInt8 := 0

/-- Where the message lies in the packets that `icmp_send_packet` fills. -/
def ICMP_OFFSET : Nat := ETHER_HDR_SIZE + IP_BASE_HDR_SIZE

/-- `heap` is what lies in the memory that is found. -/
def malloc (heap : Nat → UInt8) (size : Nat) : List UInt8 := (List.range size).map heap

@[simp] theorem length_malloc (heap : Nat → UInt8) (size : Nat) :
    (malloc heap size).length = size := by
  rw [malloc, List.length_map, List.length_range]

/-- A negative count becomes a size that no buffer has. -/
def memcpy (packet : List UInt8) (offset : Nat) (source : List UInt8) (start : Nat) (count : Int) :
    Option (List UInt8) :=
  if 0 ≤ count ∧ start + count ≤ source.length then
    write packet offset ((source.drop start).take count.toNat)
  else none

/-- `icmp->checksum = icmp_checksum(icmp, len)`, with the `checksum` of the stack. -/
def setIcmpChecksum (checksum : List UInt8 → Nat → Nat → UInt32 → Option UInt16) (icmp len : Nat)
    (packet : List UInt8) : Option (List UInt8) := do
  let cleared ← write packet (icmp + 2) (bytes16 0)
  let sum ← checksum cleared icmp len 0
  write packet (icmp + 2) (bytes16Little sum)

/-- `IP_HDR_SIZE(ip)`. -/
def ipHdrSize (packet : List UInt8) : Nat :=
  ((read8 packet ETHER_HDR_SIZE).getD 0).toNat % 16 * 4

def totLen (packet : List UInt8) : Nat :=
  ((read16 packet (ETHER_HDR_SIZE + 2)).getD 0).toNat

theorem ipHdrSize_of_read8 {packet : List UInt8} {ihl : UInt8}
    (isIhl : read8 packet ETHER_HDR_SIZE = some ihl) :
    ipHdrSize packet = ihl.toNat % 16 * 4 := by
  rw [ipHdrSize, isIhl, Option.getD_some]

theorem totLen_of_read16 {packet : List UInt8} {total : UInt16}
    (isTotal : read16 packet (ETHER_HDR_SIZE + 2) = some total) :
    totLen packet = total.toNat := by
  rw [totLen, isTotal, Option.getD_some]

/-! ## Echoes -/

/-- What a reply has to carry. -/
structure Echo where
  identifier : UInt16
  sequence : UInt16
  data : List UInt8

structure WellFormedEcho (packet : List UInt8) : Prop where
  header : IP_BASE_HDR_SIZE ≤ ipHdrSize packet
  message : ipHdrSize packet + ICMP_HDR_SIZE ≤ totLen packet
  frame : ETHER_HDR_SIZE + totLen packet ≤ packet.length

theorem wellFormedEcho_iff (packet : List UInt8) : WellFormedEcho packet ↔
    IP_BASE_HDR_SIZE ≤ ipHdrSize packet ∧ ipHdrSize packet + ICMP_HDR_SIZE ≤ totLen packet ∧
      ETHER_HDR_SIZE + totLen packet ≤ packet.length :=
  ⟨fun formed => ⟨formed.header, formed.message, formed.frame⟩,
    fun fits => ⟨fits.1, fits.2.1, fits.2.2⟩⟩

instance (packet : List UInt8) : Decidable (WellFormedEcho packet) :=
  decidable_of_iff' _ (wellFormedEcho_iff packet)

def echoBytes (packet : List UInt8) : List UInt8 :=
  (packet.take (ETHER_HDR_SIZE + totLen packet)).drop (ETHER_HDR_SIZE + ipHdrSize packet + 4)

def parseEcho (bytes : List UInt8) : Option Echo := do
  let identifier ← read16 bytes 0
  let sequence ← read16 bytes 2
  some { identifier := identifier, sequence := sequence, data := bytes.drop 4 }

def readEcho (packet : List UInt8) : Option Echo :=
  if WellFormedEcho packet then parseEcho (echoBytes packet) else none

theorem length_parseEcho {bytes : List UInt8} {echo : Echo} (parsed : parseEcho bytes = some echo) :
    echo.data.length = bytes.length - 4 := by
  obtain ⟨identifier, -, parsed⟩ := Option.bind_eq_some_iff.mp parsed
  obtain ⟨sequence, -, parsed⟩ := Option.bind_eq_some_iff.mp parsed
  rw [← Option.some.inj parsed, List.length_drop]

theorem exists_parseEcho {bytes : List UInt8} (fits : 4 ≤ bytes.length) :
    ∃ echo, parseEcho bytes = some echo := by
  cases (exists_read16_iff bytes 0).mpr (by omega) with
  | intro identifier first =>
    cases (exists_read16_iff bytes 2).mpr fits with
    | intro sequence second =>
      refine ⟨{ identifier := identifier, sequence := sequence, data := bytes.drop 4 }, ?_⟩
      simp only [parseEcho, first, second, Option.bind_eq_bind, Option.bind_some]

theorem length_echoBytes {packet : List UInt8} (formed : WellFormedEcho packet) :
    (echoBytes packet).length = totLen packet - ipHdrSize packet - 4 := by
  have frame := formed.frame
  rw [echoBytes, List.length_drop, List.length_take_of_le frame]
  omega

theorem echoBytes_eq (packet : List UInt8) :
    echoBytes packet = (packet.drop (ETHER_HDR_SIZE + ipHdrSize packet + 4)).take
      (totLen packet - ipHdrSize packet - 4) := by
  have count : ETHER_HDR_SIZE + totLen packet - (ETHER_HDR_SIZE + ipHdrSize packet + 4) =
      totLen packet - ipHdrSize packet - 4 := by omega
  rw [echoBytes, List.drop_take, count]

theorem exists_readEcho {packet : List UInt8} (formed : WellFormedEcho packet) :
    ∃ echo, readEcho packet = some echo := by
  have message := formed.message
  rw [readEcho, if_pos formed]
  apply exists_parseEcho
  rw [length_echoBytes formed]
  simp only [ICMP_HDR_SIZE] at message
  omega

theorem readEcho_congr {packet other : List UInt8} (length : packet.length = other.length)
    (same : ∀ place, ETHER_HDR_SIZE ≤ place → read8 packet place = read8 other place) :
    readEcho packet = readEcho other := by
  have hdrSize : ipHdrSize packet = ipHdrSize other := by
    rw [ipHdrSize, ipHdrSize, same _ le_rfl]
  have total : totLen packet = totLen other := by
    simp only [totLen, read16]
    rw [same _ (by omega), same _ (by omega)]
  have bytes : echoBytes packet = echoBytes other := by
    apply List.ext_getElem?
    intro i
    rw [echoBytes, echoBytes, hdrSize, total, List.getElem?_drop, List.getElem?_drop,
      List.getElem?_take, List.getElem?_take]
    split_ifs
    · exact same _ (by omega)
    · rfl
  have formed : WellFormedEcho packet ↔ WellFormedEcho other := by
    rw [wellFormedEcho_iff, wellFormedEcho_iff, hdrSize, total, length]
  simp only [readEcho, formed, bytes]

theorem readEcho_headers {ether head : List UInt8} (rest : List UInt8) (saddr daddr : UInt32)
    (len : UInt16) (proto : UInt8) (id sum : UInt16) (etherSize : ether.length = ETHER_HDR_SIZE)
    (headSize : head.length = 4) :
    readEcho (ether ++ (ipHeader saddr daddr len proto id sum ++ (head ++ rest))) =
      if 28 ≤ len.toNat ∧ len.toNat ≤ 24 + rest.length then
        parseEcho (rest.take (len.toNat - 24))
      else none := by
  obtain ⟨packet, isPacket⟩ : ∃ packet, ether ++ (ipHeader saddr daddr len proto id sum ++
      (head ++ rest)) = packet := ⟨_, rfl⟩
  have headerSize : (ipHeader saddr daddr len proto id sum).length = IP_BASE_HDR_SIZE := rfl
  have length : packet.length = 38 + rest.length := by
    rw [← isPacket]
    simp only [List.length_append, etherSize, headSize, headerSize, ETHER_HDR_SIZE,
      IP_BASE_HDR_SIZE]
    omega
  have ihl : read8 packet ETHER_HDR_SIZE = some 0x45 := by
    rw [← isPacket, read8_append _ _ etherSize.le, etherSize, Nat.sub_self]
    rfl
  have hdrSize : ipHdrSize packet = 20 := by
    rw [ipHdrSize, ihl]
    decide
  have total : totLen packet = len.toNat := by
    rw [totLen, ← isPacket, read16_behind _ _ 2 etherSize]
    exact congrArg UInt16.toNat (join16 len)
  have behind : packet.drop 38 = rest := by
    have front : (ether ++ (ipHeader saddr daddr len proto id sum ++ head)).length = 38 := by
      simp only [List.length_append, etherSize, headSize, headerSize]
      rfl
    rw [← isPacket, ← List.append_assoc _ head, ← List.append_assoc ether]
    exact List.drop_left' front
  have formed : WellFormedEcho packet ↔ 28 ≤ len.toNat ∧ len.toNat ≤ 24 + rest.length := by
    rw [wellFormedEcho_iff, hdrSize, total, length]
    simp only [IP_BASE_HDR_SIZE, ICMP_HDR_SIZE, ETHER_HDR_SIZE]
    omega
  have carried : echoBytes packet = rest.take (len.toNat - 24) := by
    rw [echoBytes, hdrSize, total, List.drop_take, ← behind]
    simp only [ETHER_HDR_SIZE]
    congr 1
    omega
  rw [isPacket, readEcho, carried]
  simp only [formed]

/-! ## On the way to `icmp_send_packet` -/

/-- The MAC addresses, the `ttl` and the checksum of the header may have changed. -/
structure Marked (received packet : List UInt8) : Prop where
  length : packet.length = received.length
  kept : ∀ place, ETHER_HDR_SIZE ≤ place → place ≠ ETHER_HDR_SIZE + 8 →
    place ≠ ETHER_HDR_SIZE + 10 → place ≠ ETHER_HDR_SIZE + 11 →
      read8 packet place = read8 received place

namespace Marked

variable {received middle packet : List UInt8}

theorem refl (packet : List UInt8) : Marked packet packet where
  length := rfl
  kept := fun _ _ _ _ _ => rfl

theorem trans (first : Marked received middle) (second : Marked middle packet) :
    Marked received packet where
  length := second.length.trans first.length
  kept := fun place behind ttl high low =>
    (second.kept place behind ttl high low).trans (first.kept place behind ttl high low)

theorem symm (marked : Marked received packet) : Marked packet received where
  length := marked.length.symm
  kept := fun place behind ttl high low => (marked.kept place behind ttl high low).symm

theorem of_write {bytes : List UInt8} {offset : Nat}
    (written : write received offset bytes = some packet)
    (place : offset + bytes.length ≤ ETHER_HDR_SIZE ∨
      (offset = ETHER_HDR_SIZE + 8 ∧ bytes.length = 1) ∨
        (offset = ETHER_HDR_SIZE + 10 ∧ bytes.length = 2)) : Marked received packet where
  length := length_write written
  kept := by
    intro other behind ttl high low
    apply read8_outside_write written
    omega

theorem take (marked : Marked received packet) (size : Nat) :
    Marked (received.take size) (packet.take size) where
  length := by rw [List.length_take, List.length_take, marked.length]
  kept := by
    intro place behind ttl high low
    have same := marked.kept place behind ttl high low
    simp only [read8] at same ⊢
    rw [List.getElem?_take, List.getElem?_take, same]

theorem ipHdrSize_eq (marked : Marked received packet) :
    ipHdrSize packet = ipHdrSize received := by
  rw [ipHdrSize, ipHdrSize, marked.kept _ le_rfl (by omega) (by omega) (by omega)]

theorem totLen_eq (marked : Marked received packet) : totLen packet = totLen received := by
  simp only [totLen, read16]
  rw [marked.kept _ (by omega) (by omega) (by omega) (by omega),
    marked.kept _ (by omega) (by omega) (by omega) (by omega)]

theorem saddr_eq (marked : Marked received packet) :
    read32 packet (ETHER_HDR_SIZE + 12) = read32 received (ETHER_HDR_SIZE + 12) := by
  simp only [read32, read16]
  rw [marked.kept _ (by omega) (by omega) (by omega) (by omega),
    marked.kept _ (by omega) (by omega) (by omega) (by omega),
    marked.kept _ (by omega) (by omega) (by omega) (by omega),
    marked.kept _ (by omega) (by omega) (by omega) (by omega)]

theorem wellFormedEcho (marked : Marked received packet) :
    WellFormedEcho packet ↔ WellFormedEcho received := by
  rw [wellFormedEcho_iff, wellFormedEcho_iff, marked.ipHdrSize_eq, marked.totLen_eq,
    marked.length]

end Marked

/-! ## Copies -/

section Copies

variable {packet source next : List UInt8} {offset start : Nat} {count : Int}

theorem exists_memcpy_iff (packet : List UInt8) (offset : Nat) (source : List UInt8) (start : Nat)
    (count : Int) : (∃ next, memcpy packet offset source start count = some next) ↔
      0 ≤ count ∧ start + count ≤ source.length ∧ offset + count ≤ packet.length := by
  unfold memcpy
  split_ifs with inside
  · rw [exists_write_iff, List.length_take, List.length_drop]
    omega
  · apply iff_of_false
    · simp
    · omega

theorem length_memcpy (copied : memcpy packet offset source start count = some next) :
    next.length = packet.length := by
  unfold memcpy at copied
  split_ifs at copied
  exact length_write copied

theorem memcpy_append (front old rest first bytes behind : List UInt8)
    (place : front.length = offset) (begins : first.length = start)
    (size : (bytes.length : Int) = count) (same : old.length = bytes.length) :
    memcpy (front ++ (old ++ rest)) offset (first ++ (bytes ++ behind)) start count =
      some (front ++ (bytes ++ rest)) := by
  have inside : 0 ≤ count ∧ start + count ≤ (first ++ (bytes ++ behind)).length := by
    simp only [List.length_append]
    omega
  have taken : ((first ++ (bytes ++ behind)).drop start).take count.toNat = bytes := by
    rw [← begins, List.drop_left, ← size, Int.toNat_natCast, List.take_left]
  rw [memcpy, if_pos inside, taken]
  exact write_append front old bytes rest offset place same

theorem memcpy_front (front rest source : List UInt8) (start count : Nat)
    (place : front.length = offset) (fits : start + count ≤ source.length)
    (room : count ≤ rest.length) :
    memcpy (front ++ rest) offset source start count =
      some (front ++ ((source.drop start).take count ++ rest.drop count)) := by
  obtain ⟨first, source, rfl, firstSize⟩ := exists_cut source start (by omega)
  rw [List.length_append] at fits
  obtain ⟨bytes, behind, rfl, bytesSize⟩ := exists_cut source count (by omega)
  obtain ⟨old, tail, rfl, oldSize⟩ := exists_cut rest count room
  rw [memcpy_append front old tail first bytes behind place firstSize
      (congrArg Nat.cast bytesSize) (oldSize.trans bytesSize.symm),
    List.drop_left' firstSize, List.take_left' bytesSize, List.drop_left' oldSize]

theorem memcpy_adjacent (packet : List UInt8) (offset : Nat) (source : List UInt8)
    (start count more : Nat) :
    (memcpy packet offset source start count).bind
        (fun next => memcpy next (offset + count) source (start + count) more) =
      memcpy packet offset source start (count + more : Nat) := by
  by_cases inside : start + (count + more) ≤ source.length ∧
      offset + (count + more) ≤ packet.length
  · obtain ⟨fits, room⟩ := inside
    obtain ⟨first, source, rfl, firstSize⟩ := exists_cut source start (by omega)
    rw [List.length_append] at fits
    obtain ⟨bytes, source, rfl, bytesSize⟩ := exists_cut source count (by omega)
    rw [List.length_append] at fits
    obtain ⟨later, behind, rfl, laterSize⟩ := exists_cut source more (by omega)
    obtain ⟨front, packet, rfl, frontSize⟩ := exists_cut packet offset (by omega)
    rw [List.length_append] at room
    obtain ⟨old, packet, rfl, oldSize⟩ := exists_cut packet count (by omega)
    rw [List.length_append] at room
    obtain ⟨older, rest, rfl, olderSize⟩ := exists_cut packet more (by omega)
    have one := memcpy_append front old (older ++ rest) first bytes (later ++ behind) frontSize
      firstSize (congrArg Nat.cast bytesSize) (oldSize.trans bytesSize.symm)
    have two : memcpy ((front ++ bytes) ++ (older ++ rest)) (offset + count)
        ((first ++ bytes) ++ (later ++ behind)) (start + count) more =
          some ((front ++ bytes) ++ (later ++ rest)) := by
      apply memcpy_append _ older rest _ later behind _ _ (congrArg Nat.cast laterSize)
        (olderSize.trans laterSize.symm)
      · rw [List.length_append, frontSize, bytesSize]
      · rw [List.length_append, firstSize, bytesSize]
    have both : memcpy (front ++ ((old ++ older) ++ rest)) offset
        (first ++ ((bytes ++ later) ++ behind)) start (count + more : Nat) =
          some (front ++ ((bytes ++ later) ++ rest)) := by
      apply memcpy_append front (old ++ older) rest first (bytes ++ later) behind frontSize firstSize
      · rw [List.length_append, bytesSize, laterSize]
      · rw [List.length_append, List.length_append, oldSize, olderSize, bytesSize, laterSize]
    simp only [List.append_assoc] at two both
    rw [one, Option.bind_some, two, both]
  · have outside : memcpy packet offset source start (count + more : Nat) = none := by
      rw [Option.eq_none_iff_forall_ne_some]
      intro next copied
      have fits := (exists_memcpy_iff _ _ _ _ _).mp ⟨next, copied⟩
      omega
    rw [outside, Option.eq_none_iff_forall_ne_some]
    intro next copied
    obtain ⟨middle, isMiddle, isNext⟩ := Option.bind_eq_some_iff.mp copied
    have fits := (exists_memcpy_iff _ _ _ _ _).mp ⟨next, isNext⟩
    rw [length_memcpy isMiddle] at fits
    omega

end Copies

/-! ## The checksum of a message -/

section Summing

variable {checksum : List UInt8 → Nat → Nat → UInt32 → Option UInt16} {Allowed : Nat → Prop}
variable (sums : ∀ buffer offset nbytes sum, (∃ result, checksum buffer offset nbytes sum =
  some result) ↔ Allowed nbytes ∧ (nbytes = 0 ∨ offset + nbytes ≤ buffer.length))

include sums

theorem inside_of_setIcmpChecksum {icmp len : Nat} {packet next : List UInt8}
    (stored : setIcmpChecksum checksum icmp len packet = some next) :
    Allowed len ∧ (len = 0 ∨ icmp + len ≤ packet.length) := by
  obtain ⟨cleared, written, stored⟩ := Option.bind_eq_some_iff.mp stored
  obtain ⟨sum, summed, -⟩ := Option.bind_eq_some_iff.mp stored
  have inside := (sums cleared icmp len 0).mp ⟨sum, summed⟩
  rwa [length_write written] at inside

theorem exists_setIcmpChecksum (icmp len : Nat) (front : List UInt8) {field : List UInt8}
    (rest : List UInt8) (place : front.length = icmp + 2) (size : field.length = 2)
    (allowed : Allowed len) (inside : len ≤ 4 + rest.length) :
    ∃ sum, setIcmpChecksum checksum icmp len (front ++ (field ++ rest)) =
      some (front ++ (bytes16Little sum ++ rest)) := by
  have cleared := write_append front field (bytes16 0) rest _ place size
  have length : (front ++ (bytes16 0 ++ rest)).length = icmp + (4 + rest.length) := by
    simp only [List.length_append, place, length_bytes16]
    omega
  cases (sums (front ++ (bytes16 0 ++ rest)) icmp len 0).mpr ⟨allowed, by omega⟩ with
  | intro sum summed =>
    refine ⟨sum, ?_⟩
    have stored := write_append front field (bytes16Little sum) rest _ place size
    simp only [setIcmpChecksum, cleared, summed, stored, Option.bind_eq_bind, Option.bind_some]

end Summing

end NetworkLab.Icmp
