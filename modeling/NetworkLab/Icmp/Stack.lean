import NetworkLab.Mospf.Forwarding
import NetworkLab.Router.IcmpMessages

/-!
# ICMP messages of the stack

`icmp_send_packet` of `17-tcp_stack/icmp.c` on the frames that `handle_ip_packet` gives it, and
both versions together.  An interface is its index; `ifaceIp` are the addresses.
-/
set_option autoImplicit false

namespace NetworkLab.Icmp

open Lib.Bytes
open NetworkLab.Mospf (ETHER_HDR_SIZE IP_BASE_HDR_SIZE RtEntry IpSent longestPrefixMatch
  getNextHop lowerTtl ipInitHdr ipHeader)

/-- `icmp_len`, which the total length decides for a reply. -/
def icmpLength (inPkt : List UInt8) (hdrSize : Nat) (type : UInt8) : Option Int :=
  if type = ICMP_ECHOREPLY then
    (read16 inPkt (ETHER_HDR_SIZE + 2)).map fun totLen => (totLen.toNat : Int) - hdrSize
  else some (ICMP_HDR_SIZE + hdrSize + ICMP_COPIED_DATA_LEN : Nat)

def outLength (inPkt : List UInt8) (hdrSize : Nat) (type : UInt8) : Nat :=
  if type = ICMP_ECHOREPLY then inPkt.length
  else ETHER_HDR_SIZE + IP_BASE_HDR_SIZE + (ICMP_HDR_SIZE + hdrSize + ICMP_COPIED_DATA_LEN)

def writeReply (inPkt : List UInt8) (hdrSize : Nat) (icmpLen : Int) (packet : List UInt8) :
    Option (List UInt8) := do
  let inIcmp := ETHER_HDR_SIZE + hdrSize
  let packet ← memcpy packet (ICMP_OFFSET + 4) inPkt (inIcmp + 4) 2
  let packet ← memcpy packet (ICMP_OFFSET + 6) inPkt (inIcmp + 6) 2
  memcpy packet (ICMP_OFFSET + ICMP_HDR_SIZE) inPkt (inIcmp + ICMP_HDR_SIZE)
    (icmpLen - ICMP_HDR_SIZE)

def writeMessage (inPkt : List UInt8) (hdrSize : Nat) (type : UInt8) (icmpLen : Int)
    (packet : List UInt8) : Option (List UInt8) :=
  if type = ICMP_ECHOREPLY then writeReply inPkt hdrSize icmpLen packet
  else memcpy packet (ICMP_OFFSET + ICMP_HDR_SIZE) inPkt ETHER_HDR_SIZE (icmpLen - ICMP_HDR_SIZE)

/-- The buffer with the message; the headers in front of it are still zero. -/
def fillMessage (inPkt : List UInt8) (hdrSize : Nat) (type code : UInt8) (icmpLen : Int) :
    Option (List UInt8) := do
  let packet := List.replicate (outLength inPkt hdrSize type) 0
  let packet ← write packet ICMP_OFFSET [type, code]
  let packet ← writeMessage inPkt hdrSize type icmpLen packet
  setIcmpChecksum checksum ICMP_OFFSET icmpLen.toNat packet

/-- The source of a message, if there is one. -/
def messageSaddr (ifaceIp : Nat → UInt32) (rtable : List RtEntry) (inPkt : List UInt8)
    (daddr : UInt32) (type : UInt8) : Option (Option UInt32) :=
  if type = ICMP_ECHOREPLY then (read32 inPkt (ETHER_HDR_SIZE + 16)).map some
  else some ((longestPrefixMatch rtable daddr).map fun entry => ifaceIp entry.iface)

/-- The packet given to `ip_send_packet`; without a route for an error message there is none. -/
def icmpSendPacket (ifaceIp : Nat → UInt32) (rtable : List RtEntry) (id : UInt16)
    (inPkt : List UInt8) (type code : UInt8) : Option (Option (List UInt8)) := do
  let ihl ← read8 inPkt ETHER_HDR_SIZE
  let hdrSize := ihl.toNat % 16 * 4
  let icmpLen ← icmpLength inPkt hdrSize type
  let packet ← fillMessage inPkt hdrSize type code icmpLen
  let daddr ← read32 inPkt (ETHER_HDR_SIZE + 12)
  let source ← messageSaddr ifaceIp rtable inPkt daddr type
  match source with
  | none => some none
  | some saddr =>
    (ipInitHdr saddr daddr (UInt16.ofNat (IP_BASE_HDR_SIZE + icmpLen).toNat) IPPROTO_ICMP id
      packet).map some

inductive Disposal where
  | delivered
  | answered (type code : UInt8) (packet : List UInt8)
  | forwarded (copy : IpSent)

def ipForwardPacket (rtable : List RtEntry) (ipDst : UInt32) (packet : List UInt8) :
    Option Disposal := do
  let ttl ← read8 packet (ETHER_HDR_SIZE + 8)
  if ttl ≤ 1 then some (.answered ICMP_TIME_EXCEEDED ICMP_EXC_TTL packet)
  else do
    let packet ← lowerTtl ttl packet
    match longestPrefixMatch rtable ipDst with
    | none => some (.answered ICMP_DEST_UNREACH ICMP_NET_UNREACH packet)
    | some entry =>
      some (.forwarded
        { iface := entry.iface, nextHop := getNextHop entry ipDst, packet := packet })

def handleIpPacket (ip : UInt32) (rtable : List RtEntry) (packet : List UInt8) :
    Option Disposal := do
  let daddr ← read32 packet (ETHER_HDR_SIZE + 16)
  if daddr = ip then do
    let protocol ← read8 packet (ETHER_HDR_SIZE + 9)
    if protocol = IPPROTO_ICMP then do
      let ihl ← read8 packet ETHER_HDR_SIZE
      let type ← read8 packet (ETHER_HDR_SIZE + ihl.toNat % 16 * 4)
      if type = ICMP_ECHOREQUEST then some (.answered ICMP_ECHOREPLY 0 packet)
      else some .delivered
    else some .delivered
  else ipForwardPacket rtable daddr packet

/-! ## What is demanded of a message -/

/-- The call stays inside the frame and its buffer, and the reply to a well-formed request
carries what the frame received carries. -/
def SendsInside (ifaceIp : Nat → UInt32) (rtable : List RtEntry) (id : UInt16)
    (received inPkt : List UInt8) (type code : UInt8) : Prop :=
  ∃ sent, icmpSendPacket ifaceIp rtable id inPkt type code = some sent ∧
    (type = ICMP_ECHOREPLY → ∀ echo, readEcho received = some echo →
      ∃ message, sent = some message ∧ readEcho message = some echo)

/-- The message of the request is inside its datagram, which is inside the frame, and a header
of 20 bytes instead of the one received leaves it there. -/
structure Repliable (packet : List UInt8) : Prop where
  message : ipHdrSize packet + ICMP_HDR_SIZE ≤ totLen packet
  frame : ETHER_HDR_SIZE + totLen packet ≤ packet.length
  header : ICMP_OFFSET + totLen packet ≤ packet.length + ipHdrSize packet

/-- The frame has its addresses, and the bytes that an error message copies. -/
structure Copyable (packet : List UInt8) : Prop where
  addresses : ETHER_HDR_SIZE + 16 ≤ packet.length
  copied : ETHER_HDR_SIZE + ipHdrSize packet + ICMP_COPIED_DATA_LEN ≤ packet.length

/-- When a message about the frame can be sent. -/
def Sendable (packet : List UInt8) (type : UInt8) : Prop :=
  if type = ICMP_ECHOREPLY then Repliable packet else Copyable packet

/-! ## The branches -/

section Branches

variable {inPkt packet next : List UInt8} {hdrSize : Nat} {type code : UInt8}

theorem exists_anyChecksum_iff (buffer : List UInt8) (offset nbytes : Nat) (sum : UInt32) :
    (∃ result, checksum buffer offset nbytes sum = some result) ↔
      True ∧ (nbytes = 0 ∨ offset + nbytes ≤ buffer.length) := by
  rw [exists_checksum_iff, true_and]

theorem writeReply_inside {icmpLen : Int}
    (written : writeReply inPkt hdrSize icmpLen packet = some next) :
    8 ≤ icmpLen ∧ 14 + hdrSize + icmpLen ≤ inPkt.length ∧ 34 + icmpLen ≤ packet.length := by
  obtain ⟨first, isFirst, written⟩ := Option.bind_eq_some_iff.mp written
  obtain ⟨second, isSecond, isLast⟩ := Option.bind_eq_some_iff.mp written
  have inside := (exists_memcpy_iff _ _ _ _ _).mp ⟨next, isLast⟩
  rw [length_memcpy isSecond, length_memcpy isFirst] at inside
  simp only [ICMP_OFFSET, ICMP_HDR_SIZE, ETHER_HDR_SIZE, IP_BASE_HDR_SIZE] at inside
  refine ⟨?_, ?_, ?_⟩ <;> omega

/-- The three copies lie side by side, in the frame and in the reply. -/
theorem writeReply_eq {icmpLen : Nat} (message : 8 ≤ icmpLen) :
    writeReply inPkt hdrSize icmpLen packet =
      memcpy packet (ICMP_OFFSET + 4) inPkt (ETHER_HDR_SIZE + hdrSize + 4)
        (icmpLen - 4 : Nat) := by
  have data : (icmpLen : Int) - ICMP_HDR_SIZE = (icmpLen - 8 : Nat) := by
    rw [ICMP_HDR_SIZE]
    omega
  have count : icmpLen - 4 = 2 + (2 + (icmpLen - 8)) := by omega
  rw [count, ← memcpy_adjacent, writeReply]
  simp only [Option.bind_eq_bind, data]
  congr 1
  funext next
  rw [← memcpy_adjacent]
  rfl

end Branches

/-! ## A message -/

section Messages

variable {ifaceIp : Nat → UInt32} {rtable : List RtEntry} {id : UInt16}
variable {inPkt : List UInt8} {type code : UInt8}

theorem writeMessage_of_fillMessage {hdrSize : Nat} {icmpLen : Int} {message : List UInt8}
    (filled : fillMessage inPkt hdrSize type code icmpLen = some message) :
    ∃ typed next, typed.length = outLength inPkt hdrSize type ∧
      writeMessage inPkt hdrSize type icmpLen typed = some next := by
  obtain ⟨typed, isTyped, filled⟩ := Option.bind_eq_some_iff.mp filled
  obtain ⟨next, isNext, -⟩ := Option.bind_eq_some_iff.mp filled
  exact ⟨typed, next, (length_write isTyped).trans List.length_replicate, isNext⟩

/-- What the call needs when it returns. -/
theorem sendable_of_sent {sent : Option (List UInt8)}
    (success : icmpSendPacket ifaceIp rtable id inPkt type code = some sent) :
    Sendable inPkt type := by
  obtain ⟨ihl, isIhl, success⟩ := Option.bind_eq_some_iff.mp success
  obtain ⟨icmpLen, isLen, success⟩ := Option.bind_eq_some_iff.mp success
  obtain ⟨message, filled, success⟩ := Option.bind_eq_some_iff.mp success
  obtain ⟨daddr, isDaddr, -⟩ := Option.bind_eq_some_iff.mp success
  rw [← ipHdrSize_of_read8 isIhl] at isLen filled
  obtain ⟨typed, next, size, isFilled⟩ := writeMessage_of_fillMessage filled
  by_cases isReply : type = ICMP_ECHOREPLY
  · rw [writeMessage, if_pos isReply] at isFilled
    rw [icmpLength, if_pos isReply] at isLen
    rw [outLength, if_pos isReply] at size
    obtain ⟨message, frame, room⟩ := writeReply_inside isFilled
    obtain ⟨total, isTotal, rfl⟩ := Option.map_eq_some_iff.mp isLen
    have totalIs := totLen_of_read16 isTotal
    rw [Sendable, if_pos isReply]
    constructor
    · rw [ICMP_HDR_SIZE]
      omega
    · rw [ETHER_HDR_SIZE]
      omega
    · rw [ICMP_OFFSET, ETHER_HDR_SIZE, IP_BASE_HDR_SIZE]
      omega
  · rw [writeMessage, if_neg isReply] at isFilled
    rw [icmpLength, if_neg isReply] at isLen
    cases isLen
    have inside := (exists_memcpy_iff _ _ _ _ _).mp ⟨next, isFilled⟩
    rw [ETHER_HDR_SIZE, ICMP_HDR_SIZE] at inside
    rw [Sendable, if_neg isReply]
    constructor
    · exact (exists_read32_iff _ _).mp ⟨daddr, isDaddr⟩
    · rw [ETHER_HDR_SIZE]
      omega

/-- The buffer of a reply has the message of the request behind its first word. -/
theorem exists_replica (code : UInt8) (repliable : Repliable inPkt) :
    ∃ head tail, head.length = 4 ∧
      fillMessage inPkt (ipHdrSize inPkt) ICMP_ECHOREPLY code
          (totLen inPkt - ipHdrSize inPkt : Nat) =
        some (List.replicate ICMP_OFFSET 0 ++ (head ++ (echoBytes inPkt ++ tail))) := by
  obtain ⟨message, frame, room⟩ := repliable
  simp only [ICMP_HDR_SIZE, ICMP_OFFSET, ETHER_HDR_SIZE, IP_BASE_HDR_SIZE] at message frame room
  obtain ⟨len, isLen⟩ : ∃ len, totLen inPkt - ipHdrSize inPkt = len := ⟨_, rfl⟩
  have outLen : outLength inPkt (ipHdrSize inPkt) ICMP_ECHOREPLY =
      ICMP_OFFSET + (2 + (2 + (inPkt.length - 38))) := by
    rw [outLength, if_pos rfl, ICMP_OFFSET, ETHER_HDR_SIZE, IP_BASE_HDR_SIZE]
    omega
  obtain ⟨rest, isRest⟩ : ∃ rest, List.replicate (inPkt.length - 38) (0 : UInt8) = rest :=
    ⟨_, rfl⟩
  have restSize : rest.length = inPkt.length - 38 := by rw [← isRest, List.length_replicate]
  have buffer : List.replicate (ICMP_OFFSET + (2 + (2 + (inPkt.length - 38)))) (0 : UInt8) =
      List.replicate ICMP_OFFSET 0 ++ ([0, 0] ++ ([0, 0] ++ rest)) := by
    rw [← isRest]
    simp only [List.replicate_add]
    rfl
  have typed : write (List.replicate ICMP_OFFSET 0 ++ ([0, 0] ++ ([0, 0] ++ rest))) ICMP_OFFSET
      [ICMP_ECHOREPLY, code] =
        some (List.replicate ICMP_OFFSET 0 ++ ([ICMP_ECHOREPLY, code] ++ ([0, 0] ++ rest))) :=
    write_append _ [0, 0] _ _ _ List.length_replicate rfl
  have filled : writeMessage inPkt (ipHdrSize inPkt) ICMP_ECHOREPLY len
      ((List.replicate ICMP_OFFSET 0 ++ ([ICMP_ECHOREPLY, code] ++ [0, 0])) ++ rest) =
        some ((List.replicate ICMP_OFFSET 0 ++ ([ICMP_ECHOREPLY, code] ++ [0, 0])) ++
          (echoBytes inPkt ++ rest.drop (len - 4))) := by
    rw [writeMessage, if_pos rfl, writeReply_eq (by omega), echoBytes_eq, isLen]
    apply memcpy_front
    · rw [List.length_append, List.length_replicate]
      rfl
    · rw [ETHER_HDR_SIZE]
      omega
    · omega
  have echoSize : (echoBytes inPkt).length + 4 = len := by
    rw [echoBytes, List.length_drop, List.length_take, ETHER_HDR_SIZE]
    omega
  obtain ⟨sum, summed⟩ := exists_setIcmpChecksum exists_anyChecksum_iff ICMP_OFFSET len
    (List.replicate ICMP_OFFSET 0 ++ [ICMP_ECHOREPLY, code])
    (echoBytes inPkt ++ rest.drop (len - 4))
    (by rw [List.length_append, List.length_replicate]; rfl) (rfl : [(0 : UInt8), 0].length = 2)
    trivial (by rw [List.length_append, List.length_drop]; omega)
  refine ⟨[ICMP_ECHOREPLY, code] ++ bytes16Little sum, rest.drop (len - 4), rfl, ?_⟩
  simp only [List.append_assoc] at typed filled summed ⊢
  simp only [fillMessage, isLen, outLen, buffer, typed, filled, summed, Int.toNat_natCast,
    Option.bind_eq_bind, Option.bind_some]

theorem exists_reply (ifaceIp : Nat → UInt32) (rtable : List RtEntry) (id : UInt16)
    (code : UInt8) (repliable : Repliable inPkt) :
    ∃ ether saddr daddr sum head tail, ether.length = ETHER_HDR_SIZE ∧ head.length = 4 ∧
      icmpSendPacket ifaceIp rtable id inPkt ICMP_ECHOREPLY code = some (some (ether ++
        (ipHeader saddr daddr (UInt16.ofNat (20 + (totLen inPkt - ipHdrSize inPkt))) IPPROTO_ICMP
          id sum ++ (head ++ (echoBytes inPkt ++ tail))))) := by
  obtain ⟨head, tail, headSize, filled⟩ := exists_replica code repliable
  obtain ⟨message, frame, room⟩ := repliable
  simp only [ICMP_HDR_SIZE, ICMP_OFFSET, ETHER_HDR_SIZE, IP_BASE_HDR_SIZE] at message frame room
  have long : ETHER_HDR_SIZE + 16 + 4 ≤ inPkt.length := by
    rw [ETHER_HDR_SIZE]
    omega
  obtain ⟨ihl, isIhl⟩ := (exists_read8_iff inPkt ETHER_HDR_SIZE).mpr (by omega)
  obtain ⟨total, isTotal⟩ := (exists_read16_iff inPkt (ETHER_HDR_SIZE + 2)).mpr (by omega)
  obtain ⟨daddr, isDaddr⟩ := (exists_read32_iff inPkt (ETHER_HDR_SIZE + 12)).mpr (by omega)
  obtain ⟨saddr, isSaddr⟩ := (exists_read32_iff inPkt (ETHER_HDR_SIZE + 16)).mpr long
  have icmpLen : icmpLength inPkt (ipHdrSize inPkt) ICMP_ECHOREPLY =
      some ((totLen inPkt - ipHdrSize inPkt : Nat) : Int) := by
    rw [icmpLength, if_pos rfl, isTotal, Option.map_some, ← totLen_of_read16 isTotal]
    congr 1
    omega
  have source : messageSaddr ifaceIp rtable inPkt daddr ICMP_ECHOREPLY = some (some saddr) := by
    rw [messageSaddr, if_pos rfl, isSaddr, Option.map_some]
  have len : ((IP_BASE_HDR_SIZE : Int) + (totLen inPkt - ipHdrSize inPkt : Nat)).toNat =
      20 + (totLen inPkt - ipHdrSize inPkt) := by
    rw [IP_BASE_HDR_SIZE]
    omega
  have zeros : List.replicate ICMP_OFFSET (0 : UInt8) =
      List.replicate 14 0 ++ List.replicate 20 0 := rfl
  obtain ⟨sum, headed⟩ := Mospf.exists_ipInitHdr saddr daddr
    (UInt16.ofNat (20 + (totLen inPkt - ipHdrSize inPkt))) IPPROTO_ICMP id
    (head ++ (echoBytes inPkt ++ tail))
    (List.length_replicate : (List.replicate 14 (0 : UInt8)).length = 14)
    (List.length_replicate : (List.replicate 20 (0 : UInt8)).length = 20)
  refine ⟨List.replicate 14 0, saddr, daddr, sum, head, tail, List.length_replicate, headSize, ?_⟩
  rw [zeros, List.append_assoc] at filled
  simp only [icmpSendPacket, isIhl, ← ipHdrSize_of_read8 isIhl, icmpLen, filled, isDaddr, source,
    len, headed, Option.bind_eq_bind, Option.bind_some, Option.map_some]

theorem exists_excerpt (code : UInt8) (isError : type ≠ ICMP_ECHOREPLY)
    (fits : 22 + ipHdrSize inPkt ≤ inPkt.length) :
    ∃ message, ICMP_OFFSET ≤ message.length ∧
      fillMessage inPkt (ipHdrSize inPkt) type code (16 + ipHdrSize inPkt : Nat) =
        some message := by
  have outLen : outLength inPkt (ipHdrSize inPkt) type = 50 + ipHdrSize inPkt := by
    rw [outLength, if_neg isError, ICMP_HDR_SIZE, ICMP_COPIED_DATA_LEN, ETHER_HDR_SIZE,
      IP_BASE_HDR_SIZE]
    omega
  obtain ⟨buffer, isBuffer⟩ : ∃ buffer, List.replicate (50 + ipHdrSize inPkt) (0 : UInt8) =
      buffer := ⟨_, rfl⟩
  have bufferSize : buffer.length = 50 + ipHdrSize inPkt := by
    rw [← isBuffer, List.length_replicate]
  have offset : ICMP_OFFSET = 34 := rfl
  obtain ⟨typed, isTyped⟩ := (exists_write_iff buffer ICMP_OFFSET [type, code]).mpr (by
    rw [bufferSize, offset, List.length_cons, List.length_singleton]
    omega)
  have typedSize := (length_write isTyped).trans bufferSize
  obtain ⟨filled, isFilled⟩ := (exists_memcpy_iff typed (ICMP_OFFSET + ICMP_HDR_SIZE) inPkt
    ETHER_HDR_SIZE ((16 + ipHdrSize inPkt : Nat) - ICMP_HDR_SIZE : Int)).mpr (by
      rw [typedSize, offset, ICMP_HDR_SIZE, ETHER_HDR_SIZE]
      omega)
  have filledSize := (length_memcpy isFilled).trans typedSize
  obtain ⟨front, behind, rfl, frontSize⟩ := exists_cut filled 36 (by omega)
  rw [List.length_append] at filledSize
  obtain ⟨field, behind, rfl, fieldSize⟩ := exists_cut behind 2 (by omega)
  rw [List.length_append] at filledSize
  obtain ⟨sum, summed⟩ := exists_setIcmpChecksum exists_anyChecksum_iff ICMP_OFFSET
    (16 + ipHdrSize inPkt) front behind (by rw [frontSize, offset]) fieldSize trivial (by omega)
  refine ⟨front ++ (bytes16Little sum ++ behind), ?_, ?_⟩
  · rw [List.length_append, frontSize, offset]
    omega
  · simp only [fillMessage, outLen, isBuffer, isTyped, writeMessage, if_neg isError, isFilled,
      summed, Int.toNat_natCast, Option.bind_eq_bind, Option.bind_some]

theorem exists_ipInitHdr_of_length (saddr daddr : UInt32) (len : UInt16) (proto : UInt8)
    (id : UInt16) {packet : List UInt8} (fits : ICMP_OFFSET ≤ packet.length) :
    ∃ next, ipInitHdr saddr daddr len proto id packet = some next := by
  rw [ICMP_OFFSET] at fits
  obtain ⟨ether, packet, rfl, etherSize⟩ := exists_cut packet ETHER_HDR_SIZE (by omega)
  rw [List.length_append] at fits
  obtain ⟨old, rest, rfl, oldSize⟩ := exists_cut packet IP_BASE_HDR_SIZE (by omega)
  obtain ⟨sum, written⟩ :=
    Mospf.exists_ipInitHdr saddr daddr len proto id rest etherSize oldSize
  exact ⟨_, written⟩

theorem exists_error (ifaceIp : Nat → UInt32) (rtable : List RtEntry) (id : UInt16)
    (code : UInt8) (isError : type ≠ ICMP_ECHOREPLY) (copyable : Copyable inPkt) :
    ∃ sent, icmpSendPacket ifaceIp rtable id inPkt type code = some sent := by
  obtain ⟨addresses, fits⟩ := copyable
  rw [ETHER_HDR_SIZE, ICMP_COPIED_DATA_LEN] at fits
  obtain ⟨ihl, isIhl⟩ := (exists_read8_iff inPkt ETHER_HDR_SIZE).mpr (by omega)
  obtain ⟨daddr, isDaddr⟩ := (exists_read32_iff inPkt (ETHER_HDR_SIZE + 12)).mpr addresses
  have copied : 22 + ipHdrSize inPkt ≤ inPkt.length := by omega
  obtain ⟨message, room, filled⟩ := exists_excerpt code isError copied
  have icmpLen : icmpLength inPkt (ipHdrSize inPkt) type =
      some ((16 + ipHdrSize inPkt : Nat) : Int) := by
    rw [icmpLength, if_neg isError, ICMP_HDR_SIZE, ICMP_COPIED_DATA_LEN]
    congr 2
    omega
  have source : messageSaddr ifaceIp rtable inPkt daddr type =
      some ((longestPrefixMatch rtable daddr).map fun entry => ifaceIp entry.iface) := by
    rw [messageSaddr, if_neg isError]
  cases route : longestPrefixMatch rtable daddr with
  | none =>
    refine ⟨none, ?_⟩
    simp only [icmpSendPacket, isIhl, ← ipHdrSize_of_read8 isIhl, icmpLen, filled, isDaddr, source,
      route, Option.bind_eq_bind, Option.bind_some, Option.map_none]
  | some entry =>
    obtain ⟨next, written⟩ := exists_ipInitHdr_of_length (ifaceIp entry.iface) daddr
      (UInt16.ofNat ((IP_BASE_HDR_SIZE : Int) + (16 + ipHdrSize inPkt : Nat)).toNat) IPPROTO_ICMP
      id room
    refine ⟨some next, ?_⟩
    simp only [icmpSendPacket, isIhl, ← ipHdrSize_of_read8 isIhl, icmpLen, filled, isDaddr, source,
      route, written, Option.bind_eq_bind, Option.bind_some, Option.map_some]

/-- The reply to a well-formed request carries what the request carries. -/
theorem reply_carries {ether head tail : List UInt8} (saddr daddr : UInt32) (id sum : UInt16)
    (etherSize : ether.length = ETHER_HDR_SIZE) (headSize : head.length = 4) {echo : Echo}
    (carried : readEcho inPkt = some echo) :
    readEcho (ether ++ (ipHeader saddr daddr (UInt16.ofNat (20 + (totLen inPkt -
      ipHdrSize inPkt))) IPPROTO_ICMP id sum ++ (head ++ (echoBytes inPkt ++ tail)))) =
        some echo := by
  by_cases formed : WellFormedEcho inPkt
  · have header := formed.header
    have message := formed.message
    have size := length_echoBytes formed
    have small : totLen inPkt < 65536 := UInt16.toNat_lt _
    simp only [ICMP_HDR_SIZE, IP_BASE_HDR_SIZE] at header message
    have total : (UInt16.ofNat (20 + (totLen inPkt - ipHdrSize inPkt))).toNat =
        24 + (echoBytes inPkt).length := by
      rw [UInt16.toNat_ofNat']
      omega
    rw [readEcho_headers _ saddr daddr _ _ id sum etherSize headSize, total, List.length_append,
      if_pos (by omega), Nat.add_sub_cancel_left, List.take_left]
    rwa [readEcho, if_pos formed] at carried
  · rw [readEcho, if_neg formed] at carried
    cases carried

theorem sendsInside_iff {received : List UInt8} (ifaceIp : Nat → UInt32) (rtable : List RtEntry)
    (id : UInt16) (code : UInt8) (same : type = ICMP_ECHOREPLY → received = inPkt) :
    SendsInside ifaceIp rtable id received inPkt type code ↔ Sendable inPkt type := by
  constructor
  · intro sends
    obtain ⟨sent, success, -⟩ := sends
    exact sendable_of_sent success
  · intro sendable
    by_cases isReply : type = ICMP_ECHOREPLY
    · rw [Sendable, if_pos isReply] at sendable
      obtain ⟨ether, saddr, daddr, sum, head, tail, etherSize, headSize, reply⟩ :=
        exists_reply ifaceIp rtable id code sendable
      rw [← isReply] at reply
      refine ⟨_, reply, ?_⟩
      intro _ echo carried
      rw [same isReply] at carried
      exact ⟨_, rfl, reply_carries saddr daddr id sum etherSize headSize carried⟩
    · rw [Sendable, if_neg isReply] at sendable
      obtain ⟨sent, success⟩ := exists_error ifaceIp rtable id code isReply sendable
      exact ⟨sent, success, fun reply => absurd reply isReply⟩

theorem Repliable.congr {received : List UInt8} (marked : Marked received inPkt)
    (repliable : Repliable received) : Repliable inPkt where
  message := by
    rw [marked.ipHdrSize_eq, marked.totLen_eq]
    exact repliable.message
  frame := by
    rw [marked.totLen_eq, marked.length]
    exact repliable.frame
  header := by
    rw [marked.totLen_eq, marked.length, marked.ipHdrSize_eq]
    exact repliable.header

theorem Copyable.congr {received : List UInt8} (marked : Marked received inPkt)
    (copyable : Copyable received) : Copyable inPkt where
  addresses := by
    rw [marked.length]
    exact copyable.addresses
  copied := by
    rw [marked.ipHdrSize_eq, marked.length]
    exact copyable.copied

theorem Sendable.congr {received : List UInt8} (marked : Marked received inPkt) :
    Sendable inPkt type ↔ Sendable received type := by
  have repliable : Repliable inPkt ↔ Repliable received :=
    ⟨Repliable.congr marked.symm, Repliable.congr marked⟩
  have copyable : Copyable inPkt ↔ Copyable received :=
    ⟨Copyable.congr marked.symm, Copyable.congr marked⟩
  rw [Sendable, Sendable, repliable, copyable]

end Messages

/-! ## From `handle_ip_packet` to `icmp_send_packet` -/

section Handling

variable {ip : UInt32} {rtable : List RtEntry} {received memory : List UInt8} {type code : UInt8}

theorem marked_lowerTtl {ttl : UInt8} (lowers : lowerTtl ttl received = some memory) :
    Marked received memory := by
  obtain ⟨aged, isAged, lowers⟩ := Option.bind_eq_some_iff.mp lowers
  obtain ⟨sum, -, isSummed⟩ := Option.bind_eq_some_iff.mp lowers
  have first : Marked received aged := .of_write isAged (.inr (.inl ⟨rfl, rfl⟩))
  exact first.trans (.of_write isSummed (.inr (.inr ⟨rfl, rfl⟩)))

theorem ipForwardPacket_answered {ipDst : UInt32}
    (answers : ipForwardPacket rtable ipDst received = some (.answered type code memory)) :
    type ≠ ICMP_ECHOREPLY ∧ Marked received memory := by
  obtain ⟨ttl, -, answers⟩ := Option.bind_eq_some_iff.mp answers
  split_ifs at answers
  · cases answers
    exact ⟨by decide, .refl received⟩
  · obtain ⟨lowered, lowers, answers⟩ := Option.bind_eq_some_iff.mp answers
    cases route : longestPrefixMatch rtable ipDst with
    | none =>
      rw [route] at answers
      cases answers
      exact ⟨by decide, marked_lowerTtl lowers⟩
    | some entry =>
      rw [route] at answers
      cases answers

theorem handleIpPacket_answered
    (answers : handleIpPacket ip rtable received = some (.answered type code memory)) :
    Marked received memory ∧ (type = ICMP_ECHOREPLY → memory = received) := by
  obtain ⟨daddr, -, answers⟩ := Option.bind_eq_some_iff.mp answers
  split_ifs at answers
  · obtain ⟨protocol, -, answers⟩ := Option.bind_eq_some_iff.mp answers
    split_ifs at answers
    · obtain ⟨ihl, -, answers⟩ := Option.bind_eq_some_iff.mp answers
      obtain ⟨request, -, answers⟩ := Option.bind_eq_some_iff.mp answers
      split_ifs at answers
      · cases answers
        exact ⟨.refl received, fun _ => rfl⟩
      · cases answers
    · cases answers
  · obtain ⟨isError, marked⟩ := ipForwardPacket_answered answers
    exact ⟨marked, fun reply => absurd reply isError⟩

/-- A frame that comes to `icmp_send_packet`, on the memory that starts with it. -/
theorem handled_sendsInside_iff (ifaceIp : Nat → UInt32) (id : UInt16)
    {packet behind : List UInt8}
    (answers : handleIpPacket ip rtable (packet ++ behind) =
      some (.answered type code memory)) :
    SendsInside ifaceIp rtable id packet (memory.take packet.length) type code ↔
      Sendable packet type := by
  obtain ⟨marked, kept⟩ := handleIpPacket_answered answers
  have taken := marked.take packet.length
  rw [List.take_left] at taken
  rw [← Sendable.congr taken]
  apply sendsInside_iff
  intro reply
  rw [kept reply, List.take_left]

end Handling

/-! ## Both versions -/

/-- Every frame that comes to `icmp_send_packet` of the router or of the stack: the call stays
inside exactly when a message about the frame can be sent. -/
theorem messages_inside_iff (id : UInt16) (packet behind memory : List UInt8)
    (type code : UInt8) :
    (∀ (heap : Nat → UInt8) (rtable : List Router.RtEntry) (iface : Router.IfaceInfo),
      Router.handleIpPacket iface rtable (packet ++ behind) =
        some (.answered type code memory) →
      (Router.SendsInside heap rtable id packet (memory.take packet.length) type code ↔
        Router.Sendable rtable packet type)) ∧
    (∀ (ifaceIp : Nat → UInt32) (rtable : List RtEntry) (ip : UInt32),
      handleIpPacket ip rtable (packet ++ behind) = some (.answered type code memory) →
      (SendsInside ifaceIp rtable id packet (memory.take packet.length) type code ↔
        Sendable packet type)) := by
  constructor
  · intro heap rtable iface answers
    exact Router.handled_sendsInside_iff heap id answers
  · intro ifaceIp rtable ip answers
    exact handled_sendsInside_iff ifaceIp id answers

def echoRequest (totLen : UInt16) (data : List UInt8) : List UInt8 :=
  List.replicate ETHER_HDR_SIZE 0 ++ ([0x45, 0] ++ bytes16 totLen ++
    [0, 0, 0, 0, 64, 1, 0, 0, 10, 0, 0, 2, 10, 0, 0, 1]) ++ ([8, 0, 0, 0, 0, 1, 0, 2] ++ data)

def routerIface : Router.IfaceInfo :=
  { index := 0, mac := Router.noMac, ip := 0x0A000001 }

def hostRoute : Router.RtEntry :=
  { dest := 0x0A000002, mask := 0xffffffff, gw := 0, iface := routerIface }

def pingRequest : List UInt8 := echoRequest 32 [1, 2, 3, 4]

theorem sendable_request : Router.Sendable [hostRoute] pingRequest 8 ∧
    Sendable pingRequest ICMP_ECHOREPLY := by
  constructor
  · rw [Router.Sendable, if_pos rfl]
    constructor
    · exact ⟨0x0A000002, hostRoute, rfl, Router.longestPrefixMatch_host _ _ _⟩
    · constructor
      · decide
      · decide
      · decide
      · decide
  · rw [Sendable, if_pos rfl]
    constructor
    · decide
    · decide
    · decide

/-- A request of the usual form is answered by both. -/
theorem messages_inside_request :
    Router.SendsInside (fun _ => 0) [hostRoute] 0 pingRequest
        (pingRequest.take pingRequest.length) 8 0 ∧
      SendsInside (fun _ => 0) [] 0 pingRequest
        (pingRequest.take pingRequest.length) ICMP_ECHOREPLY 0 := by
  constructor
  · have both := messages_inside_iff 0 pingRequest [] pingRequest 8 0
    exact (both.1 (fun _ => 0) [hostRoute] routerIface rfl).mpr sendable_request.1
  · have both := messages_inside_iff 0 pingRequest [] pingRequest ICMP_ECHOREPLY 0
    exact (both.2 (fun _ => 0) [] 0x0A000001 rfl).mpr sendable_request.2

/-- An odd byte of data fails the assertion of the router, and a total length beyond the end of
the frame leads the stack there. -/
theorem requests_leave_frame :
    (¬ ∀ (heap : Nat → UInt8) (rtable : List Router.RtEntry) (id : UInt16)
      (iface : Router.IfaceInfo) (packet behind memory : List UInt8) (type code : UInt8),
      Router.handleIpPacket iface rtable (packet ++ behind) =
        some (.answered type code memory) →
      Router.SendsInside heap rtable id packet (memory.take packet.length) type code) ∧
    (¬ ∀ (ifaceIp : Nat → UInt32) (rtable : List RtEntry) (id : UInt16) (ip : UInt32)
      (packet behind memory : List UInt8) (type code : UInt8),
      handleIpPacket ip rtable (packet ++ behind) = some (.answered type code memory) →
      SendsInside ifaceIp rtable id packet (memory.take packet.length) type code) := by
  constructor
  · intro inside
    have answers : Router.handleIpPacket routerIface [hostRoute] (echoRequest 29 [7] ++ []) =
        some (.answered 8 0 (echoRequest 29 [7])) := rfl
    have sendable := (Router.handled_sendsInside_iff (fun _ => 0) 0 answers).mp
      (inside (fun _ => 0) [hostRoute] 0 routerIface _ [] _ 8 0 answers)
    rw [Router.Sendable, if_pos rfl] at sendable
    exact absurd sendable.2.even (by decide)
  · intro inside
    have answers : handleIpPacket 0x0A000001 [] (echoRequest 1500 [] ++ []) =
        some (.answered ICMP_ECHOREPLY 0 (echoRequest 1500 [])) := rfl
    have sendable := (handled_sendsInside_iff (fun _ => 0) 0 answers).mp
      (inside (fun _ => 0) [] 0 0x0A000001 _ [] _ ICMP_ECHOREPLY 0 answers)
    rw [Sendable, if_pos rfl] at sendable
    exact absurd sendable.frame (by decide)

end NetworkLab.Icmp
