import NetworkLab.Icmp.Echo
import NetworkLab.Router.Forwarding

/-!
# ICMP messages of the router

`icmp_send_packet` of `08-router/icmp.c` on the frames that `handle_ip_packet` gives it.  What
lies in memory and what `rand` returns are given; `none` stands for an access outside
the frame or the buffer, for an entry that is NULL and for the failed assertion of `checksum`.
-/
set_option autoImplicit false

namespace NetworkLab.Router

open Lib.Bytes NetworkLab.Icmp
open NetworkLab.ArpCache (ETH_ALEN)
open NetworkLab.Mospf (IP_BASE_HDR_SIZE ETH_P_IP IP_DF DEFAULT_TTL ipHeader)

/-- `id` is what `rand` returns. -/
def ipInitHdr (saddr daddr : UInt32) (len : UInt16) (proto : UInt8) (id : UInt16)
    (packet : List UInt8) : Option (List UInt8) := do
  let packet ← write packet ETHER_HDR_SIZE
    ([0x45, 0] ++ bytes16 len ++ bytes16 id ++ bytes16 IP_DF ++ [DEFAULT_TTL, proto])
  let packet ← write packet (ETHER_HDR_SIZE + 12) (bytes32 saddr ++ bytes32 daddr)
  let sum ← ipChecksum packet
  write packet (ETHER_HDR_SIZE + 10) (bytes16Little sum)

/-- The Ethernet and the IP header of a message; the entry is not compared with NULL. -/
def initHeaders (rtable : List RtEntry) (id : UInt16) (inPkt packet : List UInt8) :
    Option (List UInt8) := do
  let packetLen := packet.length
  let packet ← memcpy packet 0 inPkt 0 ETH_ALEN
  let packet ← memcpy packet ETH_ALEN inPkt 0 ETH_ALEN
  let packet ← write packet (2 * ETH_ALEN) (bytes16 ETH_P_IP)
  let saddr ← read32 inPkt (ETHER_HDR_SIZE + 12)
  let entry ← longestPrefixMatch rtable saddr
  ipInitHdr entry.iface.ip saddr (UInt16.ofNat (packetLen - ETHER_HDR_SIZE)) IPPROTO_ICMP id packet

def writeReply (inPkt : List UInt8) (hdrSize : Nat) (packet : List UInt8) :
    Option (List UInt8) := do
  let packet ← write packet ICMP_OFFSET [0, 0]
  let dataSize : Int := inPkt.length - ETHER_HDR_SIZE - hdrSize - ICMP_HDR_SIZE + 4
  let packet ← memcpy packet (ICMP_OFFSET + ICMP_HDR_SIZE - 4) inPkt
    (ETHER_HDR_SIZE + hdrSize + ICMP_HDR_SIZE - 4) dataSize
  setIcmpChecksum checksum ICMP_OFFSET (dataSize + ICMP_HDR_SIZE - 4).toNat packet

def writeError (inPkt : List UInt8) (hdrSize : Nat) (type code : UInt8) (packet : List UInt8) :
    Option (List UInt8) := do
  let packet ← write packet ICMP_OFFSET [type, code]
  let dataSize := hdrSize + 8
  let packet ← write packet (ICMP_OFFSET + ICMP_HDR_SIZE - 4) [0, 0, 0, 0]
  let packet ← memcpy packet (ICMP_OFFSET + ICMP_HDR_SIZE) inPkt ETHER_HDR_SIZE dataSize
  setIcmpChecksum checksum ICMP_OFFSET (dataSize + ICMP_HDR_SIZE) packet

/-- The packet given to `ip_send_packet`; `inPkt` are the `len` bytes received. -/
def icmpSendPacket (heap : Nat → UInt8) (rtable : List RtEntry)
    (id : UInt16) (inPkt : List UInt8) (type code : UInt8) : Option (List UInt8) := do
  let ihl ← read8 inPkt ETHER_HDR_SIZE
  let hdrSize := ihl.toNat % 16 * 4
  let packetLen := if type = 8 then inPkt.length
    else ETHER_HDR_SIZE + IP_BASE_HDR_SIZE + ICMP_HDR_SIZE + hdrSize + 8
  let packet ← initHeaders rtable id inPkt (malloc heap packetLen)
  if type = 8 then writeReply inPkt hdrSize packet
  else writeError inPkt hdrSize type code packet

/-! ## What is demanded of a message -/

/-- The call stays inside the frame and its buffer, and the reply to a well-formed request
carries what the frame received carries. -/
def SendsInside (heap : Nat → UInt8) (rtable : List RtEntry)
    (id : UInt16) (received inPkt : List UInt8) (type code : UInt8) : Prop :=
  ∃ message, icmpSendPacket heap rtable id inPkt type code = some message ∧
    (type = 8 → ∀ echo, readEcho received = some echo → readEcho message = some echo)

def Routed (rtable : List RtEntry) (packet : List UInt8) : Prop :=
  ∃ saddr entry, read32 packet (ETHER_HDR_SIZE + 12) = some saddr ∧
    longestPrefixMatch rtable saddr = some entry

structure Repliable (packet : List UInt8) : Prop where
  header : IP_BASE_HDR_SIZE ≤ ipHdrSize packet
  message : ETHER_HDR_SIZE + ipHdrSize packet + 4 ≤ packet.length
  even : packet.length % 2 = 0
  data : WellFormedEcho packet →
    (packet.length - ETHER_HDR_SIZE) % 65536 + ipHdrSize packet = totLen packet + IP_BASE_HDR_SIZE

/-- The frame has the header and the 8 bytes behind it that an error message copies. -/
def Copyable (packet : List UInt8) : Prop :=
  ETHER_HDR_SIZE + ipHdrSize packet + ICMP_COPIED_DATA_LEN ≤ packet.length

/-- When a message about the frame can be sent. -/
def Sendable (rtable : List RtEntry) (packet : List UInt8) (type : UInt8) : Prop :=
  Routed rtable packet ∧ if type = 8 then Repliable packet else Copyable packet

/-! ## The headers -/

section Headers

theorem exists_checksum_iff (buffer : List UInt8) (offset nbytes : Nat) (sum : UInt32) :
    (∃ result, checksum buffer offset nbytes sum = some result) ↔
      nbytes % 2 = 0 ∧ (nbytes = 0 ∨ offset + nbytes ≤ buffer.length) := by
  by_cases even : nbytes % 2 = 0
  · rw [checksum_even buffer offset sum even, NetworkLab.exists_checksum_iff]
    exact (and_iff_right even).symm
  · rw [checksum, if_neg even]
    apply iff_of_false
    · simp
    · exact fun inside => even inside.1

theorem ipChecksum_eq (packet : List UInt8) : ipChecksum packet = Mospf.ipChecksum packet := by
  have even (ihl : UInt8) (cleared : List UInt8) :
      checksum cleared ETHER_HDR_SIZE (ihl.toNat % 16 * 4) 0 =
        NetworkLab.checksum cleared Mospf.ETHER_HDR_SIZE (ihl.toNat % 16 * 4) 0 :=
    checksum_even _ _ _ (by omega)
  simp only [ipChecksum, Mospf.ipChecksum, even]
  rfl

theorem ipInitHdr_eq (saddr daddr : UInt32) (len : UInt16) (proto : UInt8) (id : UInt16)
    (packet : List UInt8) :
    ipInitHdr saddr daddr len proto id packet =
      Mospf.ipInitHdr saddr daddr len proto id packet := by
  simp only [ipInitHdr, ipChecksum_eq]
  rfl

theorem length_ipInitHdr {saddr daddr : UInt32} {len : UInt16} {proto : UInt8} {id : UInt16}
    {packet next : List UInt8} (written : ipInitHdr saddr daddr len proto id packet = some next) :
    next.length = packet.length := by
  obtain ⟨first, isFirst, written⟩ := Option.bind_eq_some_iff.mp written
  obtain ⟨second, isSecond, written⟩ := Option.bind_eq_some_iff.mp written
  obtain ⟨sum, -, isLast⟩ := Option.bind_eq_some_iff.mp written
  rw [length_write isLast, length_write isSecond, length_write isFirst]

variable {rtable : List RtEntry} {id : UInt16} {inPkt packet next : List UInt8}

theorem initHeaders_inside (written : initHeaders rtable id inPkt packet = some next) :
    Routed rtable inPkt ∧ next.length = packet.length := by
  obtain ⟨first, isFirst, written⟩ := Option.bind_eq_some_iff.mp written
  obtain ⟨second, isSecond, written⟩ := Option.bind_eq_some_iff.mp written
  obtain ⟨third, isThird, written⟩ := Option.bind_eq_some_iff.mp written
  obtain ⟨saddr, isSaddr, written⟩ := Option.bind_eq_some_iff.mp written
  obtain ⟨entry, route, written⟩ := Option.bind_eq_some_iff.mp written
  refine ⟨⟨saddr, entry, isSaddr, route⟩, ?_⟩
  rw [length_ipInitHdr written, length_write isThird, length_memcpy isSecond,
    length_memcpy isFirst]

theorem exists_initHeaders (id : UInt16) (routed : Routed rtable inPkt)
    (fits : ICMP_OFFSET ≤ packet.length) :
    ∃ ether saddr daddr sum, ether.length = ETHER_HDR_SIZE ∧
      initHeaders rtable id inPkt packet = some (ether ++ (ipHeader saddr daddr
        (UInt16.ofNat (packet.length - ETHER_HDR_SIZE)) IPPROTO_ICMP id sum ++
          packet.drop ICMP_OFFSET)) := by
  obtain ⟨len, isLen⟩ : ∃ len, UInt16.ofNat (packet.length - ETHER_HDR_SIZE) = len := ⟨_, rfl⟩
  obtain ⟨saddr, entry, isSaddr, route⟩ := routed
  have long := (exists_read32_iff inPkt _).mp ⟨saddr, isSaddr⟩
  have offset : ICMP_OFFSET = 6 + (6 + (2 + IP_BASE_HDR_SIZE)) := rfl
  obtain ⟨dhost, behind, rfl, dhostSize⟩ := exists_cut inPkt 6 (by
    rw [ETHER_HDR_SIZE] at long
    omega)
  rw [offset] at fits
  obtain ⟨first, packet, rfl, firstSize⟩ := exists_cut packet 6 (by omega)
  rw [List.length_append] at fits
  obtain ⟨second, packet, rfl, secondSize⟩ := exists_cut packet 6 (by omega)
  rw [List.length_append] at fits
  obtain ⟨third, packet, rfl, thirdSize⟩ := exists_cut packet 2 (by omega)
  rw [List.length_append] at fits
  obtain ⟨ip, rest, rfl, ipSize⟩ := exists_cut packet IP_BASE_HDR_SIZE (by omega)
  have count : (dhost.length : Int) = ETH_ALEN := by
    rw [dhostSize]
    rfl
  have one : memcpy (first ++ (second ++ (third ++ (ip ++ rest)))) 0 (dhost ++ behind) 0
      ETH_ALEN = some (dhost ++ (second ++ (third ++ (ip ++ rest)))) :=
    memcpy_append [] first _ [] dhost behind rfl rfl count (firstSize.trans dhostSize.symm)
  have two : memcpy (dhost ++ (second ++ (third ++ (ip ++ rest)))) ETH_ALEN (dhost ++ behind) 0
      ETH_ALEN = some (dhost ++ (dhost ++ (third ++ (ip ++ rest)))) :=
    memcpy_append dhost second _ [] dhost behind dhostSize rfl count
      (secondSize.trans dhostSize.symm)
  have three := write_append (dhost ++ dhost) third (bytes16 ETH_P_IP) (ip ++ rest)
    (2 * ETH_ALEN) (by rw [List.length_append, dhostSize]; rfl) thirdSize
  have ether : (dhost ++ (dhost ++ bytes16 ETH_P_IP)).length = ETHER_HDR_SIZE := by
    simp only [List.length_append, dhostSize, length_bytes16]
    rfl
  obtain ⟨sum, four⟩ := Mospf.exists_ipInitHdr entry.iface.ip saddr len IPPROTO_ICMP id rest ether
    ipSize
  have front : (first ++ (second ++ (third ++ ip))).length = ICMP_OFFSET := by
    simp only [List.length_append, firstSize, secondSize, thirdSize, ipSize]
    rfl
  have behindIp : (first ++ (second ++ (third ++ (ip ++ rest)))).drop ICMP_OFFSET = rest := by
    have dropped : ((first ++ (second ++ (third ++ ip))) ++ rest).drop ICMP_OFFSET = rest :=
      List.drop_left' front
    simp only [List.append_assoc] at dropped
    exact dropped
  refine ⟨dhost ++ (dhost ++ bytes16 ETH_P_IP), entry.iface.ip, saddr, sum, ether, ?_⟩
  rw [behindIp, isLen]
  simp only [List.append_assoc] at three four ⊢
  simp only [initHeaders, one, two, three, isSaddr, route, isLen, ipInitHdr_eq, four,
    Option.bind_eq_bind, Option.bind_some]

end Headers

/-! ## A message -/

section Messages

variable {heap : Nat → UInt8} {rtable : List RtEntry} {id : UInt16}
variable {inPkt packet message : List UInt8} {hdrSize : Nat} {type code : UInt8}

theorem writeReply_inside (written : writeReply inPkt hdrSize packet = some message)
    (size : packet.length = inPkt.length) (words : hdrSize % 4 = 0) :
    20 ≤ hdrSize ∧ 18 + hdrSize ≤ inPkt.length ∧ inPkt.length % 2 = 0 := by
  obtain ⟨typed, isTyped, written⟩ := Option.bind_eq_some_iff.mp written
  obtain ⟨copied, isCopied, written⟩ := Option.bind_eq_some_iff.mp written
  have inside := (exists_memcpy_iff _ _ _ _ _).mp ⟨copied, isCopied⟩
  have even := (inside_of_setIcmpChecksum exists_checksum_iff written).1
  rw [length_write isTyped, size] at inside
  simp only [ICMP_OFFSET, ICMP_HDR_SIZE, ETHER_HDR_SIZE, IP_BASE_HDR_SIZE,
    Mospf.ETHER_HDR_SIZE] at inside even
  refine ⟨?_, ?_, ?_⟩ <;> omega

theorem writeError_inside (written : writeError inPkt hdrSize type code packet = some message) :
    22 + hdrSize ≤ inPkt.length := by
  obtain ⟨typed, -, written⟩ := Option.bind_eq_some_iff.mp written
  obtain ⟨cleared, -, written⟩ := Option.bind_eq_some_iff.mp written
  obtain ⟨copied, isCopied, -⟩ := Option.bind_eq_some_iff.mp written
  have inside := (exists_memcpy_iff _ _ _ _ _).mp ⟨copied, isCopied⟩
  rw [ETHER_HDR_SIZE] at inside
  omega

/-- The reply has the bytes of the frame from the identifier on, and what was in the buffer
behind them. -/
theorem exists_writeReply (front rest : List UInt8) (place : front.length = ICMP_OFFSET)
    (size : rest.length + 34 = inPkt.length) (header : 20 ≤ hdrSize)
    (fits : 18 + hdrSize ≤ inPkt.length) (even : inPkt.length % 2 = 0) (words : hdrSize % 4 = 0) :
    ∃ head tail, head.length = 4 ∧ tail.length + 20 = hdrSize ∧
      writeReply inPkt hdrSize (front ++ rest) =
        some (front ++ (head ++ (inPkt.drop (18 + hdrSize) ++ tail))) := by
  have offset : ICMP_OFFSET = 34 := rfl
  obtain ⟨count, isCount⟩ : ∃ count, inPkt.length - (18 + hdrSize) = count := ⟨_, rfl⟩
  have dataSize : (inPkt.length - ETHER_HDR_SIZE - hdrSize - ICMP_HDR_SIZE + 4 : Int) = count := by
    rw [ETHER_HDR_SIZE, ICMP_HDR_SIZE]
    omega
  have start : ETHER_HDR_SIZE + hdrSize + ICMP_HDR_SIZE - 4 = 18 + hdrSize := by
    rw [ETHER_HDR_SIZE, ICMP_HDR_SIZE]
    omega
  have copied : (inPkt.drop (18 + hdrSize)).take count = inPkt.drop (18 + hdrSize) := by
    rw [← isCount, ← List.length_drop, List.take_length]
  obtain ⟨types, rest, rfl, typesSize⟩ := exists_cut rest 2 (by omega)
  rw [List.length_append] at size
  obtain ⟨field, rest, rfl, fieldSize⟩ := exists_cut rest 2 (by omega)
  rw [List.length_append] at size
  have typed := write_append front types [0, 0] (field ++ rest) ICMP_OFFSET place typesSize
  have filled := memcpy_front (front ++ ([0, 0] ++ field)) rest inPkt (18 + hdrSize) count
    (by rw [List.length_append, List.length_append, place, fieldSize]; rfl :
      _ = ICMP_OFFSET + ICMP_HDR_SIZE - 4) (by omega) (by omega)
  have summedSize : ((count : Int) + ICMP_HDR_SIZE - 4).toNat = count + 4 := by
    rw [ICMP_HDR_SIZE]
    omega
  obtain ⟨sum, summed⟩ := exists_setIcmpChecksum exists_checksum_iff ICMP_OFFSET (count + 4)
    (front ++ [0, 0]) (inPkt.drop (18 + hdrSize) ++ rest.drop count)
    (by rw [List.length_append, place]; rfl) fieldSize (by omega)
    (by rw [List.length_append, List.length_drop]; omega)
  refine ⟨[0, 0] ++ bytes16Little sum, rest.drop count, rfl, ?_, ?_⟩
  · rw [List.length_drop]
    omega
  · rw [copied] at filled
    simp only [List.append_assoc] at filled summed ⊢
    simp only [writeReply, dataSize, start, typed, filled, summedSize, summed,
      Option.bind_eq_bind, Option.bind_some]

theorem exists_writeError (type code : UInt8) (front rest : List UInt8)
    (place : front.length = ICMP_OFFSET) (size : rest.length = 16 + hdrSize)
    (fits : 22 + hdrSize ≤ inPkt.length) (words : hdrSize % 4 = 0) :
    ∃ message, writeError inPkt hdrSize type code (front ++ rest) = some message := by
  have offset : ICMP_OFFSET = 34 := rfl
  have length : (front ++ rest).length = 50 + hdrSize := by
    rw [List.length_append, place, size, offset]
    omega
  obtain ⟨typed, isTyped⟩ := (exists_write_iff (front ++ rest) ICMP_OFFSET [type, code]).mpr (by
    rw [length, offset, List.length_cons, List.length_singleton]
    omega)
  have typedSize := (length_write isTyped).trans length
  obtain ⟨cleared, isCleared⟩ :=
    (exists_write_iff typed (ICMP_OFFSET + ICMP_HDR_SIZE - 4) [0, 0, 0, 0]).mpr (by
      simp only [typedSize, offset, ICMP_HDR_SIZE, List.length_cons, List.length_nil]
      omega)
  have clearedSize := (length_write isCleared).trans typedSize
  obtain ⟨copied, isCopied⟩ := (exists_memcpy_iff cleared (ICMP_OFFSET + ICMP_HDR_SIZE) inPkt
    ETHER_HDR_SIZE (hdrSize + 8 : Nat)).mpr (by
      rw [clearedSize, offset, ICMP_HDR_SIZE, ETHER_HDR_SIZE]
      omega)
  have copiedSize := (length_memcpy isCopied).trans clearedSize
  obtain ⟨front, behind, rfl, frontSize⟩ := exists_cut copied 36 (by omega)
  rw [List.length_append] at copiedSize
  obtain ⟨field, behind, rfl, fieldSize⟩ := exists_cut behind 2 (by omega)
  rw [List.length_append] at copiedSize
  obtain ⟨sum, summed⟩ := exists_setIcmpChecksum exists_checksum_iff ICMP_OFFSET
    (hdrSize + 8 + ICMP_HDR_SIZE) front behind (by rw [frontSize, offset]) fieldSize
    (by rw [ICMP_HDR_SIZE]; omega) (by rw [ICMP_HDR_SIZE]; omega)
  refine ⟨front ++ (bytes16Little sum ++ behind), ?_⟩
  simp only [writeError, isTyped, isCleared, isCopied, summed, Option.bind_eq_bind,
    Option.bind_some]

theorem ipHdrSize_words (packet : List UInt8) : ipHdrSize packet % 4 = 0 := Nat.mul_mod_left _ 4

/-- What the call needs when it returns, the data of a reply apart. -/
theorem icmpSendPacket_inside
    (sent : icmpSendPacket heap rtable id inPkt type code = some message) :
    Routed rtable inPkt ∧
      if type = 8 then 20 ≤ ipHdrSize inPkt ∧ 18 + ipHdrSize inPkt ≤ inPkt.length ∧
        inPkt.length % 2 = 0
      else 22 + ipHdrSize inPkt ≤ inPkt.length := by
  obtain ⟨ihl, isIhl, sent⟩ := Option.bind_eq_some_iff.mp sent
  obtain ⟨headed, isHeaded, sent⟩ := Option.bind_eq_some_iff.mp sent
  obtain ⟨routed, size⟩ := initHeaders_inside isHeaded
  have words := ipHdrSize_words inPkt
  rw [ipHdrSize_of_read8 isIhl] at words ⊢
  refine ⟨routed, ?_⟩
  by_cases isReply : type = 8
  · rw [length_malloc, if_pos isReply] at size
    rw [if_pos isReply] at sent ⊢
    exact writeReply_inside sent size words
  · rw [if_neg isReply] at sent ⊢
    exact writeError_inside sent

theorem exists_reply (heap : Nat → UInt8) (id : UInt16) (code : UInt8)
    (routed : Routed rtable inPkt) (header : 20 ≤ ipHdrSize inPkt)
    (fits : 18 + ipHdrSize inPkt ≤ inPkt.length) (even : inPkt.length % 2 = 0) :
    ∃ ether saddr daddr sum head tail, ether.length = ETHER_HDR_SIZE ∧ head.length = 4 ∧
      tail.length + 20 = ipHdrSize inPkt ∧
      icmpSendPacket heap rtable id inPkt 8 code = some (ether ++ (ipHeader saddr daddr
        (UInt16.ofNat (inPkt.length - ETHER_HDR_SIZE)) IPPROTO_ICMP id sum ++
          (head ++ (inPkt.drop (18 + ipHdrSize inPkt) ++ tail)))) := by
  obtain ⟨ihl, isIhl⟩ := (exists_read8_iff inPkt ETHER_HDR_SIZE).mpr (by
    rw [ETHER_HDR_SIZE]
    omega)
  have offset : ICMP_OFFSET = 34 := rfl
  have size : (malloc heap inPkt.length).length = inPkt.length := length_malloc _ _
  obtain ⟨ether, saddr, daddr, sum, etherSize, headed⟩ := exists_initHeaders id routed
    (size.trans_ge (by rw [offset]; omega))
  obtain ⟨head, tail, headSize, tailSize, written⟩ := exists_writeReply
    (ether ++ ipHeader saddr daddr (UInt16.ofNat (inPkt.length - ETHER_HDR_SIZE)) IPPROTO_ICMP id
      sum) ((malloc heap inPkt.length).drop ICMP_OFFSET)
    (by rw [List.length_append, etherSize]; rfl)
    (by rw [List.length_drop, size, offset]; omega) header fits even (ipHdrSize_words inPkt)
  refine ⟨ether, saddr, daddr, sum, head, tail, etherSize, headSize, tailSize, ?_⟩
  rw [size] at headed
  simp only [List.append_assoc] at headed written ⊢
  simp only [icmpSendPacket, isIhl, if_true, headed, ← ipHdrSize_of_read8 isIhl, written,
    Option.bind_eq_bind, Option.bind_some]

theorem exists_error (heap : Nat → UInt8) (id : UInt16) (code : UInt8) (isError : type ≠ 8)
    (routed : Routed rtable inPkt) (fits : 22 + ipHdrSize inPkt ≤ inPkt.length) :
    ∃ message, icmpSendPacket heap rtable id inPkt type code = some message := by
  obtain ⟨ihl, isIhl⟩ := (exists_read8_iff inPkt ETHER_HDR_SIZE).mpr (by
    rw [ETHER_HDR_SIZE]
    omega)
  obtain ⟨packetLen, isLen⟩ : ∃ packetLen, ETHER_HDR_SIZE + IP_BASE_HDR_SIZE + ICMP_HDR_SIZE +
      ipHdrSize inPkt + 8 = packetLen := ⟨_, rfl⟩
  have offset : ICMP_OFFSET = 34 := rfl
  have size : (malloc heap packetLen).length = 50 + ipHdrSize inPkt := by
    rw [length_malloc, ← isLen, ETHER_HDR_SIZE, IP_BASE_HDR_SIZE, ICMP_HDR_SIZE]
    omega
  obtain ⟨ether, saddr, daddr, sum, etherSize, headed⟩ := exists_initHeaders id routed
    (size.trans_ge (by rw [offset]; omega))
  obtain ⟨message, written⟩ := exists_writeError type code
    (ether ++ ipHeader saddr daddr (UInt16.ofNat ((malloc heap packetLen).length -
      ETHER_HDR_SIZE)) IPPROTO_ICMP id sum) ((malloc heap packetLen).drop ICMP_OFFSET)
    (by rw [List.length_append, etherSize]; rfl)
    (by rw [List.length_drop, size, offset]; omega) fits (ipHdrSize_words inPkt)
  refine ⟨message, ?_⟩
  simp only [List.append_assoc] at headed written
  simp only [icmpSendPacket, isIhl, if_neg isError, ← ipHdrSize_of_read8 isIhl, isLen, headed,
    written, Option.bind_eq_bind, Option.bind_some]

/-- The reply has as much data as the request if its total length says so. -/
theorem reply_carries_iff {ether head tail : List UInt8} (saddr daddr : UInt32)
    (id sum : UInt16) (etherSize : ether.length = ETHER_HDR_SIZE) (headSize : head.length = 4)
    (tailSize : tail.length + 20 = ipHdrSize inPkt)
    (fits : 18 + ipHdrSize inPkt ≤ inPkt.length) :
    (∀ echo, readEcho inPkt = some echo → readEcho (ether ++ (ipHeader saddr daddr
      (UInt16.ofNat (inPkt.length - ETHER_HDR_SIZE)) IPPROTO_ICMP id sum ++
        (head ++ (inPkt.drop (18 + ipHdrSize inPkt) ++ tail)))) = some echo) ↔
    (WellFormedEcho inPkt →
      (inPkt.length - ETHER_HDR_SIZE) % 65536 + ipHdrSize inPkt = totLen inPkt + 20) := by
  obtain ⟨copied, isCopied⟩ : ∃ copied, inPkt.drop (18 + ipHdrSize inPkt) = copied := ⟨_, rfl⟩
  have copiedSize : copied.length + (18 + ipHdrSize inPkt) = inPkt.length := by
    rw [← isCopied, List.length_drop]
    omega
  have total : (UInt16.ofNat (inPkt.length - ETHER_HDR_SIZE)).toNat =
      (inPkt.length - ETHER_HDR_SIZE) % 65536 := UInt16.toNat_ofNat'
  have bytes : echoBytes inPkt = copied.take (totLen inPkt - ipHdrSize inPkt - 4) := by
    have start : Mospf.ETHER_HDR_SIZE + ipHdrSize inPkt + 4 = 18 + ipHdrSize inPkt := by
      rw [Mospf.ETHER_HDR_SIZE]
      omega
    rw [echoBytes_eq, start, isCopied]
  rw [isCopied, readEcho_headers _ saddr daddr _ _ id sum etherSize headSize, total,
    List.length_append]
  constructor
  · intro carries formed
    have message := formed.message
    have frame := formed.frame
    simp only [ICMP_HDR_SIZE, Mospf.ETHER_HDR_SIZE] at message frame
    obtain ⟨echo, carried⟩ := exists_readEcho formed
    have replied := carries echo carried
    split_ifs at replied with inside
    rw [readEcho, if_pos formed] at carried
    have asked := length_parseEcho carried
    have answered := length_parseEcho replied
    rw [length_echoBytes formed] at asked
    rw [List.length_take_of_le (by rw [List.length_append]; omega)] at answered
    omega
  · intro data echo carried
    by_cases formed : WellFormedEcho inPkt
    · have message := formed.message
      have frame := formed.frame
      have same := data formed
      simp only [ICMP_HDR_SIZE, Mospf.ETHER_HDR_SIZE] at message frame
      have count : (inPkt.length - ETHER_HDR_SIZE) % 65536 - 24 =
          totLen inPkt - ipHdrSize inPkt - 4 := by omega
      rw [readEcho, if_pos formed, bytes] at carried
      rw [if_pos (by omega), count, List.take_append_of_le_length (by omega)]
      exact carried
    · rw [readEcho, if_neg formed] at carried
      cases carried

theorem sendsInside_iff {received : List UInt8} (heap : Nat → UInt8) (id : UInt16) (code : UInt8)
    (same : type = 8 → readEcho received = readEcho inPkt) :
    SendsInside heap rtable id received inPkt type code ↔ Sendable rtable inPkt type := by
  by_cases isReply : type = 8
  · subst isReply
    rw [SendsInside, Sendable, if_pos rfl, same rfl]
    constructor
    · intro sends
      obtain ⟨message, sent, carries⟩ := sends
      obtain ⟨routed, inside⟩ := icmpSendPacket_inside sent
      rw [if_pos rfl] at inside
      obtain ⟨header, fits, even⟩ := inside
      obtain ⟨ether, saddr, daddr, sum, head, tail, etherSize, headSize, tailSize, reply⟩ :=
        exists_reply heap id code routed header fits even
      rw [sent] at reply
      rw [Option.some.inj reply] at carries
      refine ⟨routed, header, ?_, even, ?_⟩
      · rw [ETHER_HDR_SIZE]
        omega
      · exact (reply_carries_iff saddr daddr id sum etherSize headSize tailSize fits).mp
          (carries rfl)
    · intro sendable
      obtain ⟨routed, repliable⟩ := sendable
      have fits := repliable.message
      have data := repliable.data
      have long : 18 + ipHdrSize inPkt ≤ inPkt.length := by
        rw [ETHER_HDR_SIZE] at fits
        omega
      obtain ⟨ether, saddr, daddr, sum, head, tail, etherSize, headSize, tailSize, reply⟩ :=
        exists_reply heap id code routed repliable.header long
          repliable.even
      exact ⟨_, reply, fun _ =>
        (reply_carries_iff saddr daddr id sum etherSize headSize tailSize long).mpr data⟩
  · rw [SendsInside, Sendable, if_neg isReply]
    constructor
    · intro sends
      obtain ⟨message, sent, -⟩ := sends
      obtain ⟨routed, inside⟩ := icmpSendPacket_inside sent
      rw [if_neg isReply] at inside
      refine ⟨routed, ?_⟩
      rw [Copyable, ETHER_HDR_SIZE, ICMP_COPIED_DATA_LEN]
      omega
    · intro sendable
      obtain ⟨routed, copyable⟩ := sendable
      rw [Copyable, ETHER_HDR_SIZE, ICMP_COPIED_DATA_LEN] at copyable
      obtain ⟨message, sent⟩ := exists_error heap id code isReply
        routed (by omega)
      exact ⟨message, sent, fun reply => absurd reply isReply⟩

theorem Routed.congr {received : List UInt8} (marked : Marked received inPkt) :
    Routed rtable inPkt ↔ Routed rtable received := by
  have same := marked.saddr_eq
  change read32 inPkt (ETHER_HDR_SIZE + 12) = read32 received (ETHER_HDR_SIZE + 12) at same
  simp only [Routed, same]

theorem Repliable.congr {received : List UInt8} (marked : Marked received inPkt)
    (repliable : Repliable received) : Repliable inPkt where
  header := by
    rw [marked.ipHdrSize_eq]
    exact repliable.header
  message := by
    rw [marked.ipHdrSize_eq, marked.length]
    exact repliable.message
  even := by
    rw [marked.length]
    exact repliable.even
  data := by
    rw [marked.wellFormedEcho, marked.ipHdrSize_eq, marked.totLen_eq, marked.length]
    exact repliable.data

theorem Sendable.congr {received : List UInt8} (marked : Marked received inPkt) :
    Sendable rtable inPkt type ↔ Sendable rtable received type := by
  have repliable : Repliable inPkt ↔ Repliable received :=
    ⟨Repliable.congr marked.symm, Repliable.congr marked⟩
  have copyable : Copyable inPkt ↔ Copyable received := by
    rw [Copyable, Copyable, marked.ipHdrSize_eq, marked.length]
  rw [Sendable, Sendable, Routed.congr marked, repliable, copyable]

end Messages

/-! ## From `handle_ip_packet` to `icmp_send_packet` -/

section Handling

variable {iface : IfaceInfo} {rtable : List RtEntry} {received memory : List UInt8}
variable {type code : UInt8}

theorem ipForwardPacket_answered {ipDst : UInt32}
    (answers : ipForwardPacket rtable ipDst received = some (.answered type code memory)) :
    type ≠ 8 ∧ Marked received memory := by
  obtain ⟨ttl, -, answers⟩ := Option.bind_eq_some_iff.mp answers
  obtain ⟨aged, isAged, answers⟩ := Option.bind_eq_some_iff.mp answers
  have first : Marked received aged := .of_write isAged (.inr (.inl ⟨rfl, rfl⟩))
  split_ifs at answers
  · cases answers
    exact ⟨by decide, first⟩
  · obtain ⟨sum, -, answers⟩ := Option.bind_eq_some_iff.mp answers
    obtain ⟨summed, isSummed, answers⟩ := Option.bind_eq_some_iff.mp answers
    have second : Marked aged summed := .of_write isSummed (.inr (.inr ⟨rfl, rfl⟩))
    cases route : longestPrefixMatch rtable ipDst with
    | none =>
        rw [route] at answers
        cases answers
        exact ⟨by decide, first.trans second⟩
    | some entry =>
        rw [route] at answers
        cases answers

/-- An echo request comes to `icmp_send_packet` with another source address in front. -/
theorem handleIpPacket_answered
    (answers : handleIpPacket iface rtable received = some (.answered type code memory)) :
    Marked received memory ∧
      (type = 8 → ∀ place, ETHER_HDR_SIZE ≤ place → read8 memory place = read8 received place) := by
  obtain ⟨marked, isMarked, answers⟩ := Option.bind_eq_some_iff.mp answers
  obtain ⟨echo, -, answers⟩ := Option.bind_eq_some_iff.mp answers
  have size : iface.mac.toList.length = 6 := iface.mac.length_toList
  have first : Marked received marked := .of_write isMarked (.inl (by rw [size]; decide))
  split_ifs at answers
  · cases answers
    refine ⟨first, ?_⟩
    intro _ place behind
    apply read8_behind_write isMarked
    rw [size]
    exact Nat.le_trans (by decide) behind
  · obtain ⟨daddr, -, answers⟩ := Option.bind_eq_some_iff.mp answers
    obtain ⟨isError, second⟩ := ipForwardPacket_answered answers
    exact ⟨first.trans second, fun reply => absurd reply isError⟩

/-- A frame that comes to `icmp_send_packet`, on the memory that starts with it. -/
theorem handled_sendsInside_iff (heap : Nat → UInt8) (id : UInt16) {packet behind : List UInt8}
    (answers : handleIpPacket iface rtable (packet ++ behind) =
      some (.answered type code memory)) :
    SendsInside heap rtable id packet (memory.take packet.length) type code ↔
      Sendable rtable packet type := by
  obtain ⟨marked, kept⟩ := handleIpPacket_answered answers
  have taken := marked.take packet.length
  rw [List.take_left] at taken
  rw [← Sendable.congr taken]
  apply sendsInside_iff
  intro reply
  apply readEcho_congr taken.length.symm
  intro place inside
  have same := kept reply place inside
  simp only [read8] at same ⊢
  rw [List.getElem?_take]
  by_cases within : place < packet.length
  · rw [if_pos within, same, List.getElem?_append_left within]
  · rw [if_neg within, List.getElem?_eq_none (Nat.not_lt.mp within)]

end Handling

end NetworkLab.Router
