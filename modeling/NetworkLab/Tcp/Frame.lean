import NetworkLab.Lib.Bytes
import NetworkLab.Tcp.Process

/-!
# Packets as bytes

The headers that `ip_init_hdr` and `tcp_init_hdr` write, and the fields that
`tcp_cb_init` and `remove_ack_data` read back from a packet.  `none` stands for a byte
behind the end of the packet.
-/
set_option autoImplicit false

namespace NetworkLab.Tcp

open Lib.Bytes

def ETHER_HDR_SIZE : Nat := 14
def TCP_HDR_OFFSET : Nat := 5
def DEFAULT_TTL : UInt8 := 64
def IP_DF : UInt16 := 0x4000
def IPPROTO_TCP : UInt8 := 6

/-- What the headers hold besides the fields of a segment. -/
structure HdrRest where
  ether : List UInt8
  length_ether : ether.length = ETHER_HDR_SIZE
  id : UInt16
  ipChecksum : UInt16
  tcpChecksum : UInt16

def ipInitHdr (saddr daddr : UInt32) (len : UInt16) (proto : UInt8) (rest : HdrRest) : List UInt8 :=
  [0x45, 0] ++ bytes16 len ++ bytes16 rest.id ++ bytes16 IP_DF ++ [DEFAULT_TTL, proto] ++
    bytes16 rest.ipChecksum ++ bytes32 saddr ++ bytes32 daddr

def tcpInitHdr (sport dport : UInt16) (seq ack : UInt32) (flags : UInt8) (rwnd : UInt16)
    (rest : HdrRest) : List UInt8 :=
  bytes16 sport ++ bytes16 dport ++ bytes32 seq ++ bytes32 ack ++
    [UInt8.ofNat (TCP_HDR_OFFSET * 16), flags] ++ bytes16 rwnd ++ bytes16 rest.tcpChecksum ++
    bytes16 0

/-- The packet behind its ethernet header. -/
def Segment.headers (rest : HdrRest) (segment : Segment) : List UInt8 :=
  ipInitHdr segment.saddr segment.daddr segment.totLen IPPROTO_TCP rest ++
    (tcpInitHdr segment.sport segment.dport segment.seq segment.ack segment.flags segment.rwnd
      rest ++ segment.payload)

def Segment.toFrame (rest : HdrRest) (segment : Segment) : List UInt8 :=
  rest.ether ++ segment.headers rest

/-! ## Reading the headers -/

def ipHdrSize (packet : List UInt8) : Option Nat :=
  (read8 packet ETHER_HDR_SIZE).map fun ihl => ihl.toNat % 16 * 4

def ipTotLen (packet : List UInt8) : Option UInt16 := read16 packet (ETHER_HDR_SIZE + 2)

def ipProtocol (packet : List UInt8) : Option UInt8 := read8 packet (ETHER_HDR_SIZE + 9)

def ipSaddr (packet : List UInt8) : Option UInt32 := read32 packet (ETHER_HDR_SIZE + 12)

def ipDaddr (packet : List UInt8) : Option UInt32 := read32 packet (ETHER_HDR_SIZE + 16)

def tcpHdrSize (packet : List UInt8) (tcp : Nat) : Option Nat :=
  (read8 packet (tcp + 12)).map fun off => off.toNat / 16 * 4

def packetToTcpHdr (packet : List UInt8) : Option Nat :=
  (ipHdrSize packet).map fun size => ETHER_HDR_SIZE + size

/-- `tcp_cb_init`; `tcp` is the offset of the header. -/
def frameCbInit (packet : List UInt8) (tcp : Nat) : Option TcpCb := do
  let totLen ← ipTotLen packet
  let ipSize ← ipHdrSize packet
  let tcpSize ← tcpHdrSize packet tcp
  let len : Int := totLen.toNat - ipSize - tcpSize
  let saddr ← ipSaddr packet
  let daddr ← ipDaddr packet
  let sport ← read16 packet tcp
  let dport ← read16 packet (tcp + 2)
  let seq ← read32 packet (tcp + 4)
  let flags ← read8 packet (tcp + 13)
  let ack ← read32 packet (tcp + 8)
  let rwnd ← read16 packet (tcp + 14)
  some
    { saddr := saddr, daddr := daddr, sport := sport, dport := dport, seq := seq,
      seqEnd := seq + UInt32.ofInt len + if hasFlag flags (TCP_SYN ||| TCP_FIN) then 1 else 0,
      ack := ack, payload := packet.drop (tcp + tcpSize), plLen := len, rwnd := rwnd.toUInt32,
      flags := flags }

/-- What `remove_ack_data` gives back to `snd_wnd` for a packet. -/
def frameDataLen (packet : List UInt8) : Option UInt16 := do
  let tcp ← packetToTcpHdr packet
  let totLen ← ipTotLen packet
  let ipSize ← ipHdrSize packet
  let tcpSize ← tcpHdrSize packet tcp
  some (UInt16.ofInt (totLen.toNat - ipSize - tcpSize))

section Stored

variable (rest : HdrRest) (segment : Segment)

theorem read8_toFrame (offset : Nat) :
    read8 (segment.toFrame rest) (ETHER_HDR_SIZE + offset) =
      read8 (segment.headers rest) offset := by
  rw [Segment.toFrame, read8_append _ _ (by rw [rest.length_ether]; exact Nat.le_add_right ..),
    rest.length_ether, Nat.add_sub_cancel_left]

theorem read16_toFrame (offset : Nat) :
    read16 (segment.toFrame rest) (ETHER_HDR_SIZE + offset) =
      read16 (segment.headers rest) offset := by
  rw [Segment.toFrame, read16_append _ _ (by rw [rest.length_ether]; exact Nat.le_add_right ..),
    rest.length_ether, Nat.add_sub_cancel_left]

theorem read32_toFrame (offset : Nat) :
    read32 (segment.toFrame rest) (ETHER_HDR_SIZE + offset) =
      read32 (segment.headers rest) offset := by
  rw [Segment.toFrame, read32_append _ _ (by rw [rest.length_ether]; exact Nat.le_add_right ..),
    rest.length_ether, Nat.add_sub_cancel_left]

theorem drop_toFrame (offset : Nat) :
    (segment.toFrame rest).drop (ETHER_HDR_SIZE + offset) = (segment.headers rest).drop offset := by
  rw [Segment.toFrame, List.drop_append, rest.length_ether, Nat.add_sub_cancel_left,
    List.drop_of_length_le (by rw [rest.length_ether]; exact Nat.le_add_right ..), List.nil_append]

theorem ipTotLen_toFrame : ipTotLen (segment.toFrame rest) = some segment.totLen := by
  rw [ipTotLen, read16_toFrame]
  exact congrArg some (join16 segment.totLen)

theorem ipHdrSize_toFrame : ipHdrSize (segment.toFrame rest) = some IP_BASE_HDR_SIZE := by
  rw [ipHdrSize, ← Nat.add_zero ETHER_HDR_SIZE, read8_toFrame]
  rfl

theorem packetToTcpHdr_toFrame :
    packetToTcpHdr (segment.toFrame rest) = some (ETHER_HDR_SIZE + IP_BASE_HDR_SIZE) := by
  rw [packetToTcpHdr, ipHdrSize_toFrame]
  rfl

theorem tcpHdrSize_toFrame :
    tcpHdrSize (segment.toFrame rest) (ETHER_HDR_SIZE + IP_BASE_HDR_SIZE) =
      some TCP_BASE_HDR_SIZE := by
  rw [tcpHdrSize, Nat.add_assoc, read8_toFrame]
  rfl

theorem frameCbInit_toFrame :
    frameCbInit (segment.toFrame rest) (ETHER_HDR_SIZE + IP_BASE_HDR_SIZE) =
      some (tcpCbInit segment) := by
  have len : (segment.totLen.toNat : Int) - (20 : Nat) - (20 : Nat) =
      segment.totLen.toNat - (40 : Nat) := by omega
  rw [frameCbInit, ipTotLen_toFrame, ipHdrSize_toFrame, tcpHdrSize_toFrame]
  simp only [ipSaddr, ipDaddr, Nat.add_assoc, read16_toFrame, read32_toFrame, read8_toFrame,
    drop_toFrame, IP_BASE_HDR_SIZE, TCP_BASE_HDR_SIZE, Nat.reduceAdd]
  simp only [Segment.headers, ipInitHdr, tcpInitHdr, bytes16, bytes32, read32, read16, read8,
    List.cons_append, List.nil_append, List.getElem?_cons_succ, List.getElem?_cons_zero,
    List.drop_succ_cons, List.drop_zero, Option.bind_eq_bind,
    Option.bind_some, join16, join32, tcpCbInit, IP_BASE_HDR_SIZE, TCP_BASE_HDR_SIZE, Nat.reduceAdd]
  rw [len]

/-- The credit of `remove_ack_data` for a packet that it finds in `send_buf`. -/
theorem frameDataLen_toFrame :
    frameDataLen (segment.toFrame rest) = some segment.tcpDataLen := by
  rw [frameDataLen, packetToTcpHdr_toFrame, ipTotLen_toFrame, ipHdrSize_toFrame, Option.bind_eq_bind,
    Option.bind_some, tcpHdrSize_toFrame]
  apply congrArg some
  apply UInt16.toNat_inj.mp
  have below := segment.totLen.toNat_lt
  simp only [Segment.tcpDataLen, IP_BASE_HDR_SIZE, TCP_BASE_HDR_SIZE, UInt16.toNat_sub,
    UInt16.ofInt, UInt16.toNat_ofNat', Nat.reduceAdd, Nat.reducePow, Nat.reduceMod]
  omega

end Stored

end NetworkLab.Tcp
