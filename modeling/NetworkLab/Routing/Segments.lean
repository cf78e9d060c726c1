import NetworkLab.Routing.Travel
import NetworkLab.Tcp.SegmentChecksum

/-!
# Segments on their way

The bytes of a segment that `tcp_send_packet` and `tcp_send_control_packet` fill in, and what
`handle_tcp_packet` makes of them behind any number of routers: `tcp_process` gets the segment
that was sent.
-/
set_option autoImplicit false

namespace NetworkLab.Routing

open Lib Lib.Bytes Icmp
open NetworkLab.Mospf (RtEntry IpSent longestPrefixMatch getNextHop ipChecksum)
open NetworkLab.Tcp (Segment HdrRest TcpSock TcpCb SocketStack Sockets Handled Fault orFault
  tcpChecksum clearChecksum clearedChecksum htons tcpCbInit frameCbInit tcpProcessChecked
  buildSegment ETHER_HDR_SIZE IP_BASE_HDR_SIZE TCP_BASE_HDR_SIZE)

/-- Where the TCP header lies in the packets of the stack. -/
def TCP_OFFSET : Nat := ETHER_HDR_SIZE + IP_BASE_HDR_SIZE

/-- `tcp->checksum = tcp_checksum(ip, tcp); ip->checksum = ip_checksum(ip)`, behind
`tcp_init_hdr` and `ip_init_hdr`; `rest` is what the packet holds besides. -/
def checkedFrame (rest : HdrRest) (segment : Segment) : Option (List UInt8) := do
  let packet := segment.toFrame rest
  let sum ← tcpChecksum packet TCP_OFFSET
  let packet ← write packet (TCP_OFFSET + 16) (bytes16Little sum)
  let sum ← ipChecksum packet
  write packet (ETHER_HDR_SIZE + 10) (bytes16Little sum)

def processCb {ι : Type} [DecidableEq ι] (stack : SocketStack ι) (iss : UInt32) (cb : TcpCb) :
    Except Fault (Handled ι) := do
  let s ← orFault .nullSocket (stack.sockets.tcpSockLookup cb)
  let sock ← orFault .nullSocket (stack.sockets.socket s)
  let outcome ← tcpProcessChecked iss cb sock.tsk
  if outcome.enqueues ∧ sock.parent = none then .error .nullSocket
  else .ok (.processed s outcome)

/-- `ip_send_packet` of a stack, and the way of the packet from there; `none` also where there is
no route or no next stack. -/
def Internet.send {ρ : Type} (net : Internet ρ) (s : ρ) (packet : List UInt8) :
    Option (Arrival ρ × Disposal) := do
  let sent ← Mospf.ipSendPacket (net.rtable s) packet
  let copy ← sent.head?
  let next ← net.receiver s copy.iface copy.nextHop
  net.travel 256 { host := next, ip := copy.nextHop, packet := net.received s copy }

def Fits (segment : Segment) : Prop := segment.totLen.toNat = 40 + segment.payload.length

theorem fits_buildSegment (tsk : TcpSock) (flags : UInt8) {payload : List UInt8}
    (short : payload.length ≤ 65495) : Fits (buildSegment tsk flags payload) := by
  have below : 20 + 20 + payload.length < UInt16.size := by
    change _ < 65536
    omega
  exact UInt16.toNat_ofNat_of_lt' below

/-! ## The checksum and the routers -/

section Checksums

variable {packet other : List UInt8}

theorem checksum_congr {offset : Nat}
    (same : ∀ place, offset ≤ place → read8 other place = read8 packet place) (nbytes : Nat)
    (sum : UInt32) : checksum other offset nbytes sum = checksum packet offset nbytes sum := by
  have words : ∀ count start sum, offset ≤ start →
      sumWords other start count sum = sumWords packet start count sum := by
    intro count
    induction count with
    | zero => exact fun _ _ _ => rfl
    | succ count ih =>
        intro start sum behind
        rw [sumWords, sumWords, read16Little, read16Little, same start behind,
          same (start + 1) (by omega)]
        apply congrArg
        funext word
        exact ih (start + 2) _ (by omega)
  rw [checksum, checksum, words _ _ _ le_rfl]
  by_cases odd : nbytes % 2 ≠ 0
  · simp only [if_pos odd]
    rw [same (offset + nbytes - 1) (by omega)]
  · simp only [if_neg odd]

section Kept

variable (marked : Marked packet other)

include marked

theorem kept_header {offset : Nat} (notTtl : offset ≠ 8) (notHigh : offset ≠ 10)
    (notLow : offset ≠ 11) :
    read8 other (ETHER_HDR_SIZE + offset) = read8 packet (ETHER_HDR_SIZE + offset) := by
  apply marked.kept
  · exact Nat.le_add_right ..
  · exact fun same => notTtl (Nat.add_left_cancel same)
  · exact fun same => notHigh (Nat.add_left_cancel same)
  · exact fun same => notLow (Nat.add_left_cancel same)

theorem kept_first : read8 other ETHER_HDR_SIZE = read8 packet ETHER_HDR_SIZE :=
  kept_header marked (show 0 ≠ 8 by decide) (by decide) (by decide)

theorem kept_tcp (offset : Nat) :
    read8 other (TCP_OFFSET + offset) = read8 packet (TCP_OFFSET + offset) := by
  have far : 20 ≤ IP_BASE_HDR_SIZE + offset := Nat.le_add_right ..
  rw [TCP_OFFSET, Nat.add_assoc]
  exact kept_header marked (by omega) (by omega) (by omega)

theorem marked_clearChecksum :
    Marked (clearChecksum packet TCP_OFFSET) (clearChecksum other TCP_OFFSET) where
  length := by rw [Tcp.length_clearChecksum, Tcp.length_clearChecksum, marked.length]
  kept := by
    intro place behind ttl high low
    have same := marked.kept place behind ttl high low
    unfold read8 at same ⊢
    unfold clearChecksum
    simp only [List.getElem?_set, List.length_set, marked.length, same]

theorem clearedChecksum_kept :
    clearedChecksum other TCP_OFFSET = clearedChecksum packet TCP_OFFSET := by
  have words : ∀ nbytes sum,
      checksum other TCP_OFFSET nbytes sum = checksum packet TCP_OFFSET nbytes sum := by
    apply checksum_congr
    intro place behind
    obtain ⟨offset, rfl⟩ := Nat.exists_eq_add_of_le behind
    exact kept_tcp marked offset
  simp only [clearedChecksum, Tcp.ipProtocol, Tcp.ipTotLen, Tcp.ipHdrSize, read16, read32Little,
    read16Little, words, kept_first marked, Nat.add_assoc, Nat.reduceAdd]
  simp (disch := decide) only [kept_header marked]

theorem tcpChecksum_kept : tcpChecksum other TCP_OFFSET = tcpChecksum packet TCP_OFFSET := by
  simp only [tcpChecksum, read16Little, clearedChecksum_kept (marked_clearChecksum marked),
    Nat.add_assoc, kept_tcp marked]

theorem frameCbInit_kept : frameCbInit other TCP_OFFSET = frameCbInit packet TCP_OFFSET := by
  have payload : ∀ size, other.drop (TCP_OFFSET + size) = packet.drop (TCP_OFFSET + size) := by
    intro size
    apply List.ext_getElem?
    intro place
    rw [List.getElem?_drop, List.getElem?_drop, Nat.add_assoc]
    exact kept_tcp marked (size + place)
  have first := kept_tcp marked 0
  rw [Nat.add_zero] at first
  simp only [frameCbInit, Tcp.ipTotLen, Tcp.ipHdrSize, Tcp.tcpHdrSize, Tcp.ipSaddr, Tcp.ipDaddr,
    read16, read32, Nat.add_assoc, Nat.reduceAdd, kept_first marked, kept_tcp marked, first,
    payload]
  simp (disch := decide) only [kept_header marked]

end Kept

end Checksums

/-! ## The sender -/

section Sender

variable (rest : HdrRest) (segment : Segment)

theorem bytes16_htons (sum : UInt16) : bytes16 (htons sum) = bytes16Little sum := by
  have below := sum.toNat_lt
  have small : sum.toNat / 256 < 256 := by omega
  have swapped : (htons sum).toNat = 256 * (sum.toNat % 256) + sum.toNat / 256 := by
    rw [htons, UInt16.toNat_ofNat', Nat.mod_eq_of_lt, Nat.mul_comm]
    omega
  have high : (htons sum).toNat / 256 = sum.toNat % 256 := by
    rw [swapped, Nat.mul_add_div (by decide), Nat.div_eq_of_lt small, Nat.add_zero]
  rw [bytes16, bytes16Little, high, List.cons.injEq, List.cons.injEq]
  refine ⟨?_, ?_, rfl⟩
  · apply UInt8.toNat_inj.mp
    simp only [UInt8.toNat_ofNat']
    omega
  · apply UInt8.toNat_inj.mp
    simp only [UInt8.toNat_ofNat']
    omega

theorem length_toFrame : (segment.toFrame rest).length = 54 + segment.payload.length := by
  simp only [Segment.toFrame, Segment.headers, Tcp.ipInitHdr, Tcp.tcpInitHdr, List.length_append,
    rest.length_ether, length_bytes16, length_bytes32, List.length_cons, List.length_nil,
    ETHER_HDR_SIZE]
  omega

theorem exists_tcpChecksum (fits : Fits segment) :
    ∃ sum, tcpChecksum (segment.toFrame rest) TCP_OFFSET = some sum := by
  apply (Tcp.exists_tcpChecksum_iff (Nat.le_add_right ..) (Tcp.ipHdrSize_toFrame rest segment)
    (Tcp.ipTotLen_toFrame rest segment)).mpr
  have total : segment.totLen.toNat = 40 + segment.payload.length := fits
  have below := segment.totLen.toNat_lt
  have size := Tcp.toNat_ofInt (n := segment.totLen.toNat - IP_BASE_HDR_SIZE)
    (by unfold IP_BASE_HDR_SIZE; omega) (by omega)
  rw [length_toFrame]
  unfold TCP_OFFSET ETHER_HDR_SIZE IP_BASE_HDR_SIZE at *
  omega

theorem write_tcpChecksum (sum : UInt16) :
    write (segment.toFrame rest) (TCP_OFFSET + 16) (bytes16Little sum) =
      some (segment.toFrame { rest with tcpChecksum := htons sum }) := by
  let front := rest.ether ++ (Tcp.ipInitHdr segment.saddr segment.daddr segment.totLen
    Tcp.IPPROTO_TCP rest ++ (bytes16 segment.sport ++ bytes16 segment.dport ++
      bytes32 segment.seq ++ bytes32 segment.ack ++
      [UInt8.ofNat (Tcp.TCP_HDR_OFFSET * 16), segment.flags] ++ bytes16 segment.rwnd))
  have cut : segment.toFrame rest =
      front ++ (bytes16 rest.tcpChecksum ++ (bytes16 0 ++ segment.payload)) := by
    simp only [front, Segment.toFrame, Segment.headers, Tcp.tcpInitHdr, List.append_assoc]
  have length : front.length = TCP_OFFSET + 16 := by
    simp only [front, Tcp.ipInitHdr, List.length_append, rest.length_ether, length_bytes16,
      length_bytes32, List.length_cons, List.length_nil]
    rfl
  rw [cut, write_append _ _ _ _ _ length (by rw [length_bytes16, length_bytes16Little]),
    ← bytes16_htons]
  simp only [front, Segment.toFrame, Segment.headers, Tcp.tcpInitHdr, Tcp.ipInitHdr,
    List.append_assoc]

theorem write_ipChecksum (sum : UInt16) :
    write (segment.toFrame rest) (ETHER_HDR_SIZE + 10) (bytes16Little sum) =
      some (segment.toFrame { rest with ipChecksum := htons sum }) := by
  let front := rest.ether ++ ([0x45, 0] ++ bytes16 segment.totLen ++ bytes16 rest.id ++
    bytes16 Tcp.IP_DF ++ [Tcp.DEFAULT_TTL, Tcp.IPPROTO_TCP])
  have cut : ∀ checksum, segment.toFrame { rest with ipChecksum := checksum } =
      front ++ (bytes16 checksum ++ (bytes32 segment.saddr ++ (bytes32 segment.daddr ++
        (Tcp.tcpInitHdr segment.sport segment.dport segment.seq segment.ack segment.flags
          segment.rwnd rest ++ segment.payload)))) := by
    intro checksum
    simp only [front, Segment.toFrame, Segment.headers, Tcp.ipInitHdr, Tcp.tcpInitHdr,
      List.append_assoc]
  have length : front.length = ETHER_HDR_SIZE + 10 := by
    simp only [front, List.length_append, rest.length_ether, length_bytes16, List.length_cons,
      List.length_nil]
  have same : segment.toFrame rest = segment.toFrame { rest with ipChecksum := rest.ipChecksum } :=
    rfl
  rw [same, cut, cut, write_append _ _ _ _ _ length (by rw [length_bytes16, length_bytes16Little]),
    bytes16_htons]

theorem exists_ipChecksum : ∃ sum, ipChecksum (segment.toFrame rest) = some sum := by
  have shape : segment.toFrame rest = rest.ether ++ (0x45 :: (segment.headers rest).tail) := rfl
  rw [shape]
  apply Mospf.exists_ipChecksum _ rest.length_ether
  simp only [Segment.headers, Tcp.ipInitHdr, List.length_tail, List.length_append, length_bytes16,
    length_bytes32, List.length_cons, List.length_nil]
  omega

theorem clearChecksum_write {packet next : List UInt8} {sum : UInt16}
    (written : write packet (TCP_OFFSET + 16) (bytes16Little sum) = some next) :
    clearChecksum next TCP_OFFSET = clearChecksum packet TCP_OFFSET := by
  have length := length_write written
  apply List.ext_getElem?
  intro place
  unfold clearChecksum
  simp only [List.getElem?_set, List.length_set, length]
  by_cases high : TCP_OFFSET + 17 = place
  · rw [if_pos high, if_pos high]
  by_cases low : TCP_OFFSET + 16 = place
  · rw [if_neg high, if_neg high, if_pos low, if_pos low]
  rw [if_neg high, if_neg high, if_neg low, if_neg low]
  exact read8_outside_write written (by rw [length_bytes16Little]; omega)

/-- The frame that leaves the sender holds the checksum that the receiver computes. -/
theorem exists_checkedFrame (fits : Fits segment) :
    ∃ rest' sum, checkedFrame rest segment = some (segment.toFrame rest') ∧
      tcpChecksum (segment.toFrame rest') TCP_OFFSET = some sum ∧
      read16Little (segment.toFrame rest') (TCP_OFFSET + 16) = some sum := by
  obtain ⟨sum, summed⟩ := exists_tcpChecksum rest segment fits
  have stored := write_tcpChecksum rest segment sum
  obtain ⟨header, isHeader⟩ := exists_ipChecksum { rest with tcpChecksum := htons sum } segment
  have closed := write_ipChecksum { rest with tcpChecksum := htons sum } segment header
  have field := read16Little_write stored
  have marked := Marked.of_write closed (.inr (.inr ⟨rfl, rfl⟩))
  refine ⟨{ rest with tcpChecksum := htons sum, ipChecksum := htons header }, sum, ?_, ?_, ?_⟩
  rotate_left
  · rw [tcpChecksum_kept marked]
    obtain ⟨old, -, clears⟩ := Option.bind_eq_some_iff.mp summed
    rw [tcpChecksum, field, clearChecksum_write stored]
    exact clears
  · rw [← field]
    simp only [read16Little, Nat.add_assoc, kept_tcp marked]
  · simp only [checkedFrame, summed, stored, isHeader, closed, Option.bind_eq_bind,
      Option.bind_some]

end Sender

/-! ## The receiver -/

section Receiver

variable {rest : HdrRest} {segment : Segment}

theorem headed_toFrame : Headed segment.daddr (segment.toFrame rest) := by
  constructor
  · have daddr := Tcp.read32_toFrame rest segment 16
    exact daddr.trans (congrArg some (join32 segment.daddr))
  · have ihl : read8 (segment.toFrame rest) ETHER_HDR_SIZE = some 0x45 := by
      rw [← Nat.add_zero ETHER_HDR_SIZE, Tcp.read8_toFrame]
      rfl
    rw [ipHdrSize_of_read8 ihl, length_toFrame]
    change 14 + 20 < _
    omega

theorem ipTtl_toFrame : Mospf.ipTtl (segment.toFrame rest) = 64 := by
  have ttl : read8 (segment.toFrame rest) (ETHER_HDR_SIZE + 8) = some 64 :=
    Tcp.read8_toFrame rest segment 8
  have same : Mospf.ETHER_HDR_SIZE = ETHER_HDR_SIZE := rfl
  rw [Mospf.ipTtl, same, ttl]
  rfl

/-- A frame with the right checksum comes to `tcp_process` as the segment, whatever routers wrote
into its header. -/
theorem handleIpPacket_marked {ι : Type} [DecidableEq ι] (stack : SocketStack ι) (iss : UInt32)
    (fits : Fits segment) {sum : UInt16} {arrived : List UInt8}
    (summed : tcpChecksum (segment.toFrame rest) TCP_OFFSET = some sum)
    (field : read16Little (segment.toFrame rest) (TCP_OFFSET + 16) = some sum)
    (marked : Marked (segment.toFrame rest) arrived) :
    stack.handleIpPacket segment.daddr iss arrived = processCb stack iss (tcpCbInit segment) := by
  have daddr : Tcp.ipDaddr arrived = some segment.daddr := (headed_toFrame.congr marked).daddr
  have protocol : Tcp.ipProtocol arrived = some Tcp.IPPROTO_TCP :=
    (kept_header marked (show 9 ≠ 8 by decide) (by decide) (by decide)).trans
      (Tcp.read8_toFrame rest segment 9)
  have place : Tcp.packetToTcpHdr arrived = some TCP_OFFSET := by
    have same := Tcp.packetToTcpHdr_toFrame rest segment
    unfold Tcp.packetToTcpHdr Tcp.ipHdrSize at same ⊢
    rw [kept_first marked]
    exact same
  have sums := (tcpChecksum_kept marked).trans summed
  have fields : read16Little arrived (TCP_OFFSET + 16) = some sum := by
    rw [← field]
    simp only [read16Little, Nat.add_assoc, kept_tcp marked]
  have cb := (frameCbInit_kept marked).trans (Tcp.frameCbInit_toFrame rest segment)
  have notNegative : ¬ (tcpCbInit segment).plLen < 0 := by
    have total : segment.totLen.toNat = 40 + segment.payload.length := fits
    have length : (tcpCbInit segment).plLen = (segment.totLen.toNat : Int) - (40 : Nat) := rfl
    rw [length, total]
    omega
  simp only [SocketStack.handleIpPacket, SocketStack.handleTcpPacket, daddr, protocol, place, sums,
    fields, cb, Tcp.inside, Tcp.orFault, bind, Except.bind, if_true, if_neg notNegative]
  rfl

end Receiver

/-- A segment that leaves by `ip_send_packet` with its checksums, and comes to its destination
over fewer than 64 routers, is handed to `tcp_process` there as it was sent. -/
theorem segments_cross {ρ ι : Type} [DecidableEq ι] (net : Internet ρ) (segment : Segment)
    (fits : Fits segment) (rest : HdrRest) (s : ρ) (u v : ρ × UInt32) (n : Nat)
    (first : net.Leads segment.daddr s u) (way : Walk (net.Hop segment.daddr) n u v)
    (arrives : v.2 = segment.daddr) (near : n < 64) (stack : SocketStack ι) (iss : UInt32) :
    ∃ frame arrived disposal, checkedFrame rest segment = some frame ∧
      net.send s frame = some ({ host := v.1, ip := v.2, packet := arrived }, disposal) ∧
      stack.handleIpPacket v.2 iss arrived = processCb stack iss (tcpCbInit segment) := by
  obtain ⟨rest', sum, isFrame, summed, field⟩ := exists_checkedFrame rest segment fits
  obtain ⟨entry, route, nextHop, receiver⟩ := first
  have headed : Headed segment.daddr (segment.toFrame rest') := headed_toFrame
  have inside := headed.inside
  let copy : IpSent := { iface := entry.iface, nextHop := u.2, packet := segment.toFrame rest' }
  have leaves : Carried 0 (segment.toFrame rest') (net.received s copy) :=
    Carried.received (Carried.refl copy.packet) (Nat.le_of_add_right_le inside) s
  have ttl := leaves.ttl
  rw [ipTtl_toFrame] at ttl
  obtain ⟨arrived, disposal, carried, -, -, goes⟩ :=
    travel_arrives (headed.congr leaves.marked) way arrives (.inr (by omega))
  refine ⟨segment.toFrame rest', arrived, disposal, isFrame, ?_, ?_⟩
  · have daddr : read32 (segment.toFrame rest') (Mospf.ETHER_HDR_SIZE + 16) =
      some segment.daddr := headed.daddr
    simp only [Internet.send, Mospf.ipSendPacket, daddr, route, Option.bind_eq_bind,
      Option.bind_some, List.head?_cons]
    rw [← nextHop, receiver]
    exact goes
  · rw [arrives]
    exact handleIpPacket_marked stack iss fits summed field (leaves.marked.trans carried.marked)

def defaultRoute (gw : UInt32) : RtEntry :=
  { dest := 0, mask := 0, gw := gw, ifName := "h1-eth0", iface := 0 }

def routedNet : Internet Nat where
  rtable r := [defaultRoute (if r = 0 then 0x0a000102 else 0)]
  receiver r _ _ := some (r + 1)
  ether _ _ := Vector.replicate 14 0

def smallRest : HdrRest :=
  { ether := [2, 0, 0, 0, 0, 2, 2, 0, 0, 0, 0, 1, 8, 0], length_ether := rfl, id := 0,
    ipChecksum := 0, tcpChecksum := 0 }

theorem segments_cross_router :
    let segment := buildSegment Tcp.smallSock (Tcp.TCP_PSH ||| Tcp.TCP_ACK) [1, 2, 3]
    ∃ frame arrived disposal, checkedFrame smallRest segment = some frame ∧
      routedNet.send 0 frame =
        some ({ host := 2, ip := segment.daddr, packet := arrived }, disposal) ∧
      Tcp.newStack.handleIpPacket segment.daddr 0 arrived =
        processCb Tcp.newStack 0 (tcpCbInit segment) := by
  intro segment
  have fits : Fits segment := fits_buildSegment _ _ (by decide)
  have first : routedNet.Leads segment.daddr 0 (1, 0x0a000102) :=
    ⟨defaultRoute 0x0a000102, by decide, rfl, rfl⟩
  have hop : routedNet.Hop segment.daddr (1, 0x0a000102) (2, segment.daddr) :=
    ⟨by decide, defaultRoute 0, by decide, rfl, rfl⟩
  exact segments_cross routedNet segment fits smallRest 0 (1, 0x0a000102) (2, segment.daddr) 1
    first ⟨_, hop, rfl⟩ rfl (by decide) Tcp.newStack 0

end NetworkLab.Routing
