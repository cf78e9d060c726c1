import NetworkLab.Tcp.Sock

/-!
# Incoming segments

`tcp_in.c` and `tcp_sock_read`.  `none` stands for the failed assertion of
`write_ring_buffer` and for reads outside the payload.
-/
set_option autoImplicit false

namespace NetworkLab.Tcp

/-- One traversal of `rcv_ofo_buf`: the socket, the packets left in the list, and the
flag that some packet was taken out. -/
def drainPass : List OfoPacket → TcpSock → Option (TcpSock × List OfoPacket × Bool)
  | [], tsk => some (tsk, [], false)
  | t :: rest, tsk =>
    if t.seqNum = tsk.rcvNxt then do
      let rcvBuf ← tsk.rcvBuf.writeRingBuffer t.packet t.len
      let (next, left, _) ← drainPass rest
        { tsk with rcvBuf := rcvBuf, rcvNxt := t.seqNum + UInt32.ofInt t.len }
      some (next, left, true)
    else do
      let (next, left, flag) ← drainPass rest tsk
      some (next, t :: left, flag)

/-- The loop `while(1)` around the traversal.  Every further round follows one that
took a packet out, so a fuel above the length of the list is never used up. -/
def drain : Nat → TcpSock → Option TcpSock
  | 0, tsk => some tsk
  | fuel + 1, tsk => do
    let (next, left, flag) ← drainPass tsk.rcvOfoBuf tsk
    let drained := { next with rcvOfoBuf := left }
    if flag then drain fuel drained else some drained

/-- The branch for a payload that starts at `rcv_nxt`. -/
def tcpRcvInOrder (cb : TcpCb) (tsk : TcpSock) : Option Outcome := do
  let rcvBuf ← tsk.rcvBuf.writeRingBuffer cb.payload cb.plLen
  let drained ← drain (tsk.rcvOfoBuf.length + 1)
    { tsk with rcvBuf := rcvBuf, rcvNxt := cb.seqEnd }
  let replied := tcpSendControlPacket TCP_ACK drained
  some { replied with effects := .wakeUp .waitRecv :: replied.effects }

/-- The branch for a payload that starts after `rcv_nxt`. -/
def tcpBufferOfo (cb : TcpCb) (tsk : TcpSock) : Option Outcome :=
  if 0 ≤ cb.plLen ∧ cb.plLen ≤ cb.payload.length then
    let bufPac : OfoPacket :=
      { packet := cb.payload.take cb.plLen.toNat, len := cb.plLen, seqNum := cb.seq }
    some { tsk := { tsk with rcvOfoBuf := tsk.rcvOfoBuf ++ [bufPac] }, effects := [] }
  else none

/-- `tcp_process` after the states that it handles on their own. -/
def tcpRcvSegment (cb : TcpCb) (tsk : TcpSock) : Option Outcome :=
  if cb.plLen ≠ 0 then
    if cb.seq = tsk.rcvNxt then tcpRcvInOrder cb tsk
    else if cb.seq < tsk.rcvNxt then
      some ((tcpSendControlPacket TCP_ACK tsk).andThen (removeAckData cb.ack))
    else tcpBufferOfo cb tsk
  else if hasFlag cb.flags TCP_FIN then
    let waiting := tcpSetState .closeWait tsk
    let acked := if hasFlag cb.flags TCP_ACK then removeAckData cb.ack waiting else waiting.done
    some ((acked.andThen fun t => tcpSendControlPacket TCP_ACK
      { t with rcvNxt := cb.seqEnd }).andThen tcpSockClose)
  else
    let acked := if hasFlag cb.flags TCP_ACK then removeAckData cb.ack tsk else tsk.done
    if cb.flags ≠ TCP_ACK then
      some (acked.andThen fun t => tcpSendControlPacket TCP_ACK { t with rcvNxt := cb.seqEnd })
    else some acked

/-- `iss` is the value of `tcp_new_iss` for the child. -/
def tcpStateListen (iss : UInt32) (cb : TcpCb) (tsk : TcpSock) : Outcome :=
  if hasFlag cb.flags TCP_SYN then
    let child : TcpSock :=
      { allocTcpSock with
        localAddr := { ip := cb.daddr, port := cb.dport },
        peer := { ip := cb.saddr, port := cb.sport },
        state := .synRecv, rcvNxt := cb.seqEnd, iss := iss, sndNxt := iss }
    let sent := tcpSendControlPacket (TCP_SYN ||| TCP_ACK) child
    { tsk := tsk,
      effects := .newChild sent.tsk :: sent.effects.map .ofChild ++ [.hashChild] }
  else { tsk := tsk, effects := [tcpSendReset cb] }

def tcpStateSynSent (cb : TcpCb) (tsk : TcpSock) : Outcome :=
  if hasFlag cb.flags (TCP_SYN ||| TCP_ACK) then
    let replied := (removeAckData cb.ack tsk).andThen fun t =>
      tcpSendControlPacket TCP_ACK { t with rcvNxt := cb.seqEnd, sndUna := cb.ack }
    { replied with tsk := tcpSetState .established replied.tsk }.emit (.wakeUp .waitConnect)
  else { tsk := tsk, effects := [tcpSendReset cb] }

def tcpStateSynRecv (cb : TcpCb) (tsk : TcpSock) : Outcome :=
  if hasFlag cb.flags TCP_ACK then
    ((removeAckData cb.ack tsk).emit .acceptEnqueue).emit (.wakeUp .parentWaitAccept)
  else { tsk := tsk, effects := [tcpSendReset cb] }

def tcpProcess (iss : UInt32) (cb : TcpCb) (tsk : TcpSock) : Option Outcome :=
  if tsk.state = .closed then some { tsk := tsk, effects := [tcpSendReset cb] }
  else if tsk.state = .listen then some (tcpStateListen iss cb tsk)
  else if tsk.state = .synSent then some (tcpStateSynSent cb tsk)
  else if hasFlag cb.flags TCP_RST then some ((tcpSockClose tsk).emit .freeTcpSock)
  else if hasFlag cb.flags TCP_SYN then
    let closed := tcpSockClose tsk
    some { closed with effects := tcpSendReset cb :: closed.effects }
  else if !hasFlag cb.flags TCP_ACK && !hasFlag cb.flags TCP_FIN then some tsk.done
  else if tsk.state = .synRecv then some (tcpStateSynRecv cb tsk)
  else if tsk.state = .finWait1 then
    let acked := removeAckData cb.ack tsk
    some { acked with tsk := tcpSetState .finWait2 acked.tsk }
  else if tsk.state = .finWait2 then
    if cb.flags = TCP_ACK ||| TCP_FIN then
      some ((tcpSendControlPacket TCP_ACK { tsk with rcvNxt := cb.seqEnd }).emit .setTimewaitTimer)
    else some tsk.done
  else if tsk.state = .lastAck then
    some ((removeAckData cb.ack (tcpSetState .closed tsk)).emit .unhash)
  else tcpRcvSegment cb tsk

def tcpSockRead (len : Nat) (tsk : TcpSock) : List UInt8 × TcpSock :=
  let (bytes, rcvBuf) := tsk.rcvBuf.readRingBuffer len
  (bytes, { tsk with rcvBuf := rcvBuf })

/-- `tcp_cb_init` on a packet whose headers have no options. -/
def tcpCbInit (packet : Segment) : TcpCb :=
  let len : Int := packet.totLen.toNat - (IP_BASE_HDR_SIZE + TCP_BASE_HDR_SIZE : Nat)
  { saddr := packet.saddr, daddr := packet.daddr, sport := packet.sport, dport := packet.dport,
    seq := packet.seq,
    seqEnd := packet.seq + UInt32.ofInt len +
      if hasFlag packet.flags (TCP_SYN ||| TCP_FIN) then 1 else 0,
    ack := packet.ack, payload := packet.payload, plLen := len,
    rwnd := packet.rwnd.toUInt32, flags := packet.flags }

/-- A segment without payload; its remaining header fields are those of `other`. -/
def bareCb (seq : UInt32) (flags : UInt8) (other : TcpCb) : TcpCb :=
  { other with
    seq := seq,
    seqEnd := seq + if hasFlag flags (TCP_SYN ||| TCP_FIN) then 1 else 0,
    payload := [], plLen := 0, flags := flags }

end NetworkLab.Tcp
