import NetworkLab.Tcp.Closing
import NetworkLab.Tcp.RingBuffer

/-!
# The stack without retransmission

`tcp_in.c`, `tcp_out.c` and `tcp_sock_read` of `16-tcp_stack`.  The socket has no
`send_buf` and no `rcv_ofo_buf`; sequence numbers are checked, and every data segment
takes its length off `rcv_wnd`.  States, flags, headers and the ring buffer are those of
the later stack.  `none` stands for the failed assertion of `write_ring_buffer` and for
reads outside the payload.
-/
set_option autoImplicit false

namespace NetworkLab.Tcp16

open Tcp

structure TcpSock where
  localAddr : SockAddr
  peer : SockAddr
  state : TcpState
  iss : UInt32
  sndUna : UInt32
  sndNxt : UInt32
  rcvNxt : UInt32
  sndWnd : UInt16
  rcvWnd : UInt16
  rcvBuf : RingBuffer

/-- What calls do outside the socket. -/
inductive Effect
  | ipSendPacket (segment : Segment)
  | setTimewaitTimer
  | wakeUp (queue : WaitQueue)
  | newChild (child : TcpSock)
  | ofChild (effect : Effect)
  | hashChild
  | acceptEnqueue
  | unhash

structure Outcome where
  tsk : TcpSock
  effects : List Effect

def Outcome.andThen (outcome : Outcome) (f : TcpSock → Outcome) : Outcome :=
  let next := f outcome.tsk
  { tsk := next.tsk, effects := outcome.effects ++ next.effects }

def TcpSock.done (tsk : TcpSock) : Outcome := { tsk := tsk, effects := [] }

def allocTcpSock : TcpSock :=
  { localAddr := { ip := 0, port := 0 }, peer := { ip := 0, port := 0 }, state := .closed,
    iss := 0, sndUna := 0, sndNxt := 0, rcvNxt := 0, sndWnd := 0,
    rcvWnd := UInt16.ofNat TCP_DEFAULT_WINDOW, rcvBuf := Tcp.allocTcpSock.rcvBuf }

def tcpSetState (state : TcpState) (tsk : TcpSock) : TcpSock := { tsk with state := state }

def buildSegment (tsk : TcpSock) (flags : UInt8) (payload : List UInt8) : Segment :=
  { saddr := tsk.localAddr.ip, daddr := tsk.peer.ip,
    totLen := UInt16.ofNat (IP_BASE_HDR_SIZE + TCP_BASE_HDR_SIZE + payload.length),
    sport := tsk.localAddr.port, dport := tsk.peer.port, seq := tsk.sndNxt, ack := tsk.rcvNxt,
    flags := flags, rwnd := tsk.rcvWnd, payload := payload }

def tcpSendControlPacket (flags : UInt8) (tsk : TcpSock) : Outcome :=
  let packet := buildSegment tsk flags []
  { tsk := if hasFlag flags (TCP_SYN ||| TCP_FIN) then { tsk with sndNxt := tsk.sndNxt + 1 } else tsk,
    effects := [.ipSendPacket packet] }

def tcpSendReset (cb : TcpCb) : Effect :=
  .ipSendPacket
    { saddr := cb.daddr, daddr := cb.saddr,
      totLen := UInt16.ofNat (IP_BASE_HDR_SIZE + TCP_BASE_HDR_SIZE),
      sport := cb.dport, dport := cb.sport, seq := 0, ack := cb.seqEnd,
      flags := TCP_RST ||| TCP_ACK, rwnd := 0, payload := [] }

def tcpStateListen (iss : UInt32) (cb : TcpCb) (tsk : TcpSock) : Outcome :=
  if hasFlag cb.flags TCP_SYN then
    let child : TcpSock :=
      { allocTcpSock with
        localAddr := { ip := cb.daddr, port := cb.dport },
        peer := { ip := cb.saddr, port := cb.sport },
        state := .synRecv, rcvNxt := cb.seqEnd, iss := iss, sndNxt := iss }
    let sent := tcpSendControlPacket (TCP_SYN ||| TCP_ACK) child
    { tsk := tsk,
      effects := .newChild sent.tsk :: sent.effects.map .ofChild ++ [.hashChild] }
  else { tsk := tsk, effects := [tcpSendReset cb] }

def tcpStateSynSent (cb : TcpCb) (tsk : TcpSock) : Outcome :=
  if hasFlag cb.flags (TCP_SYN ||| TCP_ACK) then
    let replied := tcpSendControlPacket TCP_ACK { tsk with rcvNxt := cb.seqEnd, sndUna := cb.ack }
    { tsk := tcpSetState .established replied.tsk,
      effects := replied.effects ++ [.wakeUp .waitConnect] }
  else { tsk := tsk, effects := [tcpSendReset cb] }

def tcpStateSynRecv (cb : TcpCb) (tsk : TcpSock) : Outcome :=
  if hasFlag cb.flags TCP_ACK then
    { tsk := tsk, effects := [.acceptEnqueue, .wakeUp .parentWaitAccept] }
  else { tsk := tsk, effects := [tcpSendReset cb] }

def tcpRcvDataPacket (cb : TcpCb) (tsk : TcpSock) : Option Outcome := do
  let rcvBuf ← tsk.rcvBuf.writeRingBuffer cb.payload cb.plLen
  some { tsk := { tsk with rcvBuf := rcvBuf, rcvWnd := tsk.rcvWnd - UInt16.ofInt cb.plLen },
         effects := [.wakeUp .waitRecv] }

def IsTcpSeqValid (tsk : TcpSock) (cb : TcpCb) : Prop :=
  let rcvEnd := tsk.rcvNxt + if tsk.rcvWnd.toUInt32 > 1 then tsk.rcvWnd.toUInt32 else 1
  lessThan32b cb.seq rcvEnd ∧ lessOrEqual32b tsk.rcvNxt cb.seqEnd

instance (tsk : TcpSock) (cb : TcpCb) : Decidable (IsTcpSeqValid tsk cb) :=
  inferInstanceAs (Decidable (_ ∧ _))

/-- The tests behind `tsk->rcv_nxt = cb->seq_end`.  They all read the state from before
the call, so at most one applies. -/
def tcpProcessAck (cb : TcpCb) (tsk : TcpSock) : Outcome :=
  match tsk.state with
  | .synRecv => if cb.ack = tsk.sndNxt then tcpStateSynRecv cb tsk else tsk.done
  | .finWait1 =>
    if cb.ack = tsk.sndNxt then tcpSendControlPacket TCP_ACK (tcpSetState .finWait2 tsk)
    else tsk.done
  | .finWait2 =>
    if hasFlag cb.flags (TCP_ACK ||| TCP_FIN) then
      ({ tsk := tcpSetState .timeWait tsk, effects := [.setTimewaitTimer] } : Outcome).andThen
        (tcpSendControlPacket (TCP_ACK ||| TCP_FIN))
    else tsk.done
  | .established =>
    if hasFlag cb.flags TCP_FIN then tcpSendControlPacket TCP_ACK (tcpSetState .closeWait tsk)
    else if cb.flags = TCP_ACK then { tsk := tsk, effects := [.wakeUp .waitSend] }
    else tsk.done
  | .closeWait =>
    -- the source tests `cb->flags | (TCP_ACK|TCP_FIN)`, which is never zero
    tcpSendControlPacket (TCP_ACK ||| TCP_FIN) (tcpSetState .lastAck tsk)
  | .lastAck => if cb.ack = tsk.sndNxt then (tcpSetState .closed tsk).done else tsk.done
  | _ => tsk.done

def tcpProcess (iss : UInt32) (cb : TcpCb) (tsk : TcpSock) : Option Outcome :=
  if tsk.state = .closed then some { tsk := tsk, effects := [tcpSendReset cb] }
  else if tsk.state = .listen then some (tcpStateListen iss cb tsk)
  else if tsk.state = .synSent then some (tcpStateSynSent cb tsk)
  else if ¬ IsTcpSeqValid tsk cb then some tsk.done
  else if hasFlag cb.flags TCP_RST then
    some { tsk := tcpSetState .closed tsk, effects := [.unhash] }
  else if hasFlag cb.flags TCP_SYN then
    some { tsk := tcpSetState .closed tsk, effects := [tcpSendReset cb] }
  else if !hasFlag cb.flags TCP_ACK then some { tsk := tsk, effects := [tcpSendReset cb] }
  else if tsk.state = .established ∧ cb.flags = TCP_PSH ||| TCP_ACK then
    (tcpRcvDataPacket cb tsk).map fun outcome => outcome.andThen (tcpSendControlPacket TCP_ACK)
  else some (tcpProcessAck cb { tsk with sndUna := cb.ack, rcvNxt := cb.seqEnd })

def tcpSockRead (len : Nat) (tsk : TcpSock) : List UInt8 × TcpSock :=
  let (bytes, rcvBuf) := tsk.rcvBuf.readRingBuffer len
  (bytes, { tsk with rcvBuf := rcvBuf })

end NetworkLab.Tcp16
