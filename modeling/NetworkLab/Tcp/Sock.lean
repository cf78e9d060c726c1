import NetworkLab.Tcp.RingBuffer

/-!
# The socket and its sending side

The fields of `struct tcp_sock` that one connection owns, and `tcp_send_packet`,
`tcp_send_control_packet`, `tcp_send_reset`, `remove_ack_data` and `tcp_sock_close`.
What these functions do outside the socket (packets handed to IP, timers, wait
queues, hash tables, the sockets of the parent) is the list of their effects, in
order.  `sendBuf` and `rcvOfoBuf` are the contents of lists with initialised heads.
Sequence numbers are taken modulo 2^32.
-/
set_option autoImplicit false

namespace NetworkLab.Tcp

def TCP_FIN : UInt8 := 0x01
def TCP_SYN : UInt8 := 0x02
def TCP_RST : UInt8 := 0x04
def TCP_PSH : UInt8 := 0x08
def TCP_ACK : UInt8 := 0x10

def IP_BASE_HDR_SIZE : Nat := 20
def TCP_BASE_HDR_SIZE : Nat := 20
def TCP_DEFAULT_WINDOW : Nat := 65535

inductive TcpState
  | closed
  | listen
  | synRecv
  | synSent
  | established
  | closeWait
  | lastAck
  | finWait1
  | finWait2
  | closing
  | timeWait
deriving DecidableEq

structure SockAddr where
  ip : UInt32
  port : UInt16
deriving DecidableEq

structure Segment where
  saddr : UInt32
  daddr : UInt32
  totLen : UInt16
  sport : UInt16
  dport : UInt16
  seq : UInt32
  ack : UInt32
  flags : UInt8
  rwnd : UInt16
  payload : List UInt8
deriving DecidableEq

structure TcpCb where
  saddr : UInt32
  daddr : UInt32
  sport : UInt16
  dport : UInt16
  seq : UInt32
  seqEnd : UInt32
  ack : UInt32
  payload : List UInt8
  plLen : Int
  rwnd : UInt32
  flags : UInt8

structure OfoPacket where
  packet : List UInt8
  len : Int
  seqNum : UInt32
deriving DecidableEq

structure TcpSock where
  localAddr : SockAddr
  peer : SockAddr
  state : TcpState
  iss : UInt32
  sndUna : UInt32
  sndNxt : UInt32
  rcvNxt : UInt32
  sndWnd : UInt16
  rcvWnd : UInt16
  rcvBuf : RingBuffer
  sendBuf : List Segment
  rcvOfoBuf : List OfoPacket

inductive WaitQueue
  | waitConnect
  | waitRecv
  | waitSend
  | parentWaitAccept
deriving DecidableEq

/-- `newChild` binds a new socket and adds it to `listen_queue`; `ofChild` is an
effect of a call made for it. -/
inductive Effect
  | ipSendPacket (segment : Segment)
  | setRetransTimer
  | removeRetransTimer
  | setTimewaitTimer
  | wakeUp (queue : WaitQueue)
  | newChild (child : TcpSock)
  | ofChild (effect : Effect)
  | hashChild
  | acceptEnqueue
  | clearListenQueue
  | unhash
  | freeTcpSock

structure Outcome where
  tsk : TcpSock
  effects : List Effect

def Outcome.andThen (outcome : Outcome) (f : TcpSock → Outcome) : Outcome :=
  let next := f outcome.tsk
  { tsk := next.tsk, effects := outcome.effects ++ next.effects }

def Outcome.emit (outcome : Outcome) (effect : Effect) : Outcome :=
  { outcome with effects := outcome.effects ++ [effect] }

def TcpSock.done (tsk : TcpSock) : Outcome := { tsk := tsk, effects := [] }

@[simp] theorem Outcome.andThen_tsk (outcome : Outcome) (f : TcpSock → Outcome) :
    (outcome.andThen f).tsk = (f outcome.tsk).tsk := rfl

@[simp] theorem Outcome.andThen_effects (outcome : Outcome) (f : TcpSock → Outcome) :
    (outcome.andThen f).effects = outcome.effects ++ (f outcome.tsk).effects := rfl

@[simp] theorem Outcome.emit_tsk (outcome : Outcome) (effect : Effect) :
    (outcome.emit effect).tsk = outcome.tsk := rfl

@[simp] theorem Outcome.emit_effects (outcome : Outcome) (effect : Effect) :
    (outcome.emit effect).effects = outcome.effects ++ [effect] := rfl

@[simp] theorem TcpSock.done_tsk (tsk : TcpSock) : tsk.done.tsk = tsk := rfl

@[simp] theorem TcpSock.done_effects (tsk : TcpSock) : tsk.done.effects = [] := rfl

def hasFlag (flags mask : UInt8) : Bool := flags &&& mask != 0

theorem hasFlag_or (flags mask other : UInt8) :
    hasFlag flags (mask ||| other) = (hasFlag flags mask || hasFlag flags other) := by
  have split : flags &&& (mask ||| other) = (flags &&& mask) ||| (flags &&& other) := by
    apply UInt8.toBitVec_inj.mp
    simp only [UInt8.toBitVec_and, UInt8.toBitVec_or, BitVec.and_or_distrib_left]
  have zero_iff : (flags &&& mask) ||| (flags &&& other) = 0 ↔
      flags &&& mask = 0 ∧ flags &&& other = 0 := by
    simp only [← UInt8.toBitVec_inj, UInt8.toBitVec_or, UInt8.toBitVec_ofNat]
    exact BitVec.or_eq_zero_iff
  rw [Bool.eq_iff_iff, Bool.or_eq_true, hasFlag, hasFlag, hasFlag, split, bne_iff_ne, bne_iff_ne,
    bne_iff_ne, Ne, zero_iff]
  exact not_and_or

def allocTcpSock : TcpSock :=
  { localAddr := { ip := 0, port := 0 }, peer := { ip := 0, port := 0 }, state := .closed,
    iss := 0, sndUna := 0, sndNxt := 0, rcvNxt := 0, sndWnd := 0,
    rcvWnd := UInt16.ofNat TCP_DEFAULT_WINDOW,
    rcvBuf := RingBuffer.allocRingBuffer TCP_DEFAULT_WINDOW (by decide) (by decide),
    sendBuf := [], rcvOfoBuf := [] }

def buildSegment (tsk : TcpSock) (flags : UInt8) (payload : List UInt8) : Segment :=
  { saddr := tsk.localAddr.ip, daddr := tsk.peer.ip,
    totLen := UInt16.ofNat (IP_BASE_HDR_SIZE + TCP_BASE_HDR_SIZE + payload.length),
    sport := tsk.localAddr.port, dport := tsk.peer.port, seq := tsk.sndNxt, ack := tsk.rcvNxt,
    flags := flags, rwnd := tsk.rcvWnd, payload := payload }

def tcpSendPacket (tsk : TcpSock) (payload : List UInt8) : Outcome :=
  let packet := buildSegment tsk (TCP_PSH ||| TCP_ACK) payload
  { tsk := { tsk with
      sndNxt := tsk.sndNxt + UInt32.ofNat payload.length,
      sndWnd := tsk.sndWnd - UInt16.ofNat payload.length,
      sendBuf := tsk.sendBuf ++ [packet] },
    effects := [.setRetransTimer, .ipSendPacket packet] }

def tcpSendControlPacket (flags : UInt8) (tsk : TcpSock) : Outcome :=
  let packet := buildSegment tsk flags []
  if hasFlag flags (TCP_SYN ||| TCP_FIN) then
    { tsk := { tsk with sndNxt := tsk.sndNxt + 1, sendBuf := tsk.sendBuf ++ [packet] },
      effects := [.setRetransTimer, .ipSendPacket packet] }
  else { tsk := tsk, effects := [.ipSendPacket packet] }

def tcpSendReset (cb : TcpCb) : Effect :=
  .ipSendPacket
    { saddr := cb.daddr, daddr := cb.saddr,
      totLen := UInt16.ofNat (IP_BASE_HDR_SIZE + TCP_BASE_HDR_SIZE),
      sport := cb.dport, dport := cb.sport, seq := 0, ack := cb.seqEnd,
      flags := TCP_RST ||| TCP_ACK, rwnd := 0, payload := [] }

/-- The payload length that `remove_ack_data` computes from the headers. -/
def Segment.tcpDataLen (packet : Segment) : UInt16 :=
  packet.totLen - UInt16.ofNat (IP_BASE_HDR_SIZE + TCP_BASE_HDR_SIZE)

/-- The test of `remove_ack_data`: it compares with the first sequence number of the
packet, not with the one after its last. -/
def Segment.removedBy (ackNum : UInt32) (packet : Segment) : Bool := packet.seq ≤ ackNum

def removeAckData (ackNum : UInt32) (tsk : TcpSock) : Outcome :=
  let kept := tsk.sendBuf.filter fun packet => !packet.removedBy ackNum
  let removed := tsk.sendBuf.filter fun packet => packet.removedBy ackNum
  { tsk := { tsk with
      sendBuf := kept,
      sndWnd := removed.foldl (fun window packet => window + packet.tcpDataLen) tsk.sndWnd },
    effects := .removeRetransTimer :: if kept.isEmpty then [] else [.setRetransTimer] }

def tcpSetState (state : TcpState) (tsk : TcpSock) : TcpSock := { tsk with state := state }

def tcpSockClose (tsk : TcpSock) : Outcome :=
  match tsk.state with
  | .listen =>
    { tsk := tcpSetState .closed tsk, effects := [.clearListenQueue, .unhash] }
  | .established =>
    let sent := tcpSendControlPacket (TCP_FIN ||| TCP_ACK) tsk
    { sent with tsk := tcpSetState .finWait1 sent.tsk }
  | .closeWait =>
    let sent := tcpSendControlPacket (TCP_FIN ||| TCP_ACK) tsk
    { sent with tsk := tcpSetState .lastAck sent.tsk }
  | _ => tsk.done

end NetworkLab.Tcp
