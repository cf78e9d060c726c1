import NetworkLab.Lib.Logged
import NetworkLab.ListHead
import NetworkLab.Tcp.Sockets

/-!
# The list nodes of the sockets

The list operations of `tcp_sock.c`, `tcp_in.c`, `tcp_out.c` and `tcp_apps.c` on the nodes in
memory, with all that decides which of them a call makes.  Every operation on a list is logged
with the heap in front of it.  A program stops where a null pointer is followed, where the
memory of a released socket is read, at a failed assertion, and when its fuel is used up.
Released memory is not used again.
-/
set_option autoImplicit false

namespace NetworkLab.Tcp.Nodes

open Lib.LinkedRing Lib.Logged

inductive Node
  | establishedTable (hash : UInt8)
  | listenTable (hash : UInt8)
  | bindTable (hash : UInt8)
  | hashList (s : Nat)
  | bindHashList (s : Nat)
  | listenQueue (s : Nat)
  | acceptQueue (s : Nat)
  | list (s : Nat)
  | sendBuf (s : Nat)
  | rcvOfoBuf (s : Nat)
  | sendPacket (k : Nat)
  | ofoPacket (k : Nat)
deriving DecidableEq

def Node.owner : Node → Option Nat
  | .hashList s => some s
  | .bindHashList s => some s
  | .listenQueue s => some s
  | .acceptQueue s => some s
  | .list s => some s
  | .sendBuf s => some s
  | .rcvOfoBuf s => some s
  | _ => none

structure Sock where
  localAddr : SockAddr
  peer : SockAddr
  parent : Option Nat
  refCnt : Int
  state : TcpState
  acceptBacklog : Int
  sndNxt : UInt32
  rcvNxt : UInt32
  rcvBuf : RingBuffer

/-- `sock` has the sockets that are not released, `socks` counts those that were allocated.
Of a packet in a `send_buf` only its sequence number is compared. -/
structure Memory where
  heap : Heap Node
  sock : Nat → Option Sock
  socks : Nat
  sendPackets : List UInt32
  ofoPackets : List OfoPacket

inductive ListOp
  | addHead (new head : Node)
  | addTail (new head : Node)
  | deleteEntry (entry : Node)
  | empty (list : Node)
  | forEach (head : Node)

/-- A list operation and the heap that it finds. -/
abbrev Access := ListOp × Heap Node

abbrev Prog (Result : Type) := Program Memory Access Result

/-- What an operation asks of the heap: a circular list behind the head, an initialised node,
or a node that is linked. -/
def Proper (access : Access) : Prop :=
  match access.1 with
  | .addHead _ head => ∃ members, Ring access.2 head members
  | .addTail _ head => ∃ members, Ring access.2 head members
  | .forEach head => ∃ members, Ring access.2 head members
  | .empty list => (access.2 list).next.isSome ∧ (access.2 list).prev.isSome
  | .deleteEntry entry => ∃ head members, Ring access.2 head members ∧ entry ∈ members

/-! ## The operations of `list.h` -/

def addHead (new head : Node) : Prog Unit :=
  .log (fun memory => (.addHead new head, memory.heap)) fun memory =>
    (listAddHead memory.heap new head).map fun heap => { memory with heap := heap }

def addTail (new head : Node) : Prog Unit :=
  .log (fun memory => (.addTail new head, memory.heap)) fun memory =>
    (listAddTail memory.heap new head).map fun heap => { memory with heap := heap }

def deleteEntry (entry : Node) : Prog Unit :=
  .log (fun memory => (.deleteEntry entry, memory.heap)) fun memory =>
    (listDeleteEntry memory.heap entry).map fun heap => { memory with heap := heap }

def empty (list : Node) : Prog Bool := do
  .log (fun memory => (.empty list, memory.heap)) some
  .read fun memory => some (listEmpty memory.heap list)

def initHead (list : Node) : Prog Unit :=
  .modify fun memory => { memory with heap := initListHead memory.heap list }

def nextOf (node : Node) : Prog Node := .read fun memory => (memory.heap node).next

/-- The loop of `list_for_each_entry`; its body goes on or leaves it. -/
def scan {Acc : Type} (head : Node) (body : Node → Acc → Prog (ForInStep Acc)) :
    Nat → Node → Acc → Prog Acc
  | 0, _, _ => .stop
  | fuel + 1, pos, acc =>
    if pos = head then pure acc
    else do
      match ← body pos acc with
      | .done acc => pure acc
      | .yield acc =>
        let next ← nextOf pos
        scan head body fuel next acc

def forEachEntry {Acc : Type} (fuel : Nat) (head : Node) (acc : Acc)
    (body : Node → Acc → Prog (ForInStep Acc)) : Prog Acc := do
  .log (fun memory => (.forEach head, memory.heap)) some
  let pos ← nextOf head
  scan head body fuel pos acc

/-- The loop of `list_for_each_entry_safe`, which has read the next node before the body. -/
def scanSafe {Acc : Type} (head : Node) (body : Node → Acc → Prog (ForInStep Acc)) :
    Nat → Node → Node → Acc → Prog Acc
  | 0, _, _, _ => .stop
  | fuel + 1, pos, q, acc =>
    if pos = head then pure acc
    else do
      match ← body pos acc with
      | .done acc => pure acc
      | .yield acc =>
        let next ← nextOf q
        scanSafe head body fuel q next acc

def forEachEntrySafe {Acc : Type} (fuel : Nat) (head : Node) (acc : Acc)
    (body : Node → Acc → Prog (ForInStep Acc)) : Prog Acc := do
  .log (fun memory => (.forEach head, memory.heap)) some
  let pos ← nextOf head
  let q ← nextOf pos
  scanSafe head body fuel pos q acc

/-! ## Sockets -/

def getSock (s : Nat) : Prog Sock := .read fun memory => memory.sock s

/-- A write to the memory of a released socket changes nothing that is still used. -/
def Memory.setSock (memory : Memory) (s : Nat) (change : Sock → Sock) : Memory :=
  { memory with sock := Function.update memory.sock s ((memory.sock s).map change) }

def setSock (s : Nat) (change : Sock → Sock) : Prog Unit :=
  .modify fun memory => memory.setSock s change

def clearCells (heap : Heap Node) (s : Nat) : Heap Node := fun node =>
  if node.owner = some s then { next := none, prev := none } else heap node

def freshSock : Sock :=
  { localAddr := { ip := 0, port := 0 }, peer := { ip := 0, port := 0 }, parent := none,
    refCnt := 0, state := .closed, acceptBacklog := 0, sndNxt := 0, rcvNxt := 0,
    rcvBuf := NetworkLab.Tcp.allocTcpSock.rcvBuf }

def Memory.alloc (memory : Memory) : Memory :=
  { memory with
    heap := clearCells memory.heap memory.socks
    sock := Function.update memory.sock memory.socks (some freshSock)
    socks := memory.socks + 1 }

def allocTcpSock : Prog Nat := do
  let s ← .read fun memory => some memory.socks
  .modify Memory.alloc
  initHead (.list s)
  initHead (.listenQueue s)
  initHead (.acceptQueue s)
  pure s

/-- The cells of a released socket have no contents any more. -/
def Memory.release (memory : Memory) (s : Nat) : Memory :=
  { memory with
    heap := clearCells memory.heap s
    sock := Function.update memory.sock s none }

def freeTcpSock (s : Nat) : Prog Unit := do
  setSock s fun sock => { sock with refCnt := sock.refCnt - 1 }
  let sock ← getSock s
  if sock.refCnt ≤ 0 then .modify fun memory => memory.release s else pure ()

def incRefCnt (s : Nat) : Prog Unit :=
  setSock s fun sock => { sock with refCnt := sock.refCnt + 1 }

/-- `list_entry` for a list that is linked through `hash_list`. -/
def hashListEntry : Node → Prog Nat
  | .hashList s => pure s
  | _ => .stop

def bindHashListEntry : Node → Prog Nat
  | .bindHashList s => pure s
  | _ => .stop

def listEntry : Node → Prog Nat
  | .list s => pure s
  | _ => .stop

def tcpSockLookupEstablished (fuel : Nat) (saddr daddr : UInt32) (sport dport : UInt16) :
    Prog (Option Nat) :=
  let key := tcpHashFunction saddr daddr sport dport
  forEachEntrySafe fuel (.establishedTable key) none fun pos _ => do
    let s ← hashListEntry pos
    let sock ← getSock s
    if sock.localAddr = ⟨saddr, sport⟩ ∧ sock.peer = ⟨daddr, dport⟩ then pure (.done (some s))
    else pure (.yield none)

def tcpSockLookupListen (fuel : Nat) (sport : UInt16) : Prog (Option Nat) :=
  let key := tcpHashFunction 0 0 sport 0
  forEachEntrySafe fuel (.listenTable key) none fun pos _ => do
    let s ← hashListEntry pos
    let sock ← getSock s
    if sock.localAddr.port = sport then pure (.done (some s)) else pure (.yield none)

def tcpSockLookup (fuel : Nat) (cb : TcpCb) : Prog (Option Nat) := do
  match ← tcpSockLookupEstablished fuel cb.daddr cb.saddr cb.dport cb.sport with
  | some s => pure (some s)
  | none => tcpSockLookupListen fuel cb.dport

def tcpBindHash (s : Nat) : Prog Unit := do
  let sock ← getSock s
  addHead (.bindHashList s) (.bindTable (tcpHashFunction 0 0 sock.localAddr.port 0))
  incRefCnt s

/-- `misread` is what the test finds in a socket: it takes the node for `hash_list`, and so
reads the port at another offset. -/
def tcpPortInUse (fuel : Nat) (misread : Nat → UInt16) (sport : UInt16) : Prog Bool :=
  forEachEntry fuel (.bindTable (tcpHashFunction 0 0 sport 0)) false fun pos _ => do
    let s ← bindHashListEntry pos
    if misread s = sport then pure (.done true) else pure (.yield false)

def firstFree (fuel : Nat) (misread : Nat → UInt16) : List UInt16 → Prog UInt16
  | [] => pure 0
  | port :: rest => do
    let inUse ← tcpPortInUse fuel misread port
    if inUse then firstFree fuel misread rest else pure port

def tcpGetPort (fuel : Nat) (misread : Nat → UInt16) : Prog UInt16 :=
  firstFree fuel misread ((List.range' PORT_MIN (PORT_MAX - PORT_MIN)).map UInt16.ofNat)

/-- The port that `tcp_sock_set_sport` chooses; 0 when it refuses. -/
def chosenPort (fuel : Nat) (misread : Nat → UInt16) (port : UInt16) : Prog UInt16 :=
  if port = 0 then tcpGetPort fuel misread
  else do
    let inUse ← tcpPortInUse fuel misread port
    if inUse then pure 0 else pure port

def tcpSockSetSport (fuel : Nat) (misread : Nat → UInt16) (s : Nat) (port : UInt16) :
    Prog Bool := do
  let sport ← chosenPort fuel misread port
  if sport = 0 then pure false
  else do
    setSock s fun sock => { sock with localAddr := { sock.localAddr with port := sport } }
    tcpBindHash s
    pure true

def tcpHash (fuel : Nat) (s : Nat) : Prog Unit := do
  let sock ← getSock s
  if sock.state = .closed then pure ()
  else if sock.state = .listen then do
    addHead (.hashList s) (.listenTable (tcpHashFunction 0 0 sock.localAddr.port 0))
    incRefCnt s
  else do
    let head := Node.establishedTable (tcpHashFunction sock.localAddr.ip sock.peer.ip
      sock.localAddr.port sock.peer.port)
    let occupied ← forEachEntry fuel head false fun pos _ => do
      let t ← hashListEntry pos
      let tmp ← getSock t
      if sock.localAddr = tmp.localAddr ∧ sock.peer = tmp.peer then pure (.done true)
      else pure (.yield false)
    if occupied then pure ()
    else do
      addHead (.hashList s) head
      incRefCnt s

def tcpUnhash (s : Nat) : Prog Unit := do
  let unlinked ← empty (.hashList s)
  if unlinked then pure ()
  else do
    deleteEntry (.hashList s)
    freeTcpSock s

def tcpSetState (s : Nat) (state : TcpState) : Prog Unit :=
  setSock s fun sock => { sock with state := state }

def tcpSockBind (fuel : Nat) (misread : Nat → UInt16) (s : Nat) (port : UInt16) : Prog Unit := do
  let _ ← tcpSockSetSport fuel misread s port
  pure ()

/-! ## Packets -/

/-- A `struct send_packet` for a packet that starts at the sequence number. -/
def addSendPacket (s : Nat) (seq : UInt32) : Prog Unit := do
  let k ← .read fun memory => some memory.sendPackets.length
  .modify fun memory => { memory with sendPackets := memory.sendPackets ++ [seq] }
  addTail (.sendPacket k) (.sendBuf s)

/-- `len` is the length of the payload. -/
def tcpSendPacket (s : Nat) (len : UInt32) : Prog Unit := do
  let sock ← getSock s
  setSock s fun sock => { sock with sndNxt := sock.sndNxt + len }
  addSendPacket s sock.sndNxt

def tcpSendControlPacket (s : Nat) (flags : UInt8) : Prog Unit := do
  let sock ← getSock s
  if hasFlag flags (TCP_SYN ||| TCP_FIN) then do
    setSock s fun sock => { sock with sndNxt := sock.sndNxt + 1 }
    addSendPacket s sock.sndNxt
  else pure ()

def sendPacketEntry : Node → Prog Nat
  | .sendPacket k => pure k
  | _ => .stop

def ofoPacketEntry : Node → Prog Nat
  | .ofoPacket k => pure k
  | _ => .stop

def removeAckData (fuel : Nat) (s : Nat) (ackNum : UInt32) : Prog Unit := do
  forEachEntrySafe fuel (.sendBuf s) () fun pos _ => do
    let k ← sendPacketEntry pos
    let seq ← .read fun memory => memory.sendPackets[k]?
    if seq ≤ ackNum then deleteEntry pos else pure ()
    pure (.yield ())
  let _ ← empty (.sendBuf s)
  pure ()

def writeRcvBuf (s : Nat) (payload : List UInt8) (len : Int) : Prog Unit := do
  let sock ← getSock s
  let rcvBuf ← .read fun _ => sock.rcvBuf.writeRingBuffer payload len
  setSock s fun sock => { sock with rcvBuf := rcvBuf }

/-! ## Queues of a listening socket -/

def tcpSockAcceptEnqueue (s : Nat) : Prog Unit := do
  let unlinked ← empty (.list s)
  if unlinked then pure () else deleteEntry (.list s)
  let sock ← getSock s
  let parent ← .read fun _ => sock.parent
  addTail (.list s) (.acceptQueue parent)
  setSock parent fun sock => { sock with acceptBacklog := sock.acceptBacklog + 1 }

def tcpSockAcceptDequeue (s : Nat) : Prog Nat := do
  let first ← nextOf (.acceptQueue s)
  let child ← listEntry first
  deleteEntry (.list child)
  initHead (.list child)
  setSock s fun sock => { sock with acceptBacklog := sock.acceptBacklog - 1 }
  pure child

/-- Without sleeping: an `accept` that sleeps is made when it is woken. -/
def tcpSockAccept (s : Nat) : Prog Unit := do
  let sock ← getSock s
  if sock.acceptBacklog = 0 then pure ()
  else do
    let child ← tcpSockAcceptDequeue s
    tcpSetState child .established

def tcpSockClearListenQueue (s : Nat) : Nat → Prog Unit
  | 0 => .stop
  | fuel + 1 => do
    let done ← empty (.listenQueue s)
    if done then pure ()
    else do
      let first ← nextOf (.listenQueue s)
      let child ← listEntry first
      deleteEntry (.list child)
      let lsnTsk ← getSock child
      if lsnTsk.state = .synRecv then do
        setSock child fun sock => { sock with parent := none }
        tcpUnhash child
        freeTcpSock child
      else pure ()
      tcpSockClearListenQueue s fuel

/-! ## Calls and segments -/

/-- The start of `tcp_sock_connect`: the addresses, and the port that it asks for. -/
def connectPort (fuel : Nat) (misread : Nat → UInt16) (s : Nat) (ip : UInt32)
    (skaddr : SockAddr) : Prog UInt16 := do
  setSock s fun sock => { sock with peer := skaddr, localAddr := { sock.localAddr with ip := ip } }
  tcpGetPort fuel misread

/-- Up to the call of `sleep_on`; `ip` is the address of the first interface. -/
def tcpSockConnect (fuel : Nat) (misread : Nat → UInt16) (s : Nat) (ip : UInt32)
    (skaddr : SockAddr) (iss : UInt32) : Prog Unit := do
  let port ← connectPort fuel misread s ip skaddr
  let success ← tcpSockSetSport fuel misread s port
  if success then do
    setSock s fun sock => { sock with sndNxt := iss }
    tcpSetState s .synSent
    tcpHash fuel s
    tcpSendControlPacket s TCP_SYN
  else pure ()

def tcpSockListen (fuel : Nat) (s : Nat) : Prog Unit := do
  tcpSetState s .listen
  tcpHash fuel s

def tcpSockClose (fuel : Nat) (s : Nat) : Prog Unit := do
  let sock ← getSock s
  match sock.state with
  | .listen =>
    tcpSockClearListenQueue s fuel
    tcpUnhash s
    tcpSetState s .closed
  | .established =>
    tcpSendControlPacket s (TCP_FIN ||| TCP_ACK)
    tcpSetState s .finWait1
  | .closeWait =>
    tcpSendControlPacket s (TCP_FIN ||| TCP_ACK)
    tcpSetState s .lastAck
  | _ => pure ()

/-- A segment without SYN is answered with a reset. -/
def tcpStateListen (fuel : Nat) (misread : Nat → UInt16) (iss : UInt32) (cb : TcpCb) (s : Nat) :
    Prog Unit :=
  if hasFlag cb.flags TCP_SYN then do
    let child ← allocTcpSock
    setSock child fun sock =>
      { sock with
        localAddr := { ip := cb.daddr, port := cb.dport }
        peer := { ip := cb.saddr, port := cb.sport }
        parent := some s, rcvNxt := cb.seqEnd, sndNxt := iss }
    tcpSockBind fuel misread child cb.dport
    tcpSetState child .synRecv
    addTail (.list child) (.listenQueue s)
    tcpSendControlPacket child (TCP_SYN ||| TCP_ACK)
    tcpHash fuel child
  else pure ()

def tcpStateSynSent (fuel : Nat) (cb : TcpCb) (s : Nat) : Prog Unit :=
  if hasFlag cb.flags (TCP_SYN ||| TCP_ACK) then do
    removeAckData fuel s cb.ack
    setSock s fun sock => { sock with rcvNxt := cb.seqEnd }
    tcpSendControlPacket s TCP_ACK
    tcpSetState s .established
  else pure ()

def tcpStateSynRecv (fuel : Nat) (cb : TcpCb) (s : Nat) : Prog Unit :=
  if hasFlag cb.flags TCP_ACK then do
    removeAckData fuel s cb.ack
    tcpSockAcceptEnqueue s
  else pure ()

/-- One traversal of `rcv_ofo_buf`, and whether it took a packet out. -/
def drainPass (fuel : Nat) (s : Nat) : Prog Bool :=
  forEachEntrySafe fuel (.rcvOfoBuf s) false fun pos flag => do
    let k ← ofoPacketEntry pos
    let t ← .read fun memory => memory.ofoPackets[k]?
    let sock ← getSock s
    if t.seqNum = sock.rcvNxt then do
      writeRcvBuf s t.packet t.len
      deleteEntry pos
      setSock s fun sock => { sock with rcvNxt := t.seqNum + UInt32.ofInt t.len }
      pure (.yield true)
    else pure (.yield flag)

def drain (fuel : Nat) (s : Nat) : Nat → Prog Unit
  | 0 => .stop
  | rounds + 1 => do
    let flag ← drainPass fuel s
    if flag then drain fuel s rounds else pure ()

def tcpBufferOfo (cb : TcpCb) (s : Nat) : Prog Unit :=
  if 0 ≤ cb.plLen ∧ cb.plLen ≤ cb.payload.length then do
    let k ← .read fun memory => some memory.ofoPackets.length
    .modify fun memory =>
      { memory with
        ofoPackets := memory.ofoPackets ++
          [{ packet := cb.payload.take cb.plLen.toNat, len := cb.plLen, seqNum := cb.seq }] }
    addTail (.ofoPacket k) (.rcvOfoBuf s)
  else .stop

/-- `tcp_process` after the states that it handles on their own. -/
def tcpRcvSegment (fuel : Nat) (cb : TcpCb) (s : Nat) : Prog Unit := do
  let sock ← getSock s
  if cb.plLen ≠ 0 then
    if cb.seq = sock.rcvNxt then do
      writeRcvBuf s cb.payload cb.plLen
      setSock s fun sock => { sock with rcvNxt := cb.seqEnd }
      drain fuel s fuel
      tcpSendControlPacket s TCP_ACK
    else if cb.seq < sock.rcvNxt then do
      tcpSendControlPacket s TCP_ACK
      removeAckData fuel s cb.ack
    else tcpBufferOfo cb s
  else if hasFlag cb.flags TCP_FIN then do
    tcpSetState s .closeWait
    if hasFlag cb.flags TCP_ACK then removeAckData fuel s cb.ack else pure ()
    setSock s fun sock => { sock with rcvNxt := cb.seqEnd }
    tcpSendControlPacket s TCP_ACK
    tcpSockClose fuel s
  else do
    if hasFlag cb.flags TCP_ACK then removeAckData fuel s cb.ack else pure ()
    if cb.flags ≠ TCP_ACK then do
      setSock s fun sock => { sock with rcvNxt := cb.seqEnd }
      tcpSendControlPacket s TCP_ACK
    else pure ()

def tcpProcess (fuel : Nat) (misread : Nat → UInt16) (iss : UInt32) (cb : TcpCb) (s : Nat) :
    Prog Unit := do
  let sock ← getSock s
  if sock.state = .closed then pure ()
  else if sock.state = .listen then tcpStateListen fuel misread iss cb s
  else if sock.state = .synSent then tcpStateSynSent fuel cb s
  else if hasFlag cb.flags TCP_RST then do
    tcpSockClose fuel s
    freeTcpSock s
  else if hasFlag cb.flags TCP_SYN then tcpSockClose fuel s
  else if !hasFlag cb.flags TCP_ACK && !hasFlag cb.flags TCP_FIN then pure ()
  else if sock.state = .synRecv then tcpStateSynRecv fuel cb s
  else if sock.state = .finWait1 then do
    removeAckData fuel s cb.ack
    tcpSetState s .finWait2
  else if sock.state = .finWait2 then
    if cb.flags = TCP_ACK ||| TCP_FIN then do
      setSock s fun sock => { sock with rcvNxt := cb.seqEnd }
      tcpSendControlPacket s TCP_ACK
      -- The timer of `tcp_set_timewait_timer` is not among the nodes here.
      incRefCnt s
    else pure ()
  else if sock.state = .lastAck then do
    tcpSetState s .closed
    removeAckData fuel s cb.ack
    tcpUnhash s
  else tcpRcvSegment fuel cb s

/-- `handle_tcp_packet` on a packet with a valid checksum; without a socket, `tcp_process`
follows a null pointer. -/
def handleTcpPacket (fuel : Nat) (misread : Nat → UInt16) (iss : UInt32) (cb : TcpCb) :
    Prog Unit := do
  match ← tcpSockLookup fuel cb with
  | some s => tcpProcess fuel misread iss cb s
  | none => .stop

/-! ## Runs -/

/-- `send` is a call of `tcp_send_packet`. -/
inductive NodeEvent
  | alloc
  | bind (s : Nat) (port : UInt16) (misread : Nat → UInt16)
  | listen (s : Nat)
  | connect (s : Nat) (ip : UInt32) (skaddr : SockAddr) (iss : UInt32) (misread : Nat → UInt16)
  | accept (s : Nat)
  | send (s : Nat) (len : UInt32)
  | close (s : Nat)
  | packet (cb : TcpCb) (iss : UInt32) (misread : Nat → UInt16)

def NodeEvent.program (fuel : Nat) : NodeEvent → Prog Unit
  | .alloc => do
    let _ ← allocTcpSock
    pure ()
  | .bind s port misread => tcpSockBind fuel misread s port
  | .listen s => tcpSockListen fuel s
  | .connect s ip skaddr iss misread => tcpSockConnect fuel misread s ip skaddr iss
  | .accept s => tcpSockAccept s
  | .send s len => tcpSendPacket s len
  | .close s => tcpSockClose fuel s
  | .packet cb iss misread => handleTcpPacket fuel misread iss cb

/-- The memory after an event; the event after which the stack has stopped is the last. -/
def nodeStep (fuel : Nat) (memory : Memory) (event : NodeEvent) : Option Memory :=
  (event.program fuel memory).2.map Prod.snd

def initTcpStack : Memory where
  heap node :=
    match node with
    | .establishedTable hash =>
      { next := some (.establishedTable hash), prev := some (.establishedTable hash) }
    | .listenTable hash => { next := some (.listenTable hash), prev := some (.listenTable hash) }
    | .bindTable hash => { next := some (.bindTable hash), prev := some (.bindTable hash) }
    | _ => { next := none, prev := none }
  sock _ := none
  socks := 0
  sendPackets := []
  ofoPackets := []

end NetworkLab.Tcp.Nodes
