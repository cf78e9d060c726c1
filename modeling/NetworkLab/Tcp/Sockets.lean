import NetworkLab.Lib.Run
import NetworkLab.Tcp.Process

/-!
# The sockets of a stack

The hash tables, the queues of listening sockets and the reference counts of
`tcp_sock.c`, and what every call does to them.  `none` is a null pointer that is
followed, or the memory of a released socket that is used again.  A node that is
linked twice stays twice in its list.  The timers run out at any time.  What
`tcp_port_in_use` answers is a parameter of a call, as it goes over `bind_table` with the
offset of another field.
-/
set_option autoImplicit false

namespace NetworkLab.Tcp

open Lib.Run

def PORT_MIN : Nat := 12345
def PORT_MAX : Nat := 23456

/-- A socket and how it is linked.  A node of a hash table that was linked once is never
empty again. -/
structure Socket (ι : Type) where
  tsk : TcpSock
  parent : Option ι
  refCnt : Int
  hashListSet : Bool
  bindHashListSet : Bool
  listenQueue : List ι
  acceptQueue : List ι
  acceptBacklog : Int
  backlog : Int

def Socket.fresh {ι : Type} (tsk : TcpSock) (parent : Option ι) : Socket ι :=
  { tsk := tsk, parent := parent, refCnt := 0, hashListSet := false, bindHashListSet := false,
    listenQueue := [], acceptQueue := [], acceptBacklog := 0, backlog := 0 }

structure Sent (ι : Type) where
  sender : ι
  socket : Socket ι
  segment : Segment

/-- The sockets in the lists of a hash table, with the index of the list. -/
abbrev HashTable (ι : Type) := List (UInt8 × ι)

structure Sockets (ι : Type) where
  socket : ι → Option (Socket ι)
  used : ι → Bool
  bindTable : HashTable ι
  listenTable : HashTable ι
  establishedTable : HashTable ι
  timewait : List ι
  sent : List (Sent ι)

def hash8 (bytes : List UInt8) : UInt8 := bytes.foldl (· ^^^ ·) 0

def bytes16 (n : UInt16) : List UInt8 := [n.toUInt8, (n >>> 8).toUInt8]

def bytes32 (n : UInt32) : List UInt8 :=
  [n.toUInt8, (n >>> 8).toUInt8, (n >>> 16).toUInt8, (n >>> 24).toUInt8]

def tcpHashFunction (saddr daddr : UInt32) (sport dport : UInt16) : UInt8 :=
  hash8 (bytes32 saddr) ^^^ hash8 (bytes32 daddr) ^^^ hash8 (bytes16 sport) ^^^
    hash8 (bytes16 dport)

variable {ι : Type} [DecidableEq ι]

def HashTable.Linked (table : HashTable ι) (s : ι) : Prop := s ∈ table.map Prod.snd

instance (table : HashTable ι) (s : ι) : Decidable (table.Linked s) :=
  inferInstanceAs (Decidable (s ∈ table.map Prod.snd))

def HashTable.unlink (table : HashTable ι) (s : ι) : HashTable ι :=
  table.filter fun entry => entry.2 ≠ s

/-- `tcp_get_port`, where `inUse` is what `tcp_port_in_use` answers. -/
def tcpGetPort (inUse : UInt16 → Bool) : UInt16 :=
  (((List.range' PORT_MIN (PORT_MAX - PORT_MIN)).map UInt16.ofNat).find?
    fun port => !inUse port).getD 0

namespace Sockets

def put (s : ι) (sock : Socket ι) (sockets : Sockets ι) : Sockets ι :=
  { sockets with socket := Function.update sockets.socket s (some sock) }

def update (s : ι) (change : Socket ι → Socket ι) (sockets : Sockets ι) : Option (Sockets ι) :=
  (sockets.socket s).map fun sock => sockets.put s (change sock)

/-- `alloc_tcp_sock`, and the fields that `tcp_state_listen` sets in a child. -/
def allocTcpSock (s : ι) (tsk : TcpSock) (parent : Option ι) (sockets : Sockets ι) :
    Option (Sockets ι) :=
  if sockets.used s then none
  else
    some { sockets.put s (Socket.fresh tsk parent) with
      used := Function.update sockets.used s true }

def freeTcpSock (s : ι) (sockets : Sockets ι) : Option (Sockets ι) :=
  (sockets.socket s).map fun sock =>
    let refCnt : Int := sock.refCnt - 1
    { sockets with
      socket := Function.update sockets.socket s
        (if refCnt ≤ 0 then none else some { sock with refCnt := refCnt }) }

def emit (s : ι) (segment : Segment) (sockets : Sockets ι) : Option (Sockets ι) :=
  (sockets.socket s).map fun sock =>
    { sockets with
      sent := sockets.sent ++ [{ sender := s, socket := sock, segment := segment }] }

def tcpBindHash (s : ι) (sockets : Sockets ι) : Option (Sockets ι) := do
  let sock ← sockets.socket s
  let sockets ← sockets.update s fun sock =>
    { sock with refCnt := sock.refCnt + 1, bindHashListSet := true }
  let hash := tcpHashFunction 0 0 sock.tsk.localAddr.port 0
  some { sockets with bindTable := (hash, s) :: sockets.bindTable }

def deleteBindHashList (s : ι) (sockets : Sockets ι) : Sockets ι :=
  { sockets with bindTable := sockets.bindTable.unlink s }

def deleteHashList (s : ι) (sockets : Sockets ι) : Sockets ι :=
  { sockets with
    listenTable := sockets.listenTable.unlink s,
    establishedTable := sockets.establishedTable.unlink s }

def deleteTimewait (s : ι) (sockets : Sockets ι) : Sockets ι :=
  { sockets with timewait := sockets.timewait.filter (· ≠ s) }

def tcpBindUnhash (s : ι) (sockets : Sockets ι) : Option (Sockets ι) := do
  let sock ← sockets.socket s
  if sock.bindHashListSet then (sockets.deleteBindHashList s).freeTcpSock s else none

/-- The test in the loops over a list of `established_table`. -/
def hasTuple (localAddr peer : SockAddr) (sockets : Sockets ι) (t : ι) : Bool :=
  match sockets.socket t with
  | some sock => sock.tsk.localAddr = localAddr ∧ sock.tsk.peer = peer
  | none => false

def tcpHash (s : ι) (sockets : Sockets ι) : Option (Sockets ι) := do
  let sock ← sockets.socket s
  let tsk := sock.tsk
  if tsk.state = .closed then some sockets
  else
    let hashed ← sockets.update s fun sock =>
      { sock with refCnt := sock.refCnt + 1, hashListSet := true }
    if tsk.state = .listen then
      let hash := tcpHashFunction 0 0 tsk.localAddr.port 0
      some { hashed with listenTable := (hash, s) :: sockets.listenTable }
    else
      let hash := tcpHashFunction tsk.localAddr.ip tsk.peer.ip tsk.localAddr.port tsk.peer.port
      let occupied := sockets.establishedTable.any fun entry =>
        entry.1 = hash ∧ sockets.hasTuple tsk.localAddr tsk.peer entry.2
      if occupied then some sockets
      else some { hashed with establishedTable := (hash, s) :: sockets.establishedTable }

def tcpUnhash (s : ι) (sockets : Sockets ι) : Option (Sockets ι) := do
  let sock ← sockets.socket s
  if sock.hashListSet then (sockets.deleteHashList s).freeTcpSock s else none

/-- The flag says whether the call succeeds. -/
def tcpSockSetSport (inUse : UInt16 → Bool) (s : ι) (port : UInt16) (sockets : Sockets ι) :
    Option (Sockets ι × Bool) :=
  let sport := if port = 0 then tcpGetPort inUse else port
  if (port ≠ 0 ∧ inUse port) ∨ sport = 0 then some (sockets, false)
  else do
    let sockets ← sockets.update s fun sock =>
      { sock with tsk := { sock.tsk with localAddr := { sock.tsk.localAddr with port := sport } } }
    let sockets ← sockets.tcpBindHash s
    some (sockets, true)

def tcpSockBind (inUse : UInt16 → Bool) (s : ι) (port : UInt16) (sockets : Sockets ι) :
    Option (Sockets ι) :=
  (sockets.tcpSockSetSport inUse s port).map Prod.fst

def tcpSetTimewaitTimer (s : ι) (sockets : Sockets ι) : Option (Sockets ι) := do
  let sockets ← sockets.update s fun sock => { sock with refCnt := sock.refCnt + 1 }
  some { sockets with timewait := sockets.timewait ++ [s] }

def tcpSockAcceptEnqueue (s : ι) (sockets : Sockets ι) : Option (Sockets ι) := do
  let parent ← (← sockets.socket s).parent
  sockets.update parent fun sock =>
    { sock with
      listenQueue := sock.listenQueue.filter (· ≠ s),
      acceptQueue := sock.acceptQueue.filter (· ≠ s) ++ [s],
      acceptBacklog := sock.acceptBacklog + 1 }

/-- The loop of `tcp_sock_clear_listen_queue` over what is left of the queue. -/
def clearListenQueue (s : ι) : List ι → Sockets ι → Option (Sockets ι)
  | [], sockets => some sockets
  | child :: rest, sockets => do
    let sockets ← sockets.update s fun sock => { sock with listenQueue := rest }
    let lsnTsk ← sockets.socket child
    if lsnTsk.tsk.state = .synRecv then
      let sockets ← sockets.update child fun sock => { sock with parent := none }
      let sockets ← sockets.tcpUnhash child
      let sockets ← sockets.freeTcpSock child
      clearListenQueue s rest sockets
    else clearListenQueue s rest sockets

def tcpSockClearListenQueue (s : ι) (sockets : Sockets ι) : Option (Sockets ι) := do
  let sock ← sockets.socket s
  sockets.clearListenQueue s sock.listenQueue

/-- The start of `tcp_state_listen`; a SYN to port 0 is left out. -/
def newChild (inUse : UInt16 → Bool) (s child : ι) (tsk : TcpSock) (sockets : Sockets ι) :
    Option (Sockets ι) :=
  let port := tsk.localAddr.port
  if port = 0 then none
  else do
    let sockets ← sockets.allocTcpSock child tsk (some s)
    let sockets ← sockets.tcpSockBind inUse child port
    sockets.update s fun sock => { sock with listenQueue := sock.listenQueue ++ [child] }

/-- What an effect of a call for socket `s` does; `child` is the memory for a socket that
the call allocates. -/
def effectStep (inUse : UInt16 → Bool) (s child : ι) (sockets : Sockets ι) :
    Effect → Option (Sockets ι)
  | .ipSendPacket segment => sockets.emit s segment
  | .setRetransTimer => some sockets
  | .removeRetransTimer => some sockets
  | .setTimewaitTimer => sockets.tcpSetTimewaitTimer s
  | .wakeUp _ => some sockets
  | .newChild tsk => sockets.newChild inUse s child tsk
  | .ofChild effect => effectStep inUse child child sockets effect
  | .hashChild => sockets.tcpHash child
  | .acceptEnqueue => sockets.tcpSockAcceptEnqueue s
  | .clearListenQueue => sockets.tcpSockClearListenQueue s
  | .unhash => sockets.tcpUnhash s
  | .freeTcpSock => sockets.freeTcpSock s

def applyOutcome (inUse : UInt16 → Bool) (s child : ι) (outcome : Outcome)
    (sockets : Sockets ι) : Option (Sockets ι) := do
  let sockets ← sockets.update s fun sock => { sock with tsk := outcome.tsk }
  run (effectStep inUse s child) sockets outcome.effects

def tcpSockLookupEstablished (saddr daddr : UInt32) (sport dport : UInt16)
    (sockets : Sockets ι) : Option ι :=
  let key := tcpHashFunction saddr daddr sport dport
  (sockets.establishedTable.find? fun entry =>
    entry.1 = key ∧ sockets.hasTuple ⟨saddr, sport⟩ ⟨daddr, dport⟩ entry.2).map Prod.snd

def hasPort (port : UInt16) (sockets : Sockets ι) (t : ι) : Bool :=
  match sockets.socket t with
  | some sock => sock.tsk.localAddr.port = port
  | none => false

def tcpSockLookupListen (sport : UInt16) (sockets : Sockets ι) : Option ι :=
  let key := tcpHashFunction 0 0 sport 0
  (sockets.listenTable.find? fun entry =>
    entry.1 = key ∧ sockets.hasPort sport entry.2).map Prod.snd

def tcpSockLookup (cb : TcpCb) (sockets : Sockets ι) : Option ι :=
  sockets.tcpSockLookupEstablished cb.daddr cb.saddr cb.dport cb.sport <|>
    sockets.tcpSockLookupListen cb.dport

/-- `handle_tcp_packet` on a packet with a valid checksum; `iss` is the value of
`tcp_new_iss`. -/
def handleTcpPacket (inUse : UInt16 → Bool) (child : ι) (iss : UInt32) (cb : TcpCb)
    (sockets : Sockets ι) : Option (Sockets ι) := do
  let s ← sockets.tcpSockLookup cb
  let sock ← sockets.socket s
  let outcome ← tcpProcess iss cb sock.tsk
  sockets.applyOutcome inUse s child outcome

/-- Up to the call of `sleep_on`; `ip` is the address of the first interface. -/
def tcpSockConnect (inUse : UInt16 → Bool) (s : ι) (ip : UInt32) (skaddr : SockAddr)
    (iss : UInt32) (sockets : Sockets ι) : Option (Sockets ι) := do
  let sockets ← sockets.update s fun sock =>
    { sock with
      tsk := { sock.tsk with
        peer := skaddr, localAddr := { sock.tsk.localAddr with ip := ip } } }
  let (sockets, success) ← sockets.tcpSockSetSport inUse s (tcpGetPort inUse)
  if success then
    let sockets ← sockets.update s fun sock =>
      { sock with tsk := { sock.tsk with iss := iss, sndNxt := iss, state := .synSent } }
    let sockets ← sockets.tcpHash s
    let sock ← sockets.socket s
    sockets.applyOutcome inUse s s (tcpSendControlPacket TCP_SYN sock.tsk)
  else some sockets

def tcpSockListen (s : ι) (backlog : Int) (sockets : Sockets ι) : Option (Sockets ι) := do
  let sockets ← sockets.update s fun sock =>
    { sock with backlog := backlog, tsk := tcpSetState .listen sock.tsk }
  sockets.tcpHash s

/-- `tcp_sock_accept` without sleeping.  Taking a socket out of an empty queue is `none`. -/
def tcpSockAccept (s : ι) (sockets : Sockets ι) : Option (Sockets ι) := do
  let sock ← sockets.socket s
  if sock.acceptBacklog = 0 then some sockets
  else
    match sock.acceptQueue with
    | [] => none
    | child :: rest =>
      let sockets ← sockets.update s fun sock =>
        { sock with acceptQueue := rest, acceptBacklog := sock.acceptBacklog - 1 }
      sockets.update child fun sock => { sock with tsk := tcpSetState .established sock.tsk }

def call (s : ι) (f : TcpSock → Outcome) (sockets : Sockets ι) : Option (Sockets ι) := do
  let sock ← sockets.socket s
  sockets.applyOutcome (fun _ => false) s s (f sock.tsk)

def release (s : ι) (sockets : Sockets ι) : Option (Sockets ι) := do
  let sockets ← sockets.update s fun sock => { sock with tsk := tcpSetState .closed sock.tsk }
  sockets.freeTcpSock s

/-- `tcp_scan_timer_list` when the time-wait timer of `s` runs out. -/
def timewaitExpires (s : ι) (sockets : Sockets ι) : Option (Sockets ι) := do
  if s ∈ sockets.timewait then
    let sock ← sockets.socket s
    let sockets := sockets.deleteTimewait s
    if sock.parent.isNone then (sockets.tcpBindUnhash s).bind (release s) else sockets.release s
  else none

end Sockets

/-- `gives_up` is the scan that finds the retransmission timer of `s` after three
retransmissions. -/
inductive SocketsEvent (ι : Type)
  | alloc (s : ι)
  | bind (s : ι) (port : UInt16) (inUse : UInt16 → Bool)
  | listen (s : ι) (backlog : Int)
  | connect (s : ι) (ip : UInt32) (skaddr : SockAddr) (iss : UInt32) (inUse : UInt16 → Bool)
  | accept (s : ι)
  | send (s : ι) (payload : List UInt8)
  | close (s : ι)
  | packet (cb : TcpCb) (child : ι) (iss : UInt32) (inUse : UInt16 → Bool)
  | timewaitExpires (s : ι)
  | givesUp (s : ι)

def socketsStep (sockets : Sockets ι) : SocketsEvent ι → Option (Sockets ι)
  | .alloc s => sockets.allocTcpSock s allocTcpSock none
  | .bind s port inUse => sockets.tcpSockBind inUse s port
  | .listen s backlog => sockets.tcpSockListen s backlog
  | .connect s ip skaddr iss inUse => sockets.tcpSockConnect inUse s ip skaddr iss
  | .accept s => sockets.tcpSockAccept s
  | .send s payload => sockets.call s fun tsk => tcpSendPacket tsk payload
  | .close s => sockets.call s tcpSockClose
  | .packet cb child iss inUse => sockets.handleTcpPacket inUse child iss cb
  | .timewaitExpires s => sockets.timewaitExpires s
  | .givesUp s => sockets.call s tcpSockClose

def noSockets : Sockets ι :=
  { socket := fun _ => none, used := fun _ => false, bindTable := [], listenTable := [],
    establishedTable := [], timewait := [], sent := [] }

end NetworkLab.Tcp
