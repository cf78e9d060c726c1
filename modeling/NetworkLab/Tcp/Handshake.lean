import NetworkLab.Tcp.AcceptQueue

/-!
# The handshake

A client connects to a peer that listens.  The network hands any packet that one of the two
has sent to the other, at any time and any number of times, or never; a retransmission is
the same packet again.  A child answers a second SYN with a reset, which carries ACK, and
`SYN_SENT` is left on SYN or ACK.
-/
set_option autoImplicit false

namespace NetworkLab.Tcp

open Lib.Run

structure Hosts (ι κ : Type) where
  client : Sockets ι
  peer : Sockets κ

/-- `connect` is the start of the client, `clientReceives` and `peerReceives` take a packet
by its place among those that the other side has sent. -/
inductive HostsEvent (ι κ : Type)
  | connect (ip : UInt32) (skaddr : SockAddr) (iss : UInt32) (inUse : UInt16 → Bool)
  | clientCalls (event : SocketsEvent ι)
  | clientReceives (k : Nat)
  | peerCalls (event : SocketsEvent κ)
  | peerReceives (k : Nat) (child : κ) (iss : UInt32) (inUse : UInt16 → Bool)

def Sockets.InState {ι : Type} (sockets : Sockets ι) (state : TcpState) (s : ι) : Prop :=
  ∃ sock ∈ sockets.socket s, sock.tsk.state = state

instance {ι : Type} (sockets : Sockets ι) (state : TcpState) (s : ι) :
    Decidable (sockets.InState state s) :=
  inferInstanceAs (Decidable (∃ sock ∈ sockets.socket s, sock.tsk.state = state))

/-- The client does not return from `tcp_sock_connect` before the socket is established. -/
def clientMayCall {ι : Type} (client : Sockets ι) : SocketsEvent ι → Bool
  | .send s _ => ¬ client.InState .synSent s
  | .close s => ¬ client.InState .synSent s
  | .timewaitExpires _ => true
  | .givesUp _ => true
  | _ => false

/-- The peer never connects, and gets hold of a child when `tcp_sock_accept` returns it. -/
def peerMayCall {κ : Type} (peer : Sockets κ) : SocketsEvent κ → Bool
  | .alloc _ => true
  | .bind s _ _ => ¬ peer.InState .synRecv s
  | .listen s _ => ¬ peer.InState .synRecv s
  | .accept s => ¬ peer.InState .synRecv s
  | .send s _ => ¬ peer.InState .synRecv s
  | .close s => ¬ peer.InState .synRecv s
  | .timewaitExpires _ => true
  | .givesUp _ => true
  | .connect _ _ _ _ _ => false
  | .packet _ _ _ _ => false

section Statement

variable {ι κ : Type} [DecidableEq ι] [DecidableEq κ] (c : ι) (hosts : Hosts ι κ)

/-- `c` is the socket of the client. -/
def hostsStep : HostsEvent ι κ → Option (Hosts ι κ)
  | .connect ip skaddr iss inUse => do
    let allocated ← hosts.client.allocTcpSock c allocTcpSock none
    let client ← allocated.tcpSockConnect inUse c ip skaddr iss
    some { hosts with client := client }
  | .clientCalls event => do
    guard (clientMayCall hosts.client event)
    let client ← socketsStep hosts.client event
    some { hosts with client := client }
  | .clientReceives k => do
    let packet ← hosts.peer.sent[k]?
    let cb := tcpCbInit packet.segment
    let client ← socketsStep hosts.client (.packet cb c 0 fun _ => false)
    some { hosts with client := client }
  | .peerCalls event => do
    guard (peerMayCall hosts.peer event)
    let peer ← socketsStep hosts.peer event
    some { hosts with peer := peer }
  | .peerReceives k child iss inUse => do
    let packet ← hosts.client.sent[k]?
    let cb := tcpCbInit packet.segment
    let peer ← socketsStep hosts.peer (.packet cb child iss inUse)
    some { hosts with peer := peer }

def noHosts : Hosts ι κ := { client := noSockets, peer := noSockets }

/-- The packet is what a child of the connection sent in `SYN_RECV`: it acknowledges the SYN
of the socket `before`, and `after` expects what follows the SYN of the child. -/
structure Answered (before after : TcpSock) (packet : Sent κ) : Prop where
  syn : hasFlag packet.segment.flags TCP_SYN
  ack : hasFlag packet.segment.flags TCP_ACK
  ackNum : packet.segment.ack = before.iss + 1
  child : packet.socket.parent ≠ none
  state : packet.socket.tsk.state = .synRecv
  localAddr : packet.socket.tsk.localAddr = before.peer
  peer : packet.socket.tsk.peer = before.localAddr
  rcvNxt : after.rcvNxt = packet.socket.tsk.iss + 1

/-- The client is established by the answer of a child. -/
def Establishes (event : HostsEvent ι κ) (next : Hosts ι κ) : Prop :=
  ∀ before after, hosts.client.socket c = some before → next.client.socket c = some after →
    before.tsk.state = .synSent → after.tsk.state = .established →
    ∃ k packet, event = .clientReceives k ∧ hosts.peer.sent[k]? = some packet ∧
      Answered before.tsk after.tsk packet

def NoReset : HostsEvent ι κ → Prop
  | .clientReceives k => ∀ packet ∈ hosts.peer.sent[k]?,
      ∀ s ∈ hosts.client.tcpSockLookup (tcpCbInit packet.segment),
        hosts.client.InState .synSent s → hasFlag packet.segment.flags TCP_RST = false
  | _ => True

instance : ∀ event, Decidable (NoReset hosts event)
  | .clientReceives k => inferInstanceAs (Decidable (∀ packet ∈ hosts.peer.sent[k]?,
      ∀ s ∈ hosts.client.tcpSockLookup (tcpCbInit packet.segment),
        hosts.client.InState .synSent s → hasFlag packet.segment.flags TCP_RST = false))
  | .connect _ _ _ _ => isTrue trivial
  | .clientCalls _ => isTrue trivial
  | .peerCalls _ => isTrue trivial
  | .peerReceives _ _ _ _ => isTrue trivial

end Statement

def Effect.segment? : Effect → Option Segment
  | .ipSendPacket segment => some segment
  | .ofChild effect => effect.segment?
  | _ => none

section Packets

variable {ι : Type} [DecidableEq ι] {sockets next : Sockets ι} {s child : ι}
  {inUse : UInt16 → Bool} {outcome : Outcome} {effects : List Effect}

/-- A packet was there before, or an effect has sent it for `s` or `child`. -/
def Sockets.SentBy (sockets : Sockets ι) (s child : ι) (effects : List Effect)
    (packet : Sent ι) : Prop :=
  packet ∈ sockets.sent ∨
    (∃ effect ∈ effects, effect.segment? = some packet.segment) ∧
      (packet.sender = s ∨ packet.sender = child) ∧
      sockets.socket packet.sender = some packet.socket

theorem effectStep_sentBy {effect : Effect} (quiet : effect.quiet)
    (success : sockets.effectStep inUse s child effect = some next) :
    ∀ packet ∈ next.sent, sockets.SentBy s child [effect] packet := by
  intro packet member
  induction effect generalizing s with
  | ipSendPacket segment =>
      obtain ⟨sock, live, rfl⟩ := Option.map_eq_some_iff.mp success
      rcases List.mem_append.mp member with old | new
      · exact .inl old
      · obtain rfl := List.mem_singleton.mp new
        exact .inr ⟨⟨_, List.mem_singleton_self _, rfl⟩, .inl rfl, live⟩
  | ofChild effect ih =>
      rcases ih quiet success with old | ⟨⟨inner, isIn, sends⟩, sender, live⟩
      · exact .inl old
      · obtain rfl := List.mem_singleton.mp isIn
        exact .inr ⟨⟨_, List.mem_singleton_self _, sends⟩, .inr (or_self_iff.mp sender), live⟩
  | setRetransTimer =>
      cases Option.some.inj success
      exact .inl member
  | removeRetransTimer =>
      cases Option.some.inj success
      exact .inl member
  | wakeUp queue =>
      cases Option.some.inj success
      exact .inl member
  | setTimewaitTimer => cases quiet
  | newChild tsk => cases quiet
  | hashChild => cases quiet
  | acceptEnqueue => cases quiet
  | clearListenQueue => cases quiet
  | unhash => cases quiet
  | freeTcpSock => cases quiet

theorem run_sentBy (quiet : ∀ effect ∈ effects, effect.quiet)
    (success : run (Sockets.effectStep inUse s child) sockets effects = some next) :
    ∀ packet ∈ next.sent, sockets.SentBy s child effects packet := by
  induction effects generalizing sockets with
  | nil =>
      cases Option.some.inj success
      exact fun packet member => .inl member
  | cons effect rest ih =>
      intro packet member
      obtain ⟨middle, taken, later⟩ := run_cons_some _ success
      have first := effectStep_sentBy (quiet effect List.mem_cons_self) taken
      obtain ⟨sent, rfl⟩ := effectStep_quiet (quiet effect List.mem_cons_self) taken
      rcases ih (fun e isIn => quiet e (List.mem_cons_of_mem _ isIn)) later packet member with
        before | ⟨⟨other, isIn, sends⟩, sender, live⟩
      · rcases first packet before with old | ⟨⟨other, isIn, sends⟩, sender, live⟩
        · exact .inl old
        · obtain rfl := List.mem_singleton.mp isIn
          exact .inr ⟨⟨_, List.mem_cons_self, sends⟩, sender, live⟩
      · exact .inr ⟨⟨other, List.mem_cons_of_mem _ isIn, sends⟩, sender, live⟩

theorem run_ofChild : run (Sockets.effectStep inUse s child) sockets (effects.map .ofChild) =
    run (Sockets.effectStep inUse child child) sockets effects := by
  induction effects generalizing sockets with
  | nil => rfl
  | cons effect rest ih =>
      rw [List.map_cons, run_cons, run_cons]
      exact congrArg _ (funext fun _ => ih)

theorem run_quiet_live (quiet : ∀ effect ∈ effects, effect.quiet)
    (live : sockets.socket s ≠ none) (liveChild : sockets.socket child ≠ none) :
    ∃ next, run (Sockets.effectStep inUse s child) sockets effects = some next := by
  have one : ∀ (effect : Effect) (s : ι) (sockets : Sockets ι), effect.quiet →
      sockets.socket s ≠ none → sockets.socket child ≠ none →
      ∃ next, sockets.effectStep inUse s child effect = some next := by
    intro effect s sockets isQuiet live liveChild
    induction effect generalizing s with
    | ipSendPacket segment =>
        obtain ⟨sock, live⟩ := Option.ne_none_iff_exists'.mp live
        exact ⟨_, Option.map_eq_some_iff.mpr ⟨sock, live, rfl⟩⟩
    | ofChild effect ih => exact ih child isQuiet liveChild
    | setRetransTimer => exact ⟨_, rfl⟩
    | removeRetransTimer => exact ⟨_, rfl⟩
    | wakeUp queue => exact ⟨_, rfl⟩
    | setTimewaitTimer => cases isQuiet
    | newChild tsk => cases isQuiet
    | hashChild => cases isQuiet
    | acceptEnqueue => cases isQuiet
    | clearListenQueue => cases isQuiet
    | unhash => cases isQuiet
    | freeTcpSock => cases isQuiet
  induction effects generalizing sockets with
  | nil => exact ⟨sockets, rfl⟩
  | cons effect rest ih =>
      obtain ⟨middle, taken⟩ := one effect s sockets (quiet effect List.mem_cons_self) live liveChild
      obtain ⟨sent, rfl⟩ := effectStep_quiet (quiet effect List.mem_cons_self) taken
      obtain ⟨next, later⟩ : ∃ next, run (Sockets.effectStep inUse s child)
          { sockets with sent := sent } rest = some next :=
        ih (fun e isIn => quiet e (List.mem_cons_of_mem _ isIn)) live liveChild
      exact ⟨next, by rw [run_cons, taken]; exact later⟩

/-- A quiet outcome stores the socket and sends packets of its effects. -/
theorem applyOutcome_sentBy (quiet : outcome.Quiet)
    (success : sockets.applyOutcome inUse s child outcome = some next) :
    ∃ sock sent, sockets.socket s = some sock ∧
      next = { sockets.put s { sock with tsk := outcome.tsk } with sent := sent } ∧
      ∀ packet ∈ sent, (sockets.put s { sock with tsk := outcome.tsk }).SentBy s child
        outcome.effects packet := by
  obtain ⟨sock, live, runs⟩ := applyOutcome_run success
  have sentBy := run_sentBy quiet runs
  obtain ⟨sent, rfl⟩ := run_quiet quiet runs
  exact ⟨sock, sent, live, rfl, sentBy⟩

end Packets

structure IsSyn (tsk : TcpSock) (segment : Segment) : Prop where
  flags : segment.flags = TCP_SYN
  seq : segment.seq = tsk.iss
  totLen : segment.totLen = UInt16.ofNat (IP_BASE_HDR_SIZE + TCP_BASE_HDR_SIZE)
  source : tsk.localAddr = { ip := segment.saddr, port := segment.sport }
  dest : tsk.peer = { ip := segment.daddr, port := segment.dport }

/-- A socket of the application that takes part in no connection. -/
def Idle (tsk : TcpSock) : Prop :=
  (tsk.state = .closed ∨ tsk.state = .listen) ∧ tsk.peer.port = 0

structure Answers (tsk child : TcpSock) : Prop where
  state : child.state = .synRecv
  localAddr : child.localAddr = tsk.peer
  peer : child.peer = tsk.localAddr
  rcvNxt : child.rcvNxt = tsk.iss + 1

structure IsAnswer {κ : Type} (tsk : TcpSock) (packet : Sent κ) : Prop where
  flags : packet.segment.flags = TCP_SYN ||| TCP_ACK
  seq : packet.segment.seq = packet.socket.tsk.iss
  ack : packet.segment.ack = tsk.iss + 1
  totLen : packet.segment.totLen = UInt16.ofNat (IP_BASE_HDR_SIZE + TCP_BASE_HDR_SIZE)
  child : packet.socket.parent ≠ none
  answers : Answers tsk packet.socket.tsk

theorem tcpSockClose_synRecv {tsk : TcpSock} (state : tsk.state = .synRecv) :
    tcpSockClose tsk = tsk.done := by
  rw [tcpSockClose, state]

section Peer

variable {κ : Type} {asked : Option TcpSock} {peer next : Sockets κ} {s child : κ}
  {sock new : Socket κ} {inUse : UInt16 → Bool} {outcome : Outcome}

def Waiting (asked : Option TcpSock) (sock : Socket κ) : Prop :=
  sock.acceptQueue = [] ∧ (Idle sock.tsk ∨ ∃ tsk ∈ asked, Answers tsk sock.tsk)

/-- Packets to port 0 are sent for sockets that were never connected. -/
def Expected (asked : Option TcpSock) (packet : Sent κ) : Prop :=
  packet.segment.dport = 0 ∨ packet.segment.flags = TCP_RST ||| TCP_ACK ∨
    ∃ tsk ∈ asked, IsAnswer tsk packet

structure Waits (asked : Option TcpSock) (peer : Sockets κ) : Prop where
  socket : ∀ t sock, peer.socket t = some sock → Waiting asked sock
  timewait : peer.timewait = []
  sent : ∀ packet ∈ peer.sent, Expected asked packet

theorem Waits.ask (waits : Waits none peer) (asked : Option TcpSock) : Waits asked peer := by
  refine ⟨fun t sock live => ?_, waits.timewait, fun packet member => ?_⟩
  · obtain ⟨queue, idle | ⟨tsk, ⟨⟩, -⟩⟩ := waits.socket t sock live
    exact ⟨queue, .inl idle⟩
  · rcases waits.sent packet member with unconnected | reset | ⟨tsk, ⟨⟩, -⟩
    · exact .inl unconnected
    · exact .inr (.inl reset)

theorem Waits.relinks (waits : Waits asked peer) (relinks : Relinks peer next) :
    Waits asked next := by
  refine ⟨fun t new live => ?_, relinks.timewait.trans waits.timewait, ?_⟩
  · obtain ⟨sock, liveBefore, same⟩ := relinks.same t new live
    obtain ⟨queue, tsk⟩ := waits.socket t sock liveBefore
    refine ⟨same.acceptQueue.trans queue, ?_⟩
    rw [same.tsk]
    exact tsk
  · rw [relinks.sent]
    exact waits.sent

theorem Waits.send (waits : Waits asked peer) {sent : List (Sent κ)}
    (expected : ∀ packet ∈ sent, Expected asked packet) :
    Waits asked { peer with sent := sent } := ⟨waits.socket, waits.timewait, expected⟩

theorem Waits.idle (waits : Waits asked peer) (live : peer.socket s = some sock)
    (notChild : ¬ peer.InState .synRecv s) : Idle sock.tsk := by
  obtain ⟨-, idle | ⟨tsk, -, answers⟩⟩ := waits.socket s sock live
  · exact idle
  · exact absurd ⟨sock, live, answers.state⟩ notChild

variable [DecidableEq κ]

theorem Waits.change (waits : Waits asked peer)
    (socket : next.socket = Function.update peer.socket s (some new))
    (timewait : next.timewait = peer.timewait) (sent : next.sent = peer.sent)
    (waiting : Waiting asked new) : Waits asked next := by
  refine ⟨fun t other live => ?_, timewait.trans waits.timewait, by rw [sent]; exact waits.sent⟩
  rw [socket, Function.update_apply] at live
  split_ifs at live
  · obtain rfl := Option.some.inj live
    exact waiting
  · exact waits.socket t other live

theorem Waits.put (waits : Waits asked peer) (waiting : Waiting asked new) :
    Waits asked (peer.put s new) := waits.change rfl rfl rfl waiting

theorem Waits.allocTcpSock (waits : Waits asked peer) {tsk : TcpSock} {parent : Option κ}
    (waiting : Idle tsk ∨ ∃ t ∈ asked, Answers t tsk)
    (success : peer.allocTcpSock child tsk parent = some next) :
    Waits asked next ∧ next.socket child = some (Socket.fresh tsk parent) := by
  unfold Sockets.allocTcpSock at success
  split_ifs at success
  obtain rfl := Option.some.inj success
  exact ⟨waits.change rfl rfl rfl ⟨rfl, waiting⟩, put_same _⟩

theorem Waits.quiet (waits : Waits asked peer) (quiet : outcome.Quiet)
    (waiting : Idle outcome.tsk ∨ ∃ tsk ∈ asked, Answers tsk outcome.tsk)
    (expected : ∀ effect ∈ outcome.effects, ∀ packet : Sent κ,
      effect.segment? = some packet.segment → Expected asked packet)
    (success : peer.applyOutcome inUse s child outcome = some next) : Waits asked next := by
  obtain ⟨sock, sent, live, rfl, sentBy⟩ := applyOutcome_sentBy quiet success
  have stored : Waits asked (peer.put s { sock with tsk := outcome.tsk }) :=
    waits.put ⟨(waits.socket s sock live).1, waiting⟩
  refine stored.send fun packet member => ?_
  rcases sentBy packet member with old | ⟨⟨effect, isIn, sends⟩, -⟩
  · exact waits.sent packet old
  · exact expected effect isIn packet sends

theorem Waits.clearListenQueue (waits : Waits asked peer) {queue : List κ}
    (success : peer.clearListenQueue s queue = some next) : Waits asked next := by
  induction queue generalizing peer with
  | nil =>
      obtain rfl := Option.some.inj success
      exact waits
  | cons c rest ih =>
      obtain ⟨sock, lsnTsk, live, liveChild, way⟩ := clearListenQueue_cons success
      have popped : Waits asked (peer.put s { sock with listenQueue := rest }) :=
        waits.put (waits.socket s sock live)
      rcases way with ⟨-, later⟩ | ⟨-, unhashed, freed, unhashes, frees, later⟩
      · exact ih popped later
      · have alone : Waits asked ((peer.put s { sock with listenQueue := rest }).put c
            { lsnTsk with parent := none }) := popped.put (popped.socket c lsnTsk liveChild)
        exact ih ((alone.relinks (.tcpUnhash unhashes)).relinks (.freeTcpSock frees)) later

theorem Waits.tcpSockClose (waits : Waits asked peer) (live : peer.socket s = some sock)
    (success : peer.applyOutcome inUse s child (tcpSockClose sock.tsk) = some next) :
    Waits asked next := by
  by_cases listening : sock.tsk.state = .listen
  · obtain ⟨cleared, clears, taken⟩ := tcpSockClose_listening live listening success
    obtain ⟨queue, idle | ⟨tsk, -, answers⟩⟩ := waits.socket s sock live
    · have closed : Waits asked (peer.put s { sock with tsk := tcpSetState .closed sock.tsk }) :=
        waits.put ⟨queue, .inl ⟨.inl rfl, idle.2⟩⟩
      exact (closed.clearListenQueue clears).relinks (.tcpUnhash taken)
    · rw [answers.state] at listening
      cases listening
  · have nothing : NetworkLab.Tcp.tcpSockClose sock.tsk = sock.tsk.done := by
      obtain ⟨-, idle | ⟨tsk, -, answers⟩⟩ := waits.socket s sock live
      · rw [NetworkLab.Tcp.tcpSockClose, idle.1.resolve_right listening]
      · exact tcpSockClose_synRecv answers.state
    rw [nothing] at success
    refine waits.quiet (quiet_done _) (waits.socket s sock live).2 ?_ success
    rintro effect ⟨⟩

theorem Waits.calls (waits : Waits asked peer) {event : SocketsEvent κ}
    (may : peerMayCall peer event) (taken : socketsStep peer event = some next) :
    Waits asked next := by
  cases event with
  | alloc s => exact (waits.allocTcpSock (.inl ⟨.inl rfl, rfl⟩) taken).1
  | bind s port inUse =>
      obtain ⟨⟨bound, flag⟩, sets, rfl⟩ := Option.map_eq_some_iff.mp taken
      rcases tcpSockSetSport_some sets with ⟨-, rfl, -⟩ | ⟨-, -, sock, hash, live, rfl⟩
      · exact waits
      · have idle := waits.idle live (of_decide_eq_true may)
        exact waits.change rfl rfl rfl ⟨(waits.socket s sock live).1, .inl idle⟩
  | listen s backlog =>
      obtain ⟨stored, stores, hashes⟩ := Option.bind_eq_some_iff.mp taken
      obtain ⟨sock, live, rfl⟩ := update_some stores
      have idle := waits.idle live (of_decide_eq_true may)
      have listens : Waits asked (peer.put s { sock with
          backlog := backlog, tsk := tcpSetState .listen sock.tsk }) :=
        waits.put ⟨(waits.socket s sock live).1, .inl ⟨.inr rfl, idle.2⟩⟩
      exact listens.relinks (.tcpHash hashes)
  | connect s ip skaddr iss inUse => cases may
  | accept s =>
      obtain ⟨sock, live, taken⟩ := Option.bind_eq_some_iff.mp taken
      split_ifs at taken
      · obtain rfl := Option.some.inj taken
        exact waits
      · simp [(waits.socket s sock live).1] at taken
  | send s payload =>
      obtain ⟨sock, live, calls⟩ := Option.bind_eq_some_iff.mp taken
      have idle := waits.idle live (of_decide_eq_true may)
      refine waits.quiet (quiet_tcpSendPacket _ _) (.inl idle) ?_ calls
      intro effect isIn packet sends
      rcases List.mem_cons.mp isIn with rfl | isIn
      · cases sends
      · obtain rfl := List.mem_singleton.mp isIn
        left
        rw [← Option.some.inj sends]
        exact idle.2
  | close s =>
      obtain ⟨sock, live, calls⟩ := Option.bind_eq_some_iff.mp taken
      exact waits.tcpSockClose live calls
  | packet cb child iss inUse => cases may
  | timewaitExpires s =>
      simp [socketsStep, Sockets.timewaitExpires, waits.timewait] at taken
  | givesUp s =>
      obtain ⟨sock, live, calls⟩ := Option.bind_eq_some_iff.mp taken
      exact waits.tcpSockClose live calls

variable {tsk : TcpSock} {segment : Segment}

/-- A segment without payload that takes one sequence number. -/
theorem tcpCbInit_seqEnd
    (totLen : segment.totLen = UInt16.ofNat (IP_BASE_HDR_SIZE + TCP_BASE_HDR_SIZE))
    (counted : hasFlag segment.flags (TCP_SYN ||| TCP_FIN)) :
    (tcpCbInit segment).seqEnd = segment.seq + 1 := by
  have empty : UInt32.ofInt ((UInt16.ofNat (IP_BASE_HDR_SIZE + TCP_BASE_HDR_SIZE)).toNat -
      (IP_BASE_HDR_SIZE + TCP_BASE_HDR_SIZE : Nat)) = 0 := rfl
  rw [tcpCbInit, totLen, empty, if_pos counted]
  exact congrArg (· + 1) (UInt32.add_zero segment.seq)

theorem tcpSendControlPacket_segment {flags : UInt8} {effect : Effect}
    (member : effect ∈ (tcpSendControlPacket flags tsk).effects)
    (sends : effect.segment? = some segment) : segment = buildSegment tsk flags [] := by
  unfold tcpSendControlPacket at member
  split_ifs at member
  · rcases List.mem_cons.mp member with rfl | last
    · cases sends
    · obtain rfl := List.mem_singleton.mp last
      exact (Option.some.inj sends).symm
  · obtain rfl := List.mem_singleton.mp member
    exact (Option.some.inj sends).symm

def listenChild (iss : UInt32) (cb : TcpCb) : TcpSock :=
  { allocTcpSock with
    localAddr := { ip := cb.daddr, port := cb.dport },
    peer := { ip := cb.saddr, port := cb.sport },
    state := .synRecv, rcvNxt := cb.seqEnd, iss := iss, sndNxt := iss }

theorem tcpStateListen_syn {cb : TcpCb} {iss : UInt32} {listener : TcpSock}
    (syn : hasFlag cb.flags TCP_SYN) :
    tcpStateListen iss cb listener =
      { tsk := listener,
        effects := .newChild (tcpSendControlPacket (TCP_SYN ||| TCP_ACK) (listenChild iss cb)).tsk ::
          ((tcpSendControlPacket (TCP_SYN ||| TCP_ACK) (listenChild iss cb)).effects.map .ofChild ++
            [.hashChild]) } := if_pos syn

theorem Waits.newChild (waits : Waits (some tsk) peer) {childTsk : TcpSock}
    (answers : Answers tsk childTsk) (success : peer.newChild inUse s child childTsk = some next) :
    Waits (some tsk) next ∧ ∃ sock, next.socket child = some sock ∧ sock.parent ≠ none ∧
      sock.tsk = childTsk := by
  unfold Sockets.newChild at success
  dsimp only at success
  by_cases noPort : childTsk.localAddr.port = 0
  · rw [if_pos noPort] at success
    cases success
  rw [if_neg noPort] at success
  obtain ⟨allocated, allocates, success⟩ := Option.bind_eq_some_iff.mp success
  obtain ⟨waitsFirst, live⟩ := waits.allocTcpSock (.inr ⟨tsk, rfl, answers⟩) allocates
  obtain ⟨bound, binds, appends⟩ := Option.bind_eq_some_iff.mp success
  obtain ⟨⟨bound', flag⟩, sets, rfl⟩ := Option.map_eq_some_iff.mp binds
  obtain ⟨waitsBound, sock, liveBound, parent, same⟩ : Waits (some tsk) bound' ∧
      ∃ sock, bound'.socket child = some sock ∧ sock.parent ≠ none ∧ sock.tsk = childTsk := by
    rcases tcpSockSetSport_some sets with ⟨-, rfl, -⟩ | ⟨-, -, sock, hash, live', rfl⟩
    · exact ⟨waitsFirst, _, live, by simp [Socket.fresh], rfl⟩
    · obtain rfl := Option.some.inj (live.symm.trans live')
      simp only [if_neg noPort]
      exact ⟨waitsFirst.change rfl rfl rfl ⟨rfl, .inr ⟨tsk, rfl, answers⟩⟩, _, put_same _,
        by simp [Socket.fresh], rfl⟩
  obtain ⟨listener, liveListener, rfl⟩ := update_some appends
  refine ⟨waitsBound.put (waitsBound.socket s listener liveListener), ?_⟩
  by_cases self : child = s
  · subst self
    obtain rfl := Option.some.inj (liveBound.symm.trans liveListener)
    exact ⟨_, put_same _, parent, same⟩
  · exact ⟨sock, by rw [put_socket, if_neg self]; exact liveBound, parent, same⟩

theorem Waits.resets (waits : Waits asked peer) {cb : TcpCb} (live : peer.socket s = some sock)
    (isReset : outcome = ⟨sock.tsk, [tcpSendReset cb]⟩)
    (applies : peer.applyOutcome inUse s child outcome = some next) : Waits asked next := by
  subst isReset
  refine waits.quiet (by simp [Outcome.Quiet, tcpSendReset, Effect.quiet])
    (waits.socket s sock live).2 ?_ applies
  intro effect isIn packet sends
  obtain rfl := List.mem_singleton.mp isIn
  right
  left
  rw [← Option.some.inj sends]

theorem Waits.listens (waits : Waits (some tsk) peer) (isSyn : IsSyn tsk segment) {iss : UInt32}
    (live : peer.socket s = some sock) (syn : hasFlag (tcpCbInit segment).flags TCP_SYN)
    (applies : peer.applyOutcome inUse s child (tcpStateListen iss (tcpCbInit segment) sock.tsk) =
      some next) : Waits (some tsk) next := by
  rw [tcpStateListen_syn syn] at applies
  obtain ⟨sock', live', runs⟩ := applyOutcome_run applies
  obtain rfl := Option.some.inj (live.symm.trans live')
  rw [put_self live] at runs
  obtain ⟨queued, appends, runs⟩ := run_cons_some _ runs
  have seqEnd : (tcpCbInit segment).seqEnd = tsk.iss + 1 := by
    rw [tcpCbInit_seqEnd isSyn.totLen (by rw [isSyn.flags]; rfl), isSyn.seq]
  have answers : Answers tsk (listenChild iss (tcpCbInit segment)) :=
    ⟨rfl, isSyn.dest.symm, isSyn.source.symm, seqEnd⟩
  have sentAnswers : Answers tsk (tcpSendControlPacket (TCP_SYN ||| TCP_ACK)
      (listenChild iss (tcpCbInit segment))).tsk :=
    ⟨answers.state, answers.localAddr, answers.peer, answers.rcvNxt⟩
  obtain ⟨waitsQueued, childSock, liveChild, parent, same⟩ := waits.newChild sentAnswers appends
  rw [run_append, run_ofChild] at runs
  obtain ⟨sent, sends, hashes⟩ := Option.bind_eq_some_iff.mp runs
  obtain ⟨hashed, taken, done⟩ := run_cons_some _ hashes
  obtain rfl := Option.some.inj done
  have quiet := quiet_tcpSendControlPacket (TCP_SYN ||| TCP_ACK)
    (listenChild iss (tcpCbInit segment))
  have sentBy := run_sentBy quiet sends
  obtain ⟨packets, rfl⟩ := run_quiet quiet sends
  refine (waitsQueued.send fun packet member => ?_).relinks (.tcpHash taken)
  rcases sentBy packet member with old | ⟨⟨effect, isIn, isSegment⟩, sender, liveSender⟩
  · exact waitsQueued.sent packet old
  · rw [or_self_iff.mp sender, liveChild] at liveSender
    obtain rfl := Option.some.inj liveSender
    refine .inr (.inr ⟨tsk, rfl, ?_⟩)
    have segment_eq : packet.segment = buildSegment (listenChild iss (tcpCbInit segment))
        (TCP_SYN ||| TCP_ACK) [] := tcpSendControlPacket_segment isIn isSegment
    rw [← same] at sentAnswers
    refine ⟨?_, ?_, ?_, ?_, parent, sentAnswers⟩
    · rw [segment_eq]
      rfl
    · rw [segment_eq, same]
      rfl
    · rw [segment_eq]
      exact answers.rcvNxt
    · rw [segment_eq]
      rfl

theorem Waits.receives (waits : Waits (some tsk) peer) (isSyn : IsSyn tsk segment) {iss : UInt32}
    (taken : peer.handleTcpPacket inUse child iss (tcpCbInit segment) = some next) :
    Waits (some tsk) next := by
  obtain ⟨s, -, taken⟩ := Option.bind_eq_some_iff.mp taken
  obtain ⟨sock, live, taken⟩ := Option.bind_eq_some_iff.mp taken
  obtain ⟨outcome, processes, applies⟩ := Option.bind_eq_some_iff.mp taken
  have flags : (tcpCbInit segment).flags = TCP_SYN := isSyn.flags
  have syn : hasFlag (tcpCbInit segment).flags TCP_SYN := by
    rw [flags]
    rfl
  have rst : hasFlag (tcpCbInit segment).flags TCP_RST = false := by
    rw [flags]
    rfl
  by_cases closed : sock.tsk.state = .closed
  · rw [tcpProcess, if_pos closed] at processes
    exact waits.resets live (Option.some.inj processes).symm applies
  by_cases listening : sock.tsk.state = .listen
  · rw [tcpProcess, if_neg closed, if_pos listening] at processes
    obtain rfl := Option.some.inj processes
    exact waits.listens isSyn live syn applies
  · obtain ⟨-, idle | ⟨tsk', known, answers⟩⟩ := waits.socket s sock live
    · exact absurd idle.1 (not_or.mpr ⟨closed, listening⟩)
    · have opened : Open sock.tsk := by simp [Open, answers.state]
      rw [tcpProcess_open opened, if_neg (by simp [rst]), if_pos syn] at processes
      have isReset : outcome = ⟨sock.tsk, [tcpSendReset (tcpCbInit segment)]⟩ := by
        rw [← Option.some.inj processes, tcpSockClose_synRecv answers.state]
        rfl
      exact waits.resets live isReset applies

end Peer

section Client

variable {ι : Type} [DecidableEq ι] {client next : Sockets ι} {c s : ι} {sock new : Socket ι}
  {inUse : UInt16 → Bool} {outcome : Outcome} {tsk : TcpSock}

/-- `c` is the only socket. -/
def Alone (c : ι) (client : Sockets ι) : Prop :=
  client.used c ∧ ∀ t sock, client.socket t = some sock → t = c

structure Past (c : ι) (client : Sockets ι) : Prop where
  alone : Alone c client
  state : ∀ t sock, client.socket t = some sock →
    sock.tsk.state ≠ .listen ∧ sock.tsk.state ≠ .synSent

structure Connecting (c : ι) (tsk : TcpSock) (client : Sockets ι) : Prop where
  alone : Alone c client
  live : ∃ sock, client.socket c = some sock ∧ sock.tsk = tsk
  state : tsk.state = .synSent
  port : tsk.localAddr.port ≠ 0
  sent : ∀ packet ∈ client.sent, IsSyn tsk packet.segment
  timewait : client.timewait = []

omit [DecidableEq ι] in
theorem Alone.frame (alone : Alone c client) (frame : Frame client next) : Alone c next := by
  refine ⟨by rw [frame.used]; exact alone.1, fun t new live => ?_⟩
  obtain ⟨sock, liveBefore, -⟩ := frame.same t new live
  exact alone.2 t sock liveBefore

omit [DecidableEq ι] in
theorem Past.relinks (past : Past c client) (relinks : Relinks client next) : Past c next := by
  refine ⟨past.alone.frame (.relinks relinks), fun t new live => ?_⟩
  obtain ⟨sock, liveBefore, same⟩ := relinks.same t new live
  rw [same.tsk]
  exact past.state t sock liveBefore

omit [DecidableEq ι] in
theorem Past.send (past : Past c client) (sent : List (Sent ι)) :
    Past c { client with sent := sent } := ⟨past.alone, past.state⟩

theorem Past.change (past : Past c client) (live : client.socket s = some sock)
    (socket : next.socket = Function.update client.socket s (some new))
    (used : next.used = client.used)
    (state : new.tsk.state ≠ .listen ∧ new.tsk.state ≠ .synSent) : Past c next := by
  refine ⟨⟨by rw [used]; exact past.alone.1, fun t other stored => ?_⟩, fun t other stored => ?_⟩
  · rw [socket, Function.update_apply] at stored
    split_ifs at stored with here
    · rw [here]
      exact past.alone.2 s sock live
    · exact past.alone.2 t other stored
  · rw [socket, Function.update_apply] at stored
    split_ifs at stored
    · obtain rfl := Option.some.inj stored
      exact state
    · exact past.state t other stored

theorem StateKept.past {before after : TcpSock} (kept : StateKept before after)
    (state : before.state ≠ .listen ∧ before.state ≠ .synSent) :
    after.state ≠ .listen ∧ after.state ≠ .synSent := by
  rcases kept with same | ⟨-, connected, notSynSent⟩
  · rw [same]
    exact state
  · exact ⟨connected.2, notSynSent⟩

theorem Past.quiet (past : Past c client) (quiet : outcome.Quiet)
    (kept : ∀ sock, client.socket s = some sock → StateKept sock.tsk outcome.tsk)
    (success : client.applyOutcome inUse s c outcome = some next) : Past c next := by
  obtain ⟨sock, sent, live, rfl⟩ := applyOutcome_quiet quiet success
  exact past.change live rfl rfl ((kept sock live).past (past.state s sock live))

theorem Past.release (past : Past c client) (success : client.release s = some next) :
    Past c next := by
  obtain ⟨closed, closes, frees⟩ := Option.bind_eq_some_iff.mp success
  obtain ⟨sock, live, rfl⟩ := update_some closes
  have pastClosed : Past c (client.put s { sock with tsk := tcpSetState .closed sock.tsk }) :=
    past.change live rfl rfl (by simp [tcpSetState])
  exact pastClosed.relinks (.freeTcpSock frees)

theorem Past.timewaitExpires (past : Past c client)
    (success : client.timewaitExpires s = some next) : Past c next := by
  unfold Sockets.timewaitExpires at success
  split_ifs at success
  obtain ⟨sock, -, success⟩ := Option.bind_eq_some_iff.mp success
  have removed : Past c (client.deleteTimewait s) := ⟨past.alone, past.state⟩
  split_ifs at success
  · obtain ⟨unbound, unbinds, releases⟩ := Option.bind_eq_some_iff.mp success
    exact (removed.relinks (.tcpBindUnhash unbinds)).release releases
  · exact removed.release success

theorem Past.tcpSockClose (past : Past c client) (live : client.socket s = some sock)
    (success : client.applyOutcome inUse s s (tcpSockClose sock.tsk) = some next) :
    Past c next := by
  obtain rfl := past.alone.2 s sock live
  have notListening := (past.state s sock live).1
  refine past.quiet (quiet_tcpSockClose notListening) (fun other liveOther => ?_) success
  obtain rfl := Option.some.inj (live.symm.trans liveOther)
  exact tcpSockClose_kept notListening

theorem Past.calls (past : Past c client) {event : SocketsEvent ι} (may : clientMayCall client event)
    (taken : socketsStep client event = some next) : Past c next := by
  cases event with
  | alloc s => cases may
  | bind s port inUse => cases may
  | listen s backlog => cases may
  | connect s ip skaddr iss inUse => cases may
  | accept s => cases may
  | send s payload =>
      obtain ⟨sock, live, calls⟩ := Option.bind_eq_some_iff.mp taken
      obtain rfl := past.alone.2 s sock live
      refine past.quiet (quiet_tcpSendPacket _ _) (fun other liveOther => ?_) calls
      obtain rfl := Option.some.inj (live.symm.trans liveOther)
      exact .inl rfl
  | close s =>
      obtain ⟨sock, live, calls⟩ := Option.bind_eq_some_iff.mp taken
      exact past.tcpSockClose live calls
  | packet cb child iss inUse => cases may
  | timewaitExpires s => exact past.timewaitExpires taken
  | givesUp s =>
      obtain ⟨sock, live, calls⟩ := Option.bind_eq_some_iff.mp taken
      exact past.tcpSockClose live calls

theorem Past.amid (past : Past c client) {effect : Effect} {before after : List Effect} (effects : outcome.effects = before ++ effect :: after)
    (quietBefore : ∀ e ∈ before, e.quiet) (quietAfter : ∀ e ∈ after, e.quiet)
    (state : outcome.tsk.state ≠ .listen ∧ outcome.tsk.state ≠ .synSent)
    (keeps : ∀ {start final : Sockets ι}, Past c start →
      start.effectStep inUse s c effect = some final → Past c final)
    (success : client.applyOutcome inUse s c outcome = some next) : Past c next := by
  obtain ⟨sock', live', runs⟩ := applyOutcome_run success
  have stored : Past c (client.put s { sock' with tsk := outcome.tsk }) :=
    past.change live' rfl rfl state
  rw [effects] at runs
  obtain ⟨sent, middle, sent', taken, rfl⟩ := run_amid quietBefore quietAfter runs
  exact (keeps (stored.send sent) taken).send sent'

theorem Past.receives (past : Past c client) {cb : TcpCb} {iss : UInt32}
    (taken : client.handleTcpPacket inUse c iss cb = some next) : Past c next := by
  obtain ⟨s, -, taken⟩ := Option.bind_eq_some_iff.mp taken
  obtain ⟨sock, live, taken⟩ := Option.bind_eq_some_iff.mp taken
  obtain ⟨outcome, processes, applies⟩ := Option.bind_eq_some_iff.mp taken
  have state := past.state s sock live
  cases tcpProcess_processed processes with
  | quiet quiet kept =>
      refine past.quiet quiet (fun other liveOther => ?_) applies
      obtain rfl := Option.some.inj (live.symm.trans liveOther)
      exact kept
  | child listening tsk effects quiet synRecv same => exact absurd listening state.1
  | reset opened rst same =>
      have kept := tcpSockClose_kept opened.2.1
      have effects : outcome.effects =
          (NetworkLab.Tcp.tcpSockClose sock.tsk).effects ++ [.freeTcpSock] := by simp [same]
      refine past.amid effects (quiet_tcpSockClose opened.2.1)
        (by simp) ?_ (fun start taken => start.relinks (.freeTcpSock taken)) applies
      rw [same]
      exact kept.past state
  | enqueue synRecv rst syn ack acked quiet stays same =>
      have effects : outcome.effects =
          acked.effects ++ .acceptEnqueue :: [.wakeUp .parentWaitAccept] := by simp [same]
      refine past.amid effects quiet (by simp [Effect.quiet]) (by simp [same, stays])
        (fun start taken => ?_) applies
      obtain ⟨sock, -, taken⟩ := Option.bind_eq_some_iff.mp taken
      obtain ⟨p, -, taken⟩ := Option.bind_eq_some_iff.mp taken
      obtain ⟨listener, liveListener, rfl⟩ := update_some taken
      refine start.change liveListener rfl rfl ?_
      exact start.state p listener liveListener
  | timewait finWait2 flags before quiet stays same =>
      have effects : outcome.effects = before.effects ++ [.setTimewaitTimer] := by simp [same]
      refine past.amid effects quiet (by simp) (by simp [same, stays]) (fun start taken => ?_) applies
      obtain ⟨stored, stores, result⟩ := Option.bind_eq_some_iff.mp taken
      obtain ⟨sock, liveSock, rfl⟩ := update_some stores
      obtain rfl := Option.some.inj result
      refine start.change liveSock rfl rfl ?_
      exact start.state s sock liveSock
  | unhash lastAck acked quiet stays same =>
      have effects : outcome.effects = acked.effects ++ [.unhash] := by simp [same]
      exact past.amid effects quiet (by simp)
        (by simp [same, stays]) (fun start taken => start.relinks (.tcpUnhash taken)) applies

theorem connects {ip iss : UInt32} {skaddr : SockAddr} {allocated : Sockets ι}
    (allocates : (noSockets : Sockets ι).allocTcpSock c allocTcpSock none = some allocated)
    (success : allocated.tcpSockConnect inUse c ip skaddr iss = some next) :
    Past c next ∨ ∃ tsk, Connecting c tsk next := by
  have fresh := Option.some.inj allocates
  have alone : Alone c allocated := by
    rw [← fresh]
    refine ⟨Function.update_self .., fun t sock live => ?_⟩
    change Function.update _ _ _ t = _ at live
    rw [Function.update_apply] at live
    split_ifs at live with here
    · exact here
    · cases live
  have aloneNext := alone.frame (.tcpSockConnect success)
  have past : Past c allocated := by
    refine ⟨alone, fun t sock live => ?_⟩
    obtain rfl := alone.2 t sock live
    rw [← fresh] at live
    obtain rfl := Option.some.inj ((put_same _).symm.trans live)
    simp [Socket.fresh, allocTcpSock]
  obtain ⟨sock, bound, flag, live, sets, way⟩ := tcpSockConnect_some success
  rcases tcpSockSetSport_some sets with ⟨-, rfl, rfl⟩ | ⟨works, rfl, sock', hash, live', rfl⟩
  · obtain rfl := (way.resolve_right fun sends => absurd sends.1 Bool.false_ne_true).2
    left
    refine past.change live rfl rfl ?_
    exact past.state c sock live
  · right
    obtain rfl := Option.some.inj ((put_same _).symm.trans live')
    obtain ⟨-, sock'', hashed, sender, liveBound, hashes, liveSent, sends⟩ :=
      way.resolve_left fun fails => absurd fails.1.symm Bool.false_ne_true
    obtain rfl := Option.some.inj ((put_same _).symm.trans liveBound)
    have relinks := Relinks.tcpHash hashes
    obtain ⟨before, liveBefore, same⟩ := relinks.same c sender liveSent
    obtain rfl := Option.some.inj ((put_same _).symm.trans liveBefore)
    obtain ⟨sender', sent, -, rfl, sentBy⟩ :=
      applyOutcome_sentBy (quiet_tcpSendControlPacket _ _) sends
    have port : sender.tsk.localAddr.port ≠ 0 := by
      rw [same.tsk]
      exact fun zero => works (.inr zero)
    refine ⟨(tcpSendControlPacket TCP_SYN sender.tsk).tsk, aloneNext, ⟨_, put_same _, rfl⟩, ?_, port,
      fun packet member => ?_, ?_⟩
    · rw [tcpSendControlPacket_state, same.tsk]
    · rcases sentBy packet member with old | ⟨⟨effect, isIn, sends⟩, -⟩
      · change packet ∈ hashed.sent at old
        rw [relinks.sent, ← fresh] at old
        cases old
      · rw [tcpSendControlPacket_segment isIn sends]
        refine ⟨rfl, ?_, rfl, rfl, rfl⟩
        change sender.tsk.sndNxt = sender.tsk.iss
        rw [same.tsk]
    · change hashed.timewait = []
      rw [relinks.timewait, ← fresh]
      rfl

/-- In `SYN_SENT` the client is in `tcp_sock_connect`, and its timers do nothing. -/
theorem Connecting.calls (connecting : Connecting c tsk client) {event : SocketsEvent ι}
    (may : clientMayCall client event) (taken : socketsStep client event = some next) :
    next = client := by
  have inSynSent : ∀ s sock, client.socket s = some sock → s = c ∧ sock.tsk = tsk := by
    intro s sock live
    obtain ⟨sock', live', same⟩ := connecting.live
    obtain rfl := connecting.alone.2 s sock live
    obtain rfl := Option.some.inj (live.symm.trans live')
    exact ⟨rfl, same⟩
  have blocked : ∀ s sock, client.socket s = some sock → client.InState .synSent s := by
    intro s sock live
    refine ⟨sock, live, ?_⟩
    rw [(inSynSent s sock live).2]
    exact connecting.state
  cases event with
  | alloc s => cases may
  | bind s port inUse => cases may
  | listen s backlog => cases may
  | connect s ip skaddr iss inUse => cases may
  | accept s => cases may
  | send s payload =>
      obtain ⟨sock, live, -⟩ := Option.bind_eq_some_iff.mp taken
      exact absurd (blocked s sock live) (of_decide_eq_true may)
  | close s =>
      obtain ⟨sock, live, -⟩ := Option.bind_eq_some_iff.mp taken
      exact absurd (blocked s sock live) (of_decide_eq_true may)
  | packet cb child iss inUse => cases may
  | timewaitExpires s =>
      simp [socketsStep, Sockets.timewaitExpires, connecting.timewait] at taken
  | givesUp s =>
      obtain ⟨sock, live, calls⟩ := Option.bind_eq_some_iff.mp taken
      have nothing : tcpSockClose sock.tsk = sock.tsk.done := by
        rw [tcpSockClose, (inSynSent s sock live).2, connecting.state]
      obtain ⟨sock', live', runs⟩ := applyOutcome_run calls
      obtain rfl := Option.some.inj (live.symm.trans live')
      rw [nothing] at runs
      exact (Option.some.inj runs).symm.trans (put_self live)

theorem tcpProcess_synSent {cb : TcpCb} {iss : UInt32} (state : tsk.state = .synSent) :
    tcpProcess iss cb tsk = some (tcpStateSynSent cb tsk) := by
  rw [tcpProcess, if_neg (by simp [state]), if_neg (by simp [state]), if_pos state]

theorem quiet_tcpStateSynSent {cb : TcpCb} (state : tsk.state = .synSent) :
    (tcpStateSynSent cb tsk).Quiet := by
  have processes : tcpProcess 0 cb tsk = some (tcpStateSynSent cb tsk) := tcpProcess_synSent state
  cases tcpProcess_processed processes with
  | quiet quiet kept => exact quiet
  | child listening => simp [state] at listening
  | reset opened => exact absurd state opened.2.2
  | enqueue synRecv => simp [state] at synRecv
  | timewait finWait2 => simp [state] at finWait2
  | unhash lastAck => simp [state] at lastAck

theorem Connecting.establishes (connecting : Connecting c tsk client) {cb : TcpCb} {iss : UInt32}
    (flag : hasFlag cb.flags (TCP_SYN ||| TCP_ACK))
    (taken : client.handleTcpPacket inUse c iss cb = some next) :
    Past c next ∧ tsk.localAddr.port = cb.dport ∧
      ∃ after, next.socket c = some after ∧ after.tsk.state = .established ∧
        after.tsk.rcvNxt = cb.seqEnd := by
  obtain ⟨s, found, taken⟩ := Option.bind_eq_some_iff.mp taken
  obtain ⟨sock, live, taken⟩ := Option.bind_eq_some_iff.mp taken
  obtain ⟨outcome, processes, applies⟩ := Option.bind_eq_some_iff.mp taken
  obtain rfl := connecting.alone.2 s sock live
  obtain ⟨sock', live', rfl⟩ := connecting.live
  obtain rfl := Option.some.inj (live.symm.trans live')
  obtain ⟨sock', live', port⟩ := lookup_port found
  obtain rfl := Option.some.inj (live.symm.trans live')
  rw [tcpProcess_synSent connecting.state] at processes
  obtain rfl := Option.some.inj processes
  have quiet : (tcpStateSynSent cb sock.tsk).Quiet := quiet_tcpStateSynSent connecting.state
  obtain ⟨state, rcvNxt⟩ : (tcpStateSynSent cb sock.tsk).tsk.state = .established ∧
      (tcpStateSynSent cb sock.tsk).tsk.rcvNxt = cb.seqEnd := by
    rw [tcpStateSynSent, if_pos flag]
    exact ⟨rfl, rfl⟩
  obtain ⟨sock', sent, live', rfl⟩ := applyOutcome_quiet quiet applies
  obtain rfl := Option.some.inj (live.symm.trans live')
  refine ⟨⟨⟨connecting.alone.1, fun t other stored => ?_⟩, fun t other stored => ?_⟩, port, _,
    put_same _, state, rcvNxt⟩
  · change (client.put _ _).socket t = _ at stored
    rw [put_socket] at stored
    split_ifs at stored with here
    · exact here
    · exact connecting.alone.2 t other stored
  · change (client.put _ _).socket t = _ at stored
    rw [put_socket] at stored
    split_ifs at stored with here
    · obtain rfl := Option.some.inj stored
      simp [state]
    · exact absurd (connecting.alone.2 t other stored) here

theorem Connecting.takes (connecting : Connecting c tsk client) {cb : TcpCb} {iss : UInt32}
    (found : client.tcpSockLookup cb = some c) :
    ∃ next, client.handleTcpPacket inUse c iss cb = some next := by
  obtain ⟨sock, live, rfl⟩ := connecting.live
  have quiet : (tcpStateSynSent cb sock.tsk).Quiet := quiet_tcpStateSynSent connecting.state
  obtain ⟨next, runs⟩ : ∃ next, run (Sockets.effectStep inUse c c)
      (client.put c { sock with tsk := (tcpStateSynSent cb sock.tsk).tsk })
      (tcpStateSynSent cb sock.tsk).effects = some next :=
    run_quiet_live quiet (by simp) (by simp)
  refine ⟨next, ?_⟩
  rw [Sockets.handleTcpPacket, found]
  change (client.socket c).bind _ = _
  rw [live]
  change (tcpProcess iss cb sock.tsk).bind _ = _
  rw [tcpProcess_synSent connecting.state]
  change (client.update c _).bind _ = _
  rw [Sockets.update, live]
  exact runs

end Client

section Runs

variable {ι κ : Type} [DecidableEq ι] [DecidableEq κ] {c : ι} {hosts next : Hosts ι κ}

inductive Phase (c : ι) (hosts : Hosts ι κ) : Prop
  | early (client : hosts.client = noSockets) (peer : Waits none hosts.peer)
  | connecting (tsk : TcpSock) (client : Connecting c tsk hosts.client)
      (peer : Waits (some tsk) hosts.peer)
  | past (client : Past c hosts.client)

omit [DecidableEq ι] [DecidableEq κ] in
theorem Phase.connecting_of (phase : Phase c hosts) {sock : Socket ι}
    (live : hosts.client.socket c = some sock) (state : sock.tsk.state = .synSent) :
    Connecting c sock.tsk hosts.client ∧ Waits (some sock.tsk) hosts.peer := by
  cases phase with
  | early client peer =>
      rw [client] at live
      cases live
  | connecting tsk client peer =>
      obtain ⟨sock', live', rfl⟩ := client.live
      obtain rfl := Option.some.inj (live.symm.trans live')
      exact ⟨client, peer⟩
  | past client => exact absurd state (client.state c sock live).2

omit [DecidableEq ι] [DecidableEq κ] in
theorem Phase.alone (phase : Phase c hosts) {s : ι} {sock : Socket ι}
    (live : hosts.client.socket s = some sock) : s = c := by
  cases phase with
  | early client peer =>
      rw [client] at live
      cases live
  | connecting tsk client peer => exact client.alone.2 s sock live
  | past client => exact client.alone.2 s sock live

theorem noSockets_calls {event : SocketsEvent ι} (may : clientMayCall noSockets event) :
    socketsStep noSockets event = none := by
  cases event with
  | alloc s => cases may
  | bind s port inUse => cases may
  | listen s backlog => cases may
  | connect s ip skaddr iss inUse => cases may
  | accept s => cases may
  | send s payload => rfl
  | close s => rfl
  | packet cb child iss inUse => cases may
  | timewaitExpires s => rfl
  | givesUp s => rfl

omit [DecidableEq κ] in
theorem Waits.toClient {peer : Sockets κ} {tsk : TcpSock} {packet : Sent κ}
    (waits : Waits (some tsk) peer) (member : packet ∈ peer.sent)
    (port : tsk.localAddr.port ≠ 0) (dest : tsk.localAddr.port = packet.segment.dport) :
    packet.segment.flags = TCP_RST ||| TCP_ACK ∨ IsAnswer tsk packet := by
  rcases waits.sent packet member with unconnected | reset | ⟨tsk', ⟨⟩, answer⟩
  · exact absurd (dest.trans unconnected) port
  · exact .inl reset
  · exact .inr answer

omit [DecidableEq κ] in
theorem IsAnswer.answered {tsk after : TcpSock} {packet : Sent κ} (answer : IsAnswer tsk packet)
    (rcvNxt : after.rcvNxt = (tcpCbInit packet.segment).seqEnd) : Answered tsk after packet := by
  refine ⟨?_, ?_, answer.ack, answer.child, answer.answers.state, answer.answers.localAddr,
    answer.answers.peer, ?_⟩
  · rw [answer.flags]
    rfl
  · rw [answer.flags]
    rfl
  · have counted : hasFlag packet.segment.flags (TCP_SYN ||| TCP_FIN) := by
      rw [answer.flags]
      rfl
    rw [rcvNxt, tcpCbInit_seqEnd answer.totLen counted, answer.seq]

omit [DecidableEq κ] in
theorem Connecting.reached {client after : Sockets ι} {peer : Sockets κ} {tsk : TcpSock}
    {packet : Sent κ} {inUse : UInt16 → Bool} {iss : UInt32} (connecting : Connecting c tsk client)
    (waits : Waits (some tsk) peer) (member : packet ∈ peer.sent)
    (taken : client.handleTcpPacket inUse c iss (tcpCbInit packet.segment) = some after) :
    (packet.segment.flags = TCP_RST ||| TCP_ACK ∨ IsAnswer tsk packet) ∧ Past c after ∧
      ∃ sock, after.socket c = some sock ∧ sock.tsk.state = .established ∧
        sock.tsk.rcvNxt = (tcpCbInit packet.segment).seqEnd := by
  obtain ⟨s, found, -⟩ := Option.bind_eq_some_iff.mp taken
  obtain ⟨sock, live, port⟩ := lookup_port found
  obtain ⟨sock', live', same⟩ := connecting.live
  obtain rfl := connecting.alone.2 s sock live
  obtain rfl := Option.some.inj (live.symm.trans live')
  rw [same] at port
  have arrived := waits.toClient member connecting.port port
  have flag : hasFlag (tcpCbInit packet.segment).flags (TCP_SYN ||| TCP_ACK) := by
    change hasFlag packet.segment.flags _ = true
    rcases arrived with reset | answer
    · rw [reset]
      rfl
    · rw [answer.flags]
      rfl
  obtain ⟨past, -, established⟩ := connecting.establishes flag taken
  exact ⟨arrived, past, established⟩

theorem Phase.step (phase : Phase c hosts) {event : HostsEvent ι κ}
    (taken : hostsStep c hosts event = some next) : Phase c next := by
  cases event with
  | connect ip skaddr iss inUse =>
      obtain ⟨allocated, allocates, taken⟩ := Option.bind_eq_some_iff.mp taken
      obtain ⟨client, connected, result⟩ := Option.bind_eq_some_iff.mp taken
      obtain rfl := Option.some.inj result
      have used : ¬ hosts.client.used c := by
        intro isUsed
        rw [Sockets.allocTcpSock, if_pos isUsed] at allocates
        cases allocates
      cases phase with
      | early noClient peer =>
          rw [noClient] at allocates
          rcases connects allocates connected with past | ⟨tsk, connecting⟩
          · exact .past past
          · exact .connecting tsk connecting (peer.ask _)
      | connecting tsk client peer => exact absurd client.alone.1 used
      | past client => exact absurd client.alone.1 used
  | clientCalls event =>
      obtain ⟨_, may, taken⟩ := Option.bind_eq_some_iff.mp taken
      obtain ⟨client, calls, result⟩ := Option.bind_eq_some_iff.mp taken
      obtain rfl := Option.some.inj result
      have mayCall := (Option.guard_eq_some' _).mp may
      cases phase with
      | early noClient peer =>
          rw [noClient] at mayCall calls
          rw [noSockets_calls mayCall] at calls
          cases calls
      | connecting tsk connecting peer =>
          rw [connecting.calls mayCall calls]
          exact .connecting tsk connecting peer
      | past past => exact .past (past.calls mayCall calls)
  | clientReceives k =>
      obtain ⟨packet, sent, taken⟩ := Option.bind_eq_some_iff.mp taken
      obtain ⟨client, receives, result⟩ := Option.bind_eq_some_iff.mp taken
      obtain rfl := Option.some.inj result
      cases phase with
      | early noClient peer =>
          rw [noClient] at receives
          cases receives
      | connecting tsk connecting peer =>
          exact .past (connecting.reached peer (List.mem_of_getElem? sent) receives).2.1
      | past past => exact .past (past.receives receives)
  | peerCalls event =>
      obtain ⟨_, may, taken⟩ := Option.bind_eq_some_iff.mp taken
      obtain ⟨peer, calls, result⟩ := Option.bind_eq_some_iff.mp taken
      obtain rfl := Option.some.inj result
      have mayCall := (Option.guard_eq_some' _).mp may
      cases phase with
      | early noClient waits => exact .early noClient (waits.calls mayCall calls)
      | connecting tsk connecting waits =>
          exact .connecting tsk connecting (waits.calls mayCall calls)
      | past past => exact .past past
  | peerReceives k child iss inUse =>
      obtain ⟨packet, sent, taken⟩ := Option.bind_eq_some_iff.mp taken
      obtain ⟨peer, receives, result⟩ := Option.bind_eq_some_iff.mp taken
      obtain rfl := Option.some.inj result
      cases phase with
      | early noClient waits =>
          rw [noClient] at sent
          cases sent
      | connecting tsk connecting waits =>
          have isSyn := connecting.sent packet (List.mem_of_getElem? sent)
          exact .connecting tsk connecting (waits.receives isSyn receives)
      | past past => exact .past past

theorem Phase.establishes (phase : Phase c hosts) {event : HostsEvent ι κ}
    (other : ∀ k, event ≠ .clientReceives k) (taken : hostsStep c hosts event = some next) :
    Establishes c hosts event next := by
  intro before after live liveAfter state established
  obtain ⟨connecting, -⟩ := phase.connecting_of live state
  have unchanged : next.client = hosts.client → False := by
    intro same
    rw [same] at liveAfter
    obtain rfl := Option.some.inj (live.symm.trans liveAfter)
    simp [state] at established
  cases event with
  | connect ip skaddr iss inUse =>
      obtain ⟨allocated, allocates, -⟩ := Option.bind_eq_some_iff.mp taken
      rw [Sockets.allocTcpSock, if_pos connecting.alone.1] at allocates
      cases allocates
  | clientCalls event =>
      obtain ⟨_, may, taken⟩ := Option.bind_eq_some_iff.mp taken
      obtain ⟨client, calls, result⟩ := Option.bind_eq_some_iff.mp taken
      obtain rfl := Option.some.inj result
      exact (unchanged (connecting.calls ((Option.guard_eq_some' _).mp may) calls)).elim
  | clientReceives k => exact absurd rfl (other k)
  | peerCalls event =>
      obtain ⟨-, -, taken⟩ := Option.bind_eq_some_iff.mp taken
      obtain ⟨peer, -, result⟩ := Option.bind_eq_some_iff.mp taken
      obtain rfl := Option.some.inj result
      exact (unchanged rfl).elim
  | peerReceives k child iss inUse =>
      obtain ⟨packet, -, taken⟩ := Option.bind_eq_some_iff.mp taken
      obtain ⟨peer, -, result⟩ := Option.bind_eq_some_iff.mp taken
      obtain rfl := Option.some.inj result
      exact (unchanged rfl).elim

theorem Phase.establishes_iff (phase : Phase c hosts) {event : HostsEvent ι κ}
    (taken : hostsStep c hosts event = some next) :
    Establishes c hosts event next ↔ NoReset hosts event := by
  cases event with
  | connect ip skaddr iss inUse => exact iff_of_true (phase.establishes (by simp) taken) trivial
  | clientCalls event => exact iff_of_true (phase.establishes (by simp) taken) trivial
  | peerCalls event => exact iff_of_true (phase.establishes (by simp) taken) trivial
  | peerReceives k child iss inUse =>
      exact iff_of_true (phase.establishes (by simp) taken) trivial
  | clientReceives k =>
      obtain ⟨packet, sent, taken⟩ := Option.bind_eq_some_iff.mp taken
      obtain ⟨client, receives, result⟩ := Option.bind_eq_some_iff.mp taken
      obtain rfl := Option.some.inj result
      have member := List.mem_of_getElem? sent
      constructor
      · rintro establishes other sentOther s found ⟨sock, live, state⟩
        obtain rfl := Option.some.inj (sent.symm.trans sentOther)
        obtain rfl := phase.alone live
        obtain ⟨connecting, waits⟩ := phase.connecting_of live state
        obtain ⟨arrived, -, after, liveAfter, established, -⟩ :=
          connecting.reached waits member receives
        obtain ⟨k', packet', same, sent', answered⟩ :=
          establishes sock after live liveAfter state established
        obtain rfl := HostsEvent.clientReceives.inj same
        obtain rfl := Option.some.inj (sent.symm.trans sent')
        rcases arrived with reset | answer
        · have syn := answered.syn
          rw [reset] at syn
          cases syn
        · rw [answer.flags]
          rfl
      · intro noReset before after live liveAfter state established
        obtain ⟨connecting, waits⟩ := phase.connecting_of live state
        obtain ⟨arrived, -, sock, liveSock, -, rcvNxt⟩ := connecting.reached waits member receives
        obtain rfl := Option.some.inj (liveSock.symm.trans liveAfter)
        refine ⟨k, packet, rfl, sent, ?_⟩
        rcases arrived with reset | answer
        · obtain ⟨s, found, taken⟩ := Option.bind_eq_some_iff.mp receives
          obtain ⟨sock', live', -⟩ := Option.bind_eq_some_iff.mp taken
          obtain rfl := phase.alone live'
          have notReset := noReset packet sent s found ⟨before, live, state⟩
          rw [reset] at notReset
          cases notReset
        · exact answer.answered rcvNxt

theorem Phase.stuck (phase : Phase c hosts) {event : HostsEvent ι κ}
    (stuck : hostsStep c hosts event = none) : NoReset hosts event := by
  cases event with
  | connect ip skaddr iss inUse => trivial
  | clientCalls event => trivial
  | peerCalls event => trivial
  | peerReceives k child iss inUse => trivial
  | clientReceives k =>
      rintro packet sent s found ⟨sock, live, state⟩
      obtain rfl := phase.alone live
      obtain ⟨connecting, -⟩ := phase.connecting_of live state
      obtain ⟨client, receives⟩ : ∃ client, hosts.client.handleTcpPacket (fun _ => false) s 0
        (tcpCbInit packet.segment) = some client := connecting.takes found
      have taken : hostsStep s hosts (.clientReceives k) = some { hosts with client := client } :=
        Option.bind_eq_some_iff.mpr ⟨packet, sent,
          Option.bind_eq_some_iff.mpr ⟨client, receives, rfl⟩⟩
      rw [taken] at stuck
      cases stuck

end Runs

variable {ι κ : Type} [DecidableEq ι] [DecidableEq κ]

/-- In every run each transition to `ESTABLISHED` comes from the answer of a child, exactly
when no reset reaches the client in `SYN_SENT`. -/
theorem handshake_sound (c : ι) (events : List (HostsEvent ι κ)) :
    EachStep (hostsStep c) (Establishes c) (noHosts : Hosts ι κ) events ↔
      Guarded (hostsStep c) NoReset (noHosts : Hosts ι κ) events := by
  have start : Phase c (noHosts : Hosts ι κ) := by
    refine .early rfl ⟨?_, rfl, ?_⟩
    · rintro t sock ⟨⟩
    · rintro packet ⟨⟩
  exact eachStep_iff_guarded (hostsStep c)
    (fun hosts event next phase _ taken => phase.step taken)
    (fun hosts event next phase taken => phase.establishes_iff taken)
    (fun hosts event phase stuck => phase.stuck stuck) events start

def twoSyns : List (HostsEvent Nat Nat) :=
  let inUse : UInt16 → Bool := fun _ => false
  [.peerCalls (.alloc 0), .peerCalls (.bind 0 80 inUse), .peerCalls (.listen 0 5),
    .connect 0x0a000001 { ip := 0x0a000002, port := 80 } 100 inUse,
    .peerReceives 0 1 700 inUse, .peerReceives 0 2 0 inUse]

/-- The reset that the second SYN causes establishes the client. -/
theorem reset_establishes : ¬ EachStep (hostsStep 0) (Establishes 0) (noHosts : Hosts Nat Nat)
    (twoSyns ++ [.clientReceives 1]) := by
  intro sound
  have shown : ∃ hosts ∈ run (hostsStep 0) (noHosts : Hosts Nat Nat) twoSyns,
      ∃ next ∈ hostsStep 0 hosts (.clientReceives 1), ∃ before ∈ hosts.client.socket 0,
        ∃ after ∈ next.client.socket 0, before.tsk.state = .synSent ∧
          after.tsk.state = .established ∧
          ∀ packet ∈ hosts.peer.sent[1]?, hasFlag packet.segment.flags TCP_SYN = false := by decide
  obtain ⟨hosts, runs, next, taken, before, live, after, liveAfter, state, established, noSyn⟩ := shown
  obtain ⟨k, packet, same, sent, answered⟩ :=
    eachStep_last (hostsStep 0) twoSyns sound runs taken before after live liveAfter state established
  obtain rfl := HostsEvent.clientReceives.inj same
  have syn := answered.syn
  rw [noSyn packet sent] at syn
  cases syn

end NetworkLab.Tcp
