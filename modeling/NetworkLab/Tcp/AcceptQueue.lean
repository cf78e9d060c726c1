import NetworkLab.Tcp.RefCounts

/-!
# The accept queue

`accept_backlog` counts the sockets in `accept_queue`.  Most operations do not touch the
queues at all; the others are the arrival of a child, its way to the accept queue,
`tcp_sock_accept` and the end of the listening socket.
-/
set_option autoImplicit false

namespace NetworkLab.Tcp

open Lib.Run

variable {ι : Type}

section Statement

variable (sockets : Sockets ι)

/-- `c` is linked in one of the queues of `p`. -/
def Sockets.Queued (p c : ι) : Prop :=
  ∃ sock ∈ sockets.socket p, c ∈ sock.listenQueue ++ sock.acceptQueue

/-- What is asked of the queues; `nonempty` is what `tcp_sock_accept_dequeue` relies on. -/
structure QueuesCounted : Prop where
  counted : ∀ p sock, sockets.socket p = some sock → sock.tsk.state = .listen →
    sock.acceptBacklog = sock.acceptQueue.length ∧ sock.acceptBacklog ≤ sock.backlog
  once : ∀ p sock, sockets.socket p = some sock → (sock.listenQueue ++ sock.acceptQueue).Nodup
  apart : ∀ p q c, sockets.Queued p c → sockets.Queued q c → p = q
  nonempty : ∀ p sock, sockets.socket p = some sock → sock.acceptBacklog ≠ 0 →
    sock.acceptQueue ≠ []

/-- A child is not in the accept queue of its parent, which has room for it. -/
def Sockets.HasRoom (s : ι) (sock : Socket ι) : Prop :=
  ∀ p ∈ sock.parent, ∀ listener ∈ sockets.socket p, s ∉ listener.acceptQueue ∧
    (listener.tsk.state = .listen → listener.acceptBacklog < listener.backlog)

/-- The last ACK of a handshake comes once and finds room, and a socket listens with
room for what it holds. -/
def FindsRoom : SocketsEvent ι → Prop
  | .packet cb _ _ _ => ∀ s ∈ sockets.tcpSockLookup cb, ∀ sock ∈ sockets.socket s,
      sock.tsk.state = .synRecv → hasFlag cb.flags TCP_RST = false →
      hasFlag cb.flags TCP_SYN = false → hasFlag cb.flags TCP_ACK → sockets.HasRoom s sock
  | .listen s backlog => ∀ sock ∈ sockets.socket s, sock.acceptBacklog ≤ backlog
  | _ => True

instance [DecidableEq ι] (s : ι) (sock : Socket ι) : Decidable (sockets.HasRoom s sock) :=
  inferInstanceAs (Decidable (∀ p ∈ sock.parent, ∀ listener ∈ sockets.socket p,
    s ∉ listener.acceptQueue ∧
      (listener.tsk.state = .listen → listener.acceptBacklog < listener.backlog)))

instance [DecidableEq ι] : ∀ event, Decidable (FindsRoom sockets event)
  | .packet cb _ _ _ => inferInstanceAs (Decidable (∀ s ∈ sockets.tcpSockLookup cb,
      ∀ sock ∈ sockets.socket s, sock.tsk.state = .synRecv → hasFlag cb.flags TCP_RST = false →
        hasFlag cb.flags TCP_SYN = false → hasFlag cb.flags TCP_ACK → sockets.HasRoom s sock))
  | .listen s backlog => inferInstanceAs (Decidable (∀ sock ∈ sockets.socket s,
      sock.acceptBacklog ≤ backlog))
  | .alloc _ => isTrue trivial
  | .bind _ _ _ => isTrue trivial
  | .connect _ _ _ _ _ => isTrue trivial
  | .accept _ => isTrue trivial
  | .send _ _ => isTrue trivial
  | .close _ => isTrue trivial
  | .timewaitExpires _ => isTrue trivial
  | .givesUp _ => isTrue trivial

end Statement

section Invariant

variable {sockets next : Sockets ι} {s child : ι} {sock new : Socket ι}
  {inUse : UInt16 → Bool} {outcome : Outcome}

structure Queues (sockets : Sockets ι) : Prop where
  used : ∀ s sock, sockets.socket s = some sock → sockets.used s
  counted : ∀ p sock, sockets.socket p = some sock →
    sock.acceptBacklog = sock.acceptQueue.length
  bounded : ∀ p sock, sockets.socket p = some sock → sock.tsk.state = .listen →
    sock.acceptBacklog ≤ sock.backlog
  once : ∀ p sock, sockets.socket p = some sock → (sock.listenQueue ++ sock.acceptQueue).Nodup
  known : ∀ p c, sockets.Queued p c → sockets.used c
  parent : ∀ p c, sockets.Queued p c → ∀ child, sockets.socket c = some child →
    child.parent = some p
  apart : ∀ p q c, sockets.Queued p c → sockets.Queued q c → p = q

theorem Queues.queuesCounted (queues : Queues sockets) : QueuesCounted sockets := by
  refine ⟨fun p sock live listening => ⟨queues.counted p sock live, queues.bounded p sock live listening⟩,
    queues.once, queues.apart, fun p sock live positive empty => positive ?_⟩
  rw [queues.counted p sock live, empty]
  rfl

/-- The queues, and what is said of them, are the same. -/
structure SameQueue (sock new : Socket ι) : Prop where
  listenQueue : new.listenQueue = sock.listenQueue
  acceptQueue : new.acceptQueue = sock.acceptQueue
  acceptBacklog : new.acceptBacklog = sock.acceptBacklog
  backlog : new.backlog = sock.backlog
  listening : new.tsk.state = .listen → sock.tsk.state = .listen

structure Frame (sockets next : Sockets ι) : Prop where
  used : next.used = sockets.used
  same : ∀ t new, next.socket t = some new → ∃ sock, sockets.socket t = some sock ∧
    SameQueue sock new ∧ ((∃ p, next.Queued p t) → new.parent = sock.parent)

theorem SameQueue.refl (sock : Socket ι) : SameQueue sock sock := ⟨rfl, rfl, rfl, rfl, id⟩

theorem Frame.refl (sockets : Sockets ι) : Frame sockets sockets :=
  ⟨rfl, fun _ new live => ⟨new, live, .refl new, fun _ => rfl⟩⟩

theorem Frame.queued (frame : Frame sockets next) {p c : ι} (queued : next.Queued p c) :
    sockets.Queued p c := by
  obtain ⟨new, live, member⟩ := queued
  obtain ⟨sock, liveBefore, same, -⟩ := frame.same p new live
  refine ⟨sock, liveBefore, ?_⟩
  rw [← same.listenQueue, ← same.acceptQueue]
  exact member

theorem Frame.trans {middle : Sockets ι} (first : Frame sockets middle)
    (second : Frame middle next) : Frame sockets next := by
  refine ⟨second.used.trans first.used, fun t new live => ?_⟩
  obtain ⟨between, liveBetween, after, parentAfter⟩ := second.same t new live
  obtain ⟨sock, liveBefore, before, parentBefore⟩ := first.same t between liveBetween
  refine ⟨sock, liveBefore, ⟨after.listenQueue.trans before.listenQueue,
    after.acceptQueue.trans before.acceptQueue, after.acceptBacklog.trans before.acceptBacklog,
    after.backlog.trans before.backlog,
    fun listening => before.listening (after.listening listening)⟩, ?_⟩
  rintro ⟨p, queued⟩
  exact (parentAfter ⟨p, queued⟩).trans (parentBefore ⟨p, second.queued queued⟩)

theorem Queues.frame (queues : Queues sockets) (frame : Frame sockets next) : Queues next := by
  refine ⟨?_, ?_, ?_, ?_, ?_, ?_, ?_⟩
  · intro s new live
    obtain ⟨sock, liveBefore, -⟩ := frame.same s new live
    rw [frame.used]
    exact queues.used s sock liveBefore
  · intro p new live
    obtain ⟨sock, liveBefore, same, -⟩ := frame.same p new live
    rw [same.acceptBacklog, same.acceptQueue]
    exact queues.counted p sock liveBefore
  · intro p new live listening
    obtain ⟨sock, liveBefore, same, -⟩ := frame.same p new live
    rw [same.acceptBacklog, same.backlog]
    exact queues.bounded p sock liveBefore (same.listening listening)
  · intro p new live
    obtain ⟨sock, liveBefore, same, -⟩ := frame.same p new live
    rw [same.listenQueue, same.acceptQueue]
    exact queues.once p sock liveBefore
  · intro p c queued
    rw [frame.used]
    exact queues.known p c (frame.queued queued)
  · intro p c queued new live
    obtain ⟨child, liveBefore, -, parent⟩ := frame.same c new live
    rw [parent ⟨p, queued⟩]
    exact queues.parent p c (frame.queued queued) child liveBefore
  · intro p q c queued other
    exact queues.apart p q c (frame.queued queued) (frame.queued other)

theorem Frame.relinks (relinks : Relinks sockets next) : Frame sockets next := by
  refine ⟨relinks.used, fun t new live => ?_⟩
  obtain ⟨sock, liveBefore, same⟩ := relinks.same t new live
  refine ⟨sock, liveBefore, ⟨same.listenQueue, same.acceptQueue, same.acceptBacklog, same.backlog,
    fun listening => ?_⟩, fun _ => same.parent⟩
  rw [← same.tsk]
  exact listening

theorem Frame.tables (socket : next.socket = sockets.socket) (used : next.used = sockets.used) :
    Frame sockets next :=
  ⟨used, fun _ new live => ⟨new, by rw [← socket]; exact live, .refl new, fun _ => rfl⟩⟩

theorem Frame.sent (sockets : Sockets ι) (sent : List (Sent ι)) :
    Frame sockets { sockets with sent := sent } := .tables rfl rfl

variable [DecidableEq ι]

theorem Frame.change (live : sockets.socket s = some sock)
    (socket : next.socket = Function.update sockets.socket s (some new))
    (used : next.used = sockets.used) (same : SameQueue sock new)
    (parent : (∃ p, next.Queued p s) → new.parent = sock.parent) : Frame sockets next := by
  refine ⟨used, fun t other stored => ?_⟩
  rw [socket, Function.update_apply] at stored
  split_ifs at stored with here
  · obtain rfl := Option.some.inj stored
    rw [here]
    exact ⟨sock, live, same, parent⟩
  · exact ⟨other, stored, .refl other, fun _ => rfl⟩

theorem Frame.freeTcpSock (success : sockets.freeTcpSock s = some next) : Frame sockets next :=
  .relinks (.freeTcpSock success)

theorem Frame.tcpHash (success : sockets.tcpHash s = some next) : Frame sockets next :=
  .relinks (.tcpHash success)

theorem Frame.tcpUnhash (success : sockets.tcpUnhash s = some next) : Frame sockets next :=
  .relinks (.tcpUnhash success)

theorem Frame.tcpBindUnhash (success : sockets.tcpBindUnhash s = some next) :
    Frame sockets next := .relinks (.tcpBindUnhash success)

theorem Frame.tcpSockSetSport {port : UInt16} {flag : Bool}
    (success : sockets.tcpSockSetSport inUse s port = some (next, flag)) : Frame sockets next := by
  rcases tcpSockSetSport_some success with ⟨-, rfl, -⟩ | ⟨-, -, sock, hash, live, rfl⟩
  · exact .refl _
  · refine .change live rfl rfl ?_ fun _ => rfl
    exact ⟨rfl, rfl, rfl, rfl, id⟩

theorem Frame.tcpSetTimewaitTimer (success : sockets.tcpSetTimewaitTimer s = some next) :
    Frame sockets next := by
  obtain ⟨stored, stores, result⟩ := Option.bind_eq_some_iff.mp success
  obtain ⟨sock, live, rfl⟩ := update_some stores
  obtain rfl := Option.some.inj result
  refine .change live rfl rfl ?_ fun _ => rfl
  exact ⟨rfl, rfl, rfl, rfl, id⟩

theorem Frame.putTsk (live : sockets.socket s = some sock) {tsk : TcpSock}
    (listening : tsk.state = .listen → sock.tsk.state = .listen) :
    Frame sockets (sockets.put s { sock with tsk := tsk }) :=
  .change live rfl rfl ⟨rfl, rfl, rfl, rfl, listening⟩ fun _ => rfl

theorem StateKept.listening {tsk after : TcpSock} (kept : StateKept tsk after)
    (listening : after.state = .listen) : tsk.state = .listen := by
  rcases kept with same | ⟨-, connected, -⟩
  · rw [← same]
    exact listening
  · exact absurd listening connected.2

theorem Frame.quiet (quiet : outcome.Quiet)
    (state : ∀ sock, sockets.socket s = some sock → StateKept sock.tsk outcome.tsk)
    (success : sockets.applyOutcome inUse s child outcome = some next) : Frame sockets next := by
  obtain ⟨sock, sent, live, rfl⟩ := applyOutcome_quiet quiet success
  exact (Frame.putTsk live (state sock live).listening).trans (.sent _ sent)

theorem forall_socket_put {P : ι → Socket ι → Prop} (here : P s new)
    (others : ∀ p other, sockets.socket p = some other → P p other) :
    ∀ p other, (sockets.put s new).socket p = some other → P p other := by
  apply (Function.forall_update_iff sockets.socket
    fun p stored => ∀ other, stored = some other → P p other).mpr
  refine ⟨fun other stored => ?_, fun p _ => others p⟩
  rw [← Option.some.inj stored]
  exact here

theorem queued_put {p c : ι} (queued : (sockets.put s new).Queued p c) :
    p = s ∧ c ∈ new.listenQueue ++ new.acceptQueue ∨ p ≠ s ∧ sockets.Queued p c := by
  obtain ⟨other, stored, member⟩ := queued
  rw [Option.mem_def, put_socket] at stored
  by_cases same : p = s
  · rw [if_pos same] at stored
    obtain rfl := Option.some.inj stored
    exact .inl ⟨same, member⟩
  · rw [if_neg same] at stored
    exact .inr ⟨same, other, stored, member⟩

theorem Queues.put (queues : Queues sockets) (live : sockets.socket s = some sock)
    (parent : new.parent = sock.parent) (counted : new.acceptBacklog = new.acceptQueue.length)
    (bounded : new.tsk.state = .listen → new.acceptBacklog ≤ new.backlog)
    (once : (new.listenQueue ++ new.acceptQueue).Nodup)
    (members : ∀ c ∈ new.listenQueue ++ new.acceptQueue, sockets.Queued s c ∨
      sockets.used c ∧ (∀ child, sockets.socket c = some child → child.parent = some s) ∧
        ∀ q, ¬ sockets.Queued q c) :
    Queues (sockets.put s new) := by
  have known : ∀ p c, (sockets.put s new).Queued p c → sockets.used c := by
    intro p c isQueued
    rcases queued_put isQueued with ⟨rfl, member⟩ | ⟨-, before⟩
    · rcases members c member with before | ⟨isUsed, -⟩
      · exact queues.known p c before
      · exact isUsed
    · exact queues.known p c before
  have isParent : ∀ p c, (sockets.put s new).Queued p c → ∀ child,
      sockets.socket c = some child → child.parent = some p := by
    intro p c isQueued
    rcases queued_put isQueued with ⟨rfl, member⟩ | ⟨-, before⟩
    · rcases members c member with before | ⟨-, isParent, -⟩
      · exact queues.parent p c before
      · exact isParent
    · exact queues.parent p c before
  refine ⟨?_, forall_socket_put counted queues.counted, forall_socket_put bounded queues.bounded,
    forall_socket_put once queues.once, known, ?_, ?_⟩
  · exact forall_socket_put (queues.used s sock live) queues.used
  · intro p c isQueued child stored
    have before := isParent p c isQueued
    refine @forall_socket_put _ _ _ _ _ (fun t child => t = c → child.parent = some p) ?_
      (fun t child stored same => before child (same ▸ stored)) c child stored rfl
    intro same
    rw [parent]
    exact before sock (same ▸ live)
  · intro p q c first second
    rcases queued_put first with ⟨rfl, member⟩ | ⟨other, before⟩
    · rcases queued_put second with ⟨rfl, -⟩ | ⟨-, before⟩
      · rfl
      · rcases members c member with isHere | ⟨-, -, nowhere⟩
        · exact queues.apart p q c isHere before
        · exact absurd before (nowhere q)
    · rcases queued_put second with ⟨rfl, member⟩ | ⟨-, before'⟩
      · rcases members c member with isHere | ⟨-, -, nowhere⟩
        · exact queues.apart p q c before isHere
        · exact absurd before (nowhere p)
      · exact queues.apart p q c before before'

theorem Queues.allocTcpSock (queues : Queues sockets) {tsk : TcpSock} {parent : Option ι}
    (success : sockets.allocTcpSock child tsk parent = some next) :
    Queues next ∧ next.used child ∧
      (∀ new, next.socket child = some new → new.parent = parent) ∧
      ∀ q, ¬ next.Queued q child := by
  unfold Sockets.allocTcpSock at success
  split_ifs at success with isUsed
  obtain rfl := Option.some.inj success
  have usedAfter : ∀ t, sockets.used t → Function.update sockets.used child true t := by
    intro t usedBefore
    rw [Function.update_apply]
    split_ifs
    · rfl
    · exact usedBefore
  have before : ∀ p c, (sockets.put child (Socket.fresh tsk parent)).Queued p c →
      sockets.Queued p c := by
    intro p c queued
    rcases queued_put queued with ⟨-, member⟩ | ⟨-, old⟩
    · cases member
    · exact old
  have notQueued : ∀ q, ¬ sockets.Queued q child := fun q queued => isUsed (queues.known q child queued)
  refine ⟨⟨?_, ?_, ?_, ?_, ?_, ?_, ?_⟩, Function.update_self .., ?_,
    fun q queued => notQueued q (before q child queued)⟩
  · exact forall_socket_put (Function.update_self ..)
      fun t new stored => usedAfter t (queues.used t new stored)
  · exact forall_socket_put rfl queues.counted
  · exact forall_socket_put (fun _ => le_rfl) queues.bounded
  · exact forall_socket_put List.nodup_nil queues.once
  · exact fun p c queued => usedAfter c (queues.known p c (before p c queued))
  · intro p c queued new stored
    have other : c ≠ child := by
      rintro rfl
      exact notQueued p (before p c queued)
    change Function.update _ _ _ c = _ at stored
    rw [Function.update_of_ne other] at stored
    exact queues.parent p c (before p c queued) new stored
  · exact fun p q c first second => queues.apart p q c (before p c first) (before q c second)
  · intro new stored
    obtain rfl := Option.some.inj ((put_same _).symm.trans stored)
    rfl

theorem Queues.newChild (queues : Queues sockets) {tsk : TcpSock}
    (success : sockets.newChild inUse s child tsk = some next) : Queues next := by
  obtain ⟨allocated, bound', flag, listener, allocates, sets, live, rfl⟩ := newChild_some success
  obtain ⟨allocatedQueues, used, parent, notQueued⟩ := queues.allocTcpSock allocates
  have frame := Frame.tcpSockSetSport sets
  have nowhere : ∀ q, ¬ bound'.Queued q child := fun q queued => notQueued q (frame.queued queued)
  have isParent : ∀ new, bound'.socket child = some new → new.parent = some s := by
    intro new stored
    rcases tcpSockSetSport_some sets with ⟨-, rfl, -⟩ | ⟨-, -, sock, hash, liveChild, rfl⟩
    · exact parent new stored
    · obtain rfl := Option.some.inj ((put_same _).symm.trans stored)
      exact parent sock liveChild
  have boundQueues := allocatedQueues.frame frame
  have notIn : child ∉ listener.listenQueue ++ listener.acceptQueue :=
    fun member => nowhere s ⟨listener, live, member⟩
  refine boundQueues.put live ?_ ?_ ?_ ?_ ?_
  · rfl
  · exact boundQueues.counted s listener live
  · exact boundQueues.bounded s listener live
  · rw [List.append_assoc, List.singleton_append, List.nodup_middle]
    exact List.nodup_cons.mpr ⟨notIn, boundQueues.once s listener live⟩
  · intro c member
    rw [List.append_assoc, List.singleton_append, List.mem_append, List.mem_cons] at member
    rcases member with old | rfl | old
    · exact .inl ⟨listener, live, List.mem_append_left _ old⟩
    · exact .inr ⟨by rw [frame.used]; exact used, isParent, nowhere⟩
    · exact .inl ⟨listener, live, List.mem_append_right _ old⟩

/-- The first child is taken out of the listen queue. -/
theorem Queues.pop (queues : Queues sockets) (live : sockets.socket s = some sock) {rest : List ι}
    (queue : sock.listenQueue = child :: rest) :
    Queues (sockets.put s { sock with listenQueue := rest }) ∧
      ∀ p, ¬ (sockets.put s { sock with listenQueue := rest }).Queued p child := by
  have once := queues.once s sock live
  rw [queue, List.cons_append, List.nodup_cons] at once
  have isQueued : sockets.Queued s child :=
    ⟨sock, live, by rw [queue]; exact List.mem_cons_self⟩
  constructor
  · refine queues.put live ?_ ?_ ?_ once.2 ?_
    · rfl
    · exact queues.counted s sock live
    · exact queues.bounded s sock live
    · intro c member
      refine .inl ⟨sock, live, ?_⟩
      rw [queue]
      exact List.mem_cons_of_mem _ member
  · rintro p ⟨other, stored, member⟩
    rw [Option.mem_def, put_socket] at stored
    split_ifs at stored with here
    · obtain rfl := Option.some.inj stored
      exact once.1 member
    · exact here (queues.apart p s child ⟨other, stored, member⟩ isQueued)

theorem Frame.orphan (live : sockets.socket s = some sock) (nowhere : ∀ p, ¬ sockets.Queued p s) :
    Frame sockets (sockets.put s { sock with parent := none }) := by
  refine .change live rfl rfl ⟨rfl, rfl, rfl, rfl, id⟩ ?_
  rintro ⟨p, other, stored, member⟩
  refine absurd ?_ (nowhere p)
  rw [Option.mem_def, put_socket] at stored
  split_ifs at stored with here
  · obtain rfl := Option.some.inj stored
    rw [here]
    exact ⟨sock, live, member⟩
  · exact ⟨other, stored, member⟩

theorem Queues.clearListenQueue (queues : Queues sockets) {queue : List ι}
    (same : ∀ sock, sockets.socket s = some sock → sock.listenQueue = queue)
    (success : sockets.clearListenQueue s queue = some next) : Queues next := by
  induction queue generalizing sockets with
  | nil =>
      obtain rfl := Option.some.inj success
      exact queues
  | cons c rest ih =>
      obtain ⟨sock, lsnTsk, live, liveChild, way⟩ := clearListenQueue_cons success
      obtain ⟨popped, nowhere⟩ := queues.pop live (same sock live)
      have left : ∀ {final : Sockets ι}, Frame (sockets.put s { sock with listenQueue := rest }) final →
          ∀ new, final.socket s = some new → new.listenQueue = rest := by
        intro final frame new liveNew
        obtain ⟨before, liveBefore, unchanged, -⟩ := frame.same s new liveNew
        obtain rfl := Option.some.inj ((put_same _).symm.trans liveBefore)
        exact unchanged.listenQueue
      rcases way with ⟨-, later⟩ | ⟨-, unhashed, freed, unhashes, frees, later⟩
      · exact ih popped (left (.refl _)) later
      · have frame := ((Frame.orphan liveChild nowhere).trans (.tcpUnhash unhashes)).trans
          (.freeTcpSock frees)
        exact ih (popped.frame frame) (left frame) later

theorem Queues.tcpSockClose (queues : Queues sockets) (live : sockets.socket s = some sock)
    (success : sockets.applyOutcome inUse s child (tcpSockClose sock.tsk) = some next) :
    Queues next := by
  by_cases listening : sock.tsk.state = .listen
  · obtain ⟨cleared, clears, taken⟩ := tcpSockClose_listening live listening success
    have closed : Frame sockets (sockets.put s { sock with tsk := tcpSetState .closed sock.tsk }) :=
      .putTsk live (by simp [tcpSetState])
    have clearedQueues := (queues.frame closed).clearListenQueue (fun other liveOther => ?_) clears
    · exact clearedQueues.frame (.tcpUnhash taken)
    · rw [← Option.some.inj ((put_same _).symm.trans liveOther)]
  · refine queues.frame (.quiet (quiet_tcpSockClose listening) (fun other liveOther => ?_) success)
    obtain rfl := Option.some.inj (live.symm.trans liveOther)
    exact tcpSockClose_kept listening

theorem Queues.tcpSockAcceptEnqueue (queues : Queues sockets)
    (findsRoom : ∀ sock, sockets.socket s = some sock → sockets.HasRoom s sock)
    (success : sockets.tcpSockAcceptEnqueue s = some next) : Queues next := by
  obtain ⟨sock, live, success⟩ := Option.bind_eq_some_iff.mp success
  obtain ⟨p, parent, enqueues⟩ := Option.bind_eq_some_iff.mp success
  obtain ⟨listener, liveListener, rfl⟩ := update_some enqueues
  obtain ⟨notAccepted, room⟩ := findsRoom sock live p parent listener liveListener
  have once := queues.once p listener liveListener
  have unchanged : listener.acceptQueue.filter (· ≠ s) = listener.acceptQueue := by
    rw [List.filter_eq_self]
    rintro c member
    simpa using ne_of_mem_of_not_mem member notAccepted
  refine queues.put liveListener ?_ ?_ ?_ ?_ ?_
  · rfl
  · have counted := queues.counted p listener liveListener
    simp only [unchanged]
    simp [counted]
  · intro listening
    exact Int.add_one_le_of_lt (room listening)
  · simp only [unchanged]
    rw [← List.append_assoc, List.nodup_append_comm, List.singleton_append, List.nodup_cons]
    refine ⟨?_, once.sublist (List.filter_sublist.append_right _)⟩
    simp [notAccepted]
  · intro c member
    simp only [unchanged, List.mem_append, List.mem_filter, List.mem_singleton] at member
    rcases member with ⟨old, -⟩ | old | rfl
    · exact .inl ⟨listener, liveListener, List.mem_append_left _ old⟩
    · exact .inl ⟨listener, liveListener, List.mem_append_right _ old⟩
    · by_cases isQueued : ∃ q, sockets.Queued q c
      · obtain ⟨q, isQueued⟩ := isQueued
        have isParent := queues.parent q c isQueued sock live
        obtain rfl := Option.some.inj (parent.symm.trans isParent)
        exact .inl isQueued
      · refine .inr ⟨queues.used c sock live, fun other liveOther => ?_, fun q queued =>
          isQueued ⟨q, queued⟩⟩
        rw [← Option.some.inj (live.symm.trans liveOther)]
        exact parent

theorem Queues.tcpSockAccept (queues : Queues sockets)
    (success : sockets.tcpSockAccept s = some next) : Queues next := by
  rcases tcpSockAccept_some success with
    rfl | ⟨sock, c, rest, acceptTsk, live, queue, liveChild, rfl⟩
  · exact queues
  · have once := queues.once s sock live
    have counted := queues.counted s sock live
    rw [queue] at once counted
    have dequeued : Queues (sockets.put s { sock with
        acceptQueue := rest, acceptBacklog := sock.acceptBacklog - 1 }) := by
      refine queues.put live ?_ ?_ ?_ ?_ ?_
      · rfl
      · simp [counted]
      · intro listening
        exact (sub_le_self _ zero_le_one).trans (queues.bounded s sock live listening)
      · exact once.sublist ((List.sublist_cons_self c rest).append_left _)
      · intro d member
        refine .inl ⟨sock, live, ?_⟩
        rw [queue]
        exact ((List.sublist_cons_self c rest).append_left _).subset member
    refine dequeued.frame (.putTsk liveChild ?_)
    simp [tcpSetState]

theorem Queues.tcpSockListen (queues : Queues sockets) {backlog : Int}
    (room : ∀ sock ∈ sockets.socket s, sock.acceptBacklog ≤ backlog)
    (success : sockets.tcpSockListen s backlog = some next) : Queues next := by
  obtain ⟨stored, stores, hashes⟩ := Option.bind_eq_some_iff.mp success
  obtain ⟨sock, live, rfl⟩ := update_some stores
  refine Queues.frame ?_ (.tcpHash hashes)
  refine queues.put live ?_ ?_ ?_ ?_ fun c member => ?_
  · rfl
  · exact queues.counted s sock live
  · exact fun _ => room sock live
  · exact queues.once s sock live
  · exact .inl ⟨sock, live, member⟩

theorem Frame.tcpSockConnect {ip iss : UInt32} {skaddr : SockAddr}
    (success : sockets.tcpSockConnect inUse s ip skaddr iss = some next) : Frame sockets next := by
  obtain ⟨sock, bound, flag, live, sets, way⟩ := tcpSockConnect_some success
  have addressed : Frame sockets (sockets.put s { sock with
      tsk := { sock.tsk with
        peer := skaddr, localAddr := { sock.tsk.localAddr with ip := ip } } }) := .putTsk live id
  have bind := addressed.trans (.tcpSockSetSport sets)
  rcases way with ⟨-, rfl⟩ | ⟨-, sock', hashed, sender, live', hashes, liveSender, sends⟩
  · exact bind
  · have started : Frame bound (bound.put s { sock' with
        tsk := { sock'.tsk with iss := iss, sndNxt := iss, state := .synSent } }) :=
      .putTsk live' (by simp)
    refine ((bind.trans started).trans (.tcpHash hashes)).trans
      (.quiet (quiet_tcpSendControlPacket _ _) (fun other liveOther => ?_) sends)
    obtain rfl := Option.some.inj (liveSender.symm.trans liveOther)
    exact .inl (tcpSendControlPacket_state _ _)

theorem Frame.release (success : sockets.release s = some next) : Frame sockets next := by
  obtain ⟨closed, closes, frees⟩ := Option.bind_eq_some_iff.mp success
  obtain ⟨sock, live, rfl⟩ := update_some closes
  refine Frame.trans (.putTsk live ?_) (.freeTcpSock frees)
  simp [tcpSetState]

theorem Frame.timewaitExpires (success : sockets.timewaitExpires s = some next) :
    Frame sockets next := by
  unfold Sockets.timewaitExpires at success
  split_ifs at success
  obtain ⟨sock, -, success⟩ := Option.bind_eq_some_iff.mp success
  have removed : Frame sockets (sockets.deleteTimewait s) := .tables rfl rfl
  split_ifs at success
  · obtain ⟨unbound, unbinds, releases⟩ := Option.bind_eq_some_iff.mp success
    exact (removed.trans (.tcpBindUnhash unbinds)).trans (.release releases)
  · exact removed.trans (.release success)

theorem Frame.amid {effect : Effect} {before : List Effect} (live : sockets.socket s = some sock)
    (listening : outcome.tsk.state = .listen → sock.tsk.state = .listen)
    (effects : outcome.effects = before ++ [effect]) (quiet : ∀ e ∈ before, e.quiet)
    (frame : ∀ {start final : Sockets ι},
      start.effectStep inUse s child effect = some final → Frame start final)
    (success : sockets.applyOutcome inUse s child outcome = some next) : Frame sockets next := by
  obtain ⟨sock', live', runs⟩ := applyOutcome_run success
  obtain rfl := Option.some.inj (live.symm.trans live')
  have stored : Frame sockets (sockets.put s { sock with tsk := outcome.tsk }) :=
    .putTsk live listening
  rw [effects] at runs
  obtain ⟨sent, middle, sent', taken, rfl⟩ := run_amid quiet (by simp) runs
  exact ((stored.trans (.sent _ sent)).trans (frame taken)).trans (.sent middle sent')

theorem Queues.processed {cb : TcpCb} (queues : Queues sockets)
    (live : sockets.socket s = some sock)
    (findsRoom : sock.tsk.state = .synRecv → hasFlag cb.flags TCP_RST = false →
      hasFlag cb.flags TCP_SYN = false → hasFlag cb.flags TCP_ACK → sockets.HasRoom s sock)
    (processed : Processed cb sock.tsk outcome)
    (success : sockets.applyOutcome inUse s child outcome = some next) : Queues next := by
  obtain ⟨sock', live', runs⟩ := applyOutcome_run success
  obtain rfl := Option.some.inj (live.symm.trans live')
  cases processed with
  | quiet quiet kept =>
      refine queues.frame (.quiet quiet (fun other liveOther => ?_) success)
      obtain rfl := Option.some.inj (live.symm.trans liveOther)
      exact kept
  | child listening tsk effects quiet state same =>
      rw [same, put_self live] at runs
      obtain ⟨queued, appends, hashes⟩ := run_cons_some _ runs
      obtain ⟨sent, middle, sent', taken, rfl⟩ := run_amid quiet (by simp) hashes
      have frame := ((Frame.sent queued sent).trans (.tcpHash taken)).trans (.sent middle sent')
      exact (queues.newChild appends).frame frame
  | reset opened rst same =>
      have quiet := quiet_tcpSockClose opened.2.1
      have kept := tcpSockClose_kept opened.2.1
      have effects : outcome.effects =
          (NetworkLab.Tcp.tcpSockClose sock.tsk).effects ++ [.freeTcpSock] := by simp [same]
      refine queues.frame (.amid live ?_ effects quiet (fun taken => .freeTcpSock taken) success)
      rw [same, Outcome.emit_tsk]
      exact kept.listening
  | enqueue state rst syn ack acked quiet stays same =>
      have effects : outcome.effects =
          acked.effects ++ .acceptEnqueue :: [.wakeUp .parentWaitAccept] := by simp [same]
      have stored : Frame sockets (sockets.put s { sock with tsk := outcome.tsk }) := by
        refine .putTsk live ?_
        simp [same, stays]
      rw [effects] at runs
      obtain ⟨sent, middle, sent', taken, rfl⟩ := run_amid quiet (by simp [Effect.quiet]) runs
      have ready := queues.frame (stored.trans (.sent _ sent))
      refine Queues.frame (ready.tcpSockAcceptEnqueue ?_ taken) (.sent middle sent')
      intro other liveOther p parent listener liveListener
      obtain rfl := Option.some.inj ((put_same _).symm.trans liveOther)
      have found := findsRoom state rst syn ack p parent
      change (sockets.put s { sock with tsk := outcome.tsk }).socket p = _ at liveListener
      rw [put_socket] at liveListener
      split_ifs at liveListener with here
      · obtain rfl := Option.some.inj liveListener
        rw [here] at found
        refine ⟨(found sock live).1, fun listening => absurd listening ?_⟩
        simp [same, stays]
      · exact found listener liveListener
  | timewait state flags before quiet stays same =>
      have effects : outcome.effects = before.effects ++ [.setTimewaitTimer] := by simp [same]
      refine queues.frame
        (.amid live ?_ effects quiet (fun taken => .tcpSetTimewaitTimer taken) success)
      simp [same, stays]
  | unhash state acked quiet stays same =>
      have effects : outcome.effects = acked.effects ++ [.unhash] := by simp [same]
      refine queues.frame (.amid live ?_ effects quiet (fun taken => .tcpUnhash taken) success)
      simp [same, stays]

end Invariant

variable {ι : Type} [DecidableEq ι]

/-- In every run in which each child completes its handshake once, and with room for it,
`accept_backlog` counts the accept queue. -/
theorem accept_queue_counted (events : List (SocketsEvent ι))
    (findsRoom : Guarded socketsStep FindsRoom (noSockets : Sockets ι) events) :
    Always socketsStep QueuesCounted (noSockets : Sockets ι) events := by
  have preserved : ∀ (sockets : Sockets ι) event next, Queues sockets → FindsRoom sockets event →
      socketsStep sockets event = some next → Queues next := by
    intro sockets event next queues room taken
    cases event with
    | alloc s => exact (queues.allocTcpSock taken).1
    | bind s port inUse =>
        obtain ⟨⟨bound, flag⟩, sets, rfl⟩ := Option.map_eq_some_iff.mp taken
        exact queues.frame (.tcpSockSetSport sets)
    | listen s backlog => exact queues.tcpSockListen room taken
    | connect s ip skaddr iss inUse => exact queues.frame (.tcpSockConnect taken)
    | accept s => exact queues.tcpSockAccept taken
    | send s payload =>
        obtain ⟨sock, live, calls⟩ := Option.bind_eq_some_iff.mp taken
        refine queues.frame (.quiet (quiet_tcpSendPacket _ _) (fun other liveOther => ?_) calls)
        obtain rfl := Option.some.inj (live.symm.trans liveOther)
        exact .inl rfl
    | close s =>
        obtain ⟨sock, live, calls⟩ := Option.bind_eq_some_iff.mp taken
        exact queues.tcpSockClose live calls
    | packet cb child iss inUse =>
        obtain ⟨s, found, taken⟩ := Option.bind_eq_some_iff.mp taken
        obtain ⟨sock, live, taken⟩ := Option.bind_eq_some_iff.mp taken
        obtain ⟨outcome, processes, applies⟩ := Option.bind_eq_some_iff.mp taken
        exact queues.processed live (room s found sock live) (tcpProcess_processed processes) applies
    | timewaitExpires s => exact queues.frame (.timewaitExpires taken)
    | givesUp s =>
        obtain ⟨sock, live, calls⟩ := Option.bind_eq_some_iff.mp taken
        exact queues.tcpSockClose live calls
  have start : Queues (noSockets : Sockets ι) := by
    have notQueued : ∀ p c, ¬ (noSockets : Sockets ι).Queued p c := by
      rintro p c ⟨sock, ⟨⟩, -⟩
    refine ⟨?_, ?_, ?_, ?_, fun p c queued => absurd queued (notQueued p c),
      fun p c queued => absurd queued (notQueued p c),
      fun p q c queued => absurd queued (notQueued p c)⟩
    · rintro s sock ⟨⟩
    · rintro p sock ⟨⟩
    · rintro p sock ⟨⟩
    · rintro p sock ⟨⟩
  exact always_mono socketsStep (fun sockets queues => queues.queuesCounted) events
    (always_of_guarded socketsStep preserved events start findsRoom)

theorem accept_queue_counted_server :
    Always socketsStep QueuesCounted (noSockets : Sockets Nat) serverCalls :=
  accept_queue_counted serverCalls (by decide)

/-- The network duplicates the last ACK of the handshake before the server calls accept. -/
theorem duplicate_ack_counts_twice : ¬ Always socketsStep QueuesCounted (noSockets : Sockets Nat)
    (serverCalls.take 5 ++ [.packet (bareSegment TCP_ACK 101 701) 1 0 fun _ => false]) := by
  intro always
  have last := ((always_last socketsStep _ always rfl).counted 0 _ rfl rfl).1
  revert last
  decide

end NetworkLab.Tcp
