import NetworkLab.Tcp.Closing
import NetworkLab.Tcp.Sockets

/-!
# What calls do to the tables

The effects of a call that concern the tables and queues, told apart from the quiet ones:
packets, retransmission timers and wake-ups.  One inversion lemma for `tcp_process`, and
one for each of the small operations.
-/
set_option autoImplicit false

namespace NetworkLab.Tcp

open Lib.Run

def Effect.quiet : Effect → Bool
  | .ipSendPacket _ => true
  | .setRetransTimer => true
  | .removeRetransTimer => true
  | .wakeUp _ => true
  | .ofChild effect => effect.quiet
  | _ => false

def Outcome.Quiet (outcome : Outcome) : Prop := ∀ effect ∈ outcome.effects, effect.quiet

section Effects

variable {tsk : TcpSock} {cb : TcpCb} {outcome : Outcome}

theorem quiet_done (tsk : TcpSock) : tsk.done.Quiet := by
  intro effect member
  cases member

theorem Outcome.Quiet.andThen (quiet : outcome.Quiet) {f : TcpSock → Outcome}
    (next : (f outcome.tsk).Quiet) : (outcome.andThen f).Quiet := by
  intro effect member
  rcases List.mem_append.mp member with before | after
  · exact quiet effect before
  · exact next effect after

theorem Outcome.Quiet.emit (quiet : outcome.Quiet) {effect : Effect} (isQuiet : effect.quiet) :
    (outcome.emit effect).Quiet := by
  intro other member
  rcases List.mem_append.mp member with before | after
  · exact quiet other before
  · rw [List.mem_singleton.mp after]
    exact isQuiet

theorem quiet_tcpSendPacket (tsk : TcpSock) (payload : List UInt8) :
    (tcpSendPacket tsk payload).Quiet := by
  simp [Outcome.Quiet, tcpSendPacket, Effect.quiet]

theorem quiet_tcpSendControlPacket (flags : UInt8) (tsk : TcpSock) :
    (tcpSendControlPacket flags tsk).Quiet := by
  unfold tcpSendControlPacket
  split_ifs <;> simp [Outcome.Quiet, Effect.quiet]

theorem quiet_removeAckData (ackNum : UInt32) (tsk : TcpSock) :
    (removeAckData ackNum tsk).Quiet := by
  unfold removeAckData
  intro effect member
  rcases List.mem_cons.mp member with rfl | later
  · rfl
  · split_ifs at later
    · cases later
    · rw [List.mem_singleton.mp later]
      rfl

theorem quiet_acked (flag : Bool) (ackNum : UInt32) (tsk : TcpSock) :
    (if flag then removeAckData ackNum tsk else tsk.done).Quiet ∧
      (if flag then removeAckData ackNum tsk else tsk.done).tsk.state = tsk.state := by
  split_ifs
  · exact ⟨quiet_removeAckData _ _, rfl⟩
  · exact ⟨quiet_done _, rfl⟩

theorem quiet_tcpSockClose (notListening : tsk.state ≠ .listen) : (tcpSockClose tsk).Quiet := by
  unfold tcpSockClose
  split
  · exact absurd ‹_› notListening
  · exact quiet_tcpSendControlPacket _ tsk
  · exact quiet_tcpSendControlPacket _ tsk
  · exact quiet_done tsk

def Connected (tsk : TcpSock) : Prop := tsk.state ≠ .closed ∧ tsk.state ≠ .listen

/-- The state stays, or the socket was and is in a connection, which no step starts. -/
def StateKept (tsk next : TcpSock) : Prop :=
  next.state = tsk.state ∨ Connected tsk ∧ Connected next ∧ next.state ≠ .synSent

theorem StateKept.moved {next : TcpSock} (state : TcpState) (connected : Connected tsk)
    (arrived : next.state = state)
    (inside : state ≠ .closed ∧ state ≠ .listen ∧ state ≠ .synSent) : StateKept tsk next := by
  obtain rfl := arrived
  exact .inr ⟨connected, ⟨inside.1, inside.2.1⟩, inside.2.2⟩

theorem tcpSockClose_kept (notListening : tsk.state ≠ .listen) :
    StateKept tsk (tcpSockClose tsk).tsk := by
  unfold tcpSockClose
  split
  · exact absurd ‹_› notListening
  · rename_i state
    exact .moved .finWait1 (by simp [Connected, state]) rfl (by decide)
  · rename_i state
    exact .moved .lastAck (by simp [Connected, state]) rfl (by decide)
  · exact .inl rfl

inductive Processed (cb : TcpCb) (tsk : TcpSock) (outcome : Outcome) : Prop
  | quiet (quiet : outcome.Quiet) (kept : StateKept tsk outcome.tsk)
  | child (listening : tsk.state = .listen) (child : TcpSock) (effects : List Effect)
      (quiet : ∀ effect ∈ effects, effect.quiet) (state : child.state = .synRecv)
      (same : outcome = { tsk := tsk, effects := .newChild child :: effects ++ [.hashChild] })
  | reset (opened : Open tsk) (rst : hasFlag cb.flags TCP_RST)
      (same : outcome = (tcpSockClose tsk).emit .freeTcpSock)
  | enqueue (state : tsk.state = .synRecv) (rst : hasFlag cb.flags TCP_RST = false)
      (syn : hasFlag cb.flags TCP_SYN = false) (ack : hasFlag cb.flags TCP_ACK)
      (acked : Outcome) (quiet : acked.Quiet) (kept : acked.tsk.state = .synRecv)
      (same : outcome = (acked.emit .acceptEnqueue).emit (.wakeUp .parentWaitAccept))
  | timewait (state : tsk.state = .finWait2) (flags : cb.flags = TCP_ACK ||| TCP_FIN)
      (sent : Outcome) (quiet : sent.Quiet) (kept : sent.tsk.state = .finWait2)
      (same : outcome = sent.emit .setTimewaitTimer)
  | unhash (state : tsk.state = .lastAck) (acked : Outcome) (quiet : acked.Quiet)
      (kept : acked.tsk.state = .closed) (same : outcome = acked.emit .unhash)

theorem tcpRcvSegment_processed (opened : Open tsk) (success : tcpRcvSegment cb tsk = some outcome) :
    outcome.Quiet ∧ StateKept tsk outcome.tsk := by
  have connected : Connected tsk := ⟨opened.1, opened.2.1⟩
  unfold tcpRcvSegment at success
  by_cases payload : cb.plLen ≠ 0
  · rw [if_pos payload] at success
    split_ifs at success
    · obtain ⟨rcvBuf, -, success⟩ := Option.bind_eq_some_iff.mp success
      obtain ⟨drained, drains, result⟩ := Option.bind_eq_some_iff.mp success
      obtain rfl := Option.some.inj result
      refine ⟨?_, .inl ?_⟩
      · intro effect member
        rcases List.mem_cons.mp member with rfl | later
        · rfl
        · exact quiet_tcpSendControlPacket _ _ effect later
      · have same := drain_state drains
        exact (tcpSendControlPacket_state _ _).trans same
    · obtain rfl := Option.some.inj success
      exact ⟨(quiet_tcpSendControlPacket _ _).andThen (quiet_removeAckData _ _),
        .inl (tcpSendControlPacket_state _ _)⟩
    · unfold tcpBufferOfo at success
      split_ifs at success
      obtain rfl := Option.some.inj success
      exact ⟨quiet_done _, .inl rfl⟩
  · rw [if_neg payload] at success
    by_cases fin : hasFlag cb.flags TCP_FIN
    · rw [if_pos fin] at success
      obtain rfl := Option.some.inj success
      obtain ⟨acked, state⟩ :=
        quiet_acked (hasFlag cb.flags TCP_ACK) cb.ack (tcpSetState .closeWait tsk)
      have waiting := acked.andThen (f := fun t => tcpSendControlPacket TCP_ACK
        { t with rcvNxt := cb.seqEnd }) (quiet_tcpSendControlPacket _ _)
      have waits : ∀ t : TcpSock, t.state = .closeWait →
          (tcpSendControlPacket TCP_ACK { t with rcvNxt := cb.seqEnd }).tsk.state = .closeWait :=
        fun t same => (tcpSendControlPacket_state _ _).trans same
      have closing := waits _ state
      refine ⟨waiting.andThen (quiet_tcpSockClose ?_),
        .moved .lastAck connected (tcpSockClose_closeWait closing) (by decide)⟩
      rw [Outcome.andThen_tsk, closing]
      simp
    · rw [if_neg fin] at success
      obtain ⟨acked, state⟩ := quiet_acked (hasFlag cb.flags TCP_ACK) cb.ack tsk
      dsimp only at success
      split at success
      · obtain rfl := Option.some.inj success
        exact ⟨acked.andThen (quiet_tcpSendControlPacket _ _),
          .inl ((tcpSendControlPacket_state _ _).trans state)⟩
      · obtain rfl := Option.some.inj success
        exact ⟨acked, .inl state⟩

theorem quiet_tcpSendReset (cb : TcpCb) (tsk : TcpSock) :
    ({ tsk := tsk, effects := [tcpSendReset cb] } : Outcome).Quiet := by
  simp [Outcome.Quiet, tcpSendReset, Effect.quiet]

theorem tcpProcess_processed {iss : UInt32} (success : tcpProcess iss cb tsk = some outcome) :
    Processed cb tsk outcome := by
  have branch := tcpProcess_branch iss cb tsk
  rw [success] at branch
  cases branch with
  | closed state => exact .quiet (quiet_tcpSendReset cb tsk) (.inl rfl)
  | listen state =>
      unfold tcpStateListen
      split_ifs
      · refine .child state _ _ ?_ ?_ rfl
        · intro effect member
          obtain ⟨inner, isIn, rfl⟩ := List.mem_map.mp member
          exact quiet_tcpSendControlPacket _ _ inner isIn
        · exact tcpSendControlPacket_state _ _
      · exact .quiet (quiet_tcpSendReset cb tsk) (.inl rfl)
  | synSent state =>
      unfold tcpStateSynSent
      split_ifs
      · have connected : Connected tsk := by simp [Connected, state]
        refine .quiet ?_ (.moved .established connected rfl (by decide))
        have replied := (quiet_removeAckData cb.ack tsk).andThen
          (f := fun t => tcpSendControlPacket TCP_ACK { t with rcvNxt := cb.seqEnd, sndUna := cb.ack })
          (quiet_tcpSendControlPacket _ _)
        exact replied.emit rfl
      · exact .quiet (quiet_tcpSendReset cb tsk) (.inl rfl)
  | opened opened branch =>
      cases branch with
      | reset rst => exact .reset opened rst rfl
      | syn syn =>
          refine .quiet ?_ (tcpSockClose_kept opened.2.1)
          intro effect member
          rcases List.mem_cons.mp member with rfl | later
          · rfl
          · exact quiet_tcpSockClose opened.2.1 effect later
      | neither ack fin => exact .quiet (quiet_done tsk) (.inl rfl)
      | synRecv loud state =>
          unfold tcpStateSynRecv
          split_ifs with ack
          · exact .enqueue state loud.rst loud.syn ack _ (quiet_removeAckData _ _) state rfl
          · exact .quiet (quiet_tcpSendReset cb tsk) (.inl rfl)
      | finWait1 state =>
          exact .quiet (quiet_removeAckData _ _)
            (.moved .finWait2 ⟨opened.1, opened.2.1⟩ rfl (by decide))
      | finAck state flags =>
          refine .timewait state flags _ (quiet_tcpSendControlPacket _ _) ?_ rfl
          exact (tcpSendControlPacket_state _ _).trans state
      | finWait2 state flags => exact .quiet (quiet_done tsk) (.inl rfl)
      | lastAck state => exact .unhash state _ (quiet_removeAckData _ _) rfl rfl
      | segment loud synRecv finWait1 finWait2 lastAck segment =>
          obtain ⟨quiet, kept⟩ := tcpRcvSegment_processed opened segment
          exact .quiet quiet kept

end Effects

section Operations

variable {ι : Type} [DecidableEq ι] {sockets next : Sockets ι} {s child : ι}
  {inUse : UInt16 → Bool} {outcome : Outcome}

@[simp] theorem put_same (sock : Socket ι) : (sockets.put s sock).socket s = some sock :=
  Function.update_self ..

theorem put_socket (sock : Socket ι) (t : ι) :
    (sockets.put s sock).socket t = if t = s then some sock else sockets.socket t :=
  Function.update_apply ..

theorem update_some {change : Socket ι → Socket ι} (success : sockets.update s change = some next) :
    ∃ sock, sockets.socket s = some sock ∧ next = sockets.put s (change sock) := by
  obtain ⟨sock, live, rfl⟩ := Option.map_eq_some_iff.mp success
  exact ⟨sock, live, rfl⟩

theorem effectStep_quiet {effect : Effect} (quiet : effect.quiet)
    (success : sockets.effectStep inUse s child effect = some next) :
    ∃ sent, next = { sockets with sent := sent } := by
  induction effect generalizing s with
  | ipSendPacket segment =>
      obtain ⟨sock, -, rfl⟩ := Option.map_eq_some_iff.mp success
      exact ⟨_, rfl⟩
  | setRetransTimer =>
      cases Option.some.inj success
      exact ⟨_, rfl⟩
  | removeRetransTimer =>
      cases Option.some.inj success
      exact ⟨_, rfl⟩
  | wakeUp queue =>
      cases Option.some.inj success
      exact ⟨_, rfl⟩
  | ofChild effect ih => exact ih quiet success
  | setTimewaitTimer => cases quiet
  | newChild tsk => cases quiet
  | hashChild => cases quiet
  | acceptEnqueue => cases quiet
  | clearListenQueue => cases quiet
  | unhash => cases quiet
  | freeTcpSock => cases quiet

theorem run_quiet {effects : List Effect} (quiet : ∀ effect ∈ effects, effect.quiet)
    (success : run (Sockets.effectStep inUse s child) sockets effects = some next) :
    ∃ sent, next = { sockets with sent := sent } := by
  induction effects generalizing sockets with
  | nil =>
      cases Option.some.inj success
      exact ⟨_, rfl⟩
  | cons effect rest ih =>
      obtain ⟨middle, taken, later⟩ := run_cons_some _ success
      obtain ⟨sent, rfl⟩ := effectStep_quiet (quiet effect List.mem_cons_self) taken
      obtain ⟨sent', rfl⟩ := ih (fun e member => quiet e (List.mem_cons_of_mem _ member)) later
      exact ⟨sent', rfl⟩

theorem applyOutcome_run (success : sockets.applyOutcome inUse s child outcome = some next) :
    ∃ sock, sockets.socket s = some sock ∧
      run (Sockets.effectStep inUse s child) (sockets.put s { sock with tsk := outcome.tsk })
        outcome.effects = some next := by
  obtain ⟨stored, stores, runs⟩ := Option.bind_eq_some_iff.mp success
  obtain ⟨sock, live, rfl⟩ := update_some stores
  exact ⟨sock, live, runs⟩

theorem run_amid {effect : Effect} {before after : List Effect}
    (quietBefore : ∀ e ∈ before, e.quiet) (quietAfter : ∀ e ∈ after, e.quiet)
    (success : run (Sockets.effectStep inUse s child) sockets (before ++ effect :: after) =
      some next) :
    ∃ sent middle sent', Sockets.effectStep inUse s child { sockets with sent := sent } effect =
      some middle ∧ next = { middle with sent := sent' } := by
  rw [run_append] at success
  obtain ⟨first, runs, later⟩ := Option.bind_eq_some_iff.mp success
  obtain ⟨sent, rfl⟩ := run_quiet quietBefore runs
  obtain ⟨middle, taken, last⟩ := run_cons_some _ later
  obtain ⟨sent', rfl⟩ := run_quiet quietAfter last
  exact ⟨sent, middle, sent', taken, rfl⟩

theorem applyOutcome_quiet (quiet : outcome.Quiet)
    (success : sockets.applyOutcome inUse s child outcome = some next) :
    ∃ sock sent, sockets.socket s = some sock ∧
      next = { sockets.put s { sock with tsk := outcome.tsk } with sent := sent } := by
  obtain ⟨sock, live, runs⟩ := applyOutcome_run success
  obtain ⟨sent, rfl⟩ := run_quiet quiet runs
  exact ⟨sock, sent, live, rfl⟩

omit [DecidableEq ι] in
theorem lookup_mem {cb : TcpCb} (found : sockets.tcpSockLookup cb = some s) :
    sockets.listenTable.Linked s ∨ sockets.establishedTable.Linked s := by
  unfold Sockets.tcpSockLookup at found
  cases established : sockets.tcpSockLookupEstablished cb.daddr cb.saddr cb.dport cb.sport with
  | some t =>
      rw [established] at found
      obtain rfl := Option.some.inj found
      obtain ⟨entry, finds, rfl⟩ := Option.map_eq_some_iff.mp established
      exact .inr (List.mem_map_of_mem (List.mem_of_find?_eq_some finds))
  | none =>
      rw [established] at found
      obtain ⟨entry, finds, rfl⟩ := Option.map_eq_some_iff.mp found
      exact .inl (List.mem_map_of_mem (List.mem_of_find?_eq_some finds))

omit [DecidableEq ι] in
theorem lookup_port {cb : TcpCb} (found : sockets.tcpSockLookup cb = some s) :
    ∃ sock, sockets.socket s = some sock ∧ sock.tsk.localAddr.port = cb.dport := by
  unfold Sockets.tcpSockLookup at found
  cases established : sockets.tcpSockLookupEstablished cb.daddr cb.saddr cb.dport cb.sport with
  | some t =>
      rw [established] at found
      obtain rfl := Option.some.inj found
      obtain ⟨entry, finds, rfl⟩ := Option.map_eq_some_iff.mp established
      have holds := List.find?_some finds
      have matched := (of_decide_eq_true holds).2
      unfold Sockets.hasTuple at matched
      split at matched
      · rename_i sock live
        exact ⟨sock, live, by rw [(of_decide_eq_true matched).1]⟩
      · cases matched
  | none =>
      rw [established] at found
      obtain ⟨entry, finds, rfl⟩ := Option.map_eq_some_iff.mp found
      have holds := List.find?_some finds
      have matched := (of_decide_eq_true holds).2
      unfold Sockets.hasPort at matched
      split at matched
      · rename_i sock live
        exact ⟨sock, live, of_decide_eq_true matched⟩
      · cases matched

theorem newChild_some {tsk : TcpSock} (success : sockets.newChild inUse s child tsk = some next) :
    ∃ allocated bound flag listener,
      sockets.allocTcpSock child tsk (some s) = some allocated ∧
      allocated.tcpSockSetSport inUse child tsk.localAddr.port = some (bound, flag) ∧
      bound.socket s = some listener ∧
      next = bound.put s { listener with listenQueue := listener.listenQueue ++ [child] } := by
  unfold Sockets.newChild at success
  dsimp only at success
  by_cases noPort : tsk.localAddr.port = 0
  · rw [if_pos noPort] at success
    cases success
  rw [if_neg noPort] at success
  obtain ⟨allocated, allocates, success⟩ := Option.bind_eq_some_iff.mp success
  obtain ⟨bound, binds, appends⟩ := Option.bind_eq_some_iff.mp success
  obtain ⟨⟨bound', flag⟩, sets, rfl⟩ := Option.map_eq_some_iff.mp binds
  obtain ⟨listener, live, rfl⟩ := update_some appends
  exact ⟨allocated, bound', flag, listener, allocates, sets, live, rfl⟩

theorem tcpSockAccept_some (success : sockets.tcpSockAccept s = some next) :
    next = sockets ∨ ∃ sock c rest acceptTsk, sockets.socket s = some sock ∧
      sock.acceptQueue = c :: rest ∧
      let dequeued := sockets.put s
        { sock with acceptQueue := rest, acceptBacklog := sock.acceptBacklog - 1 }
      dequeued.socket c = some acceptTsk ∧
        next = dequeued.put c { acceptTsk with tsk := tcpSetState .established acceptTsk.tsk } := by
  obtain ⟨sock, live, success⟩ := Option.bind_eq_some_iff.mp success
  split_ifs at success
  · exact .inl (Option.some.inj success).symm
  · cases queue : sock.acceptQueue with
    | nil => simp [queue] at success
    | cons c rest =>
        simp only [queue] at success
        obtain ⟨stored, stores, accepts⟩ := Option.bind_eq_some_iff.mp success
        obtain ⟨sock', live', rfl⟩ := update_some stores
        cases Option.some.inj (live.symm.trans live')
        obtain ⟨acceptTsk, liveChild, rfl⟩ := update_some accepts
        exact .inr ⟨sock, c, rest, acceptTsk, live, queue, liveChild, rfl⟩

theorem clearListenQueue_cons {c : ι} {rest : List ι}
    (success : sockets.clearListenQueue s (c :: rest) = some next) :
    ∃ sock lsnTsk, sockets.socket s = some sock ∧
      let popped := sockets.put s { sock with listenQueue := rest }
      popped.socket c = some lsnTsk ∧
        (lsnTsk.tsk.state ≠ .synRecv ∧ popped.clearListenQueue s rest = some next ∨
          lsnTsk.tsk.state = .synRecv ∧ ∃ unhashed freed,
            (popped.put c { lsnTsk with parent := none }).tcpUnhash c = some unhashed ∧
            unhashed.freeTcpSock c = some freed ∧
            freed.clearListenQueue s rest = some next) := by
  obtain ⟨stored, stores, success⟩ := Option.bind_eq_some_iff.mp success
  obtain ⟨sock, live, rfl⟩ := update_some stores
  obtain ⟨lsnTsk, liveChild, success⟩ := Option.bind_eq_some_iff.mp success
  refine ⟨sock, lsnTsk, live, liveChild, ?_⟩
  split_ifs at success with synRecv
  · obtain ⟨orphaned, orphans, success⟩ := Option.bind_eq_some_iff.mp success
    obtain ⟨lsnTsk', liveChild', rfl⟩ := update_some orphans
    cases Option.some.inj (liveChild.symm.trans liveChild')
    obtain ⟨unhashed, unhashes, success⟩ := Option.bind_eq_some_iff.mp success
    obtain ⟨freed, frees, success⟩ := Option.bind_eq_some_iff.mp success
    exact .inr ⟨synRecv, unhashed, freed, unhashes, frees, success⟩
  · exact .inl ⟨synRecv, success⟩

theorem tcpSockClose_listening {sock : Socket ι} (live : sockets.socket s = some sock)
    (listening : sock.tsk.state = .listen)
    (success : sockets.applyOutcome inUse s child (tcpSockClose sock.tsk) = some next) :
    ∃ cleared, (sockets.put s { sock with tsk := tcpSetState .closed sock.tsk }).clearListenQueue s
        sock.listenQueue = some cleared ∧ cleared.tcpUnhash s = some next := by
  obtain ⟨sock', live', runs⟩ := applyOutcome_run success
  cases Option.some.inj (live.symm.trans live')
  simp only [tcpSockClose, listening] at runs
  obtain ⟨cleared, clears, unhashes⟩ := run_cons_some _ runs
  obtain ⟨final, taken, done⟩ := run_cons_some _ unhashes
  cases Option.some.inj done
  obtain ⟨stored, liveStored, clears⟩ := Option.bind_eq_some_iff.mp clears
  cases Option.some.inj ((put_same _).symm.trans liveStored)
  exact ⟨cleared, clears, taken⟩

theorem tcpSockConnect_some {ip iss : UInt32} {skaddr : SockAddr}
    (success : sockets.tcpSockConnect inUse s ip skaddr iss = some next) :
    ∃ sock bound flag, sockets.socket s = some sock ∧
      (sockets.put s { sock with tsk := { sock.tsk with
          peer := skaddr, localAddr := { sock.tsk.localAddr with ip := ip } } }).tcpSockSetSport
        inUse s (tcpGetPort inUse) = some (bound, flag) ∧
      (flag = false ∧ next = bound ∨ flag = true ∧ ∃ sock' hashed sender,
        bound.socket s = some sock' ∧
        (bound.put s { sock' with
          tsk := { sock'.tsk with iss := iss, sndNxt := iss, state := .synSent } }).tcpHash s =
            some hashed ∧
        hashed.socket s = some sender ∧
        hashed.applyOutcome inUse s s (tcpSendControlPacket TCP_SYN sender.tsk) = some next) := by
  obtain ⟨stored, stores, success⟩ := Option.bind_eq_some_iff.mp success
  obtain ⟨sock, live, rfl⟩ := update_some stores
  obtain ⟨⟨bound, flag⟩, sets, success⟩ := Option.bind_eq_some_iff.mp success
  refine ⟨sock, bound, flag, live, sets, ?_⟩
  cases flag with
  | false => exact .inl ⟨rfl, (Option.some.inj success).symm⟩
  | true =>
      obtain ⟨connecting, connects, success⟩ := Option.bind_eq_some_iff.mp success
      obtain ⟨sock', live', rfl⟩ := update_some connects
      obtain ⟨hashed, hashes, success⟩ := Option.bind_eq_some_iff.mp success
      obtain ⟨sender, liveSender, sends⟩ := Option.bind_eq_some_iff.mp success
      exact .inr ⟨rfl, sock', hashed, sender, live', hashes, liveSender, sends⟩

structure Relinked (sock new : Socket ι) : Prop where
  tsk : new.tsk = sock.tsk
  parent : new.parent = sock.parent
  listenQueue : new.listenQueue = sock.listenQueue
  acceptQueue : new.acceptQueue = sock.acceptQueue
  acceptBacklog : new.acceptBacklog = sock.acceptBacklog
  backlog : new.backlog = sock.backlog

structure Relinks (sockets next : Sockets ι) : Prop where
  used : next.used = sockets.used
  timewait : next.timewait = sockets.timewait
  sent : next.sent = sockets.sent
  same : ∀ t new, next.socket t = some new →
    ∃ sock, sockets.socket t = some sock ∧ Relinked sock new

section

omit [DecidableEq ι]

theorem Relinked.refl (sock : Socket ι) : Relinked sock sock := ⟨rfl, rfl, rfl, rfl, rfl, rfl⟩

theorem Relinks.refl (sockets : Sockets ι) : Relinks sockets sockets :=
  ⟨rfl, rfl, rfl, fun _ new live => ⟨new, live, .refl new⟩⟩

end

/-- One socket is released or linked; `stored` is what is left of it. -/
theorem Relinks.change {sock : Socket ι} {stored : Option (Socket ι)}
    (live : sockets.socket s = some sock)
    (socket : next.socket = Function.update sockets.socket s stored)
    (used : next.used = sockets.used) (timewait : next.timewait = sockets.timewait)
    (sent : next.sent = sockets.sent) (relinked : ∀ new ∈ stored, Relinked sock new) :
    Relinks sockets next := by
  refine ⟨used, timewait, sent, fun t new found => ?_⟩
  rw [socket, Function.update_apply] at found
  split_ifs at found with here
  · rw [here]
    exact ⟨sock, live, relinked new found⟩
  · exact ⟨new, found, .refl new⟩

theorem Relinks.freeTcpSock (success : sockets.freeTcpSock s = some next) :
    Relinks sockets next := by
  obtain ⟨sock, live, rfl⟩ := Option.map_eq_some_iff.mp success
  refine .change live rfl rfl rfl rfl fun new left => ?_
  split_ifs at left
  · cases left
  · obtain rfl := Option.some.inj left
    exact ⟨rfl, rfl, rfl, rfl, rfl, rfl⟩

theorem Relinks.tcpHash (success : sockets.tcpHash s = some next) : Relinks sockets next := by
  obtain ⟨sock, live, success⟩ := Option.bind_eq_some_iff.mp success
  have hashed : ∀ new : Sockets ι, new.socket = Function.update sockets.socket s
      (some { sock with refCnt := sock.refCnt + 1, hashListSet := true }) →
      new.used = sockets.used → new.timewait = sockets.timewait → new.sent = sockets.sent →
      Relinks sockets new := by
    intro new socket used timewait sent
    refine .change live socket used timewait sent fun other stored => ?_
    obtain rfl := Option.some.inj stored
    exact ⟨rfl, rfl, rfl, rfl, rfl, rfl⟩
  by_cases closed : sock.tsk.state = .closed
  · rw [if_pos closed] at success
    obtain rfl := Option.some.inj success
    exact .refl sockets
  rw [if_neg closed] at success
  obtain ⟨stored, stores, success⟩ := Option.bind_eq_some_iff.mp success
  obtain ⟨sock', live', rfl⟩ := update_some stores
  obtain rfl := Option.some.inj (live.symm.trans live')
  dsimp only at success
  split_ifs at success
  · obtain rfl := Option.some.inj success
    exact hashed _ rfl rfl rfl rfl
  · obtain rfl := Option.some.inj success
    exact .refl sockets
  · obtain rfl := Option.some.inj success
    exact hashed _ rfl rfl rfl rfl

theorem Relinks.tcpUnhash (success : sockets.tcpUnhash s = some next) : Relinks sockets next := by
  obtain ⟨sock, -, success⟩ := Option.bind_eq_some_iff.mp success
  split_ifs at success
  have freed := Relinks.freeTcpSock success
  exact ⟨freed.used, freed.timewait, freed.sent, freed.same⟩

theorem Relinks.tcpBindUnhash (success : sockets.tcpBindUnhash s = some next) :
    Relinks sockets next := by
  obtain ⟨sock, -, success⟩ := Option.bind_eq_some_iff.mp success
  split_ifs at success
  have freed := Relinks.freeTcpSock success
  exact ⟨freed.used, freed.timewait, freed.sent, freed.same⟩

end Operations

end NetworkLab.Tcp
