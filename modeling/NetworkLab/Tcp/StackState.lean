import NetworkLab.Tcp.ReceiveWindow
import NetworkLab.Tcp.RefCounts

/-!
# States of a stack

What the handling of a packet relies on in the socket that it finds, and that every run
of the stack keeps: its buffers are in order, and a child that waits for the last ACK of
its handshake has a parent.
-/
set_option autoImplicit false

namespace NetworkLab.Tcp

open Lib.Run

variable {ι : Type}

structure Sockets.Sound (sockets : Sockets ι) : Prop where
  buffering : ∀ s sock, sockets.socket s = some sock → Buffering sock.tsk
  parented : ∀ s sock, sockets.socket s = some sock → sockets.Hashed s →
    sock.tsk.state = .synRecv → sock.parent ≠ none

structure SocketStack (ι : Type) where
  sockets : Sockets ι
  sound : sockets.Sound

section Process

variable {iss : UInt32} {cb : TcpCb} {tsk child : TcpSock} {outcome : Outcome}

theorem synRecv_of_tcpSockClose (waiting : (tcpSockClose tsk).tsk.state = .synRecv) :
    tsk.state = .synRecv := by
  unfold tcpSockClose at waiting
  split at waiting
  · cases waiting
  · cases waiting
  · cases waiting
  · exact waiting

theorem synRecv_of_tcpRcvSegment (success : tcpRcvSegment cb tsk = some outcome)
    (waiting : outcome.tsk.state = .synRecv) : tsk.state = .synRecv := by
  unfold tcpRcvSegment at success
  by_cases payload : cb.plLen ≠ 0
  · rw [if_pos payload] at success
    split_ifs at success with inOrder old
    · obtain ⟨rcvBuf, -, success⟩ := Option.bind_eq_some_iff.mp success
      obtain ⟨drained, drains, result⟩ := Option.bind_eq_some_iff.mp success
      cases Option.some.inj result
      have same := drain_state drains
      rw [tcpSendControlPacket_state, same] at waiting
      exact waiting
    · cases Option.some.inj success
      rw [Outcome.andThen_tsk, removeAckData_state, tcpSendControlPacket_state] at waiting
      exact waiting
    · unfold tcpBufferOfo at success
      split_ifs at success
      cases Option.some.inj success
      exact waiting
  rw [if_neg payload] at success
  by_cases fin : hasFlag cb.flags TCP_FIN
  · rw [if_pos fin] at success
    cases Option.some.inj success
    obtain ⟨-, state⟩ := quiet_acked (hasFlag cb.flags TCP_ACK) cb.ack (tcpSetState .closeWait tsk)
    have closed := synRecv_of_tcpSockClose waiting
    rw [Outcome.andThen_tsk, tcpSendControlPacket_state] at closed
    cases state.symm.trans closed
  · rw [if_neg fin] at success
    obtain ⟨-, state⟩ := quiet_acked (hasFlag cb.flags TCP_ACK) cb.ack tsk
    by_cases plain : cb.flags ≠ TCP_ACK
    · rw [if_pos plain] at success
      cases Option.some.inj success
      rw [Outcome.andThen_tsk, tcpSendControlPacket_state] at waiting
      exact state.symm.trans waiting
    · rw [if_neg plain] at success
      cases Option.some.inj success
      exact state.symm.trans waiting

theorem synRecv_of_tcpProcess (success : tcpProcess iss cb tsk = some outcome)
    (waiting : outcome.tsk.state = .synRecv) : tsk.state = .synRecv := by
  have branch := tcpProcess_branch iss cb tsk
  rw [success] at branch
  cases branch with
  | closed state => exact waiting
  | listen state =>
      unfold tcpStateListen at waiting
      split at waiting
      · exact waiting
      · exact waiting
  | synSent state =>
      unfold tcpStateSynSent at waiting
      split at waiting
      · rw [Outcome.emit_tsk] at waiting
        cases waiting
      · exact waiting
  | opened opened branch =>
      cases branch with
      | reset rst => exact synRecv_of_tcpSockClose waiting
      | syn syn => exact synRecv_of_tcpSockClose waiting
      | neither ack fin => exact waiting
      | synRecv loud state => exact state
      | finWait1 state => cases waiting
      | finAck state flags =>
          rw [Outcome.emit_tsk, tcpSendControlPacket_state] at waiting
          exact waiting
      | finWait2 state flags => exact waiting
      | lastAck state =>
          rw [Outcome.emit_tsk, removeAckData_state] at waiting
          cases waiting
      | segment loud synRecv finWait1 finWait2 lastAck segment =>
          exact synRecv_of_tcpRcvSegment segment waiting

theorem buffering_allocTcpSock : Buffering allocTcpSock :=
  ⟨fun _ member => absurd member List.not_mem_nil, rfl⟩

theorem tcpProcess_child (success : tcpProcess iss cb tsk = some outcome)
    (listening : tsk.state = .listen) (arrives : .newChild child ∈ outcome.effects) :
    Buffering child := by
  have notClosed : tsk.state ≠ .closed := by
    rw [listening]
    decide
  rw [tcpProcess, if_neg notClosed, if_pos listening] at success
  cases Option.some.inj success
  unfold tcpStateListen at arrives
  split_ifs at arrives
  · simp only [List.cons_append, List.mem_cons, List.mem_append, List.mem_map, reduceCtorEq,
      and_false, exists_false, List.not_mem_nil, or_false, Effect.newChild.injEq] at arrives
    rw [arrives]
    exact buffering_allocTcpSock.of_same (tcpSendControlPacket_receiving _ _).buffers
  · simp [tcpSendReset] at arrives

end Process

section Operations

variable [DecidableEq ι] {sockets next : Sockets ι} {s child : ι} {sock new : Socket ι}
  {inUse : UInt16 → Bool} {outcome : Outcome}

/-- Only `s` changes, and no other socket gets into a table; `stored` is what is left of
`s`. -/
theorem Sockets.Sound.change (sound : sockets.Sound) {stored : Option (Socket ι)}
    (socket : next.socket = Function.update sockets.socket s stored)
    (hashed : ∀ t, t ≠ s → next.Hashed t → sockets.Hashed t)
    (buffering : ∀ new ∈ stored, Buffering new.tsk)
    (parented : ∀ new ∈ stored, next.Hashed s → new.tsk.state = .synRecv → new.parent ≠ none) :
    next.Sound := by
  constructor
  · intro t new live
    rw [socket, Function.update_apply] at live
    split_ifs at live
    · exact buffering new live
    · exact sound.buffering t new live
  · intro t new live inTable
    rw [socket, Function.update_apply] at live
    split_ifs at live with here
    · rw [here] at inTable
      exact parented new live inTable
    · exact sound.parented t new live (hashed t here inTable)

omit [DecidableEq ι] in
theorem Sockets.Sound.sent (sound : sockets.Sound) (sent : List (Sent ι)) :
    Sockets.Sound { sockets with sent := sent } := ⟨sound.buffering, sound.parented⟩

theorem Sockets.Sound.put (sound : sockets.Sound) (live : sockets.socket s = some sock)
    (buffering : Buffering new.tsk)
    (parented : new.tsk.state = .synRecv →
      sock.tsk.state = .synRecv ∧ new.parent = sock.parent) :
    (sockets.put s new).Sound := by
  have socket : (sockets.put s new).socket = Function.update sockets.socket s (some new) := rfl
  apply sound.change socket
  · exact fun t _ inTable => inTable
  · intro other stored
    cases Option.some.inj stored
    exact buffering
  · intro other stored inTable waiting
    cases Option.some.inj stored
    obtain ⟨before, same⟩ := parented waiting
    rw [same]
    exact sound.parented s sock live inTable before

omit [DecidableEq ι] in
theorem Sockets.Sound.relinks (sound : sockets.Sound) (relinks : Relinks sockets next)
    (hashed : ∀ t, next.Hashed t → sockets.Hashed t) : next.Sound := by
  constructor
  · intro t new live
    obtain ⟨sock, liveBefore, same⟩ := relinks.same t new live
    rw [same.tsk]
    exact sound.buffering t sock liveBefore
  · intro t new live inTable
    obtain ⟨sock, liveBefore, same⟩ := relinks.same t new live
    rw [same.tsk, same.parent]
    exact sound.parented t sock liveBefore (hashed t inTable)

theorem Sockets.Sound.freeTcpSock (sound : sockets.Sound)
    (success : sockets.freeTcpSock s = some next) : next.Sound := by
  apply sound.relinks (.freeTcpSock success)
  obtain ⟨sock, live, rfl⟩ := Option.map_eq_some_iff.mp success
  exact fun t inTable => inTable

theorem hashed_tcpUnhash (success : sockets.tcpUnhash s = some next) (t : ι) :
    next.Hashed t → t ≠ s ∧ sockets.Hashed t := by
  obtain ⟨sock, -, success⟩ := Option.bind_eq_some_iff.mp success
  split_ifs at success
  obtain ⟨stored, live, rfl⟩ := Option.map_eq_some_iff.mp success
  intro inTable
  rcases inTable with listen | established
  · obtain ⟨other, before⟩ := linked_unlink.mp listen
    exact ⟨other, .inl before⟩
  · obtain ⟨other, before⟩ := linked_unlink.mp established
    exact ⟨other, .inr before⟩

theorem Sockets.Sound.tcpUnhash (sound : sockets.Sound)
    (success : sockets.tcpUnhash s = some next) : next.Sound :=
  sound.relinks (.tcpUnhash success) fun t inTable => (hashed_tcpUnhash success t inTable).2

theorem Sockets.Sound.tcpBindUnhash (sound : sockets.Sound)
    (success : sockets.tcpBindUnhash s = some next) : next.Sound := by
  apply sound.relinks (.tcpBindUnhash success)
  obtain ⟨sock, -, success⟩ := Option.bind_eq_some_iff.mp success
  split_ifs at success
  obtain ⟨stored, live, rfl⟩ := Option.map_eq_some_iff.mp success
  exact fun t inTable => inTable

theorem hashed_tcpHash (live : sockets.socket s = some sock)
    (success : sockets.tcpHash s = some next) (t : ι) (other : t ≠ s) :
    next.Hashed t → sockets.Hashed t := by
  intro inTable
  rcases tcpHash_some live success with
    ⟨-, rfl⟩ | ⟨-, hash, rfl⟩ | ⟨-, -, rfl⟩ | ⟨-, -, hash, rfl⟩
  · exact inTable
  · exact inTable.imp (fun linked => (linked_cons.mp linked).resolve_left other) id
  · exact inTable
  · exact inTable.imp id fun linked => (linked_cons.mp linked).resolve_left other

theorem Sockets.Sound.tcpHash (sound : sockets.Sound) (live : sockets.socket s = some sock)
    (parented : sock.tsk.state = .synRecv → sock.parent ≠ none)
    (success : sockets.tcpHash s = some next) : next.Sound := by
  have relinks := Relinks.tcpHash success
  constructor
  · intro t new liveAfter
    obtain ⟨before, liveBefore, same⟩ := relinks.same t new liveAfter
    rw [same.tsk]
    exact sound.buffering t before liveBefore
  · intro t new liveAfter inTable
    obtain ⟨before, liveBefore, same⟩ := relinks.same t new liveAfter
    rw [same.tsk, same.parent]
    by_cases here : t = s
    · rw [here] at liveBefore
      cases Option.some.inj (live.symm.trans liveBefore)
      exact parented
    · exact sound.parented t before liveBefore (hashed_tcpHash live success t here inTable)

theorem Sockets.Sound.tcpSockSetSport (sound : sockets.Sound) {port : UInt16} {flag : Bool}
    (success : sockets.tcpSockSetSport inUse s port = some (next, flag)) : next.Sound := by
  rcases tcpSockSetSport_some success with ⟨-, rfl, -⟩ | ⟨-, -, sock, hash, live, rfl⟩
  · exact sound
  · have buffering := sound.buffering s sock live
    have stored : (sockets.put s { sock with
        tsk := { sock.tsk with localAddr := { sock.tsk.localAddr with
          port := if port = 0 then tcpGetPort inUse else port } },
        refCnt := sock.refCnt + 1, bindHashListSet := true }).Sound :=
      sound.put live ⟨buffering.complete, buffering.size⟩ fun waiting => ⟨waiting, rfl⟩
    exact ⟨stored.buffering, stored.parented⟩

theorem Sockets.Sound.tcpSetTimewaitTimer (sound : sockets.Sound)
    (success : sockets.tcpSetTimewaitTimer s = some next) : next.Sound := by
  obtain ⟨stored, stores, result⟩ := Option.bind_eq_some_iff.mp success
  obtain ⟨sock, live, rfl⟩ := update_some stores
  cases Option.some.inj result
  have counted : (sockets.put s { sock with refCnt := sock.refCnt + 1 }).Sound :=
    sound.put live (sound.buffering s sock live) fun waiting => ⟨waiting, rfl⟩
  exact ⟨counted.buffering, counted.parented⟩

theorem Sockets.Sound.tcpSockAcceptEnqueue (sound : sockets.Sound)
    (success : sockets.tcpSockAcceptEnqueue s = some next) : next.Sound := by
  obtain ⟨sock, -, success⟩ := Option.bind_eq_some_iff.mp success
  obtain ⟨p, -, enqueues⟩ := Option.bind_eq_some_iff.mp success
  obtain ⟨listener, live, rfl⟩ := update_some enqueues
  exact sound.put live (sound.buffering p listener live) fun waiting => ⟨waiting, rfl⟩

theorem Sockets.Sound.orphan (sound : sockets.Sound) (live : sockets.socket s = some sock)
    (success : (sockets.put s { sock with parent := none }).tcpUnhash s = some next) :
    next.Sound := by
  have relinks := Relinks.tcpUnhash success
  constructor
  · intro t new liveAfter
    obtain ⟨before, liveBefore, same⟩ := relinks.same t new liveAfter
    rw [same.tsk]
    rw [put_socket] at liveBefore
    split_ifs at liveBefore
    · cases Option.some.inj liveBefore
      exact sound.buffering s sock live
    · exact sound.buffering t before liveBefore
  · intro t new liveAfter inTable
    obtain ⟨other, hashed⟩ := hashed_tcpUnhash success t inTable
    obtain ⟨before, liveBefore, same⟩ := relinks.same t new liveAfter
    rw [same.tsk, same.parent]
    rw [put_socket, if_neg other] at liveBefore
    exact sound.parented t before liveBefore hashed

theorem Sockets.Sound.clearListenQueue (sound : sockets.Sound) {queue : List ι}
    (success : sockets.clearListenQueue s queue = some next) : next.Sound := by
  induction queue generalizing sockets with
  | nil =>
      cases Option.some.inj success
      exact sound
  | cons c rest ih =>
      obtain ⟨sock, lsnTsk, live, liveChild, way⟩ := clearListenQueue_cons success
      have popped : (sockets.put s { sock with listenQueue := rest }).Sound :=
        sound.put live (sound.buffering s sock live) fun waiting => ⟨waiting, rfl⟩
      rcases way with ⟨-, later⟩ | ⟨-, unhashed, freed, unhashes, frees, later⟩
      · exact ih popped later
      · exact ih ((popped.orphan liveChild unhashes).freeTcpSock frees) later

theorem Sockets.Sound.allocTcpSock (sound : sockets.Sound) {tsk : TcpSock} {parent : Option ι}
    (buffering : Buffering tsk) (parented : tsk.state = .synRecv → parent ≠ none)
    (success : sockets.allocTcpSock child tsk parent = some next) :
    next.Sound ∧ next.socket child = some (Socket.fresh tsk parent) := by
  unfold Sockets.allocTcpSock at success
  split_ifs at success
  cases Option.some.inj success
  refine ⟨sound.change rfl ?_ ?_ ?_, Function.update_self ..⟩
  · exact fun t _ inTable => inTable
  · intro new stored
    cases Option.some.inj stored
    exact buffering
  · intro new stored _ waiting
    cases Option.some.inj stored
    exact parented waiting

/-- The child has its parent when `tcp_hash` is called for it. -/
theorem Sockets.Sound.newChild (sound : sockets.Sound) {tsk : TcpSock}
    (buffering : Buffering tsk) (success : sockets.newChild inUse s child tsk = some next) :
    next.Sound ∧ ∃ sock, next.socket child = some sock ∧ sock.parent ≠ none := by
  obtain ⟨allocated, bound', flag, listener, allocates, sets, liveListener, rfl⟩ :=
    newChild_some success
  obtain ⟨soundFirst, live⟩ :=
    sound.allocTcpSock buffering (fun _ => Option.some_ne_none s) allocates
  have soundBound := soundFirst.tcpSockSetSport sets
  have parented : ∃ sock, bound'.socket child = some sock ∧ sock.parent ≠ none := by
    rcases tcpSockSetSport_some sets with ⟨-, rfl, -⟩ | ⟨-, -, sock, hash, liveChild, rfl⟩
    · exact ⟨_, live, Option.some_ne_none s⟩
    · cases Option.some.inj (live.symm.trans liveChild)
      exact ⟨_, put_same _, Option.some_ne_none s⟩
  constructor
  · exact soundBound.put liveListener (soundBound.buffering s listener liveListener)
      fun waiting => ⟨waiting, rfl⟩
  · obtain ⟨sock, liveChild, parent⟩ := parented
    by_cases same : child = s
    · cases same
      cases Option.some.inj (liveChild.symm.trans liveListener)
      exact ⟨_, put_same _, parent⟩
    · refine ⟨sock, ?_, parent⟩
      rw [put_socket, if_neg same]
      exact liveChild

theorem Sockets.Sound.amid (sound : sockets.Sound) {effect : Effect} {before after : List Effect}
    (success : run (Sockets.effectStep inUse s child) sockets (before ++ effect :: after) =
      some next)
    (quietBefore : ∀ e ∈ before, e.quiet) (quietAfter : ∀ e ∈ after, e.quiet)
    (keeps : ∀ {start final : Sockets ι}, start.Sound →
      start.effectStep inUse s child effect = some final → final.Sound) : next.Sound := by
  obtain ⟨sent, middle, sent', taken, rfl⟩ := run_amid quietBefore quietAfter success
  exact (keeps (sound.sent sent) taken).sent sent'

theorem Sockets.Sound.quiet (sound : sockets.Sound) (quiet : outcome.Quiet)
    (live : sockets.socket s = some sock) (buffering : Buffering outcome.tsk)
    (waiting : outcome.tsk.state = .synRecv → sock.tsk.state = .synRecv)
    (success : sockets.applyOutcome inUse s child outcome = some next) : next.Sound := by
  obtain ⟨sock', sent, live', rfl⟩ := applyOutcome_quiet quiet success
  cases Option.some.inj (live.symm.trans live')
  have stored : (sockets.put s { sock with tsk := outcome.tsk }).Sound :=
    sound.put live buffering fun synRecv => ⟨waiting synRecv, rfl⟩
  exact stored.sent sent

theorem Sockets.Sound.handleTcpPacket {iss : UInt32} {cb : TcpCb} (sound : sockets.Sound)
    (success : sockets.handleTcpPacket inUse child iss cb = some next) : next.Sound := by
  obtain ⟨s, -, success⟩ := Option.bind_eq_some_iff.mp success
  obtain ⟨sock, live, success⟩ := Option.bind_eq_some_iff.mp success
  obtain ⟨outcome, processes, applies⟩ := Option.bind_eq_some_iff.mp success
  obtain ⟨sock', live', runs⟩ := applyOutcome_run applies
  cases Option.some.inj (live.symm.trans live')
  have stored : (sockets.put s { sock with tsk := outcome.tsk }).Sound :=
    sound.put live (tcpProcess_buffering (sound.buffering s sock live) processes)
      fun waiting => ⟨synRecv_of_tcpProcess processes waiting, rfl⟩
  cases tcpProcess_processed processes with
  | quiet quiet kept =>
      obtain ⟨sent, rfl⟩ := run_quiet quiet runs
      exact stored.sent sent
  | child listening tsk effects quiet state same =>
      have buffering : Buffering tsk := tcpProcess_child processes listening (by simp [same])
      rw [same] at runs stored
      obtain ⟨queued, appends, hashes⟩ := run_cons_some _ runs
      obtain ⟨soundQueued, sock', liveChild, parent⟩ := stored.newChild buffering appends
      obtain ⟨sent, middle, sent', taken, rfl⟩ := run_amid quiet (by simp) hashes
      exact ((soundQueued.sent sent).tcpHash liveChild (fun _ => parent) taken).sent sent'
  | reset opened rst same =>
      have effects : outcome.effects = (tcpSockClose sock.tsk).effects ++ [.freeTcpSock] := by
        simp [same]
      rw [effects] at runs
      exact stored.amid runs (quiet_tcpSockClose opened.2.1) (by simp)
        fun start taken => start.freeTcpSock taken
  | enqueue state rst syn ack acked quiet stays same =>
      have effects : outcome.effects =
          acked.effects ++ .acceptEnqueue :: [.wakeUp .parentWaitAccept] := by simp [same]
      rw [effects] at runs
      exact stored.amid runs quiet (by simp [Effect.quiet])
        fun start taken => start.tcpSockAcceptEnqueue taken
  | timewait state flags before quiet stays same =>
      have effects : outcome.effects = before.effects ++ [.setTimewaitTimer] := by simp [same]
      rw [effects] at runs
      exact stored.amid runs quiet (by simp) fun start taken => start.tcpSetTimewaitTimer taken
  | unhash state acked quiet stays same =>
      have effects : outcome.effects = acked.effects ++ [.unhash] := by simp [same]
      rw [effects] at runs
      exact stored.amid runs quiet (by simp) fun start taken => start.tcpUnhash taken

theorem Sockets.Sound.tcpSockClose (sound : sockets.Sound)
    (success : sockets.call s tcpSockClose = some next) : next.Sound := by
  obtain ⟨sock, live, success⟩ := Option.bind_eq_some_iff.mp success
  have buffering := (sound.buffering s sock live).of_same
    (tcpSockClose_receiving sock.tsk).buffers
  by_cases listening : sock.tsk.state = .listen
  · obtain ⟨cleared, clears, taken⟩ := tcpSockClose_listening live listening success
    have before := sound.buffering s sock live
    have closed : (sockets.put s { sock with tsk := tcpSetState .closed sock.tsk }).Sound := by
      apply sound.put live
      · exact ⟨before.complete, before.size⟩
      · intro waiting
        cases waiting
    exact (closed.clearListenQueue clears).tcpUnhash taken
  · exact sound.quiet (quiet_tcpSockClose listening) live buffering synRecv_of_tcpSockClose success

theorem Sockets.Sound.tcpSockConnect {ip iss : UInt32} {skaddr : SockAddr} (sound : sockets.Sound)
    (success : sockets.tcpSockConnect inUse s ip skaddr iss = some next) : next.Sound := by
  obtain ⟨sock, bound, flag, live, sets, way⟩ := tcpSockConnect_some success
  have buffering := sound.buffering s sock live
  have addressed : (sockets.put s { sock with tsk := { sock.tsk with
      peer := skaddr, localAddr := { sock.tsk.localAddr with ip := ip } } }).Sound :=
    sound.put live ⟨buffering.complete, buffering.size⟩ fun waiting => ⟨waiting, rfl⟩
  have bind := addressed.tcpSockSetSport sets
  rcases way with ⟨-, rfl⟩ | ⟨-, sock', hashed, sender, live', hashes, liveSender, sends⟩
  · exact bind
  · have before := bind.buffering s sock' live'
    have started : (bound.put s { sock' with
        tsk := { sock'.tsk with iss := iss, sndNxt := iss, state := .synSent } }).Sound := by
      apply bind.put live'
      · exact ⟨before.complete, before.size⟩
      · intro waiting
        cases waiting
    have linked := started.tcpHash (put_same _) (by simp) hashes
    have same := (tcpSendControlPacket_receiving TCP_SYN sender.tsk).buffers
    apply linked.quiet (quiet_tcpSendControlPacket _ _) liveSender
      ((linked.buffering s sender liveSender).of_same same) _ sends
    rw [tcpSendControlPacket_state]
    exact id

theorem Sockets.Sound.tcpSockListen {backlog : Int} (sound : sockets.Sound)
    (success : sockets.tcpSockListen s backlog = some next) : next.Sound := by
  obtain ⟨stored, stores, hashes⟩ := Option.bind_eq_some_iff.mp success
  obtain ⟨sock, live, rfl⟩ := update_some stores
  have buffering := sound.buffering s sock live
  have listens : (sockets.put s { sock with
      backlog := backlog, tsk := tcpSetState .listen sock.tsk }).Sound := by
    apply sound.put live
    · exact ⟨buffering.complete, buffering.size⟩
    · intro waiting
      cases waiting
  exact listens.tcpHash (put_same _) (by simp [tcpSetState]) hashes

theorem Sockets.Sound.tcpSockAccept (sound : sockets.Sound)
    (success : sockets.tcpSockAccept s = some next) : next.Sound := by
  rcases tcpSockAccept_some success with
    rfl | ⟨sock, c, rest, acceptTsk, live, -, liveChild, rfl⟩
  · exact sound
  · have dequeued : (sockets.put s { sock with
        acceptQueue := rest, acceptBacklog := sock.acceptBacklog - 1 }).Sound :=
      sound.put live (sound.buffering s sock live) fun waiting => ⟨waiting, rfl⟩
    have buffering := dequeued.buffering c acceptTsk liveChild
    apply dequeued.put liveChild
    · exact ⟨buffering.complete, buffering.size⟩
    · intro waiting
      cases waiting

theorem Sockets.Sound.release (sound : sockets.Sound) (success : sockets.release s = some next) :
    next.Sound := by
  obtain ⟨closed, closes, frees⟩ := Option.bind_eq_some_iff.mp success
  obtain ⟨sock, live, rfl⟩ := update_some closes
  have buffering := sound.buffering s sock live
  have stored : (sockets.put s { sock with tsk := tcpSetState .closed sock.tsk }).Sound := by
    apply sound.put live
    · exact ⟨buffering.complete, buffering.size⟩
    · intro waiting
      cases waiting
  exact stored.freeTcpSock frees

theorem Sockets.Sound.timewaitExpires (sound : sockets.Sound)
    (success : sockets.timewaitExpires s = some next) : next.Sound := by
  unfold Sockets.timewaitExpires at success
  split_ifs at success
  obtain ⟨sock, -, success⟩ := Option.bind_eq_some_iff.mp success
  have removed : (sockets.deleteTimewait s).Sound := ⟨sound.buffering, sound.parented⟩
  split_ifs at success
  · obtain ⟨unbound, unbinds, releases⟩ := Option.bind_eq_some_iff.mp success
    exact (removed.tcpBindUnhash unbinds).release releases
  · exact removed.release success

theorem socketsStep_sound (sockets : Sockets ι) (event : SocketsEvent ι) (next : Sockets ι)
    (sound : sockets.Sound) (taken : socketsStep sockets event = some next) : next.Sound := by
  cases event with
  | alloc s =>
      apply (sound.allocTcpSock buffering_allocTcpSock _ taken).1
      intro waiting
      cases waiting
  | bind s port inUse =>
      obtain ⟨⟨bound, flag⟩, sets, rfl⟩ := Option.map_eq_some_iff.mp taken
      exact sound.tcpSockSetSport sets
  | listen s backlog => exact sound.tcpSockListen taken
  | connect s ip skaddr iss inUse => exact sound.tcpSockConnect taken
  | accept s => exact sound.tcpSockAccept taken
  | send s payload =>
      obtain ⟨sock, live, calls⟩ := Option.bind_eq_some_iff.mp taken
      have buffering := sound.buffering s sock live
      exact sound.quiet (quiet_tcpSendPacket _ _) live ⟨buffering.complete, buffering.size⟩ id calls
  | close s => exact sound.tcpSockClose taken
  | packet cb child iss inUse => exact sound.handleTcpPacket taken
  | timewaitExpires s => exact sound.timewaitExpires taken
  | givesUp s => exact sound.tcpSockClose taken

omit [DecidableEq ι] in
theorem noSockets_sound : (noSockets : Sockets ι).Sound :=
  ⟨fun _ _ live => (nomatch live), fun _ _ live => (nomatch live)⟩

def SocketStack.after (events : List (SocketsEvent ι))
    (success : run socketsStep noSockets events = some sockets) : SocketStack ι :=
  { sockets := sockets,
    sound := invariant_run socketsStep socketsStep_sound events noSockets_sound success }

end Operations

end NetworkLab.Tcp
