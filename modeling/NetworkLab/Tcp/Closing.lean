import Mathlib.Data.List.Basic
import NetworkLab.Tcp.Process

/-!
# Which segments close a connection

`tcp_process` in `SYN_RECV`, `FIN_WAIT_1` and `LAST_ACK`, and on segments outside the
receive window.  The call of `is_tcp_seq_valid` is commented out and `ack` is never
compared with `snd_nxt`, so that both depend on the flags alone.
-/
set_option autoImplicit false

namespace NetworkLab.Tcp

def lessThan32b (a b : UInt32) : Prop := (a - b).toBitVec.toInt < 0

def lessOrEqual32b (a b : UInt32) : Prop := (a - b).toBitVec.toInt ≤ 0

instance (a b : UInt32) : Decidable (lessThan32b a b) := inferInstanceAs (Decidable (_ < _))

instance (a b : UInt32) : Decidable (lessOrEqual32b a b) := inferInstanceAs (Decidable (_ ≤ _))

def IsTcpSeqValid (tsk : TcpSock) (cb : TcpCb) : Prop :=
  let rcvEnd := tsk.rcvNxt + if tsk.rcvWnd.toUInt32 > 1 then tsk.rcvWnd.toUInt32 else 1
  lessThan32b cb.seq rcvEnd ∧ lessOrEqual32b tsk.rcvNxt cb.seqEnd

instance (tsk : TcpSock) (cb : TcpCb) : Decidable (IsTcpSeqValid tsk cb) :=
  inferInstanceAs (Decidable (_ ∧ _))

section Specification

variable (tsk : TcpSock) (cb : TcpCb)

/-- The states for which the sequence number is to be checked. -/
def Open : Prop := tsk.state ≠ .closed ∧ tsk.state ≠ .listen ∧ tsk.state ≠ .synSent

def Acknowledges : Prop := hasFlag cb.flags TCP_ACK ∧ cb.ack = tsk.sndNxt

/-- Nothing but packets that are sent comes of the call. -/
def Untouched (outcome : Outcome) : Prop :=
  outcome.tsk = tsk ∧ ∀ effect ∈ outcome.effects, ∃ segment, effect = .ipSendPacket segment

structure ClosesOnAck (iss : UInt32) : Prop where
  accepted : tsk.state = .synRecv → ∀ outcome, tcpProcess iss cb tsk = some outcome →
    Effect.acceptEnqueue ∈ outcome.effects → Acknowledges tsk cb
  finAcked : tsk.state = .finWait1 → ∀ outcome, tcpProcess iss cb tsk = some outcome →
    outcome.tsk.state = .finWait2 → Acknowledges tsk cb
  closed : tsk.state = .lastAck → ∀ outcome, tcpProcess iss cb tsk = some outcome →
    outcome.tsk.state = .closed → Acknowledges tsk cb
  dropped : Open tsk → ¬ IsTcpSeqValid tsk cb →
    ∃ outcome, tcpProcess iss cb tsk = some outcome ∧ Untouched tsk outcome

/-- The flags on which `tcp_process` takes our SYN or FIN for acknowledged. -/
def Concludes : Prop :=
  hasFlag cb.flags TCP_RST = false ∧ hasFlag cb.flags TCP_SYN = false ∧
    (tsk.state = .synRecv ∧ hasFlag cb.flags TCP_ACK ∨
      (tsk.state = .finWait1 ∨ tsk.state = .lastAck) ∧
        (hasFlag cb.flags TCP_ACK ∨ hasFlag cb.flags TCP_FIN))

/-- The flags on which `tcp_process` does nothing, or only sends a reset. -/
def Inert : Prop :=
  hasFlag cb.flags TCP_RST = false ∧
    if hasFlag cb.flags TCP_SYN then tsk.state ≠ .established ∧ tsk.state ≠ .closeWait
    else hasFlag cb.flags TCP_ACK = false ∧
        (hasFlag cb.flags TCP_FIN = false ∨ tsk.state = .synRecv) ∨
      tsk.state = .finWait2 ∧ cb.flags ≠ TCP_ACK ||| TCP_FIN

end Specification

section Writing

variable {tsk next : TcpSock} {cb : TcpCb} {outcome : Outcome}

theorem writeRingBuffer_grows {rbuf written : RingBuffer} {data : List UInt8} {size : Int}
    (success : rbuf.writeRingBuffer data size = some written) :
    rbuf.contents.length < written.contents.length := by
  obtain ⟨positive, available, -, contents⟩ := RingBuffer.writeRingBuffer_some success
  rw [contents, List.length_append, List.length_take]
  omega

/-- `P` outlives a write and the removal of packets. -/
structure KeptByDrain (P : TcpSock → Prop) : Prop where
  write : ∀ {tsk : TcpSock} {rcvBuf data size}, tsk.rcvBuf.writeRingBuffer data size = some rcvBuf →
    ∀ rcvNxt, P tsk → P { tsk with rcvBuf := rcvBuf, rcvNxt := rcvNxt }
  remove : ∀ {tsk : TcpSock} left, P tsk → P { tsk with rcvOfoBuf := left }

theorem drainPass_keeps {P : TcpSock → Prop} (kept : KeptByDrain P) {queue left : List OfoPacket}
    {flag : Bool} (success : drainPass queue tsk = some (next, left, flag)) (holds : P tsk) :
    P next := by
  induction queue generalizing tsk left flag with
  | nil =>
      cases Option.some.inj success
      exact holds
  | cons t rest ih =>
      unfold drainPass at success
      split_ifs at success
      · obtain ⟨rcvBuf, wrote, success⟩ := Option.bind_eq_some_iff.mp success
        obtain ⟨⟨middle, between, later⟩, passed, result⟩ := Option.bind_eq_some_iff.mp success
        cases Option.some.inj result
        exact ih passed (kept.write wrote _ holds)
      · obtain ⟨⟨middle, between, later⟩, passed, result⟩ := Option.bind_eq_some_iff.mp success
        cases Option.some.inj result
        exact ih passed holds

theorem drain_keeps {P : TcpSock → Prop} (kept : KeptByDrain P) {fuel : Nat}
    (success : drain fuel tsk = some next) (holds : P tsk) : P next := by
  induction fuel generalizing tsk with
  | zero =>
      cases Option.some.inj success
      exact holds
  | succ fuel ih =>
      obtain ⟨⟨middle, left, flag⟩, passed, success⟩ := Option.bind_eq_some_iff.mp success
      have drained := kept.remove left (drainPass_keeps kept passed holds)
      cases flag with
      | true => exact ih success drained
      | false =>
          cases Option.some.inj success
          exact drained

theorem drain_grows {fuel : Nat} (success : drain fuel tsk = some next) :
    tsk.rcvBuf.contents.length ≤ next.rcvBuf.contents.length := by
  have kept : KeptByDrain fun t => tsk.rcvBuf.contents.length ≤ t.rcvBuf.contents.length :=
    ⟨fun wrote _ grown => grown.trans (writeRingBuffer_grows wrote).le, fun _ grown => grown⟩
  exact drain_keeps kept success le_rfl

theorem drain_state {fuel : Nat} (success : drain fuel tsk = some next) :
    next.state = tsk.state := by
  have kept : KeptByDrain fun t => t.state = tsk.state := ⟨fun _ _ same => same, fun _ same => same⟩
  exact drain_keeps kept success rfl

theorem tcpRcvInOrder_grows (success : tcpRcvInOrder cb tsk = some outcome) :
    tsk.rcvBuf.contents.length < outcome.tsk.rcvBuf.contents.length := by
  obtain ⟨rcvBuf, wrote, success⟩ := Option.bind_eq_some_iff.mp success
  obtain ⟨drained, isDrained, success⟩ := Option.bind_eq_some_iff.mp success
  obtain rfl := Option.some.inj success
  have noFlag : hasFlag TCP_ACK (TCP_SYN ||| TCP_FIN) = false := by decide
  have grown := drain_grows isDrained
  simp only [tcpSendControlPacket, noFlag, Bool.false_eq_true, if_false]
  exact (writeRingBuffer_grows wrote).trans_le grown

end Writing

section Touching

variable {iss : UInt32} {tsk : TcpSock} {cb : TcpCb} {outcome : Outcome}

theorem not_untouched_of_state (changed : outcome.tsk.state ≠ tsk.state) :
    ¬ Untouched tsk outcome := by
  rintro ⟨same, -⟩
  exact changed (by rw [same])

theorem not_untouched_of_effect {effect : Effect} (member : effect ∈ outcome.effects)
    (other : ∀ segment, effect ≠ .ipSendPacket segment) : ¬ Untouched tsk outcome := by
  rintro ⟨-, onlySends⟩
  obtain ⟨segment, same⟩ := onlySends effect member
  exact other segment same

@[simp] theorem tcpSendControlPacket_state (flags : UInt8) (tsk : TcpSock) :
    (tcpSendControlPacket flags tsk).tsk.state = tsk.state := by
  unfold tcpSendControlPacket
  split_ifs <;> rfl

theorem removeAckData_removes (ackNum : UInt32) (tsk : TcpSock) :
    Effect.removeRetransTimer ∈ (removeAckData ackNum tsk).effects := by
  simp [removeAckData]

theorem removeAckData_state (ackNum : UInt32) (tsk : TcpSock) :
    (removeAckData ackNum tsk).tsk.state = tsk.state := rfl

theorem tcpSockClose_closeWait (waiting : tsk.state = .closeWait) :
    (tcpSockClose tsk).tsk.state = .lastAck := by
  simp [tcpSockClose, waiting, tcpSetState]

/-- Beyond the states with branches of their own every call leaves a trace. -/
theorem tcpRcvSegment_touches (flags : hasFlag cb.flags TCP_ACK ∨ hasFlag cb.flags TCP_FIN)
    (notLast : tsk.state ≠ .lastAck) (success : tcpRcvSegment cb tsk = some outcome) :
    ¬ Untouched tsk outcome := by
  unfold tcpRcvSegment at success
  by_cases payload : cb.plLen ≠ 0
  · rw [if_pos payload] at success
    split_ifs at success with inOrder old
    · have grown := tcpRcvInOrder_grows success
      rintro ⟨same, -⟩
      rw [same] at grown
      exact lt_irrefl _ grown
    · obtain rfl := Option.some.inj success
      apply not_untouched_of_effect (List.mem_append_right _ (removeAckData_removes _ _))
      simp
    · unfold tcpBufferOfo at success
      split_ifs at success
      obtain rfl := Option.some.inj success
      rintro ⟨same, -⟩
      have longer := congrArg (fun t => t.rcvOfoBuf.length) same
      simp at longer
  · rw [if_neg payload] at success
    by_cases fin : hasFlag cb.flags TCP_FIN
    · rw [if_pos fin] at success
      obtain rfl := Option.some.inj success
      apply not_untouched_of_state
      rw [Outcome.andThen_tsk, tcpSockClose_closeWait]
      · exact notLast.symm
      · rw [Outcome.andThen_tsk, tcpSendControlPacket_state]
        split_ifs <;> rfl
    · have ack : hasFlag cb.flags TCP_ACK := flags.resolve_right fin
      rw [if_neg fin, if_pos ack] at success
      split_ifs at success
      · obtain rfl := Option.some.inj success
        apply not_untouched_of_effect (List.mem_append_left _ (removeAckData_removes _ _))
        simp
      · obtain rfl := Option.some.inj success
        apply not_untouched_of_effect (removeAckData_removes _ _)
        simp

theorem untouched_done (tsk : TcpSock) : Untouched tsk tsk.done := ⟨rfl, by simp⟩

theorem untouched_reset (tsk : TcpSock) (cb : TcpCb) :
    Untouched tsk { tsk := tsk, effects := [tcpSendReset cb] } := by
  refine ⟨rfl, fun effect member => ?_⟩
  rw [List.mem_singleton.mp member]
  exact ⟨_, rfl⟩

theorem tcpSockClose_other (opened : Open tsk) (established : tsk.state ≠ .established)
    (closeWait : tsk.state ≠ .closeWait) : tcpSockClose tsk = tsk.done := by
  obtain ⟨-, listen, -⟩ := opened
  unfold tcpSockClose
  split <;> first | contradiction | rfl

theorem tcpProcess_open (opened : Open tsk) : tcpProcess iss cb tsk =
    if hasFlag cb.flags TCP_RST then some ((tcpSockClose tsk).emit .freeTcpSock)
    else if hasFlag cb.flags TCP_SYN then
      some { tcpSockClose tsk with effects := tcpSendReset cb :: (tcpSockClose tsk).effects }
    else if !hasFlag cb.flags TCP_ACK && !hasFlag cb.flags TCP_FIN then some tsk.done
    else if tsk.state = .synRecv then some (tcpStateSynRecv cb tsk)
    else if tsk.state = .finWait1 then
      some { removeAckData cb.ack tsk with
        tsk := tcpSetState .finWait2 (removeAckData cb.ack tsk).tsk }
    else if tsk.state = .finWait2 then
      if cb.flags = TCP_ACK ||| TCP_FIN then
        some ((tcpSendControlPacket TCP_ACK { tsk with rcvNxt := cb.seqEnd }).emit .setTimewaitTimer)
      else some tsk.done
    else if tsk.state = .lastAck then
      some ((removeAckData cb.ack (tcpSetState .closed tsk)).emit .unhash)
    else tcpRcvSegment cb tsk := by
  obtain ⟨closed, listen, synSent⟩ := opened
  rw [tcpProcess, if_neg closed, if_neg listen, if_neg synSent]

/-- The flags that let a segment through to the state of its socket. -/
structure Loud (cb : TcpCb) : Prop where
  rst : hasFlag cb.flags TCP_RST = false
  syn : hasFlag cb.flags TCP_SYN = false
  flags : hasFlag cb.flags TCP_ACK ∨ hasFlag cb.flags TCP_FIN

/-- The way of a packet through `tcp_process` for an open socket. -/
inductive OpenBranch (cb : TcpCb) (tsk : TcpSock) : Option Outcome → Prop
  | reset (rst : hasFlag cb.flags TCP_RST) :
      OpenBranch cb tsk (some ((tcpSockClose tsk).emit .freeTcpSock))
  | syn (syn : hasFlag cb.flags TCP_SYN) : OpenBranch cb tsk
      (some { tcpSockClose tsk with effects := tcpSendReset cb :: (tcpSockClose tsk).effects })
  | neither (ack : hasFlag cb.flags TCP_ACK = false) (fin : hasFlag cb.flags TCP_FIN = false) :
      OpenBranch cb tsk (some tsk.done)
  | synRecv (loud : Loud cb) (state : tsk.state = .synRecv) :
      OpenBranch cb tsk (some (tcpStateSynRecv cb tsk))
  | finWait1 (state : tsk.state = .finWait1) : OpenBranch cb tsk
      (some { removeAckData cb.ack tsk with
        tsk := tcpSetState .finWait2 (removeAckData cb.ack tsk).tsk })
  | finAck (state : tsk.state = .finWait2) (flags : cb.flags = TCP_ACK ||| TCP_FIN) :
      OpenBranch cb tsk (some
        ((tcpSendControlPacket TCP_ACK { tsk with rcvNxt := cb.seqEnd }).emit .setTimewaitTimer))
  | finWait2 (state : tsk.state = .finWait2) (flags : cb.flags ≠ TCP_ACK ||| TCP_FIN) :
      OpenBranch cb tsk (some tsk.done)
  | lastAck (state : tsk.state = .lastAck) : OpenBranch cb tsk
      (some ((removeAckData cb.ack (tcpSetState .closed tsk)).emit .unhash))
  | segment (loud : Loud cb) (synRecv : tsk.state ≠ .synRecv) (finWait1 : tsk.state ≠ .finWait1)
      (finWait2 : tsk.state ≠ .finWait2) (lastAck : tsk.state ≠ .lastAck) {result : Option Outcome}
      (segment : tcpRcvSegment cb tsk = result) : OpenBranch cb tsk result

inductive Branch (iss : UInt32) (cb : TcpCb) (tsk : TcpSock) : Option Outcome → Prop
  | closed (state : tsk.state = .closed) :
      Branch iss cb tsk (some { tsk := tsk, effects := [tcpSendReset cb] })
  | listen (state : tsk.state = .listen) : Branch iss cb tsk (some (tcpStateListen iss cb tsk))
  | synSent (state : tsk.state = .synSent) : Branch iss cb tsk (some (tcpStateSynSent cb tsk))
  | opened (opened : Open tsk) {result : Option Outcome} (branch : OpenBranch cb tsk result) :
      Branch iss cb tsk result

theorem tcpProcess_openBranch (opened : Open tsk) :
    OpenBranch cb tsk (tcpProcess iss cb tsk) := by
  rw [tcpProcess_open opened]
  by_cases rst : hasFlag cb.flags TCP_RST
  · rw [if_pos rst]
    exact .reset rst
  by_cases syn : hasFlag cb.flags TCP_SYN
  · rw [if_neg rst, if_pos syn]
    exact .syn syn
  by_cases neither : (!hasFlag cb.flags TCP_ACK && !hasFlag cb.flags TCP_FIN) = true
  · rw [if_neg rst, if_neg syn, if_pos neither]
    rw [Bool.and_eq_true, Bool.not_eq_true', Bool.not_eq_true'] at neither
    exact .neither neither.1 neither.2
  rw [if_neg rst, if_neg syn, if_neg neither]
  have loud : Loud cb := by
    rw [Bool.and_eq_true, Bool.not_eq_true', Bool.not_eq_true', not_and_or, Bool.not_eq_false,
      Bool.not_eq_false] at neither
    exact ⟨Bool.eq_false_of_not_eq_true rst, Bool.eq_false_of_not_eq_true syn, neither⟩
  by_cases synRecv : tsk.state = .synRecv
  · rw [if_pos synRecv]
    exact .synRecv loud synRecv
  by_cases finWait1 : tsk.state = .finWait1
  · rw [if_neg synRecv, if_pos finWait1]
    exact .finWait1 finWait1
  by_cases finWait2 : tsk.state = .finWait2
  · rw [if_neg synRecv, if_neg finWait1, if_pos finWait2]
    by_cases flags : cb.flags = TCP_ACK ||| TCP_FIN
    · rw [if_pos flags]
      exact .finAck finWait2 flags
    · rw [if_neg flags]
      exact .finWait2 finWait2 flags
  by_cases lastAck : tsk.state = .lastAck
  · rw [if_neg synRecv, if_neg finWait1, if_neg finWait2, if_pos lastAck]
    exact .lastAck lastAck
  · rw [if_neg synRecv, if_neg finWait1, if_neg finWait2, if_neg lastAck]
    exact .segment loud synRecv finWait1 finWait2 lastAck rfl

theorem tcpProcess_branch (iss : UInt32) (cb : TcpCb) (tsk : TcpSock) :
    Branch iss cb tsk (tcpProcess iss cb tsk) := by
  by_cases closed : tsk.state = .closed
  · rw [tcpProcess, if_pos closed]
    exact .closed closed
  by_cases listen : tsk.state = .listen
  · rw [tcpProcess, if_neg closed, if_pos listen]
    exact .listen listen
  by_cases synSent : tsk.state = .synSent
  · rw [tcpProcess, if_neg closed, if_neg listen, if_pos synSent]
    exact .synSent synSent
  · have opened : Open tsk := ⟨closed, listen, synSent⟩
    exact .opened opened (tcpProcess_openBranch opened)

theorem reset_untouched_iff (opened : Open tsk) :
    Untouched tsk
        { tcpSockClose tsk with effects := tcpSendReset cb :: (tcpSockClose tsk).effects } ↔
      tsk.state ≠ .established ∧ tsk.state ≠ .closeWait := by
  constructor
  · intro untouched
    refine ⟨fun state => ?_, fun state => ?_⟩ <;>
      exact not_untouched_of_state (by simp [tcpSockClose, state, tcpSetState]) untouched
  · rintro ⟨established, closeWait⟩
    rw [tcpSockClose_other opened established closeWait]
    exact untouched_reset tsk cb

/-- What makes `tcp_process` drop a segment are the flags, not the sequence number. -/
theorem tcpProcess_untouched_iff (opened : Open tsk) :
    (∃ outcome, tcpProcess iss cb tsk = some outcome ∧ Untouched tsk outcome) ↔ Inert tsk cb := by
  rw [tcpProcess_open opened, Inert]
  by_cases rst : hasFlag cb.flags TCP_RST
  · have frees : ¬ Untouched tsk ((tcpSockClose tsk).emit .freeTcpSock) := by
      apply not_untouched_of_effect (List.mem_append_right _ (List.mem_singleton_self _))
      simp
    simp [rst, frees]
  by_cases syn : hasFlag cb.flags TCP_SYN
  · simp [rst, syn, reset_untouched_iff opened]
  by_cases quiet : hasFlag cb.flags TCP_ACK = false ∧ hasFlag cb.flags TCP_FIN = false
  · simp [rst, syn, quiet, untouched_done]
  have loud : ¬ (!hasFlag cb.flags TCP_ACK && !hasFlag cb.flags TCP_FIN) = true := by
    simpa using quiet
  have flags : hasFlag cb.flags TCP_ACK ∨ hasFlag cb.flags TCP_FIN := by
    by_contra none
    exact quiet (by simpa [not_or] using none)
  have notReset : hasFlag cb.flags TCP_RST = false := by simpa using rst
  rw [if_neg rst, if_neg syn, if_neg loud, if_neg syn]
  by_cases synRecv : tsk.state = .synRecv
  · rw [if_pos synRecv, tcpStateSynRecv]
    by_cases ack : hasFlag cb.flags TCP_ACK
    · have accepts : ¬ Untouched tsk
          (((removeAckData cb.ack tsk).emit .acceptEnqueue).emit (.wakeUp .parentWaitAccept)) := by
        apply not_untouched_of_effect
          (List.mem_append_left _ (List.mem_append_right _ (List.mem_singleton_self _)))
        simp
      simp [ack, accepts, synRecv]
    · simp [ack, synRecv, notReset, untouched_reset]
  by_cases finWait1 : tsk.state = .finWait1
  · have moves : ¬ Untouched tsk { removeAckData cb.ack tsk with
        tsk := tcpSetState .finWait2 (removeAckData cb.ack tsk).tsk } := by
      apply not_untouched_of_state
      simp [tcpSetState, finWait1]
    simp [finWait1, moves, quiet]
  by_cases finWait2 : tsk.state = .finWait2
  · have waits : ¬ Untouched tsk ((tcpSendControlPacket TCP_ACK
        { tsk with rcvNxt := cb.seqEnd }).emit .setTimewaitTimer) := by
      apply not_untouched_of_effect (List.mem_append_right _ (List.mem_singleton_self _))
      simp
    by_cases both : cb.flags = TCP_ACK ||| TCP_FIN
    · rw [if_neg synRecv, if_neg finWait1, if_pos finWait2, if_pos both]
      simp only [Option.some.injEq, exists_eq_left', waits, false_iff]
      rintro ⟨-, ⟨ack, fin | state⟩ | ⟨-, other⟩⟩
      · exact quiet ⟨ack, fin⟩
      · exact synRecv state
      · exact other both
    · simp [finWait2, both, notReset, untouched_done]
  by_cases lastAck : tsk.state = .lastAck
  · have closes : ¬ Untouched tsk
        ((removeAckData cb.ack (tcpSetState .closed tsk)).emit .unhash) := by
      apply not_untouched_of_state
      simp [removeAckData_state, tcpSetState, lastAck]
    simp [lastAck, closes, quiet]
  · have touches : ¬ ∃ outcome, tcpRcvSegment cb tsk = some outcome ∧ Untouched tsk outcome := by
      rintro ⟨outcome, success, untouched⟩
      exact tcpRcvSegment_touches flags lastAck success untouched
    simp [synRecv, finWait1, finWait2, lastAck, touches, quiet]

end Touching

section Closing

variable {iss : UInt32} {tsk : TcpSock} {cb : TcpCb}

/-- Resets, SYNs and segments without ACK and FIN do not show `Q`. -/
theorem exists_outcome_iff {Q : Outcome → Prop} (opened : Open tsk)
    (established : tsk.state ≠ .established) (closeWait : tsk.state ≠ .closeWait)
    (freed : ¬ Q (tsk.done.emit .freeTcpSock))
    (reset : ¬ Q { tsk := tsk, effects := [tcpSendReset cb] }) (done : ¬ Q tsk.done) :
    (∃ outcome, tcpProcess iss cb tsk = some outcome ∧ Q outcome) ↔
      hasFlag cb.flags TCP_RST = false ∧ hasFlag cb.flags TCP_SYN = false ∧
        (hasFlag cb.flags TCP_ACK ∨ hasFlag cb.flags TCP_FIN) ∧
        ∃ outcome, tcpProcess iss cb tsk = some outcome ∧ Q outcome := by
  constructor
  · rintro ⟨outcome, success, holds⟩
    have runs := success
    rw [tcpProcess_open opened, tcpSockClose_other opened established closeWait] at success
    by_cases rst : hasFlag cb.flags TCP_RST
    · rw [if_pos rst] at success
      obtain rfl := Option.some.inj success
      exact absurd holds freed
    by_cases syn : hasFlag cb.flags TCP_SYN
    · rw [if_neg rst, if_pos syn] at success
      obtain rfl := Option.some.inj success
      exact absurd holds reset
    by_cases quiet : (!hasFlag cb.flags TCP_ACK && !hasFlag cb.flags TCP_FIN) = true
    · rw [if_neg rst, if_neg syn, if_pos quiet] at success
      obtain rfl := Option.some.inj success
      exact absurd holds done
    refine ⟨by simpa using rst, by simpa using syn, ?_, outcome, runs, holds⟩
    by_contra none
    exact quiet (by simpa [not_or] using none)
  · exact fun shown => shown.2.2.2

theorem tcpProcess_loud (opened : Open tsk) (rst : hasFlag cb.flags TCP_RST = false)
    (syn : hasFlag cb.flags TCP_SYN = false)
    (flags : hasFlag cb.flags TCP_ACK ∨ hasFlag cb.flags TCP_FIN) : tcpProcess iss cb tsk =
    if tsk.state = .synRecv then some (tcpStateSynRecv cb tsk)
    else if tsk.state = .finWait1 then
      some { removeAckData cb.ack tsk with
        tsk := tcpSetState .finWait2 (removeAckData cb.ack tsk).tsk }
    else if tsk.state = .finWait2 then
      if cb.flags = TCP_ACK ||| TCP_FIN then
        some ((tcpSendControlPacket TCP_ACK { tsk with rcvNxt := cb.seqEnd }).emit .setTimewaitTimer)
      else some tsk.done
    else if tsk.state = .lastAck then
      some ((removeAckData cb.ack (tcpSetState .closed tsk)).emit .unhash)
    else tcpRcvSegment cb tsk := by
  have loud : ¬ (!hasFlag cb.flags TCP_ACK && !hasFlag cb.flags TCP_FIN) = true := by
    rcases flags with ack | fin
    · simp [ack]
    · simp [fin]
  rw [tcpProcess_open opened, if_neg (by simp [rst]), if_neg (by simp [syn]), if_neg loud]

variable (iss) in
theorem enqueues_iff (synRecv : tsk.state = .synRecv) :
    (∃ outcome, tcpProcess iss cb tsk = some outcome ∧ Effect.acceptEnqueue ∈ outcome.effects) ↔
      Concludes tsk cb := by
  have opened : Open tsk := by simp [Open, synRecv]
  rw [exists_outcome_iff opened (by simp [synRecv]) (by simp [synRecv]) (by simp)
    (by simp [tcpSendReset]) (by simp), Concludes]
  refine and_congr_right fun rst => and_congr_right fun syn => ?_
  constructor
  · rintro ⟨flags, outcome, success, enqueues⟩
    rw [tcpProcess_loud opened rst syn flags, if_pos synRecv, tcpStateSynRecv] at success
    obtain rfl := Option.some.inj success
    split_ifs at enqueues with ack
    · exact .inl ⟨synRecv, ack⟩
    · simp [tcpSendReset] at enqueues
  · rintro (⟨-, ack⟩ | ⟨other, -⟩)
    · refine ⟨.inl ack, _, (tcpProcess_loud opened rst syn (.inl ack)).trans (if_pos synRecv), ?_⟩
      simp [tcpStateSynRecv, ack]
    · simp [synRecv] at other

variable (iss) in
theorem finAcked_iff (finWait1 : tsk.state = .finWait1) :
    (∃ outcome, tcpProcess iss cb tsk = some outcome ∧ outcome.tsk.state = .finWait2) ↔
      Concludes tsk cb := by
  have opened : Open tsk := by simp [Open, finWait1]
  rw [exists_outcome_iff opened (by simp [finWait1]) (by simp [finWait1]) (by simp [finWait1])
    (by simp [finWait1]) (by simp [finWait1]), Concludes]
  refine and_congr_right fun rst => and_congr_right fun syn => ?_
  constructor
  · rintro ⟨flags, -⟩
    exact .inr ⟨.inl finWait1, flags⟩
  · rintro (⟨other, -⟩ | ⟨-, flags⟩)
    · simp [finWait1] at other
    · have runs : tcpProcess iss cb tsk = _ := tcpProcess_loud opened rst syn flags
      rw [if_neg (by simp [finWait1]), if_pos finWait1] at runs
      exact ⟨flags, _, runs, rfl⟩

variable (iss) in
theorem closed_iff (lastAck : tsk.state = .lastAck) :
    (∃ outcome, tcpProcess iss cb tsk = some outcome ∧ outcome.tsk.state = .closed) ↔
      Concludes tsk cb := by
  have opened : Open tsk := by simp [Open, lastAck]
  rw [exists_outcome_iff opened (by simp [lastAck]) (by simp [lastAck]) (by simp [lastAck])
    (by simp [lastAck]) (by simp [lastAck]), Concludes]
  refine and_congr_right fun rst => and_congr_right fun syn => ?_
  constructor
  · rintro ⟨flags, -⟩
    exact .inr ⟨.inr lastAck, flags⟩
  · rintro (⟨other, -⟩ | ⟨-, flags⟩)
    · simp [lastAck] at other
    · have runs : tcpProcess iss cb tsk = _ := tcpProcess_loud opened rst syn flags
      rw [if_neg (by simp [lastAck]), if_neg (by simp [lastAck]), if_neg (by simp [lastAck]),
        if_pos lastAck] at runs
      exact ⟨flags, _, runs, rfl⟩

theorem concludes_state (concludes : Concludes tsk cb) :
    tsk.state = .synRecv ∨ tsk.state = .finWait1 ∨ tsk.state = .lastAck := by
  obtain ⟨-, -, ⟨synRecv, -⟩ | ⟨closing, -⟩⟩ := concludes
  · exact .inl synRecv
  · exact .inr closing

end Closing

/-- For every segment and socket: the closing transitions are acknowledged and segments
outside the window are dropped exactly when a segment with the flags of a transition has
the right `ack`, and one outside the window has flags that do nothing. -/
theorem closes_on_ack (iss : UInt32) (cb : TcpCb) (tsk : TcpSock) :
    ClosesOnAck tsk cb iss ↔
      (Concludes tsk cb → Acknowledges tsk cb) ∧
        (Open tsk → IsTcpSeqValid tsk cb ∨ Inert tsk cb) := by
  constructor
  · intro closes
    refine ⟨fun concludes => ?_, fun opened => ?_⟩
    · rcases concludes_state concludes with synRecv | finWait1 | lastAck
      · obtain ⟨outcome, success, enqueues⟩ := (enqueues_iff iss synRecv).mpr concludes
        exact closes.accepted synRecv outcome success enqueues
      · obtain ⟨outcome, success, moves⟩ := (finAcked_iff iss finWait1).mpr concludes
        exact closes.finAcked finWait1 outcome success moves
      · obtain ⟨outcome, success, moves⟩ := (closed_iff iss lastAck).mpr concludes
        exact closes.closed lastAck outcome success moves
    · by_cases valid : IsTcpSeqValid tsk cb
      · exact .inl valid
      · exact .inr ((tcpProcess_untouched_iff opened).mp (closes.dropped opened valid))
  · rintro ⟨acknowledged, dropped⟩
    refine ⟨fun state outcome success enqueues => ?_, fun state outcome success moves => ?_,
      fun state outcome success moves => ?_, fun opened invalid => ?_⟩
    · exact acknowledged ((enqueues_iff iss state).mp ⟨outcome, success, enqueues⟩)
    · exact acknowledged ((finAcked_iff iss state).mp ⟨outcome, success, moves⟩)
    · exact acknowledged ((closed_iff iss state).mp ⟨outcome, success, moves⟩)
    · exact (tcpProcess_untouched_iff opened).mpr ((dropped opened).resolve_left invalid)

def closingSock : TcpSock :=
  { allocTcpSock with state := .finWait1, sndUna := 100, sndNxt := 101, rcvNxt := 500 }

def staleAck : TcpCb :=
  { saddr := 0, daddr := 0, sport := 0, dport := 0, seq := 500, seqEnd := 500, ack := 100,
    payload := [], plLen := 0, rwnd := 65535, flags := TCP_ACK }

theorem stale_ack_moves : ¬ ClosesOnAck closingSock staleAck 0 := by
  intro closes
  have acknowledged : closingSock.sndNxt = 100 := (closes.finAcked rfl _ rfl rfl).2.symm
  revert acknowledged
  decide

end NetworkLab.Tcp
