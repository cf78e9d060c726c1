import NetworkLab.Lib.Run
import NetworkLab.Tcp.Stream
import NetworkLab.Tcp16.Process

/-!
# Receiving data without retransmission

What `tcp_rcv_data_packet` takes from `rcv_wnd` is never given back by `tcp_sock_read`,
and the branch of `tcp_process` that calls it leaves `rcv_nxt` where it was.
-/
set_option autoImplicit false

namespace NetworkLab.Tcp16

open Tcp Lib Lib.Run

/-! ## The receive window -/

/-- A socket of `alloc_tcp_sock`, whose fields besides window and buffer the handshake has set. -/
def fromAlloc (tsk : TcpSock) : TcpSock :=
  { tsk with rcvWnd := allocTcpSock.rcvWnd, rcvBuf := allocTcpSock.rcvBuf }

inductive WindowEvent
  | segment (cb : TcpCb) (iss : UInt32)
  | read (len : Nat)

def windowStep (tsk : TcpSock) : WindowEvent → Option TcpSock
  | .segment cb iss => (tcpProcess iss cb tsk).map Outcome.tsk
  | .read len => some (tcpSockRead len tsk).2

/-- Window and buffered bytes add up to what they were at first. -/
def WindowConserved (tsk : TcpSock) : Prop :=
  tsk.rcvWnd.toNat + tsk.rcvBuf.ringBufferUsed = TCP_DEFAULT_WINDOW

structure WindowKept (tsk : TcpSock) : Prop where
  conserved : WindowConserved tsk
  reopened : tsk.rcvBuf.ringBufferEmpty = true → tsk.rcvWnd = UInt16.ofNat TCP_DEFAULT_WINDOW
  bounded : tsk.rcvWnd.toNat ≤ tsk.rcvBuf.ringBufferFree

def TakesNothing (tsk : TcpSock) : WindowEvent → Prop
  | .segment _ _ => True
  | .read len => tsk.rcvBuf.ringBufferUsed = 0 ∨ len = 0

section

variable {tsk next : TcpSock} {cb : TcpCb} {iss : UInt32} {outcome : Outcome}

theorem tcpSendControlPacket_receiving (flags : UInt8) (tsk : TcpSock) :
    (tcpSendControlPacket flags tsk).tsk.rcvWnd = tsk.rcvWnd ∧
      (tcpSendControlPacket flags tsk).tsk.rcvBuf = tsk.rcvBuf := by
  simp only [tcpSendControlPacket]
  split_ifs <;> exact ⟨rfl, rfl⟩

theorem tcpProcessAck_receiving (cb : TcpCb) (tsk : TcpSock) :
    (tcpProcessAck cb tsk).tsk.rcvWnd = tsk.rcvWnd ∧
      (tcpProcessAck cb tsk).tsk.rcvBuf = tsk.rcvBuf := by
  unfold tcpProcessAck tcpStateSynRecv
  split
  · split_ifs <;> exact ⟨rfl, rfl⟩
  · split_ifs
    · exact tcpSendControlPacket_receiving _ (tcpSetState .finWait2 tsk)
    · exact ⟨rfl, rfl⟩
  · split_ifs
    · exact tcpSendControlPacket_receiving _ (tcpSetState .timeWait tsk)
    · exact ⟨rfl, rfl⟩
  · split_ifs
    · exact tcpSendControlPacket_receiving _ (tcpSetState .closeWait tsk)
    · exact ⟨rfl, rfl⟩
    · exact ⟨rfl, rfl⟩
  · exact tcpSendControlPacket_receiving _ (tcpSetState .lastAck tsk)
  · split_ifs <;> exact ⟨rfl, rfl⟩
  · exact ⟨rfl, rfl⟩

theorem tcpStateSynSent_receiving (cb : TcpCb) (tsk : TcpSock) :
    (tcpStateSynSent cb tsk).tsk.rcvWnd = tsk.rcvWnd ∧
      (tcpStateSynSent cb tsk).tsk.rcvBuf = tsk.rcvBuf := by
  unfold tcpStateSynSent
  split_ifs
  · exact tcpSendControlPacket_receiving TCP_ACK
      { tsk with rcvNxt := cb.seqEnd, sndUna := cb.ack }
  · exact ⟨rfl, rfl⟩

/-- Window and buffer change only when a data segment is written. -/
theorem tcpProcess_receiving (success : tcpProcess iss cb tsk = some outcome) :
    outcome.tsk.rcvWnd = tsk.rcvWnd ∧ outcome.tsk.rcvBuf = tsk.rcvBuf ∨
      tsk.rcvBuf.writeRingBuffer cb.payload cb.plLen = some outcome.tsk.rcvBuf ∧
        outcome.tsk.rcvWnd = tsk.rcvWnd - UInt16.ofInt cb.plLen := by
  unfold tcpProcess at success
  by_cases closed : tsk.state = .closed
  · rw [if_pos closed] at success
    cases Option.some.inj success
    exact .inl ⟨rfl, rfl⟩
  rw [if_neg closed] at success
  by_cases listen : tsk.state = .listen
  · rw [if_pos listen] at success
    cases Option.some.inj success
    left
    unfold tcpStateListen
    split_ifs <;> exact ⟨rfl, rfl⟩
  rw [if_neg listen] at success
  by_cases synSent : tsk.state = .synSent
  · rw [if_pos synSent] at success
    cases Option.some.inj success
    exact .inl (tcpStateSynSent_receiving cb tsk)
  rw [if_neg synSent] at success
  by_cases invalid : ¬ IsTcpSeqValid tsk cb
  · rw [if_pos invalid] at success
    cases Option.some.inj success
    exact .inl ⟨rfl, rfl⟩
  rw [if_neg invalid] at success
  by_cases rst : hasFlag cb.flags TCP_RST
  · rw [if_pos rst] at success
    cases Option.some.inj success
    exact .inl ⟨rfl, rfl⟩
  rw [if_neg rst] at success
  by_cases syn : hasFlag cb.flags TCP_SYN
  · rw [if_pos syn] at success
    cases Option.some.inj success
    exact .inl ⟨rfl, rfl⟩
  rw [if_neg syn] at success
  by_cases noAck : (!hasFlag cb.flags TCP_ACK) = true
  · rw [if_pos noAck] at success
    cases Option.some.inj success
    exact .inl ⟨rfl, rfl⟩
  rw [if_neg noAck] at success
  by_cases data : tsk.state = .established ∧ cb.flags = TCP_PSH ||| TCP_ACK
  · rw [if_pos data] at success
    obtain ⟨written, isWritten, rfl⟩ := Option.map_eq_some_iff.mp success
    obtain ⟨rcvBuf, wrote, result⟩ := Option.bind_eq_some_iff.mp isWritten
    cases Option.some.inj result
    have kept := tcpSendControlPacket_receiving TCP_ACK
      { tsk with rcvBuf := rcvBuf, rcvWnd := tsk.rcvWnd - UInt16.ofInt cb.plLen }
    right
    constructor
    · rw [wrote]
      exact congrArg some kept.2.symm
    · exact kept.1
  · rw [if_neg data] at success
    cases Option.some.inj success
    exact .inl (tcpProcessAck_receiving cb { tsk with sndUna := cb.ack, rcvNxt := cb.seqEnd })

theorem windowStep_size {event : WindowEvent} (size : tsk.rcvBuf.size = TCP_DEFAULT_WINDOW)
    (taken : windowStep tsk event = some next) : next.rcvBuf.size = TCP_DEFAULT_WINDOW := by
  cases event with
  | segment cb iss =>
      obtain ⟨outcome, success, rfl⟩ := Option.map_eq_some_iff.mp taken
      rcases tcpProcess_receiving success with ⟨-, same⟩ | ⟨wrote, -⟩
      · rw [same]
        exact size
      · rw [(RingBuffer.writeRingBuffer_some wrote).2.2.1]
        exact size
  | read len =>
      obtain rfl := Option.some.inj taken
      exact size

/-- A segment that is written fits into the window, so nothing wraps. -/
theorem windowConserved_write {rcvBuf : RingBuffer} (size : tsk.rcvBuf.size = TCP_DEFAULT_WINDOW)
    (conserved : WindowConserved tsk)
    (wrote : tsk.rcvBuf.writeRingBuffer cb.payload cb.plLen = some rcvBuf) :
    (tsk.rcvWnd - UInt16.ofInt cb.plLen).toNat + rcvBuf.ringBufferUsed = TCP_DEFAULT_WINDOW := by
  have partition := tsk.rcvBuf.used_add_free
  have room : cb.plLen ≤ tsk.rcvBuf.ringBufferFree := by
    unfold RingBuffer.writeRingBuffer at wrote
    split_ifs at wrote with fits
    exact fits.2.1
  obtain ⟨positive, available, -, contents⟩ := RingBuffer.writeRingBuffer_some wrote
  have used := congrArg List.length contents
  rw [List.length_append, List.length_take, RingBuffer.length_contents,
    RingBuffer.length_contents] at used
  have below := tsk.rcvWnd.toNat_lt
  unfold WindowConserved TCP_DEFAULT_WINDOW at *
  rw [UInt16.toNat_sub, UInt16.ofInt, UInt16.toNat_ofNat']
  omega

theorem windowStep_conserved_iff {event : WindowEvent}
    (size : tsk.rcvBuf.size = TCP_DEFAULT_WINDOW) (conserved : WindowConserved tsk)
    (taken : windowStep tsk event = some next) :
    WindowConserved next ↔ TakesNothing tsk event := by
  cases event with
  | segment cb iss =>
      obtain ⟨outcome, success, rfl⟩ := Option.map_eq_some_iff.mp taken
      apply iff_of_true _ trivial
      rcases tcpProcess_receiving success with ⟨window, buffer⟩ | ⟨wrote, window⟩
      · rw [WindowConserved, window, buffer]
        exact conserved
      · rw [WindowConserved, window]
        exact windowConserved_write size conserved wrote
  | read len =>
      obtain rfl := Option.some.inj taken
      have used := RingBuffer.readRingBuffer_used tsk.rcvBuf len
      have takes : WindowConserved (tcpSockRead len tsk).2 ↔
          tsk.rcvWnd.toNat + (tsk.rcvBuf.readRingBuffer len).2.ringBufferUsed =
            TCP_DEFAULT_WINDOW := Iff.rfl
      rw [takes, used, TakesNothing]
      unfold WindowConserved at conserved
      omega

theorem alloc_window_exceeds :
    ¬ allocTcpSock.rcvWnd.toNat ≤ allocTcpSock.rcvBuf.ringBufferFree := by decide

theorem alloc_windowConserved : WindowConserved allocTcpSock := by
  unfold WindowConserved
  decide

/-- Window and buffered bytes add up to the same number exactly as long as nothing is
read; and the window is larger than the free space from the beginning. -/
theorem receive_window_lost (tsk : TcpSock) (events : List WindowEvent) :
    ¬ Always windowStep WindowKept (fromAlloc tsk) events ∧
      (Always windowStep WindowConserved (fromAlloc tsk) events ↔
        Guarded windowStep TakesNothing (fromAlloc tsk) events) := by
  constructor
  · intro always
    exact alloc_window_exceeds (always_first windowStep always).bounded
  · have preserved : ∀ before event next, before.rcvBuf.size = TCP_DEFAULT_WINDOW →
        windowStep before event = some next → next.rcvBuf.size = TCP_DEFAULT_WINDOW :=
      fun _ _ _ => windowStep_size
    apply always_iff_guarded windowStep preserved
    · intro before event next size conserved taken
      exact windowStep_conserved_iff size conserved taken
    · intro before event _ stuck
      cases event with
      | segment cb iss => trivial
      | read len => cases stuck
    · rfl
    · exact alloc_windowConserved

def oneByte : TcpCb :=
  { saddr := 0, daddr := 0, sport := 0, dport := 0, seq := 0, seqEnd := 1, ack := 0,
    payload := [7], plLen := 1, rwnd := 0, flags := TCP_PSH ||| TCP_ACK }

/-- A byte arrives and is read: the buffer is empty, and the window one smaller. -/
theorem window_not_reopened :
    ¬ ∀ (tsk : TcpSock) (events : List WindowEvent),
      Always windowStep WindowKept (fromAlloc tsk) events := by
  intro always
  have shrunk : ∃ tsk ∈ run windowStep (fromAlloc { allocTcpSock with state := .established })
      [.segment oneByte 0, .read 1],
      tsk.rcvBuf.ringBufferEmpty = true ∧ tsk.rcvWnd = 65534 := by decide
  obtain ⟨tsk, success, empty, window⟩ := shrunk
  have reopened := (always_last windowStep _ (always _ _) success).reopened empty
  rw [window] at reopened
  exact absurd reopened (by decide)

end

/-! ## A stream that arrives in order, with repeats -/

section

variable {segments : List (List UInt8)}

/-- The socket, how many segments of the stream have arrived, and what the last call did. -/
structure Arriving where
  tsk : TcpSock
  received : Nat
  effects : List Effect

/-- Segment `i` of the stream that starts at `first` arrives, the next one or one that has
arrived before; `other` are the rest of its fields. -/
def arriveStep (first : UInt32) (segments : List (List UInt8)) (iss : UInt32) (arriving : Arriving)
    (event : Fin segments.length × TcpCb) : Option Arriving :=
  if event.1 ≤ arriving.received then
    (tcpProcess iss (segmentCb first segments event.1 event.2) arriving.tsk).map fun outcome =>
      { tsk := outcome.tsk, received := max arriving.received (event.1 + 1),
        effects := outcome.effects }
  else none

/-- Each arrival is the next segment or a repeated one. -/
def InTurn : Nat → List (Fin segments.length) → Prop
  | _, [] => True
  | received, i :: rest => i ≤ received ∧ InTurn (max received (i + 1)) rest

/-- What has arrived is written once and in order. -/
def WrittenOnce (segments : List (List UInt8)) (base : List UInt8) (arriving : Arriving) : Prop :=
  arriving.tsk.rcvBuf.contents = base ++ upTo segments arriving.received

/-- The ACK that is sent carries the number behind what has arrived. -/
def Acknowledged (first : UInt32) (segments : List (List UInt8)) (arriving : Arriving) : Prop :=
  ∃ packet, .ipSendPacket packet ∈ arriving.effects ∧ packet.flags = TCP_ACK ∧
    packet.ack = seqOf first segments arriving.received

/-- A new segment passes `is_tcp_seq_valid` and fits, one that is repeated or empty does
not pass. -/
def TellsApart (first : UInt32) (segments : List (List UInt8)) (arriving : Arriving)
    (event : Fin segments.length × TcpCb) : Prop :=
  event.1 ≤ arriving.received ∧
    if event.1 = arriving.received ∧ segments[event.1] ≠ [] then
      IsTcpSeqValid arriving.tsk (segmentCb first segments event.1 event.2) ∧
        segments[event.1].length ≤ arriving.tsk.rcvBuf.ringBufferFree
    else ¬ IsTcpSeqValid arriving.tsk (segmentCb first segments event.1 event.2)

/-- A data segment on an established connection is dropped, or written and acknowledged
with the old `rcv_nxt`. -/
theorem tcpProcess_data {first iss : UInt32} {i : Fin segments.length} {other : TcpCb}
    {tsk : TcpSock} (established : tsk.state = .established) :
    tcpProcess iss (segmentCb first segments i other) tsk =
      if IsTcpSeqValid tsk (segmentCb first segments i other) then
        (tcpRcvDataPacket (segmentCb first segments i other) tsk).map fun outcome =>
          outcome.andThen (tcpSendControlPacket TCP_ACK)
      else some tsk.done := by
  have rst : hasFlag (TCP_PSH ||| TCP_ACK) TCP_RST = false := by decide
  have syn : hasFlag (TCP_PSH ||| TCP_ACK) TCP_SYN = false := by decide
  have ack : hasFlag (TCP_PSH ||| TCP_ACK) TCP_ACK = true := by decide
  have flags : (segmentCb first segments i other).flags = TCP_PSH ||| TCP_ACK := rfl
  unfold tcpProcess
  simp only [established, flags, rst, syn, ack, reduceCtorEq, if_false, Bool.false_eq_true,
    Bool.not_true, and_self, if_true, ite_not]

theorem tcpRcvDataPacket_some {first : UInt32} {i : Fin segments.length} {other : TcpCb}
    {tsk : TcpSock} {outcome : Outcome}
    (success : tcpRcvDataPacket (segmentCb first segments i other) tsk = some outcome) :
    segments.get i ≠ [] ∧ (segments.get i).length ≤ tsk.rcvBuf.ringBufferFree ∧
      outcome.tsk.state = tsk.state ∧ outcome.tsk.rcvNxt = tsk.rcvNxt ∧
      outcome.tsk.rcvBuf.contents = tsk.rcvBuf.contents ++ segments.get i ∧
      outcome.effects = [.wakeUp .waitRecv] := by
  obtain ⟨rcvBuf, wrote, result⟩ := Option.bind_eq_some_iff.mp success
  obtain rfl := Option.some.inj result
  have room : ((segments.get i).length : Int) ≤ tsk.rcvBuf.ringBufferFree := by
    unfold RingBuffer.writeRingBuffer at wrote
    split_ifs at wrote with fits
    exact fits.2.1
  obtain ⟨positive, -, -, contents⟩ := RingBuffer.writeRingBuffer_some wrote
  have nonempty : 0 < ((segments.get i).length : Int) := positive
  have whole : (segments.get i).take ((segments.get i).length : Int).toNat = segments.get i := by
    rw [Int.toNat_natCast, List.take_length]
  refine ⟨List.ne_nil_of_length_pos (by omega), by omega, rfl, rfl, ?_, rfl⟩
  rw [contents]
  exact congrArg (tsk.rcvBuf.contents ++ ·) whole

theorem tcpRcvDataPacket_fits {first : UInt32} {i : Fin segments.length} {other : TcpCb}
    {tsk : TcpSock} (nonempty : segments.get i ≠ [])
    (room : (segments.get i).length ≤ tsk.rcvBuf.ringBufferFree) :
    ∃ outcome, tcpRcvDataPacket (segmentCb first segments i other) tsk = some outcome := by
  have positive : 0 < (segments.get i).length := List.length_pos_iff.mpr nonempty
  have plLen : (segmentCb first segments i other).plLen = (segments.get i).length := rfl
  have payload : (segmentCb first segments i other).payload.length = (segments.get i).length := rfl
  have fits : 0 < (segmentCb first segments i other).plLen ∧
      (segmentCb first segments i other).plLen ≤ tsk.rcvBuf.ringBufferFree ∧
      (segmentCb first segments i other).plLen ≤
        (segmentCb first segments i other).payload.length := by omega
  simp [tcpRcvDataPacket, RingBuffer.writeRingBuffer, fits]

theorem arriveStep_cases {first iss : UInt32} {arriving next : Arriving}
    {event : Fin segments.length × TcpCb} (established : arriving.tsk.state = .established)
    (taken : arriveStep first segments iss arriving event = some next) :
    event.1 ≤ arriving.received ∧ next.received = max arriving.received (event.1 + 1) ∧
      next.tsk.state = .established ∧ next.tsk.rcvNxt = arriving.tsk.rcvNxt ∧
      (¬ IsTcpSeqValid arriving.tsk (segmentCb first segments event.1 event.2) ∧
        next.tsk = arriving.tsk ∧ next.effects = [] ∨
      IsTcpSeqValid arriving.tsk (segmentCb first segments event.1 event.2) ∧
        segments[event.1] ≠ [] ∧
        segments[event.1].length ≤ arriving.tsk.rcvBuf.ringBufferFree ∧
        next.tsk.rcvBuf.contents = arriving.tsk.rcvBuf.contents ++ segments[event.1] ∧
        ∀ packet, .ipSendPacket packet ∈ next.effects → packet.ack = arriving.tsk.rcvNxt) := by
  unfold arriveStep at taken
  split_ifs at taken with inTurn
  obtain ⟨outcome, success, rfl⟩ := Option.map_eq_some_iff.mp taken
  rw [tcpProcess_data established] at success
  refine ⟨inTurn, rfl, ?_⟩
  split_ifs at success with valid
  · obtain ⟨written, isWritten, rfl⟩ := Option.map_eq_some_iff.mp success
    obtain ⟨nonempty, room, state, rcvNxt, contents, effects⟩ := tcpRcvDataPacket_some isWritten
    have noFlag : hasFlag TCP_ACK (TCP_SYN ||| TCP_FIN) = false := by decide
    have same : (tcpSendControlPacket TCP_ACK written.tsk).tsk = written.tsk := by
      simp [tcpSendControlPacket, noFlag]
    refine ⟨?_, ?_, .inr ⟨valid, nonempty, room, ?_, ?_⟩⟩
    · exact (congrArg TcpSock.state same).trans (state.trans established)
    · exact (congrArg TcpSock.rcvNxt same).trans rcvNxt
    · exact (congrArg (fun tsk => tsk.rcvBuf.contents) same).trans contents
    · intro packet member
      have sent : packet = buildSegment written.tsk TCP_ACK [] := by
        simpa [Outcome.andThen, effects, tcpSendControlPacket] using member
      rw [sent]
      exact rcvNxt
  · obtain rfl := Option.some.inj success
    exact ⟨established, rfl, .inl ⟨valid, rfl, rfl⟩⟩

/-- What was written stays right exactly when the sequence check tells new segments from
repeated ones. -/
theorem arriveStep_written_iff {first iss : UInt32} {base : List UInt8} {arriving : Arriving}
    {event : Fin segments.length × TcpCb} (established : arriving.tsk.state = .established)
    (written : WrittenOnce segments base arriving) :
    (∃ next, arriveStep first segments iss arriving event = some next ∧
      WrittenOnce segments base next) ↔ TellsApart first segments arriving event := by
  have grown : event.1 = arriving.received → upTo segments (max arriving.received (event.1 + 1)) =
      upTo segments arriving.received ++ segments[event.1] := by
    intro new
    rw [← new, Nat.max_eq_right (Nat.le_succ _)]
    exact upTo_succ segments event.1
  have same : event.1 < arriving.received → max arriving.received (event.1 + 1) =
      arriving.received := fun repeated => Nat.max_eq_left repeated
  constructor
  · rintro ⟨next, taken, writtenNext⟩
    obtain ⟨inTurn, received, -, -, dropped | accepted⟩ := arriveStep_cases established taken
    · obtain ⟨invalid, unchanged, -⟩ := dropped
      refine ⟨inTurn, ?_⟩
      rw [if_neg]
      · exact invalid
      · rintro ⟨new, nonempty⟩
        rw [WrittenOnce, unchanged, received, grown new, ← List.append_assoc, ← written] at writtenNext
        exact nonempty (List.self_eq_append_right.mp writtenNext)
    · obtain ⟨valid, nonempty, room, contents, -⟩ := accepted
      refine ⟨inTurn, ?_⟩
      rw [if_pos]
      · exact ⟨valid, room⟩
      · refine ⟨?_, nonempty⟩
        by_contra old
        rw [WrittenOnce, contents, received, same (by omega), ← written] at writtenNext
        exact nonempty (List.append_right_eq_self.mp writtenNext)
  · rintro ⟨inTurn, apart⟩
    have step : arriveStep first segments iss arriving event =
        (tcpProcess iss (segmentCb first segments event.1 event.2) arriving.tsk).map fun outcome =>
          { tsk := outcome.tsk, received := max arriving.received (event.1 + 1),
            effects := outcome.effects } := by
      rw [arriveStep, if_pos inTurn]
    split_ifs at apart with new
    · obtain ⟨valid, room⟩ := apart
      obtain ⟨outcome, isWritten⟩ : ∃ outcome, tcpRcvDataPacket
          (segmentCb first segments event.1 event.2) arriving.tsk = some outcome :=
        tcpRcvDataPacket_fits new.2 room
      rw [tcpProcess_data established, if_pos valid, isWritten] at step
      obtain ⟨-, received, -, -, ⟨invalid, -⟩ | ⟨-, -, -, contents, -⟩⟩ :=
        arriveStep_cases established step
      · exact absurd valid invalid
      · refine ⟨_, step, ?_⟩
        rw [WrittenOnce, contents, received, grown new.1, ← List.append_assoc, ← written]
    · rw [tcpProcess_data established, if_neg apart] at step
      refine ⟨_, step, ?_⟩
      rcases Nat.lt_or_eq_of_le inTurn with repeated | isNext
      · change arriving.tsk.rcvBuf.contents = _
        rw [same repeated]
        exact written
      · have empty : segments[event.1] = [] := by
          by_contra nonempty
          exact new ⟨isNext, nonempty⟩
        change arriving.tsk.rcvBuf.contents = _
        rw [grown isNext, empty, List.append_nil]
        exact written

/-- No arrival is acknowledged rightly: the ACK carries the number of the first byte. -/
theorem not_acknowledged {iss : UInt32} {tsk : TcpSock} {next : Arriving}
    {event : Fin segments.length × TcpCb} (established : tsk.state = .established)
    (small : ∀ segment ∈ segments, IP_BASE_HDR_SIZE + TCP_BASE_HDR_SIZE + segment.length < 65536)
    (taken : arriveStep tsk.rcvNxt segments iss ⟨tsk, 0, []⟩ event = some next) :
    ¬ Acknowledged tsk.rcvNxt segments next := by
  rintro ⟨packet, sent, -, ack⟩
  obtain ⟨inTurn, received, -, -, ⟨-, -, effects⟩ | ⟨-, nonempty, -, -, acks⟩⟩ :=
    arriveStep_cases established taken
  · rw [effects] at sent
    cases sent
  · have isFirst : event.1.val = 0 := Nat.le_zero.mp inTurn
    have upToOne : upTo segments next.received = segments[event.1] := by
      have grown := upTo_succ segments event.1
      have nothing : upTo segments event.1 = [] := by simp [upTo, isFirst]
      have count : next.received = event.1 + 1 := by rw [received, Nat.zero_max]
      rw [count, grown, nothing, List.nil_append]
    have length := small segments[event.1] (List.getElem_mem _)
    have positive := List.length_pos_iff.mpr nonempty
    rw [acks packet sent, seqOf, upToOne] at ack
    have zero := congrArg (fun n => (n - tsk.rcvNxt).toNat) ack
    simp only [UInt32.sub_self, UInt32.toNat_zero, UInt32.add_comm tsk.rcvNxt,
      UInt32.add_sub_cancel, UInt32.toNat_ofNat'] at zero
    unfold IP_BASE_HDR_SIZE TCP_BASE_HDR_SIZE at length
    omega

/-- No arrival sequence is written once and acknowledged rightly, but the empty one; and
what is written is right exactly as long as `is_tcp_seq_valid` tells new segments from
repeated ones. -/
theorem exactly_once_in_turn (iss : UInt32) (tsk : TcpSock) (established : tsk.state = .established)
    (segments : List (List UInt8))
    (small : ∀ segment ∈ segments, IP_BASE_HDR_SIZE + TCP_BASE_HDR_SIZE + segment.length < 65536)
    (arrivals : List (Fin segments.length × TcpCb)) :
    (Completes (arriveStep tsk.rcvNxt segments iss) (fun arriving =>
        WrittenOnce segments tsk.rcvBuf.contents arriving ∧
          Acknowledged tsk.rcvNxt segments arriving) ⟨tsk, 0, []⟩ arrivals ↔ arrivals = []) ∧
      (Completes (arriveStep tsk.rcvNxt segments iss)
          (WrittenOnce segments tsk.rcvBuf.contents) ⟨tsk, 0, []⟩ arrivals ↔
        Guarded (arriveStep tsk.rcvNxt segments iss) (TellsApart tsk.rcvNxt segments)
          ⟨tsk, 0, []⟩ arrivals) := by
  constructor
  · cases arrivals with
    | nil => exact iff_of_true trivial rfl
    | cons event rest =>
        apply iff_of_false
        · rintro ⟨next, taken, ⟨-, acknowledged⟩, -⟩
          exact not_acknowledged established small taken acknowledged
        · exact List.cons_ne_nil event rest
  · have preserved : ∀ arriving event next, arriving.tsk.state = .established →
        arriveStep tsk.rcvNxt segments iss arriving event = some next →
          next.tsk.state = .established :=
      fun _ _ _ established taken => (arriveStep_cases established taken).2.2.1
    apply completes_iff_guarded (arriveStep tsk.rcvNxt segments iss) preserved
    · intro arriving event established written
      exact arriveStep_written_iff established written
    · exact established
    · simp [WrittenOnce, upTo]

end

def openSock : TcpSock := { allocTcpSock with state := .established }

def shortStream : List (List UInt8) := [[1, 2], [3]]

def firstSegment : Fin shortStream.length := ⟨0, Nat.zero_lt_succ _⟩

theorem exactly_once_in_turn_short :
    (Completes (arriveStep openSock.rcvNxt shortStream 0) (fun arriving =>
        WrittenOnce shortStream openSock.rcvBuf.contents arriving ∧
          Acknowledged openSock.rcvNxt shortStream arriving) ⟨openSock, 0, []⟩
        [(firstSegment, oneByte)] ↔ [(firstSegment, oneByte)] = []) ∧
      (Completes (arriveStep openSock.rcvNxt shortStream 0)
          (WrittenOnce shortStream openSock.rcvBuf.contents) ⟨openSock, 0, []⟩
          [(firstSegment, oneByte)] ↔
        Guarded (arriveStep openSock.rcvNxt shortStream 0) (TellsApart openSock.rcvNxt shortStream)
          ⟨openSock, 0, []⟩ [(firstSegment, oneByte)]) :=
  exactly_once_in_turn 0 openSock rfl shortStream (by decide) _

/-- The ACK of the first segment, two bytes from number 0 on, carries 0. -/
theorem first_ack_is_old :
    ¬ ∀ arrivals : List (Fin shortStream.length × TcpCb), InTurn 0 (arrivals.map Prod.fst) →
      Completes (arriveStep openSock.rcvNxt shortStream 0) (fun arriving =>
        WrittenOnce shortStream openSock.rcvBuf.contents arriving ∧
          Acknowledged openSock.rcvNxt shortStream arriving) ⟨openSock, 0, []⟩ arrivals := by
  intro completes
  have inTurn : InTurn 0 ([(firstSegment, oneByte)].map Prod.fst) := ⟨Nat.le_refl 0, trivial⟩
  obtain ⟨next, taken, ⟨-, acknowledged⟩, -⟩ := completes [(firstSegment, oneByte)] inTurn
  exact not_acknowledged rfl (by decide) taken acknowledged

end NetworkLab.Tcp16
