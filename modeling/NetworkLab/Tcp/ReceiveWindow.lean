import NetworkLab.Tcp.FinOrder

/-!
# The window that is advertised

`rcv_wnd` is 65535 in every header, whatever `rcv_buf` holds, and the ring buffer takes one
byte less.  A peer that stays below the right edge that was advertised last can still
send more than fits: `write_ring_buffer` aborts exactly when the unread bytes, a payload and
the buffered packets that follow on from it are 65535 bytes or more.
-/
set_option autoImplicit false

namespace NetworkLab.Tcp

open Lib Lib.Run

structure Windowed where
  tsk : TcpSock
  edge : UInt32

inductive ArrivalEvent
  | segment (cb : TcpCb) (iss : UInt32)
  | read (len : Nat)
  | send (payload : List UInt8)
  | close

/-- The headers of resets are not those of the socket. -/
def advertise (edge : UInt32) : Effect → UInt32
  | .ipSendPacket packet =>
    if hasFlag packet.flags TCP_RST then edge else packet.ack + packet.rwnd.toUInt32
  | _ => edge

/-- What `tcp_cb_init` makes of a packet whose lengths agree. -/
def WellFormed (cb : TcpCb) : Prop :=
  cb.plLen = cb.payload.length ∧
    cb.seqEnd = cb.seq + UInt32.ofInt cb.plLen +
      if hasFlag cb.flags (TCP_SYN ||| TCP_FIN) then 1 else 0

instance (cb : TcpCb) : Decidable (WellFormed cb) := inferInstanceAs (Decidable (_ ∧ _))

/-- The payload ends at the edge or before it. -/
def Respects (edge : UInt32) (cb : TcpCb) : Prop :=
  cb.plLen = 0 ∨ lessOrEqual32b (cb.seq + UInt32.ofInt cb.plLen) edge

instance (edge : UInt32) (cb : TcpCb) : Decidable (Respects edge cb) :=
  inferInstanceAs (Decidable (_ ∨ _))

def arrivalStep (windowed : Windowed) : ArrivalEvent → Option Windowed
  | .segment cb iss =>
    if WellFormed cb ∧ Respects windowed.edge cb then
      (tcpProcess iss cb windowed.tsk).map fun outcome =>
        { tsk := outcome.tsk, edge := outcome.effects.foldl advertise windowed.edge }
    else none
  | .read len => some { windowed with tsk := (tcpSockRead len windowed.tsk).2 }
  | .send payload =>
    let outcome := tcpSendPacket windowed.tsk payload
    some { tsk := outcome.tsk, edge := outcome.effects.foldl advertise windowed.edge }
  | .close =>
    let outcome := tcpSockClose windowed.tsk
    some { tsk := outcome.tsk, edge := outcome.effects.foldl advertise windowed.edge }

/-- A socket of `alloc_tcp_sock` whose handshake has advertised the whole window. -/
def openWindow (tsk : TcpSock) : Windowed :=
  { tsk :=
      { tsk with
        rcvWnd := allocTcpSock.rcvWnd, rcvBuf := allocTcpSock.rcvBuf,
        rcvOfoBuf := allocTcpSock.rcvOfoBuf },
    edge := tsk.rcvNxt + allocTcpSock.rcvWnd.toUInt32 }

/-- No assertion of `write_ring_buffer` fails.  The payloads that are read are complete, so
`tcpProcess` cannot fail otherwise. -/
def AssertionHolds (windowed : Windowed) : ArrivalEvent → Prop
  | .segment cb iss => WellFormed cb → Respects windowed.edge cb →
      tcpProcess iss cb windowed.tsk ≠ none
  | .read _ => True
  | .send _ => True
  | .close => True

/-! ## What the traversals of `rcv_ofo_buf` take out -/

/-- The packets that one traversal takes out when `rcv_nxt` is `next`: their bytes, the
number behind them, the packets that stay, and whether there are any. -/
def followingPass : List OfoPacket → UInt32 → Nat × UInt32 × List OfoPacket × Bool
  | [], next => (0, next, [], false)
  | t :: rest, next =>
    if t.seqNum = next then
      let (bytes, last, left, _) := followingPass rest (t.seqNum + UInt32.ofInt t.len)
      (t.len.toNat + bytes, last, left, true)
    else
      let (bytes, last, left, flag) := followingPass rest next
      (bytes, last, t :: left, flag)

/-- The bytes of the packets that follow on from `next`. -/
def following : Nat → List OfoPacket → UInt32 → Nat
  | 0, _, _ => 0
  | fuel + 1, queue, next =>
    let (bytes, last, left, flag) := followingPass queue next
    if flag then bytes + following fuel left last else bytes

/-- The segment comes to the branch for a payload. -/
def ReachesPayload (tsk : TcpSock) (cb : TcpCb) : Prop :=
  Open tsk ∧ tsk.state ≠ .synRecv ∧ tsk.state ≠ .finWait1 ∧ tsk.state ≠ .finWait2 ∧
    tsk.state ≠ .lastAck ∧ hasFlag cb.flags TCP_RST = false ∧ hasFlag cb.flags TCP_SYN = false ∧
    (hasFlag cb.flags TCP_ACK = true ∨ hasFlag cb.flags TCP_FIN = true) ∧ cb.plLen ≠ 0

instance (tsk : TcpSock) : Decidable (Open tsk) :=
  inferInstanceAs (Decidable (_ ∧ _ ∧ _))

instance (tsk : TcpSock) (cb : TcpCb) : Decidable (ReachesPayload tsk cb) :=
  inferInstanceAs (Decidable (_ ∧ _ ∧ _ ∧ _ ∧ _ ∧ _ ∧ _ ∧ (_ ∨ _) ∧ _))

/-- The unread bytes and those that the segment completes stay below the window. -/
def FitsBuffer (windowed : Windowed) : ArrivalEvent → Prop
  | .segment cb _ => WellFormed cb → Respects windowed.edge cb →
      ReachesPayload windowed.tsk cb → cb.seq = windowed.tsk.rcvNxt →
      windowed.tsk.rcvBuf.ringBufferUsed + cb.payload.length +
          following (windowed.tsk.rcvOfoBuf.length + 1) windowed.tsk.rcvOfoBuf cb.seqEnd <
        TCP_DEFAULT_WINDOW
  | .read _ => True
  | .send _ => True
  | .close => True

/-! ## Writing -/

/-- The packets kept for later are complete and not empty. -/
def Complete (queue : List OfoPacket) : Prop :=
  ∀ t ∈ queue, 0 < t.len ∧ t.len = t.packet.length

structure Buffering (tsk : TcpSock) : Prop where
  complete : Complete tsk.rcvOfoBuf
  size : tsk.rcvBuf.size = TCP_DEFAULT_WINDOW

theorem writeRingBuffer_iff (rbuf : RingBuffer) {data : List UInt8} {size : Int}
    (complete : 0 < size ∧ size = data.length) :
    (∃ next, rbuf.writeRingBuffer data size = some next) ↔
      size.toNat ≤ rbuf.ringBufferFree := by
  unfold RingBuffer.writeRingBuffer
  split_ifs with fits
  · exact iff_of_true ⟨_, rfl⟩ (by omega)
  · apply iff_of_false
    · rintro ⟨next, impossible⟩
      cases impossible
    · omega

theorem writeRingBuffer_free {rbuf next : RingBuffer} {data : List UInt8} {size : Int}
    (success : rbuf.writeRingBuffer data size = some next) :
    next.size = rbuf.size ∧ next.ringBufferFree + size.toNat = rbuf.ringBufferFree := by
  have room : size ≤ rbuf.ringBufferFree := by
    unfold RingBuffer.writeRingBuffer at success
    split_ifs at success with fits
    exact fits.2.1
  obtain ⟨positive, available, same, contents⟩ := RingBuffer.writeRingBuffer_some success
  have used := congrArg List.length contents
  rw [List.length_append, List.length_take, RingBuffer.length_contents,
    RingBuffer.length_contents] at used
  have before := rbuf.used_add_free
  have after := next.used_add_free
  rw [same] at after
  exact ⟨same, by omega⟩

section

variable {tsk next : TcpSock} {queue left : List OfoPacket}

theorem followingPass_left (queue : List OfoPacket) (number : UInt32) :
    ∀ t ∈ (followingPass queue number).2.2.1, t ∈ queue := by
  induction queue generalizing number with
  | nil => simp [followingPass]
  | cons t rest ih =>
      intro other member
      simp only [followingPass] at member
      split_ifs at member
      · exact List.mem_cons_of_mem t (ih _ other member)
      · rcases List.mem_cons.mp member with rfl | later
        · exact List.mem_cons_self ..
        · exact List.mem_cons_of_mem t (ih _ other later)

/-- One traversal does what `followingPass` says, unless a write does not fit. -/
theorem drainPass_some {flag : Bool} (success : drainPass queue tsk = some (next, left, flag)) :
    next.rcvNxt = (followingPass queue tsk.rcvNxt).2.1 ∧
      left = (followingPass queue tsk.rcvNxt).2.2.1 ∧
      flag = (followingPass queue tsk.rcvNxt).2.2.2 ∧
      next.rcvBuf.size = tsk.rcvBuf.size ∧
      next.rcvBuf.ringBufferFree + (followingPass queue tsk.rcvNxt).1 =
        tsk.rcvBuf.ringBufferFree := by
  induction queue generalizing tsk left flag with
  | nil =>
      obtain ⟨rfl, rfl, rfl⟩ := Option.some.inj success
      exact ⟨rfl, rfl, rfl, rfl, rfl⟩
  | cons t rest ih =>
      unfold drainPass at success
      split_ifs at success with follows
      · obtain ⟨rcvBuf, wrote, success⟩ := Option.bind_eq_some_iff.mp success
        obtain ⟨⟨middle, between, later⟩, passed, result⟩ := Option.bind_eq_some_iff.mp success
        cases Option.some.inj result
        obtain ⟨rcvNxt, sameLeft, -, size, room⟩ := ih passed
        obtain ⟨sameSize, taken⟩ := writeRingBuffer_free wrote
        simp only [followingPass, if_pos follows]
        dsimp only at room
        exact ⟨rcvNxt, sameLeft, trivial, size.trans sameSize, by omega⟩
      · obtain ⟨⟨middle, between, later⟩, passed, result⟩ := Option.bind_eq_some_iff.mp success
        cases Option.some.inj result
        obtain ⟨rcvNxt, sameLeft, sameFlag, size, room⟩ := ih passed
        simp only [followingPass, if_neg follows]
        exact ⟨rcvNxt, congrArg (t :: ·) sameLeft, sameFlag, size, room⟩

theorem drainPass_complete {flag : Bool} (success : drainPass queue tsk = some (next, left, flag))
    (complete : Complete queue) : Complete left := by
  obtain ⟨-, sameLeft, -⟩ := drainPass_some success
  intro t member
  rw [sameLeft] at member
  exact complete t (followingPass_left queue tsk.rcvNxt t member)

theorem drainPass_buffering {flag : Bool}
    (success : drainPass tsk.rcvOfoBuf tsk = some (next, left, flag)) (buffering : Buffering tsk) :
    Buffering { next with rcvOfoBuf := left } := by
  obtain ⟨-, -, -, size, -⟩ := drainPass_some success
  exact ⟨drainPass_complete success buffering.complete, size.trans buffering.size⟩

theorem drainPass_iff (complete : Complete queue) :
    (∃ result, drainPass queue tsk = some result) ↔
      (followingPass queue tsk.rcvNxt).1 ≤ tsk.rcvBuf.ringBufferFree := by
  induction queue generalizing tsk with
  | nil => exact iff_of_true ⟨_, rfl⟩ (Nat.zero_le _)
  | cons t rest ih =>
      obtain ⟨whole, completeRest⟩ := List.forall_mem_cons.mp complete
      unfold drainPass
      by_cases follows : t.seqNum = tsk.rcvNxt
      · simp only [if_pos follows, followingPass]
        have writes := writeRingBuffer_iff tsk.rcvBuf whole
        constructor
        · rintro ⟨result, success⟩
          obtain ⟨rcvBuf, wrote, success⟩ := Option.bind_eq_some_iff.mp success
          obtain ⟨passed, isPassed, -⟩ := Option.bind_eq_some_iff.mp success
          have fits := (ih completeRest).mp ⟨passed, isPassed⟩
          obtain ⟨-, taken⟩ := writeRingBuffer_free wrote
          dsimp only at fits
          omega
        · intro fits
          obtain ⟨rcvBuf, wrote⟩ := writes.mpr (by omega)
          obtain ⟨-, taken⟩ := writeRingBuffer_free wrote
          let written : TcpSock :=
            { tsk with rcvBuf := rcvBuf, rcvNxt := t.seqNum + UInt32.ofInt t.len }
          have room : (followingPass rest written.rcvNxt).1 ≤ written.rcvBuf.ringBufferFree := by
            dsimp only [written]
            omega
          obtain ⟨passed, isPassed⟩ := (ih completeRest).mpr room
          exact ⟨_, Option.bind_eq_some_iff.mpr ⟨rcvBuf, wrote,
            Option.bind_eq_some_iff.mpr ⟨passed, isPassed, rfl⟩⟩⟩
      · simp only [if_neg follows, followingPass]
        rw [← ih completeRest]
        constructor
        · rintro ⟨result, success⟩
          obtain ⟨passed, isPassed, -⟩ := Option.bind_eq_some_iff.mp success
          exact ⟨passed, isPassed⟩
        · rintro ⟨passed, isPassed⟩
          exact ⟨_, Option.bind_eq_some_iff.mpr ⟨passed, isPassed, rfl⟩⟩

theorem drain_buffering {fuel : Nat} {final : TcpSock} (success : drain fuel tsk = some final)
    (buffering : Buffering tsk) : Buffering final := by
  induction fuel generalizing tsk with
  | zero =>
      cases Option.some.inj success
      exact buffering
  | succ fuel ih =>
      unfold drain at success
      obtain ⟨⟨next, left, flag⟩, passed, success⟩ := Option.bind_eq_some_iff.mp success
      have stays := drainPass_buffering passed buffering
      dsimp only at success
      split_ifs at success
      · exact ih success stays
      · cases Option.some.inj success
        exact stays

theorem drain_iff (fuel : Nat) (buffering : Buffering tsk) :
    (∃ final, drain fuel tsk = some final) ↔
      following fuel tsk.rcvOfoBuf tsk.rcvNxt ≤ tsk.rcvBuf.ringBufferFree := by
  induction fuel generalizing tsk with
  | zero => exact iff_of_true ⟨_, rfl⟩ (Nat.zero_le _)
  | succ fuel ih =>
      have passes : (∃ result, drainPass tsk.rcvOfoBuf tsk = some result) ↔ _ :=
        drainPass_iff buffering.complete
      rw [drain, following]
      cases passed : drainPass tsk.rcvOfoBuf tsk with
      | none =>
          simp only [passed, reduceCtorEq, exists_false, false_iff] at passes
          apply iff_of_false
          · simp
          · dsimp only
            split_ifs <;> omega
      | some result =>
          obtain ⟨next, left, flag⟩ := result
          obtain ⟨rcvNxt, sameLeft, sameFlag, -, room⟩ := drainPass_some passed
          have stays := drainPass_buffering passed buffering
          dsimp only [Option.bind_eq_bind, Option.bind_some]
          rw [← sameFlag, ← sameLeft, ← rcvNxt]
          split_ifs with again
          · let drained : TcpSock := { next with rcvOfoBuf := left }
            have later : (∃ final, drain fuel drained = some final) ↔
                following fuel left next.rcvNxt ≤ next.rcvBuf.ringBufferFree := ih stays
            rw [later]
            omega
          · exact iff_of_true ⟨_, rfl⟩ (by omega)

end

/-! ## One segment -/

section Segments

variable {iss : UInt32} {tsk : TcpSock} {cb : TcpCb} {outcome : Outcome}

/-- What is written into `rcv_buf` for a payload at `rcv_nxt` is the payload and the
packets that follow on from it. -/
theorem tcpRcvInOrder_iff (buffering : Buffering tsk)
    (whole : 0 < cb.plLen ∧ cb.plLen = cb.payload.length) :
    tcpRcvInOrder cb tsk ≠ none ↔
      tsk.rcvBuf.ringBufferUsed + cb.payload.length +
          following (tsk.rcvOfoBuf.length + 1) tsk.rcvOfoBuf cb.seqEnd < TCP_DEFAULT_WINDOW := by
  have writes := writeRingBuffer_iff tsk.rcvBuf whole
  have partition := tsk.rcvBuf.used_add_free
  have used := tsk.rcvBuf.used_lt
  rw [buffering.size] at partition used
  unfold tcpRcvInOrder
  cases wrote : tsk.rcvBuf.writeRingBuffer cb.payload cb.plLen with
  | none =>
      simp only [wrote, reduceCtorEq, exists_false, false_iff] at writes
      apply iff_of_false
      · exact fun impossible => impossible rfl
      · omega
  | some rcvBuf =>
      obtain ⟨sameSize, taken⟩ := writeRingBuffer_free wrote
      let written : TcpSock := { tsk with rcvBuf := rcvBuf, rcvNxt := cb.seqEnd }
      have drains : (∃ final, drain (tsk.rcvOfoBuf.length + 1) written = some final) ↔
          following (tsk.rcvOfoBuf.length + 1) tsk.rcvOfoBuf cb.seqEnd ≤
            rcvBuf.ringBufferFree := drain_iff _ ⟨buffering.complete, sameSize.trans buffering.size⟩
      have room : tsk.rcvBuf.ringBufferUsed + cb.payload.length +
            following (tsk.rcvOfoBuf.length + 1) tsk.rcvOfoBuf cb.seqEnd < TCP_DEFAULT_WINDOW ↔
          following (tsk.rcvOfoBuf.length + 1) tsk.rcvOfoBuf cb.seqEnd ≤
            rcvBuf.ringBufferFree := by omega
      rw [room, ← drains, Option.bind_eq_bind, Option.bind_some]
      cases drained : drain (tsk.rcvOfoBuf.length + 1) written with
      | none => simp
      | some final => simp

theorem tcpRcvInOrder_buffering (success : tcpRcvInOrder cb tsk = some outcome)
    (buffering : Buffering tsk) : Buffering outcome.tsk := by
  unfold tcpRcvInOrder at success
  obtain ⟨rcvBuf, wrote, success⟩ := Option.bind_eq_some_iff.mp success
  obtain ⟨drained, drains, result⟩ := Option.bind_eq_some_iff.mp success
  cases Option.some.inj result
  have sameSize := (writeRingBuffer_free wrote).1
  have written := drain_buffering drains ⟨buffering.complete, sameSize.trans buffering.size⟩
  rw [tcpSendControlPacket_ack]
  exact written

theorem tcpProcess_payload (reaches : ReachesPayload tsk cb) : tcpProcess iss cb tsk =
    if cb.seq = tsk.rcvNxt then tcpRcvInOrder cb tsk
    else if cb.seq < tsk.rcvNxt then
      some ((tcpSendControlPacket TCP_ACK tsk).andThen (removeAckData cb.ack))
    else tcpBufferOfo cb tsk := by
  obtain ⟨opened, synRecv, finWait1, finWait2, lastAck, rst, syn, flags, payload⟩ := reaches
  rw [tcpProcess_loud opened rst syn flags, if_neg synRecv, if_neg finWait1, if_neg finWait2,
    if_neg lastAck, tcpRcvSegment, if_pos payload]

theorem acked_receiving (flag : Bool) (ackNum : UInt32) (tsk : TcpSock) :
    SameReceiving tsk (if flag then removeAckData ackNum tsk else tsk.done).tsk := by
  cases flag <;> exact ⟨rfl, rfl, rfl⟩

/-- The two buffers of the receiving side. -/
def SameBuffers (tsk next : TcpSock) : Prop :=
  next.rcvBuf = tsk.rcvBuf ∧ next.rcvOfoBuf = tsk.rcvOfoBuf

theorem SameReceiving.buffers {next : TcpSock} (same : SameReceiving tsk next) :
    SameBuffers tsk next := ⟨same.1, same.2.1⟩

theorem Buffering.of_same {next : TcpSock} (buffering : Buffering tsk)
    (same : SameBuffers tsk next) : Buffering next := by
  constructor
  · rw [same.2]
    exact buffering.complete
  · rw [same.1]
    exact buffering.size

theorem tcpRcvSegment_empty (empty : cb.plLen = 0) (success : tcpRcvSegment cb tsk = some outcome) :
    SameBuffers tsk outcome.tsk := by
  rw [tcpRcvSegment, if_neg (not_not.mpr empty)] at success
  by_cases fin : hasFlag cb.flags TCP_FIN
  · rw [if_pos fin] at success
    cases Option.some.inj success
    have acked := acked_receiving (hasFlag cb.flags TCP_ACK) cb.ack (tcpSetState .closeWait tsk)
    rw [Outcome.andThen_tsk, Outcome.andThen_tsk, tcpSendControlPacket_ack]
    obtain ⟨rcvBuf, rcvOfoBuf, -⟩ := tcpSockClose_receiving
      { (if hasFlag cb.flags TCP_ACK then removeAckData cb.ack (tcpSetState .closeWait tsk)
        else (tcpSetState .closeWait tsk).done).tsk with rcvNxt := cb.seqEnd }
    exact ⟨rcvBuf.trans acked.1, rcvOfoBuf.trans acked.2.1⟩
  · have acked := acked_receiving (hasFlag cb.flags TCP_ACK) cb.ack tsk
    rw [if_neg fin] at success
    by_cases plain : cb.flags ≠ TCP_ACK
    · rw [if_pos plain] at success
      cases Option.some.inj success
      rw [Outcome.andThen_tsk, tcpSendControlPacket_ack]
      exact acked.buffers
    · rw [if_neg plain] at success
      cases Option.some.inj success
      exact acked.buffers

theorem tcpProcess_elsewhere (elsewhere : ¬ ReachesPayload tsk cb) :
    ∃ outcome, tcpProcess iss cb tsk = some outcome ∧ SameBuffers tsk outcome.tsk := by
  have sameClosed := (tcpSockClose_receiving tsk).buffers
  have branch := tcpProcess_branch iss cb tsk
  generalize tcpProcess iss cb tsk = result at branch ⊢
  cases branch with
  | closed state => exact ⟨_, rfl, rfl, rfl⟩
  | listen state =>
      refine ⟨_, rfl, ?_⟩
      unfold tcpStateListen
      split <;> exact ⟨rfl, rfl⟩
  | synSent state =>
      refine ⟨_, rfl, ?_⟩
      unfold tcpStateSynSent
      split
      · exact (tcpSendControlPacket_receiving TCP_ACK _).buffers
      · exact ⟨rfl, rfl⟩
  | opened opened branch =>
      cases branch with
      | reset rst => exact ⟨_, rfl, sameClosed⟩
      | syn syn => exact ⟨_, rfl, sameClosed⟩
      | neither ack fin => exact ⟨_, rfl, rfl, rfl⟩
      | synRecv loud state =>
          refine ⟨_, rfl, ?_⟩
          unfold tcpStateSynRecv
          split <;> exact ⟨rfl, rfl⟩
      | finWait1 state => exact ⟨_, rfl, rfl, rfl⟩
      | finAck state flags => exact ⟨_, rfl, (tcpSendControlPacket_receiving TCP_ACK _).buffers⟩
      | finWait2 state flags => exact ⟨_, rfl, rfl, rfl⟩
      | lastAck state => exact ⟨_, rfl, rfl, rfl⟩
      | segment loud synRecv finWait1 finWait2 lastAck segment =>
          have empty : cb.plLen = 0 := by
            by_contra payload
            exact elsewhere ⟨opened, synRecv, finWait1, finWait2, lastAck, loud.rst, loud.syn,
              loud.flags, payload⟩
          rw [← segment]
          obtain ⟨outcome, success⟩ := Option.ne_none_iff_exists'.mp (tcpRcvSegment_ne_none empty)
          exact ⟨outcome, success, tcpRcvSegment_empty empty success⟩

theorem tcpBufferOfo_buffering (payload : cb.plLen ≠ 0)
    (success : tcpBufferOfo cb tsk = some outcome) (buffering : Buffering tsk) :
    Buffering outcome.tsk := by
  unfold tcpBufferOfo at success
  split_ifs at success with available
  cases Option.some.inj success
  constructor
  · intro t member
    rcases List.mem_append.mp member with old | new
    · exact buffering.complete t old
    · rw [List.mem_singleton.mp new]
      dsimp only
      rw [List.length_take]
      omega
  · exact buffering.size

theorem ReachesPayload.whole (reaches : ReachesPayload tsk cb)
    (payload : cb.plLen = cb.payload.length) : 0 < cb.plLen ∧ cb.plLen = cb.payload.length := by
  obtain ⟨-, -, -, -, -, -, -, -, nonempty⟩ := reaches
  omega

theorem tcpProcess_buffering (buffering : Buffering tsk)
    (success : tcpProcess iss cb tsk = some outcome) : Buffering outcome.tsk := by
  by_cases reaches : ReachesPayload tsk cb
  · obtain ⟨-, -, -, -, -, -, -, -, payload⟩ := id reaches
    rw [tcpProcess_payload reaches] at success
    split_ifs at success with inOrder old
    · exact tcpRcvInOrder_buffering success buffering
    · cases Option.some.inj success
      rw [Outcome.andThen_tsk, tcpSendControlPacket_ack]
      exact buffering.of_same ⟨rfl, rfl⟩
    · exact tcpBufferOfo_buffering payload success buffering
  · obtain ⟨other, passes, same⟩ := tcpProcess_elsewhere reaches
    cases Option.some.inj (passes.symm.trans success)
    exact buffering.of_same same

/-- The assertion fails for a payload that comes in order and does not fit, and for no
other segment whose lengths agree. -/
theorem tcpProcess_ne_none_iff (payload : cb.plLen = cb.payload.length)
    (buffering : Buffering tsk) :
    tcpProcess iss cb tsk ≠ none ↔
      (ReachesPayload tsk cb → cb.seq = tsk.rcvNxt →
        tsk.rcvBuf.ringBufferUsed + cb.payload.length +
            following (tsk.rcvOfoBuf.length + 1) tsk.rcvOfoBuf cb.seqEnd < TCP_DEFAULT_WINDOW) := by
  by_cases reaches : ReachesPayload tsk cb
  · have whole := reaches.whole payload
    rw [tcpProcess_payload reaches]
    split_ifs with inOrder old
    · rw [tcpRcvInOrder_iff buffering whole]
      exact ⟨fun fits _ _ => fits, fun fits => fits reaches inOrder⟩
    · exact iff_of_true (Option.some_ne_none _) fun _ same => absurd same inOrder
    · rw [tcpBufferOfo, if_pos (by omega)]
      exact iff_of_true (Option.some_ne_none _) fun _ same => absurd same inOrder
  · obtain ⟨outcome, passes, -⟩ := tcpProcess_elsewhere reaches
    rw [passes]
    exact iff_of_true (Option.some_ne_none _) fun reached => absurd reached reaches

end Segments

/-! ## Runs -/

theorem arrivalStep_buffering (windowed : Windowed) (event : ArrivalEvent) (next : Windowed)
    (buffering : Buffering windowed.tsk) (taken : arrivalStep windowed event = some next) :
    Buffering next.tsk := by
  cases event with
  | segment cb iss =>
      rw [arrivalStep] at taken
      split_ifs at taken
      obtain ⟨outcome, success, rfl⟩ := Option.map_eq_some_iff.mp taken
      exact tcpProcess_buffering buffering success
  | read len =>
      cases Option.some.inj taken
      exact ⟨buffering.complete, buffering.size⟩
  | send payload =>
      cases Option.some.inj taken
      exact buffering.of_same ⟨rfl, rfl⟩
  | close =>
      cases Option.some.inj taken
      exact buffering.of_same (tcpSockClose_receiving windowed.tsk).buffers

theorem assertionHolds_iff (windowed : Windowed) (event : ArrivalEvent)
    (buffering : Buffering windowed.tsk) :
    AssertionHolds windowed event ↔ FitsBuffer windowed event := by
  cases event with
  | segment cb iss =>
      apply imp_congr_right
      intro wellFormed
      apply imp_congr_right
      intro respects
      exact tcpProcess_ne_none_iff wellFormed.1 buffering
  | read len => exact Iff.rfl
  | send payload => exact Iff.rfl
  | close => exact Iff.rfl

theorem openWindow_buffering (tsk : TcpSock) : Buffering (openWindow tsk).tsk :=
  ⟨fun _ member => absurd member List.not_mem_nil, rfl⟩

/-- A peer that stays below the advertised edge trips the assertion of `write_ring_buffer`
exactly when the unread bytes and those that its segment completes fill the window. -/
theorem receive_window_fits (tsk : TcpSock) (events : List ArrivalEvent) :
    Guarded arrivalStep AssertionHolds (openWindow tsk) events ↔
      Guarded arrivalStep FitsBuffer (openWindow tsk) events :=
  guarded_congr arrivalStep arrivalStep_buffering assertionHolds_iff events
    (openWindow_buffering tsk)

/-- A segment with an ACK that carries `payload` from `number` on. -/
def payloadCb (number : UInt32) (payload : List UInt8) : TcpCb :=
  { bareCb number TCP_ACK (tcpCbInit (buildSegment allocTcpSock TCP_ACK [])) with
    seqEnd := number + UInt32.ofInt payload.length, payload := payload, plLen := payload.length }

/-- The same payload `count` times in order, and no read. -/
def unreadArrivals (payload : List UInt8) : Nat → UInt32 → List ArrivalEvent
  | 0, _ => []
  | count + 1, number => .segment (payloadCb number payload) 0 ::
      unreadArrivals payload count (payloadCb number payload).seqEnd

section Unread

variable {payload : List UInt8}

theorem wellFormed_payloadCb (number : UInt32) : WellFormed (payloadCb number payload) := by
  have plain : hasFlag TCP_ACK (TCP_SYN ||| TCP_FIN) = false := by decide
  simp [WellFormed, payloadCb, bareCb, plain]

theorem respects_payloadCb (number : UInt32) (short : payload.length ≤ 65535) :
    Respects (number + 65535) (payloadCb number payload) := by
  have difference : (number + UInt32.ofInt payload.length - (number + 65535)).toNat =
      (payload.length + 4294901761) % 4294967296 := by
    simp only [UInt32.toNat_sub, UInt32.toNat_add, UInt32.ofInt, UInt32.toNat_ofNat',
      UInt32.reduceToNat, Nat.reducePow]
    omega
  apply Or.inr
  change (number + UInt32.ofInt payload.length - (number + 65535)).toBitVec.toInt ≤ 0
  rw [BitVec.toInt_eq_toNat_cond, UInt32.toNat_toBitVec, difference]
  split_ifs <;> omega

theorem tcpProcess_payloadCb {tsk : TcpSock} (established : tsk.state = .established)
    (empty : tsk.rcvOfoBuf = []) (nonempty : payload ≠ []) :
    tcpProcess 0 (payloadCb tsk.rcvNxt payload) tsk =
      (tsk.rcvBuf.writeRingBuffer payload payload.length).map fun rcvBuf =>
        let written : TcpSock :=
          { tsk with rcvBuf := rcvBuf, rcvNxt := (payloadCb tsk.rcvNxt payload).seqEnd }
        { tsk := written,
          effects := [.wakeUp .waitRecv, .ipSendPacket (buildSegment written TCP_ACK [])] } := by
  have reaches : ReachesPayload tsk (payloadCb tsk.rcvNxt payload) := by
    have length : (payload.length : Int) ≠ 0 := by
      simpa using nonempty
    have noRst : hasFlag TCP_ACK TCP_RST = false := by decide
    have noSyn : hasFlag TCP_ACK TCP_SYN = false := by decide
    have ack : hasFlag TCP_ACK TCP_ACK = true := by decide
    simp only [ReachesPayload, Open, established]
    exact ⟨by simp, by simp, by simp, by simp, by simp, noRst, noSyn, .inl ack, length⟩
  have inOrder : (payloadCb tsk.rcvNxt payload).seq = tsk.rcvNxt := rfl
  rw [tcpProcess_payload reaches, if_pos inOrder, tcpRcvInOrder]
  change (tsk.rcvBuf.writeRingBuffer payload payload.length).bind _ = _
  cases tsk.rcvBuf.writeRingBuffer payload payload.length with
  | none => rfl
  | some rcvBuf =>
      cases tsk
      dsimp only at empty
      subst empty
      rfl

/-- The window is advertised anew with every ACK, and the buffer fills up. -/
theorem unread_fits (nonempty : payload ≠ []) (short : payload.length ≤ 65535) (count : Nat)
    {windowed : Windowed} (established : windowed.tsk.state = .established)
    (empty : windowed.tsk.rcvOfoBuf = []) (window : windowed.tsk.rcvWnd = 65535)
    (edge : windowed.edge = windowed.tsk.rcvNxt + 65535)
    (guarded : Guarded arrivalStep AssertionHolds windowed
      (unreadArrivals payload count windowed.tsk.rcvNxt)) :
    count * payload.length ≤ windowed.tsk.rcvBuf.ringBufferFree := by
  induction count generalizing windowed with
  | zero => omega
  | succ count ih =>
      have respects : Respects windowed.edge (payloadCb windowed.tsk.rcvNxt payload) :=
        edge ▸ respects_payloadCb _ short
      have wellFormed : WellFormed (payloadCb windowed.tsk.rcvNxt payload) :=
        wellFormed_payloadCb _
      obtain ⟨holds, later⟩ := guarded
      have passes := holds wellFormed respects
      have step := tcpProcess_payloadCb established empty nonempty
      cases wrote : windowed.tsk.rcvBuf.writeRingBuffer payload payload.length with
      | none =>
          rw [wrote] at step
          exact absurd step passes
      | some rcvBuf =>
          rw [wrote] at step
          have taken := writeRingBuffer_free wrote
          let written : TcpSock :=
            { windowed.tsk with
              rcvBuf := rcvBuf, rcvNxt := (payloadCb windowed.tsk.rcvNxt payload).seqEnd }
          have next : arrivalStep windowed (.segment (payloadCb windowed.tsk.rcvNxt payload) 0) =
              some { tsk := written, edge := written.rcvNxt + 65535 } := by
            have noRst : hasFlag TCP_ACK TCP_RST = false := by decide
            rw [arrivalStep, if_pos ⟨wellFormed, respects⟩, step]
            simp [advertise, buildSegment, noRst, written, window]
          have room : count * payload.length ≤ written.rcvBuf.ringBufferFree :=
            @ih ⟨written, written.rcvNxt + 65535⟩ established empty window rfl (later _ next)
          dsimp only [written] at room
          rw [Nat.succ_mul]
          omega

end Unread

/-- 66 segments of 1000 bytes that nobody reads. -/
theorem unread_segments_overflow :
    ¬ Guarded arrivalStep AssertionHolds (openWindow smallSock)
      (unreadArrivals (List.replicate 1000 0) 66 smallSock.rcvNxt) := by
  intro guarded
  have length : (List.replicate 1000 (0 : UInt8)).length = 1000 := List.length_replicate
  have nonempty : List.replicate 1000 (0 : UInt8) ≠ [] := by
    intro impossible
    rw [impossible] at length
    cases length
  have fits := @unread_fits _ nonempty (by omega) 66 (openWindow smallSock) rfl rfl rfl rfl guarded
  have used := (openWindow smallSock).tsk.rcvBuf.used_add_free
  have size := (openWindow_buffering smallSock).size
  rw [size, TCP_DEFAULT_WINDOW] at used
  omega

end NetworkLab.Tcp
