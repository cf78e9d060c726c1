import NetworkLab.Lib.Run
import NetworkLab.Tcp.Stream

/-!
# Delivery of a segmented stream

An established socket receives the segments of a stream with losses, repetitions and
reordering.  `Delivered` says that the first `k` segments have been written in
order; one traversal of `rcv_ofo_buf` and then the whole drain loop keep it and raise
`k`, and after each packet `k` is the first segment that has not arrived.
-/
set_option autoImplicit false

namespace NetworkLab.Tcp

open Lib.Run

section Drain

variable {first : UInt32} {segments : List (List UInt8)} {base taken : List UInt8}

/-- The first `k` segments were written after `base`; `taken` has been read since.
The last condition keeps the stream from coming back to its first number. -/
structure Delivered (first : UInt32) (segments : List (List UInt8)) (base taken : List UInt8)
    (tsk : TcpSock) (k : Nat) : Prop where
  inside : k ≤ segments.length
  next : tsk.rcvNxt = seqOf first segments k
  written : taken ++ tsk.rcvBuf.contents = base ++ upTo segments k
  bounded : segments.flatten.length < 4294967296 ∨ taken.length + tsk.rcvBuf.size ≤ 4294967296

theorem Delivered.short {tsk : TcpSock} {k : Nat}
    (delivered : Delivered first segments base taken tsk k) :
    (upTo segments k).length < 4294967296 := by
  rcases delivered.bounded with stream | ring
  · exact (length_upTo_le segments k).trans_lt stream
  · have lengths := congrArg List.length delivered.written
    have used := tsk.rcvBuf.used_lt
    simp only [List.length_append, RingBuffer.length_contents] at lengths
    omega

/-- A packet whose number is `rcv_nxt` is the next segment, and writing it delivers it. -/
theorem Delivered.write (unrepeated : Unrepeated first segments) {tsk : TcpSock} {k : Nat}
    (delivered : Delivered first segments base taken tsk k) {i : Fin segments.length}
    (expected : seqOf first segments i = tsk.rcvNxt) {rcvBuf : RingBuffer}
    (success : tsk.rcvBuf.writeRingBuffer (segments.get i) (segments.get i).length = some rcvBuf) :
    (i : Nat) = k ∧ Delivered first segments base taken
      { tsk with
        rcvBuf := rcvBuf,
        rcvNxt := seqOf first segments i + UInt32.ofNat (segments.get i).length } (k + 1) := by
  obtain rfl : (i : Nat) = k :=
    unrepeated k delivered.inside delivered.short i (expected.trans delivered.next)
  obtain ⟨-, -, size, contents⟩ := RingBuffer.writeRingBuffer_some success
  refine ⟨rfl, i.isLt, seqOf_succ i, ?_, ?_⟩
  · change taken ++ rcvBuf.contents = _
    rw [contents, ← List.append_assoc, delivered.written, upTo_succ, List.append_assoc,
      Int.toNat_natCast, List.take_length]
    rfl
  · change _ ∨ taken.length + rcvBuf.size ≤ _
    rw [size]
    exact delivered.bounded

/-- What a traversal, or several, of `queue` can do when `left` remains of it. -/
structure Drained (first : UInt32) (segments : List (List UInt8)) (base taken : List UInt8)
    (tsk next : TcpSock) (queue left : List OfoPacket) (k k' : Nat) : Prop where
  le : k ≤ k'
  delivered : Delivered first segments base taken next k'
  state : next.state = tsk.state
  from_queue : ∀ i : Fin segments.length, k ≤ i → i < k' → segmentOfo first segments i ∈ queue
  left_subset : ∀ t ∈ left, t ∈ queue
  left_of_later : ∀ i : Fin segments.length, k' ≤ i → segmentOfo first segments i ∈ queue →
    segmentOfo first segments i ∈ left

theorem Drained.trans {tsk middle next : TcpSock} {queue between left : List OfoPacket}
    {k l m : Nat} (before : Drained first segments base taken tsk middle queue between k l)
    (after : Drained first segments base taken middle next between left l m) :
    Drained first segments base taken tsk next queue left k m where
  le := before.le.trans after.le
  delivered := after.delivered
  state := after.state.trans before.state
  from_queue := by
    intro i low high
    by_cases early : i < l
    · exact before.from_queue i low early
    · exact before.left_subset _ (after.from_queue i (by omega) high)
  left_subset := fun t member => before.left_subset t (after.left_subset t member)
  left_of_later := fun i later member =>
    after.left_of_later i later (before.left_of_later i (after.le.trans later) member)

/-- An entry of the queue that is not taken stays in it. -/
theorem Drained.keep {tsk next : TcpSock} {queue left : List OfoPacket} {k k' : Nat}
    (t : OfoPacket) (drained : Drained first segments base taken tsk next queue left k k') :
    Drained first segments base taken tsk next (t :: queue) (t :: left) k k' where
  le := drained.le
  delivered := drained.delivered
  state := drained.state
  from_queue := fun j low high => List.mem_cons_of_mem _ (drained.from_queue j low high)
  left_subset := by
    intro u member
    cases List.mem_cons.mp member with
    | inl same =>
        rw [same]
        exact List.mem_cons_self
    | inr inRest => exact List.mem_cons_of_mem _ (drained.left_subset u inRest)
  left_of_later := by
    intro j later member
    cases List.mem_cons.mp member with
    | inl same =>
        rw [same]
        exact List.mem_cons_self
    | inr inRest => exact List.mem_cons_of_mem _ (drained.left_of_later j later inRest)

/-- The entry with the expected segment is taken, and no other one has its number. -/
theorem Drained.take {tsk middle next : TcpSock} {queue left : List OfoPacket}
    {i : Fin segments.length} {k' : Nat}
    (drained : Drained first segments base taken middle next queue left (i + 1) k')
    (unrepeated : Unrepeated first segments)
    (delivered : Delivered first segments base taken tsk i) (state : middle.state = tsk.state) :
    Drained first segments base taken tsk next (segmentOfo first segments i :: queue) left i k' where
  le := (Nat.le_succ _).trans drained.le
  delivered := drained.delivered
  state := drained.state.trans state
  from_queue := by
    intro j low high
    rcases Nat.eq_or_lt_of_le low with same | more
    · rw [Fin.ext same]
      exact List.mem_cons_self
    · exact List.mem_cons_of_mem _ (drained.from_queue j more high)
  left_subset := fun t member => List.mem_cons_of_mem _ (drained.left_subset t member)
  left_of_later := by
    intro j later member
    apply drained.left_of_later j later
    cases List.mem_cons.mp member with
    | inl same =>
        have sameIndex :=
          unrepeated i delivered.inside delivered.short j (congrArg OfoPacket.seqNum same)
        have le := drained.le
        omega
    | inr inRest => exact inRest

theorem drainPass_drained (unrepeated : Unrepeated first segments) {queue : List OfoPacket} {tsk : TcpSock} {k : Nat}
    (delivered : Delivered first segments base taken tsk k)
    (fromStream : ∀ t ∈ queue, ∃ i, t = segmentOfo first segments i)
    {next : TcpSock} {left : List OfoPacket} {flag : Bool}
    (success : drainPass queue tsk = some (next, left, flag)) :
    (∃ k', Drained first segments base taken tsk next queue left k k') ∧
    left.length ≤ queue.length ∧ (flag = true → left.length < queue.length) ∧
    (flag = false → next.rcvNxt = tsk.rcvNxt ∧ ∀ t ∈ left, t.seqNum ≠ tsk.rcvNxt) := by
  induction queue generalizing tsk k next left flag with
  | nil =>
      obtain ⟨rfl, rfl, rfl⟩ : tsk = next ∧ [] = left ∧ false = flag := by
        simpa [drainPass] using success
      refine ⟨⟨k, le_rfl, delivered, rfl, by omega, by simp, by simp⟩, by simp⟩
  | cons t rest ih =>
      obtain ⟨i, rfl⟩ := fromStream t List.mem_cons_self
      have restFromStream : ∀ t ∈ rest, ∃ i, t = segmentOfo first segments i :=
        fun t member => fromStream t (List.mem_cons_of_mem _ member)
      unfold drainPass at success
      split_ifs at success with expected
      · obtain ⟨rcvBuf, wrote, success⟩ := Option.bind_eq_some_iff.mp success
        obtain ⟨⟨middle, between, later⟩, passed, result⟩ := Option.bind_eq_some_iff.mp success
        obtain ⟨rfl, rfl, rfl⟩ : middle = next ∧ between = left ∧ true = flag := by
          simpa using result
        obtain ⟨rfl, deliveredNext⟩ := delivered.write unrepeated expected wrote
        have nextNumber : (segmentOfo first segments i).seqNum +
            UInt32.ofInt (segmentOfo first segments i).len =
            seqOf first segments i + UInt32.ofNat segments[i].length := by
          simp only [segmentOfo, ofInt_natCast]
        rw [nextNumber] at passed
        obtain ⟨⟨k', drained⟩, shorter, -, -⟩ := ih deliveredNext restFromStream passed
        refine ⟨⟨k', drained.take unrepeated delivered rfl⟩, ?_, ?_, by simp⟩
        · simp only [List.length_cons]
          omega
        · intro
          simp only [List.length_cons]
          omega
      · obtain ⟨⟨middle, between, later⟩, passed, result⟩ := Option.bind_eq_some_iff.mp success
        obtain ⟨rfl, rfl, rfl⟩ : middle = next ∧ segmentOfo first segments i :: between = left ∧
            later = flag := by
          simpa using result
        obtain ⟨⟨k', drained⟩, shorter, strict, rest⟩ := ih delivered restFromStream passed
        refine ⟨⟨k', drained.keep _⟩, ?_, ?_, ?_⟩
        · simpa using shorter
        · intro taken
          simpa using strict taken
        · intro none
          obtain ⟨same, others⟩ := rest none
          refine ⟨same, ?_⟩
          rintro t (_ | ⟨_, inRest⟩)
          · exact expected
          · exact others t inRest

theorem drain_drained (unrepeated : Unrepeated first segments) {fuel : Nat} {tsk final : TcpSock} {k : Nat}
    (enough : tsk.rcvOfoBuf.length < fuel)
    (delivered : Delivered first segments base taken tsk k)
    (fromStream : ∀ t ∈ tsk.rcvOfoBuf, ∃ i, t = segmentOfo first segments i)
    (success : drain fuel tsk = some final) :
    ∃ k', Drained first segments base taken tsk final tsk.rcvOfoBuf final.rcvOfoBuf k k' ∧
      ∀ t ∈ final.rcvOfoBuf, t.seqNum ≠ final.rcvNxt := by
  induction fuel generalizing tsk k with
  | zero => omega
  | succ fuel ih =>
      obtain ⟨⟨next, left, flag⟩, passed, success⟩ := Option.bind_eq_some_iff.mp success
      obtain ⟨⟨k', drained⟩, -, strict, rest⟩ :=
        drainPass_drained unrepeated delivered fromStream passed
      cases flag with
      | true =>
          have shorter : left.length < fuel := by
            have := strict rfl
            omega
          have leftFromStream : ∀ t ∈ left, ∃ i, t = segmentOfo first segments i :=
            fun t member => fromStream t (drained.left_subset t member)
          have again : Drained first segments base taken tsk { next with rcvOfoBuf := left }
              tsk.rcvOfoBuf left k k' :=
            ⟨drained.le, ⟨drained.delivered.inside, drained.delivered.next,
              drained.delivered.written, drained.delivered.bounded⟩, drained.state,
              drained.from_queue, drained.left_subset, drained.left_of_later⟩
          obtain ⟨k'', later, settled⟩ := ih shorter again.delivered leftFromStream success
          exact ⟨k'', again.trans later, settled⟩
      | false =>
          obtain ⟨same, others⟩ := rest rfl
          cases Option.some.inj success
          refine ⟨k', ⟨drained.le, ⟨drained.delivered.inside, drained.delivered.next,
              drained.delivered.written, drained.delivered.bounded⟩, drained.state,
              drained.from_queue, drained.left_subset, drained.left_of_later⟩, ?_⟩
          intro t member
          change t.seqNum ≠ next.rcvNxt
          rw [same]
          exact others t member

end Drain

section Receiver

variable (newIss : UInt32) (first : UInt32) (segments : List (List UInt8))

structure Receiver where
  tsk : TcpSock
  taken : List UInt8

/-- `arrive i other` is the arrival of segment `i`, with the remaining header fields of
`other`. -/
inductive ReceiveEvent (segments : List (List UInt8))
  | arrive (i : Fin segments.length) (other : TcpCb)
  | read (len : Nat)

def receiveStep (receiver : Receiver) : ReceiveEvent segments → Option Receiver
  | .arrive i other =>
    (tcpProcess newIss (segmentCb first segments i other) receiver.tsk).map fun outcome =>
      { receiver with tsk := outcome.tsk }
  | .read len =>
    let (bytes, tsk) := tcpSockRead len receiver.tsk
    some { tsk := tsk, taken := receiver.taken ++ bytes }

/-- The bytes written to `rcv_buf` so far, those already read included. -/
def Receiver.written (receiver : Receiver) : List UInt8 :=
  receiver.taken ++ receiver.tsk.rcvBuf.contents

def arrived {segments : List (List UInt8)} : List (ReceiveEvent segments) → List (Fin segments.length)
  | [] => []
  | .arrive i _ :: rest => i :: arrived rest
  | .read _ :: rest => arrived rest

/-- The invariant of a run in which the segments `seen` have arrived: `k` is the first
that has not, and all later ones among them are in `rcv_ofo_buf`. -/
structure Receiving (base : List UInt8) (receiver : Receiver) (seen : List (Fin segments.length))
    (k : Nat) : Prop where
  established : receiver.tsk.state = .established
  delivered : Delivered first segments base receiver.taken receiver.tsk k
  prior : ∀ i : Fin segments.length, i < k → i ∈ seen
  missing : ∀ i ∈ seen, (i : Nat) ≠ k
  seen_of_buffered : ∀ t ∈ receiver.tsk.rcvOfoBuf, ∃ i ∈ seen, t = segmentOfo first segments i
  buffered_of_seen : ∀ i ∈ seen, k ≤ i → segmentOfo first segments i ∈ receiver.tsk.rcvOfoBuf

end Receiver

section Steps

variable {newIss first : UInt32} {segments : List (List UInt8)} {base : List UInt8}
  {receiver next : Receiver} {seen : List (Fin segments.length)} {k : Nat}

@[simp] theorem tcpSendControlPacket_ack (tsk : TcpSock) :
    (tcpSendControlPacket TCP_ACK tsk).tsk = tsk := by
  have noFlag : hasFlag TCP_ACK (TCP_SYN ||| TCP_FIN) = false := by decide
  simp [tcpSendControlPacket, noFlag]

/-- An established socket takes one of the three branches for a payload. -/
theorem tcpProcess_segment (nonempty : ∀ segment ∈ segments, segment ≠ []) {tsk : TcpSock}
    (established : tsk.state = .established) (i : Fin segments.length) (other : TcpCb) :
    tcpProcess newIss (segmentCb first segments i other) tsk =
      if seqOf first segments i = tsk.rcvNxt then
        tcpRcvInOrder (segmentCb first segments i other) tsk
      else if seqOf first segments i < tsk.rcvNxt then
        some ((tcpSendControlPacket TCP_ACK tsk).andThen (removeAckData other.ack))
      else tcpBufferOfo (segmentCb first segments i other) tsk := by
  have payload : ((segments[i].length : Nat) : Int) ≠ 0 := by
    have := List.length_pos_iff.mpr (nonempty segments[i] (List.getElem_mem _))
    omega
  have noRst : hasFlag (TCP_PSH ||| TCP_ACK) TCP_RST = false := by decide
  have noSyn : hasFlag (TCP_PSH ||| TCP_ACK) TCP_SYN = false := by decide
  have ack : hasFlag (TCP_PSH ||| TCP_ACK) TCP_ACK = true := by decide
  simp only [tcpProcess, tcpRcvSegment, segmentCb, established, noRst, noSyn, ack, payload,
    reduceCtorEq, if_false, Bool.false_eq_true, Bool.not_true, Bool.false_and, ne_eq,
    not_false_eq_true, if_true]
  rfl

theorem Receiving.in_order (nonempty : ∀ segment ∈ segments, segment ≠ [])
    (noWrap : NoWrap first segments) (receiving : Receiving first segments base receiver seen k)
    {i : Fin segments.length} {other : TcpCb} {outcome : Outcome}
    (expected : seqOf first segments i = receiver.tsk.rcvNxt)
    (success : tcpRcvInOrder (segmentCb first segments i other) receiver.tsk = some outcome) :
    ∃ k', Receiving first segments base { receiver with tsk := outcome.tsk } (seen ++ [i]) k' := by
  obtain ⟨rcvBuf, wrote, success⟩ := Option.bind_eq_some_iff.mp success
  obtain ⟨drained, drainedSuccess, result⟩ := Option.bind_eq_some_iff.mp success
  obtain rfl : drained = outcome.tsk := by
    rw [← Option.some.inj result]
    exact (tcpSendControlPacket_ack drained).symm
  obtain ⟨rfl, delivered⟩ := receiving.delivered.write (noWrap.unrepeated nonempty) expected wrote
  have fromStream : ∀ t ∈ receiver.tsk.rcvOfoBuf, ∃ i, t = segmentOfo first segments i := by
    intro t member
    obtain ⟨j, -, same⟩ := receiving.seen_of_buffered t member
    exact ⟨j, same⟩
  obtain ⟨k', drains, settled⟩ := drain_drained (noWrap.unrepeated nonempty)
    (Nat.lt_succ_self _) delivered fromStream drainedSuccess
  have past := drains.le
  refine ⟨k', drains.state.trans receiving.established, drains.delivered, ?_, ?_, ?_, ?_⟩
  · intro j early
    rcases Nat.lt_trichotomy j i with before | same | after
    · exact List.mem_append_left _ (receiving.prior j before)
    · rw [Fin.ext same]
      exact List.mem_append_right _ (List.mem_singleton_self _)
    · obtain ⟨l, member, same⟩ :=
        receiving.seen_of_buffered _ (drains.from_queue j after early)
      rw [segmentOfo_inj nonempty noWrap same]
      exact List.mem_append_left _ member
  · intro j member same
    rcases List.mem_append.mp member with old | new
    · have buffered := receiving.buffered_of_seen j old (by omega)
      have kept := drains.left_of_later j same.ge buffered
      refine settled _ kept ?_
      rw [drains.delivered.next, ← same]
      rfl
    · obtain rfl := List.mem_singleton.mp new
      omega
  · intro t member
    obtain ⟨j, old, same⟩ := receiving.seen_of_buffered t (drains.left_subset t member)
    exact ⟨j, List.mem_append_left _ old, same⟩
  · intro j member later
    rcases List.mem_append.mp member with old | new
    · exact drains.left_of_later j later (receiving.buffered_of_seen j old (by omega))
    · obtain rfl := List.mem_singleton.mp new
      omega

theorem Receiving.repeated (nonempty : ∀ segment ∈ segments, segment ≠ [])
    (noWrap : NoWrap first segments) (receiving : Receiving first segments base receiver seen k)
    {i : Fin segments.length} (ack : UInt32) (less : seqOf first segments i < receiver.tsk.rcvNxt) :
    Receiving first segments base { receiver with tsk := (removeAckData ack receiver.tsk).tsk }
      (seen ++ [i]) k := by
  have early : (i : Nat) < k := by
    rw [receiving.delivered.next] at less
    exact lt_of_seqOf_lt nonempty noWrap less
  refine ⟨receiving.established, ⟨receiving.delivered.inside, receiving.delivered.next,
    receiving.delivered.written, receiving.delivered.bounded⟩, ?_, ?_, ?_, ?_⟩
  · exact fun j before => List.mem_append_left _ (receiving.prior j before)
  · intro j member
    rcases List.mem_append.mp member with old | new
    · exact receiving.missing j old
    · obtain rfl := List.mem_singleton.mp new
      exact early.ne
  · intro t member
    obtain ⟨j, old, same⟩ := receiving.seen_of_buffered t member
    exact ⟨j, List.mem_append_left _ old, same⟩
  · intro j member later
    rcases List.mem_append.mp member with old | new
    · exact receiving.buffered_of_seen j old later
    · obtain rfl := List.mem_singleton.mp new
      omega

theorem Receiving.out_of_order (receiving : Receiving first segments base receiver seen k)
    {i : Fin segments.length} {other : TcpCb} {outcome : Outcome}
    (unexpected : seqOf first segments i ≠ receiver.tsk.rcvNxt)
    (success : tcpBufferOfo (segmentCb first segments i other) receiver.tsk = some outcome) :
    Receiving first segments base { receiver with tsk := outcome.tsk } (seen ++ [i]) k := by
  unfold tcpBufferOfo at success
  split_ifs at success
  have kept : segments[i].take ((segments[i].length : Int)).toNat = segments[i] := by simp
  simp only [segmentCb, kept] at success
  obtain rfl := Option.some.inj success
  refine ⟨receiving.established, ⟨receiving.delivered.inside, receiving.delivered.next,
    receiving.delivered.written, receiving.delivered.bounded⟩, ?_, ?_, ?_, ?_⟩
  · exact fun j before => List.mem_append_left _ (receiving.prior j before)
  · intro j member same
    rcases List.mem_append.mp member with old | new
    · exact receiving.missing j old same
    · obtain rfl := List.mem_singleton.mp new
      exact unexpected (by rw [receiving.delivered.next, same])
  · intro t member
    rcases List.mem_append.mp member with old | new
    · obtain ⟨j, seenBefore, same⟩ := receiving.seen_of_buffered t old
      exact ⟨j, List.mem_append_left _ seenBefore, same⟩
    · exact ⟨i, List.mem_append_right _ (List.mem_singleton_self _), List.mem_singleton.mp new⟩
  · intro j member later
    rcases List.mem_append.mp member with old | new
    · exact List.mem_append_left _ (receiving.buffered_of_seen j old later)
    · obtain rfl := List.mem_singleton.mp new
      exact List.mem_append_right _ (List.mem_singleton_self _)

theorem Receiving.arrive (nonempty : ∀ segment ∈ segments, segment ≠ [])
    (noWrap : NoWrap first segments) (receiving : Receiving first segments base receiver seen k)
    {i : Fin segments.length} {other : TcpCb}
    (taken : receiveStep newIss first segments receiver (.arrive i other) = some next) :
    ∃ k', Receiving first segments base next (seen ++ [i]) k' := by
  obtain ⟨outcome, processed, rfl⟩ := Option.map_eq_some_iff.mp taken
  rw [tcpProcess_segment nonempty receiving.established] at processed
  split_ifs at processed with expected less
  · exact receiving.in_order nonempty noWrap expected processed
  · obtain rfl := Option.some.inj processed
    have after := receiving.repeated nonempty noWrap other.ack less
    exact ⟨k, by simpa using after⟩
  · exact ⟨k, receiving.out_of_order expected processed⟩

theorem Receiving.read (receiving : Receiving first segments base receiver seen k)
    (short : segments.flatten.length < 4294967296) {len : Nat}
    (taken : receiveStep newIss first segments receiver (.read len) = some next) :
    Receiving first segments base next seen k := by
  obtain rfl := Option.some.inj taken
  refine ⟨receiving.established, ⟨receiving.delivered.inside, receiving.delivered.next, ?_,
    Or.inl short⟩, receiving.prior, receiving.missing, receiving.seen_of_buffered,
    receiving.buffered_of_seen⟩
  rw [← receiving.delivered.written, List.append_assoc]
  exact congrArg _ (RingBuffer.readRingBuffer_contents ..)

theorem run_receiving (nonempty : ∀ segment ∈ segments, segment ≠ [])
    (noWrap : NoWrap first segments) (events : List (ReceiveEvent segments))
    (bounded : segments.flatten.length < 4294967296 ∨ ∀ len, .read len ∉ events)
    (receiving : Receiving first segments base receiver seen k)
    (success : run (receiveStep newIss first segments) receiver events = some next) :
    ∃ k', Receiving first segments base next (seen ++ arrived events) k' := by
  induction events generalizing receiver seen k with
  | nil =>
      cases Option.some.inj success
      exact ⟨k, by simpa [arrived] using receiving⟩
  | cons event rest ih =>
      obtain ⟨middle, taken, later⟩ := run_cons_some _ success
      have restBounded : segments.flatten.length < 4294967296 ∨ ∀ len, .read len ∉ rest :=
        bounded.imp_right fun none len member => none len (List.mem_cons_of_mem _ member)
      cases event with
      | arrive i other =>
          obtain ⟨k', arrives⟩ := receiving.arrive nonempty noWrap taken
          obtain ⟨k'', final⟩ := ih restBounded arrives later
          exact ⟨k'', by simpa [arrived] using final⟩
      | read len =>
          have short : segments.flatten.length < 4294967296 :=
            bounded.resolve_right fun none => none len List.mem_cons_self
          exact ih restBounded (receiving.read short taken) later

end Steps

/-- After any sequence of arrivals of the segments, with reads in between, the bytes
written are those of the first `k` segments, and `k` is the first segment that has
not arrived.  Without reads the ring buffer is too small for a stream of 2^32 bytes. -/
theorem receives_stream_in_order (newIss : UInt32) (tsk : TcpSock) (segments : List (List UInt8))
    (events : List (ReceiveEvent segments)) (receiver : Receiver)
    (established : tsk.state = .established) (noOfo : tsk.rcvOfoBuf = [])
    (nonempty : ∀ segment ∈ segments, segment ≠ []) (noWrap : NoWrap tsk.rcvNxt segments)
    (bounded : segments.flatten.length < 4294967296 ∨ ∀ len, .read len ∉ events)
    (success : run (receiveStep newIss tsk.rcvNxt segments) { tsk := tsk, taken := [] } events =
      some receiver) :
    ∃ k ≤ segments.length,
      (∀ i : Fin segments.length, i < k → i ∈ arrived events) ∧
      (∀ i ∈ arrived events, (i : Nat) ≠ k) ∧
      receiver.written = tsk.rcvBuf.contents ++ (segments.take k).flatten ∧
      receiver.tsk.rcvNxt = seqOf tsk.rcvNxt segments k := by
  have start : Receiving tsk.rcvNxt segments tsk.rcvBuf.contents { tsk := tsk, taken := [] } [] 0 := by
    refine ⟨established, ⟨Nat.zero_le _, ?_, ?_, ?_⟩, ?_, ?_, ?_, ?_⟩
    · simp [seqOf, upTo]
    · simp [upTo]
    · right
      have := tsk.rcvBuf.size_lt
      simp only [List.length_nil]
      omega
    · intro i before
      omega
    · intro i member
      cases member
    · intro t member
      rw [noOfo] at member
      cases member
    · intro i member
      cases member
  obtain ⟨k, receiving⟩ := run_receiving nonempty noWrap events bounded start success
  rw [List.nil_append] at receiving
  exact ⟨k, receiving.delivered.inside, receiving.prior, receiving.missing,
    receiving.delivered.written, receiving.delivered.next⟩

/-- An established socket with a ring buffer of four bytes. -/
def smallSock : TcpSock :=
  { localAddr := { ip := 0x0a000002, port := 10001 }, peer := { ip := 0x0a000001, port := 12345 },
    state := .established, iss := 0, sndUna := 1, sndNxt := 1, rcvNxt := 1, sndWnd := 10,
    rcvWnd := 4, rcvBuf := RingBuffer.allocRingBuffer 5 (by decide) (by decide), sendBuf := [],
    rcvOfoBuf := [] }

def smallStream : List (List UInt8) := [[1, 2], [3], [4, 5]]

/-- The second segment twice before the first; a read makes room for the third. -/
def smallArrivals : List (ReceiveEvent smallStream) :=
  let other := tcpCbInit (buildSegment smallSock TCP_ACK [])
  [.arrive ⟨1, by decide⟩ other, .arrive ⟨1, by decide⟩ other, .arrive ⟨0, by decide⟩ other,
    .read 2, .arrive ⟨2, by decide⟩ other, .arrive ⟨1, by decide⟩ other]

theorem receives_stream_in_order_small : ∃ receiver,
    run (receiveStep 0 smallSock.rcvNxt smallStream) { tsk := smallSock, taken := [] }
      smallArrivals = some receiver ∧ receiver.written = [1, 2, 3, 4, 5] := by
  have success := (Option.some_get (x := run (receiveStep 0 smallSock.rcvNxt smallStream)
    { tsk := smallSock, taken := [] } smallArrivals) (by decide)).symm
  have noWrap : NoWrap smallSock.rcvNxt smallStream := by
    unfold NoWrap
    decide
  obtain ⟨k, inside, -, missing, written, -⟩ := receives_stream_in_order 0 smallSock smallStream
    smallArrivals _ rfl rfl (by decide) noWrap (Or.inl (by decide)) success
  have all : k = 3 := by
    have not0 := missing ⟨0, by decide⟩ (by decide)
    have not1 := missing ⟨1, by decide⟩ (by decide)
    have not2 := missing ⟨2, by decide⟩ (by decide)
    have short : smallStream.length = 3 := rfl
    simp only at not0 not1 not2
    omega
  exact ⟨_, success, by rw [written, all]; rfl⟩

end NetworkLab.Tcp
