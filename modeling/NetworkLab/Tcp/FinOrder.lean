import NetworkLab.Tcp.Closing
import NetworkLab.Tcp.Delivery

/-!
# A FIN and the data before it

An honest peer's data, control segments and FIN arrive in any order.  A segment without
payload that moves `rcv_nxt` moves it to its own end, wherever `rcv_nxt` was before.
-/
set_option autoImplicit false

namespace NetworkLab.Tcp

open Lib.Run

def offsetOf (first seq : UInt32) : Nat := (seq - first).toNat

section System

variable (newIss first : UInt32) (segments : List (List UInt8))

/-- A segment of the peer without payload, sent when the first `j` segments had been. -/
def controlCb (j : Nat) (flags : UInt8) (other : TcpCb) : TcpCb :=
  bareCb (seqOf first segments j) flags other

/-- The FIN|ACK, which comes after the whole stream. -/
def finCb (other : TcpCb) : TcpCb :=
  controlCb first segments segments.length (TCP_FIN ||| TCP_ACK) other

/-- A segment of the peer without payload, sent after its FIN. -/
def lateCb (flags : UInt8) (other : TcpCb) : TcpCb :=
  bareCb (seqOf first segments segments.length + 1) flags other

inductive PeerEvent (segments : List (List UInt8))
  | data (i : Fin segments.length) (other : TcpCb)
  | control (j : Fin (segments.length + 1)) (flags : UInt8)
      (noFin : hasFlag flags TCP_FIN = false) (other : TcpCb)
  | fin (other : TcpCb)
  | late (flags : UInt8) (noFin : hasFlag flags TCP_FIN = false) (other : TcpCb)
  | read (len : Nat)
  | close

def Receiver.process (cb : TcpCb) (receiver : Receiver) : Option Receiver :=
  (tcpProcess newIss cb receiver.tsk).map fun outcome => { receiver with tsk := outcome.tsk }

def peerStep (receiver : Receiver) : PeerEvent segments → Option Receiver
  | .data i other => receiver.process newIss (segmentCb first segments i other)
  | .control j flags _ other => receiver.process newIss (controlCb first segments j flags other)
  | .fin other => receiver.process newIss (finCb first segments other)
  | .late flags _ other => receiver.process newIss (lateCb first segments flags other)
  | .read len => receiveStep newIss first segments receiver (.read len)
  | .close => some { receiver with tsk := (tcpSockClose receiver.tsk).tsk }

/-- How far `rcv_nxt` is from the first number of the stream. -/
def Receiver.offset (receiver : Receiver) : Nat := offsetOf first receiver.tsk.rcvNxt

/-- How many bytes of the stream have been written to `rcv_buf`, after those in `base`. -/
def Receiver.count (base : List UInt8) (receiver : Receiver) : Nat :=
  receiver.written.length - base.length

/-- `rcv_nxt` does not go back, and not past a byte of the stream that is not written. -/
structure Orderly (base : List UInt8) (receiver next : Receiver) : Prop where
  forward : receiver.offset first ≤ next.offset first
  covered : next.offset first ≤ next.count base ∨ segments.flatten.length ≤ next.count base

/-- What is asked of a step: segments without payload are orderly, and a FIN ends
`ESTABLISHED` only when the whole stream is written. -/
def NoOvertaking (base : List UInt8) (receiver : Receiver) (event : PeerEvent segments)
    (next : Receiver) : Prop :=
  match event with
  | .control _ _ _ _ => Orderly first segments base receiver next
  | .fin _ => Orderly first segments base receiver next ∧
      (receiver.tsk.state = .established → next.tsk.state ≠ .established →
        segments.flatten.length ≤ next.count base)
  | .late _ _ _ => Orderly first segments base receiver next
  | .data _ _ => True
  | .read _ => True
  | .close => True

/-- The segments without payload that make `tcp_process` set `rcv_nxt`. -/
def Advances (tsk : TcpSock) (cb : TcpCb) : Prop :=
  hasFlag cb.flags TCP_RST = false ∧ hasFlag cb.flags TCP_SYN = false ∧
    (tsk.state = .established ∧
        (hasFlag cb.flags TCP_FIN ∨ hasFlag cb.flags TCP_ACK ∧ cb.flags ≠ TCP_ACK) ∨
      tsk.state = .finWait2 ∧ cb.flags = TCP_ACK ||| TCP_FIN)

def Fits (tsk : TcpSock) (cb : TcpCb) : Prop := cb.seq = tsk.rcvNxt ∨ cb.seqEnd = tsk.rcvNxt

/-- Segments that set `rcv_nxt` fit; for those sent after the FIN the FIN does. -/
def InTurn (receiver : Receiver) : PeerEvent segments → Prop
  | .control j flags _ other => Advances receiver.tsk (controlCb first segments j flags other) →
      Fits receiver.tsk (controlCb first segments j flags other)
  | .fin other => Advances receiver.tsk (finCb first segments other) →
      Fits receiver.tsk (finCb first segments other)
  | .late flags _ other => Advances receiver.tsk (lateCb first segments flags other) →
      Fits receiver.tsk (finCb first segments other)
  | .data _ _ => True
  | .read _ => True
  | .close => True

instance (tsk : TcpSock) (cb : TcpCb) : Decidable (Advances tsk cb) :=
  inferInstanceAs (Decidable (_ ∧ _ ∧ (_ ∧ (_ ∨ _ ∧ _) ∨ _ ∧ _)))

instance (tsk : TcpSock) (cb : TcpCb) : Decidable (Fits tsk cb) :=
  inferInstanceAs (Decidable (_ ∨ _))

instance (receiver : Receiver) : ∀ event, Decidable (InTurn first segments receiver event)
  | .data _ _ => isTrue trivial
  | .control _ _ _ _ => inferInstanceAs (Decidable (_ → _))
  | .fin _ => inferInstanceAs (Decidable (_ → _))
  | .late _ _ _ => inferInstanceAs (Decidable (_ → _))
  | .read _ => isTrue trivial
  | .close => isTrue trivial

end System

section Segments

variable {newIss : UInt32} {tsk : TcpSock} {cb : TcpCb} {outcome : Outcome}

/-- The states after `ESTABLISHED` in which a socket stays between the calls. -/
def Leaving (tsk : TcpSock) : Prop :=
  tsk.state = .finWait1 ∨ tsk.state = .finWait2 ∨ tsk.state = .lastAck ∨ tsk.state = .closed

theorem tcpSockClose_leaving (leaving : Leaving tsk) : tcpSockClose tsk = tsk.done := by
  rcases leaving with state | state | state | state <;> simp [tcpSockClose, state]

theorem not_finAck {flag : UInt8} (set : hasFlag cb.flags flag = true)
    (unset : hasFlag (TCP_ACK ||| TCP_FIN) flag = false) : cb.flags ≠ TCP_ACK ||| TCP_FIN := by
  intro same
  rw [same, unset] at set
  cases set

theorem tcpProcess_leaving (leaving : Leaving tsk)
    (success : tcpProcess newIss cb tsk = some outcome) :
    outcome.tsk.rcvBuf = tsk.rcvBuf ∧ Leaving outcome.tsk ∧
      outcome.tsk.rcvNxt =
        if tsk.state = .finWait2 ∧ cb.flags = TCP_ACK ||| TCP_FIN then cb.seqEnd
        else tsk.rcvNxt := by
  have branch := tcpProcess_branch newIss cb tsk
  rw [success] at branch
  cases branch with
  | closed state => exact ⟨rfl, leaving, by simp [state]⟩
  | listen state => simp [Leaving, state] at leaving
  | synSent state => simp [Leaving, state] at leaving
  | opened opened branch =>
      have unchanged := tcpSockClose_leaving leaving
      cases branch with
      | reset rst =>
          rw [unchanged]
          exact ⟨rfl, leaving, by simp [not_finAck rst (by decide)]⟩
      | syn syn =>
          rw [unchanged]
          exact ⟨rfl, leaving, by simp [not_finAck syn (by decide)]⟩
      | neither ack fin =>
          have other : cb.flags ≠ TCP_ACK ||| TCP_FIN := by
            intro same
            rw [same] at ack
            exact absurd ack (by decide)
          exact ⟨rfl, leaving, by simp [other]⟩
      | synRecv loud state => simp [Leaving, state] at leaving
      | finWait1 state => exact ⟨rfl, .inr (.inl rfl), by simp [state]; rfl⟩
      | finAck state flags => simp [state, flags, Leaving]
      | finWait2 state flags => simp [state, flags, Leaving]
      | lastAck state => exact ⟨rfl, .inr (.inr (.inr rfl)), by simp [state]; rfl⟩
      | segment loud synRecv finWait1 finWait2 lastAck segment =>
          rcases leaving with state | state | state | state
          · exact absurd state finWait1
          · exact absurd state finWait2
          · exact absurd state lastAck
          · exact absurd state opened.1

def SameReceiving (tsk next : TcpSock) : Prop :=
  next.rcvBuf = tsk.rcvBuf ∧ next.rcvOfoBuf = tsk.rcvOfoBuf ∧ next.rcvNxt = tsk.rcvNxt

theorem tcpSendControlPacket_receiving (flags : UInt8) (tsk : TcpSock) :
    SameReceiving tsk (tcpSendControlPacket flags tsk).tsk := by
  unfold tcpSendControlPacket
  split_ifs <;> exact ⟨rfl, rfl, rfl⟩

theorem tcpSockClose_receiving (tsk : TcpSock) : SameReceiving tsk (tcpSockClose tsk).tsk := by
  unfold tcpSockClose
  split
  · exact ⟨rfl, rfl, rfl⟩
  · exact tcpSendControlPacket_receiving _ tsk
  · exact tcpSendControlPacket_receiving _ tsk
  · exact ⟨rfl, rfl, rfl⟩

theorem tcpSockClose_established (established : tsk.state = .established) :
    (tcpSockClose tsk).tsk.state = .finWait1 := by
  simp [tcpSockClose, established, tcpSetState]

theorem tcpRcvSegment_established (established : tsk.state = .established) (empty : cb.plLen = 0)
    (loud : Loud cb) (success : tcpRcvSegment cb tsk = some outcome) :
    outcome.tsk.rcvBuf = tsk.rcvBuf ∧ outcome.tsk.rcvOfoBuf = tsk.rcvOfoBuf ∧
      (outcome.tsk.state = .established ∨ Leaving outcome.tsk) ∧
      (Advances tsk cb ∧ outcome.tsk.rcvNxt = cb.seqEnd ∨
        ¬ Advances tsk cb ∧ outcome.tsk.rcvNxt = tsk.rcvNxt) := by
  have moves : Advances tsk cb ↔
      hasFlag cb.flags TCP_FIN ∨ hasFlag cb.flags TCP_ACK ∧ cb.flags ≠ TCP_ACK := by
    simp [Advances, loud.rst, loud.syn, established]
  rw [moves]
  rw [tcpRcvSegment, if_neg (not_not.mpr empty)] at success
  by_cases fin : hasFlag cb.flags TCP_FIN
  · rw [if_pos fin] at success
    rw [← Option.some.inj success]
    simp only [Outcome.andThen_tsk, tcpSendControlPacket_ack]
    generalize waits : ({ (if hasFlag cb.flags TCP_ACK then
      removeAckData cb.ack (tcpSetState .closeWait tsk)
      else (tcpSetState .closeWait tsk).done).tsk with rcvNxt := cb.seqEnd } : TcpSock) = waiting
    have state : waiting.state = .closeWait := by
      rw [← waits]
      split_ifs <;> rfl
    have same : waiting.rcvBuf = tsk.rcvBuf ∧ waiting.rcvOfoBuf = tsk.rcvOfoBuf := by
      rw [← waits]
      split_ifs <;> exact ⟨rfl, rfl⟩
    have next : waiting.rcvNxt = cb.seqEnd := by rw [← waits]
    have left : (tcpSockClose waiting).tsk.state = .lastAck := by
      simp [tcpSockClose, state, tcpSetState]
    obtain ⟨sameBuf, sameOfo, sameNxt⟩ := tcpSockClose_receiving waiting
    exact ⟨sameBuf.trans same.1, sameOfo.trans same.2, .inr (.inr (.inr (.inl left))),
      .inl ⟨.inl fin, sameNxt.trans next⟩⟩
  · have ack := loud.flags.resolve_right fin
    rw [if_neg fin] at success
    simp only [ack, if_true] at success
    simp only [fin, ack, Bool.false_eq_true, false_or, true_and]
    by_cases plain : cb.flags = TCP_ACK
    · rw [if_neg (not_not.mpr plain)] at success
      obtain rfl := Option.some.inj success
      exact ⟨rfl, rfl, .inl established, .inr ⟨not_not.mpr plain, rfl⟩⟩
    · rw [if_pos plain] at success
      obtain rfl := Option.some.inj success
      simp only [Outcome.andThen_tsk, tcpSendControlPacket_ack]
      exact ⟨rfl, rfl, .inl established, .inl ⟨plain, trivial⟩⟩

/-- What a segment without payload can do in `ESTABLISHED`. -/
theorem tcpProcess_established (established : tsk.state = .established) (empty : cb.plLen = 0)
    (success : tcpProcess newIss cb tsk = some outcome) :
    outcome.tsk.rcvBuf = tsk.rcvBuf ∧ outcome.tsk.rcvOfoBuf = tsk.rcvOfoBuf ∧
      (outcome.tsk.state = .established ∨ Leaving outcome.tsk) ∧
      (Advances tsk cb ∧ outcome.tsk.rcvNxt = cb.seqEnd ∨
        ¬ Advances tsk cb ∧ outcome.tsk.rcvNxt = tsk.rcvNxt) := by
  have opened : Open tsk := by simp [Open, established]
  have closed := tcpSockClose_established established
  obtain ⟨closedBuf, closedOfo, closedNxt⟩ := tcpSockClose_receiving tsk
  have branch : OpenBranch cb tsk (tcpProcess newIss cb tsk) := tcpProcess_openBranch opened
  rw [success] at branch
  cases branch with
  | reset rst =>
      exact ⟨closedBuf, closedOfo, .inr (.inl closed), .inr ⟨by simp [Advances, rst], closedNxt⟩⟩
  | syn syn =>
      exact ⟨closedBuf, closedOfo, .inr (.inl closed), .inr ⟨by simp [Advances, syn], closedNxt⟩⟩
  | neither ack fin =>
      exact ⟨rfl, rfl, .inl established, .inr ⟨by simp [Advances, established, ack, fin], rfl⟩⟩
  | synRecv loud state => cases established.symm.trans state
  | finWait1 state => cases established.symm.trans state
  | finAck state flags => cases established.symm.trans state
  | finWait2 state flags => cases established.symm.trans state
  | lastAck state => cases established.symm.trans state
  | segment loud synRecv finWait1 finWait2 lastAck segment =>
      exact tcpRcvSegment_established established empty loud segment

theorem advances_leaving (leaving : Leaving tsk) :
    Advances tsk cb ↔ tsk.state = .finWait2 ∧ cb.flags = TCP_ACK ||| TCP_FIN := by
  have other : tsk.state ≠ .established := by
    rcases leaving with state | state | state | state <;> simp [state]
  constructor
  · rintro ⟨-, -, ⟨established, -⟩ | finAck⟩
    · exact absurd established other
    · exact finAck
  · intro finAck
    refine ⟨?_, ?_, .inr finAck⟩
    · rw [finAck.2]
      decide
    · rw [finAck.2]
      decide

theorem Leaving.not_established (leaving : Leaving tsk) : tsk.state ≠ .established := by
  rcases leaving with state | state | state | state <;> simp [state]

structure Bare (cb : TcpCb) (tsk next : TcpSock) : Prop where
  rcvBuf : next.rcvBuf = tsk.rcvBuf
  state : next.state = .established ∧ tsk.state = .established ∧ next.rcvOfoBuf = tsk.rcvOfoBuf ∨
    Leaving next
  moved : Advances tsk cb ∧ next.rcvNxt = cb.seqEnd ∨
    ¬ Advances tsk cb ∧ next.rcvNxt = tsk.rcvNxt

theorem tcpProcess_bare (alive : tsk.state = .established ∨ Leaving tsk) (empty : cb.plLen = 0)
    (success : tcpProcess newIss cb tsk = some outcome) : Bare cb tsk outcome.tsk := by
  rcases alive with established | leaving
  · obtain ⟨rcvBuf, rcvOfoBuf, state, moved⟩ := tcpProcess_established established empty success
    exact ⟨rcvBuf, state.imp_left fun stays => ⟨stays, established, rcvOfoBuf⟩, moved⟩
  · obtain ⟨rcvBuf, state, next⟩ := tcpProcess_leaving leaving success
    refine ⟨rcvBuf, .inr state, ?_⟩
    rw [advances_leaving leaving]
    split_ifs at next with finAck
    · exact .inl ⟨finAck, next⟩
    · exact .inr ⟨finAck, next⟩

theorem tcpRcvSegment_ne_none (empty : cb.plLen = 0) : tcpRcvSegment cb tsk ≠ none := by
  rw [tcpRcvSegment, if_neg (not_not.mpr empty)]
  split
  · exact Option.some_ne_none _
  · dsimp only
    split
    · exact Option.some_ne_none _
    · exact Option.some_ne_none _

theorem tcpProcess_ne_none (empty : cb.plLen = 0) : tcpProcess newIss cb tsk ≠ none := by
  intro stuck
  have branch := tcpProcess_branch newIss cb tsk
  rw [stuck] at branch
  cases branch with
  | opened opened branch =>
      cases branch with
      | segment loud synRecv finWait1 finWait2 lastAck segment =>
          exact tcpRcvSegment_ne_none empty segment

end Segments

section Offsets

variable {first : UInt32} {segments : List (List UInt8)}

/-- The stream and its FIN have different sequence numbers. -/
def ShortStream (segments : List (List UInt8)) : Prop := segments.flatten.length + 1 < 4294967296

theorem offsetOf_add {count : Nat} (short : count < 4294967296) :
    offsetOf first (first + UInt32.ofNat count) = count := by
  have firstLt := first.toNat_lt
  simp only [offsetOf, UInt32.toNat_sub, UInt32.toNat_add, UInt32.toNat_ofNat']
  omega

theorem offsetOf_inj {seq other : UInt32} :
    offsetOf first seq = offsetOf first other ↔ seq = other := by
  constructor
  · intro same
    apply UInt32.toNat_inj.mp
    have firstLt := first.toNat_lt
    have seqLt := seq.toNat_lt
    have otherLt := other.toNat_lt
    simp only [offsetOf, UInt32.toNat_sub] at same
    omega
  · rintro rfl
    rfl

variable (first) in
theorem offsetOf_seqOf (short : ShortStream segments) (k : Nat) :
    offsetOf first (seqOf first segments k) = (upTo segments k).length := by
  have := length_upTo_le segments k
  unfold ShortStream at short
  exact offsetOf_add (by omega)

theorem offsetOf_fin (short : ShortStream segments) :
    offsetOf first (seqOf first segments segments.length + 1) = segments.flatten.length + 1 := by
  have all : upTo segments segments.length = segments.flatten := by rw [upTo, List.take_length]
  have next : seqOf first segments segments.length + 1 =
      first + UInt32.ofNat (segments.flatten.length + 1) := by
    rw [seqOf, all, UInt32.ofNat_add, UInt32.add_assoc]
    rfl
  rw [next]
  exact offsetOf_add short

end Offsets

section Steps

variable {newIss first : UInt32} {segments : List (List UInt8)} {base : List UInt8}
  {receiver next : Receiver} {cb : TcpCb} {k : Nat}

/-- The invariant: the first `k` segments are written, and `rcv_nxt` is after them or,
when they are all, after the FIN. -/
structure Keeping (first : UInt32) (segments : List (List UInt8)) (base : List UInt8)
    (receiver : Receiver) (k : Nat) : Prop where
  inside : k ≤ segments.length
  written : receiver.written = base ++ upTo segments k
  state : receiver.tsk.state = .established ∧
      (∀ t ∈ receiver.tsk.rcvOfoBuf, ∃ i, t = segmentOfo first segments i) ∨
    Leaving receiver.tsk
  next : receiver.tsk.rcvNxt = seqOf first segments k ∨
    k = segments.length ∧ receiver.tsk.rcvNxt = seqOf first segments segments.length + 1

theorem Keeping.alive (keeping : Keeping first segments base receiver k) :
    receiver.tsk.state = .established ∨ Leaving receiver.tsk :=
  keeping.state.imp_left And.left

theorem Keeping.fromStream (keeping : Keeping first segments base receiver k)
    (established : receiver.tsk.state = .established) :
    ∀ t ∈ receiver.tsk.rcvOfoBuf, ∃ i, t = segmentOfo first segments i :=
  (keeping.state.resolve_right fun leaving => leaving.not_established established).2

theorem Keeping.count (keeping : Keeping first segments base receiver k) :
    receiver.count base = (upTo segments k).length := by
  simp [Receiver.count, keeping.written]

theorem Keeping.offset (short : ShortStream segments)
    (keeping : Keeping first segments base receiver k) :
    receiver.offset first = (upTo segments k).length ∨
      k = segments.length ∧ receiver.offset first = segments.flatten.length + 1 := by
  rw [Receiver.offset]
  rcases keeping.next with next | ⟨whole, next⟩
  · exact .inl (by rw [next, offsetOf_seqOf first short])
  · exact .inr ⟨whole, by rw [next, offsetOf_fin short]⟩

theorem upTo_length (segments : List (List UInt8)) :
    upTo segments segments.length = segments.flatten := by rw [upTo, List.take_length]

/-- The whole stream is written when all its bytes are. -/
theorem Keeping.whole (nonempty : ∀ segment ∈ segments, segment ≠ [])
    (keeping : Keeping first segments base receiver k)
    (all : segments.flatten.length ≤ (upTo segments k).length) : k = segments.length := by
  by_contra partly
  have inside := keeping.inside
  have less := length_upTo_lt nonempty (show k < segments.length by omega) le_rfl
  rw [upTo_length] at less
  omega

theorem Keeping.orderly (short : ShortStream segments)
    (keeping : Keeping first segments base receiver k) :
    Orderly first segments base receiver receiver := by
  refine ⟨le_rfl, ?_⟩
  rw [keeping.count]
  rcases keeping.offset short with offset | ⟨rfl, -⟩
  · exact .inl offset.le
  · exact .inr (by rw [upTo_length])

theorem Keeping.of_bare (keeping : Keeping first segments base receiver k) {tsk : TcpSock}
    (bare : Bare cb receiver.tsk tsk)
    (next : tsk.rcvNxt = seqOf first segments k ∨
      k = segments.length ∧ tsk.rcvNxt = seqOf first segments segments.length + 1) :
    Keeping first segments base { receiver with tsk := tsk } k := by
  refine ⟨keeping.inside, ?_, ?_, next⟩
  · rw [← keeping.written, Receiver.written, Receiver.written, bare.rcvBuf]
  · refine bare.state.imp_left ?_
    rintro ⟨stays, established, sameOfo⟩
    exact ⟨stays, by rw [sameOfo]; exact keeping.fromStream established⟩

theorem Keeping.of_bare_same (keeping : Keeping first segments base receiver k) {tsk : TcpSock}
    (bare : Bare cb receiver.tsk tsk) (same : tsk.rcvNxt = receiver.tsk.rcvNxt) :
    Keeping first segments base { receiver with tsk := tsk } k := by
  apply keeping.of_bare bare
  rw [same]
  exact keeping.next

theorem Keeping.in_order (nonempty : ∀ segment ∈ segments, segment ≠ [])
    (short : ShortStream segments) (keeping : Keeping first segments base receiver k)
    (established : receiver.tsk.state = .established) {i : Fin segments.length} {other : TcpCb}
    {outcome : Outcome} (expected : seqOf first segments i = receiver.tsk.rcvNxt)
    (success : tcpRcvInOrder (segmentCb first segments i other) receiver.tsk = some outcome) :
    ∃ k', Keeping first segments base { receiver with tsk := outcome.tsk } k' := by
  obtain ⟨rcvBuf, wrote, success⟩ := Option.bind_eq_some_iff.mp success
  obtain ⟨drained, drainedSuccess, result⟩ := Option.bind_eq_some_iff.mp success
  obtain rfl : drained = outcome.tsk := by
    rw [← Option.some.inj result]
    exact (tcpSendControlPacket_ack drained).symm
  have fromStream := keeping.fromStream established
  have notPast : ¬ (k = segments.length ∧
      receiver.tsk.rcvNxt = seqOf first segments segments.length + 1) := by
    rintro ⟨-, past⟩
    have offset := congrArg (offsetOf first) (expected.trans past)
    rw [offsetOf_seqOf first short, offsetOf_fin short] at offset
    have := length_upTo_le segments i
    omega
  unfold ShortStream at short
  have unrepeated : Unrepeated first segments := by
    refine unrepeated_of_lt nonempty fun i => ?_
    have := length_upTo_le segments i
    omega
  have before : Delivered first segments base receiver.taken receiver.tsk k :=
    ⟨keeping.inside, keeping.next.resolve_right notPast, keeping.written, .inl (by omega)⟩
  obtain ⟨-, delivered⟩ := before.write unrepeated expected wrote
  obtain ⟨k', drains, -⟩ := drain_drained unrepeated (Nat.lt_succ_self _) delivered fromStream
    drainedSuccess
  refine ⟨k', drains.delivered.inside, drains.delivered.written,
    .inl ⟨drains.state.trans established, ?_⟩, .inl drains.delivered.next⟩
  exact fun t member => fromStream t (drains.left_subset t member)

theorem Keeping.data (nonempty : ∀ segment ∈ segments, segment ≠ [])
    (short : ShortStream segments) (keeping : Keeping first segments base receiver k)
    {i : Fin segments.length} {other : TcpCb}
    (taken : peerStep newIss first segments receiver (.data i other) = some next) :
    ∃ k', Keeping first segments base next k' := by
  obtain ⟨outcome, processed, rfl⟩ := Option.map_eq_some_iff.mp taken
  rcases keeping.state with ⟨established, fromStream⟩ | leaving
  · rw [tcpProcess_segment nonempty established] at processed
    split_ifs at processed with expected less
    · exact keeping.in_order nonempty short established expected processed
    · obtain rfl := Option.some.inj processed
      simp only [Outcome.andThen_tsk, tcpSendControlPacket_ack]
      exact ⟨k, keeping.inside, keeping.written, .inl ⟨established, fromStream⟩, keeping.next⟩
    · unfold tcpBufferOfo at processed
      split_ifs at processed
      have kept : segments[i].take ((segments[i].length : Int)).toNat = segments[i] := by simp
      simp only [segmentCb, kept] at processed
      obtain rfl := Option.some.inj processed
      refine ⟨k, keeping.inside, keeping.written, .inl ⟨established, ?_⟩, keeping.next⟩
      intro t member
      rcases List.mem_append.mp member with old | new
      · exact fromStream t old
      · exact ⟨i, List.mem_singleton.mp new⟩
  · obtain ⟨rcvBuf, stays, rcvNxt⟩ := tcpProcess_leaving leaving processed
    have other : ¬ (receiver.tsk.state = .finWait2 ∧
        (segmentCb first segments i other).flags = TCP_ACK ||| TCP_FIN) := by
      rintro ⟨-, flags⟩
      revert flags
      change TCP_PSH ||| TCP_ACK ≠ TCP_ACK ||| TCP_FIN
      decide
    rw [if_neg other] at rcvNxt
    refine ⟨k, keeping.inside, ?_, .inr stays, ?_⟩
    · rw [← keeping.written, Receiver.written, Receiver.written, rcvBuf]
    · rw [rcvNxt]
      exact keeping.next

theorem bareCb_seqEnd {seq : UInt32} {flags : UInt8} {other : TcpCb}
    (syn : hasFlag flags TCP_SYN = false) (fin : hasFlag flags TCP_FIN = false) :
    (bareCb seq flags other).seqEnd = seq := by
  have neither : hasFlag flags (TCP_SYN ||| TCP_FIN) = false := by
    rw [hasFlag_or, syn, fin]
    rfl
  change seq + (if hasFlag flags (TCP_SYN ||| TCP_FIN) then 1 else 0) = _
  rw [neither]
  exact UInt32.add_zero _

theorem finCb_seqEnd (other : TcpCb) :
    (finCb first segments other).seqEnd = seqOf first segments segments.length + 1 := rfl

/-- What is left to ask of a segment when it does not set `rcv_nxt`, or sets it. -/
theorem orderly_bare_iff (short : ShortStream segments)
    (keeping : Keeping first segments base receiver k) {tsk : TcpSock}
    (bare : Bare cb receiver.tsk tsk) {fits : Prop}
    (fits_iff : Advances receiver.tsk cb →
      (fits ↔ receiver.offset first ≤ offsetOf first cb.seqEnd ∧
        (offsetOf first cb.seqEnd ≤ (upTo segments k).length ∨
          segments.flatten.length ≤ (upTo segments k).length))) :
    Orderly first segments base receiver { receiver with tsk := tsk } ↔
      (Advances receiver.tsk cb → fits) := by
  have count : ({ receiver with tsk := tsk } : Receiver).count base =
      (upTo segments k).length := by
    rw [← keeping.count, Receiver.count, Receiver.count, Receiver.written, bare.rcvBuf]
    rfl
  rcases bare.moved with ⟨advances, moved⟩ | ⟨stays, same⟩
  · have offset : ({ receiver with tsk := tsk } : Receiver).offset first =
        offsetOf first cb.seqEnd := by rw [Receiver.offset, moved]
    constructor
    · rintro ⟨forward, covered⟩ -
      rw [offset] at forward
      rw [offset, count] at covered
      exact (fits_iff advances).mpr ⟨forward, covered⟩
    · intro inTurn
      obtain ⟨forward, covered⟩ := (fits_iff advances).mp (inTurn advances)
      refine ⟨?_, ?_⟩
      · rw [offset]
        exact forward
      · rw [offset, count]
        exact covered
  · have after := (keeping.of_bare_same bare same).orderly short
    refine ⟨fun _ advances => absurd advances stays, fun _ => ⟨?_, after.covered⟩⟩
    rw [Receiver.offset, Receiver.offset, same]

theorem fits_control_iff (short : ShortStream segments)
    (keeping : Keeping first segments base receiver k) {j : Nat} {flags : UInt8} {other : TcpCb}
    (syn : hasFlag flags TCP_SYN = false) (fin : hasFlag flags TCP_FIN = false) :
    Fits receiver.tsk (controlCb first segments j flags other) ↔
      receiver.offset first ≤ offsetOf first (controlCb first segments j flags other).seqEnd ∧
        (offsetOf first (controlCb first segments j flags other).seqEnd ≤
            (upTo segments k).length ∨
          segments.flatten.length ≤ (upTo segments k).length) := by
  have jInside := length_upTo_le segments j
  have kInside := length_upTo_le segments k
  have fits : Fits receiver.tsk (controlCb first segments j flags other) ↔
      (upTo segments j).length = receiver.offset first := by
    unfold Fits
    rw [controlCb, bareCb_seqEnd syn fin, Receiver.offset, ← offsetOf_seqOf first short j,
      offsetOf_inj]
    exact or_self_iff
  rw [fits, controlCb, bareCb_seqEnd syn fin, offsetOf_seqOf first short]
  rcases keeping.offset short with offset | ⟨-, offset⟩
  · omega
  · omega

/-- The FIN fits when the whole stream is written. -/
theorem fits_fin_iff (nonempty : ∀ segment ∈ segments, segment ≠ []) (short : ShortStream segments)
    (keeping : Keeping first segments base receiver k) (other : TcpCb) :
    Fits receiver.tsk (finCb first segments other) ↔ k = segments.length := by
  have total := length_upTo_le segments k
  unfold Fits
  rw [finCb_seqEnd]
  change seqOf first segments segments.length = _ ∨ _ ↔ _
  constructor
  · intro fits
    rcases keeping.next with next | ⟨whole, -⟩
    · rw [next, ← @offsetOf_inj first, ← @offsetOf_inj first, offsetOf_fin short,
        offsetOf_seqOf first short, offsetOf_seqOf first short, upTo_length] at fits
      exact keeping.whole nonempty (by omega)
    · exact whole
  · rintro rfl
    rcases keeping.next with next | ⟨-, next⟩
    · exact .inl next.symm
    · exact .inr next.symm

theorem fits_past_iff (nonempty : ∀ segment ∈ segments, segment ≠ [])
    (short : ShortStream segments) (keeping : Keeping first segments base receiver k)
    (other : TcpCb) (past : cb.seqEnd = seqOf first segments segments.length + 1) :
    Fits receiver.tsk (finCb first segments other) ↔
      receiver.offset first ≤ offsetOf first cb.seqEnd ∧
        (offsetOf first cb.seqEnd ≤ (upTo segments k).length ∨
          segments.flatten.length ≤ (upTo segments k).length) := by
  have kInside := length_upTo_le segments k
  rw [fits_fin_iff nonempty short keeping, past, offsetOf_fin short]
  constructor
  · rintro rfl
    rw [upTo_length]
    rcases keeping.offset short with offset | ⟨-, offset⟩
    · rw [upTo_length] at offset
      omega
    · omega
  · rintro ⟨-, covered⟩
    exact keeping.whole nonempty (by omega)

theorem Keeping.fitting (keeping : Keeping first segments base receiver k) {tsk : TcpSock}
    (bare : Bare cb receiver.tsk tsk)
    (fits : Advances receiver.tsk cb → cb.seqEnd = receiver.tsk.rcvNxt ∨
      k = segments.length ∧ cb.seqEnd = seqOf first segments segments.length + 1) :
    Keeping first segments base { receiver with tsk := tsk } k := by
  rcases bare.moved with ⟨advances, moved⟩ | ⟨-, same⟩
  · rcases fits advances with stays | ⟨whole, past⟩
    · exact keeping.of_bare_same bare (moved.trans stays)
    · exact keeping.of_bare bare (.inr ⟨whole, moved.trans past⟩)
  · exact keeping.of_bare_same bare same

theorem Keeping.control (keeping : Keeping first segments base receiver k)
    {j : Nat} {flags : UInt8} {other : TcpCb} (noFin : hasFlag flags TCP_FIN = false)
    {tsk : TcpSock} (bare : Bare (controlCb first segments j flags other) receiver.tsk tsk)
    (fits : Advances receiver.tsk (controlCb first segments j flags other) →
      Fits receiver.tsk (controlCb first segments j flags other)) :
    Keeping first segments base { receiver with tsk := tsk } k := by
  refine keeping.fitting bare fun advances => .inl ?_
  rcases fits advances with starts | ends
  · exact (bareCb_seqEnd advances.2.1 noFin).trans starts
  · exact ends

theorem Keeping.past (nonempty : ∀ segment ∈ segments, segment ≠ []) (short : ShortStream segments)
    (keeping : Keeping first segments base receiver k) {tsk : TcpSock} {other : TcpCb}
    (past : Advances receiver.tsk cb → cb.seqEnd = seqOf first segments segments.length + 1)
    (bare : Bare cb receiver.tsk tsk)
    (fits : Advances receiver.tsk cb → Fits receiver.tsk (finCb first segments other)) :
    Keeping first segments base { receiver with tsk := tsk } k := by
  refine keeping.fitting bare fun advances => .inr ⟨?_, past advances⟩
  exact (fits_fin_iff nonempty short keeping other).mp (fits advances)

theorem fin_noOvertaking_iff (nonempty : ∀ segment ∈ segments, segment ≠ [])
    (short : ShortStream segments) (keeping : Keeping first segments base receiver k)
    {other : TcpCb} {tsk : TcpSock} (bare : Bare (finCb first segments other) receiver.tsk tsk) :
    NoOvertaking first segments base receiver (.fin other) { receiver with tsk := tsk } ↔
      InTurn first segments receiver (.fin other) := by
  have orderly : Orderly first segments base receiver { receiver with tsk := tsk } ↔
      InTurn first segments receiver (.fin other) :=
    orderly_bare_iff short keeping bare fun _ =>
      fits_past_iff nonempty short keeping other (finCb_seqEnd other)
  constructor
  · rintro ⟨keeps, -⟩
    exact orderly.mp keeps
  · intro inTurn
    refine ⟨orderly.mpr inTurn, fun established _ => ?_⟩
    have advances : Advances receiver.tsk (finCb first segments other) := by
      refine ⟨?_, ?_, .inl ⟨established, .inl ?_⟩⟩
      · change hasFlag (TCP_FIN ||| TCP_ACK) TCP_RST = false
        decide
      · change hasFlag (TCP_FIN ||| TCP_ACK) TCP_SYN = false
        decide
      · change hasFlag (TCP_FIN ||| TCP_ACK) TCP_FIN = true
        decide
    have after := keeping.past nonempty short (fun _ => finCb_seqEnd other) bare inTurn
    rw [after.count, (fits_fin_iff nonempty short keeping other).mp (inTurn advances), upTo_length]

theorem peerStep_keeping (nonempty : ∀ segment ∈ segments, segment ≠ [])
    (short : ShortStream segments) {event : PeerEvent segments}
    (keeping : Keeping first segments base receiver k) (inTurn : InTurn first segments receiver event)
    (taken : peerStep newIss first segments receiver event = some next) :
    ∃ k', Keeping first segments base next k' := by
  cases event with
  | data i other => exact keeping.data nonempty short taken
  | control j flags noFin other =>
      obtain ⟨outcome, processed, rfl⟩ := Option.map_eq_some_iff.mp taken
      exact ⟨k, keeping.control noFin (tcpProcess_bare keeping.alive rfl processed) inTurn⟩
  | fin other =>
      obtain ⟨outcome, processed, rfl⟩ := Option.map_eq_some_iff.mp taken
      exact ⟨k, keeping.past nonempty short (fun _ => finCb_seqEnd other)
        (tcpProcess_bare keeping.alive rfl processed) inTurn⟩
  | late flags noFin other =>
      obtain ⟨outcome, processed, rfl⟩ := Option.map_eq_some_iff.mp taken
      exact ⟨k, keeping.past nonempty short (fun advances => bareCb_seqEnd advances.2.1 noFin)
        (tcpProcess_bare keeping.alive rfl processed) inTurn⟩
  | read len =>
      obtain rfl := Option.some.inj taken
      refine ⟨k, keeping.inside, ?_, keeping.state, keeping.next⟩
      rw [← keeping.written]
      exact (List.append_assoc ..).trans
        (congrArg _ (RingBuffer.readRingBuffer_contents receiver.tsk.rcvBuf len))
  | close =>
      obtain rfl := Option.some.inj taken
      obtain ⟨rcvBuf, -, rcvNxt⟩ := tcpSockClose_receiving receiver.tsk
      have left : Leaving (tcpSockClose receiver.tsk).tsk := by
        rcases keeping.alive with established | leaving
        · exact .inl (tcpSockClose_established established)
        · rw [tcpSockClose_leaving leaving]
          exact leaving
      refine ⟨k, keeping.inside, ?_, .inr left, ?_⟩
      · rw [← keeping.written, Receiver.written, Receiver.written, rcvBuf]
      · rw [rcvNxt]
        exact keeping.next

end Steps

/-- In every run of an honest peer's segments, no segment without payload overtakes the
stream exactly when each one that sets `rcv_nxt` starts or ends at it. -/
theorem fin_follows_data (newIss : UInt32) (tsk : TcpSock) (segments : List (List UInt8))
    (events : List (PeerEvent segments)) (established : tsk.state = .established)
    (buffered : ∀ t ∈ tsk.rcvOfoBuf, ∃ i, t = segmentOfo tsk.rcvNxt segments i)
    (nonempty : ∀ segment ∈ segments, segment ≠ []) (short : ShortStream segments) :
    EachStep (peerStep newIss tsk.rcvNxt segments)
        (NoOvertaking tsk.rcvNxt segments tsk.rcvBuf.contents) { tsk := tsk, taken := [] } events ↔
      Guarded (peerStep newIss tsk.rcvNxt segments) (InTurn tsk.rcvNxt segments)
        { tsk := tsk, taken := [] } events := by
  have start : Keeping tsk.rcvNxt segments tsk.rcvBuf.contents { tsk := tsk, taken := [] } 0 := by
    refine ⟨Nat.zero_le _, ?_, .inl ⟨established, buffered⟩, .inl ?_⟩
    · simp [Receiver.written, upTo]
    · simp [seqOf, upTo]
  have preserved : ∀ receiver event next,
      (∃ k, Keeping tsk.rcvNxt segments tsk.rcvBuf.contents receiver k) →
      InTurn tsk.rcvNxt segments receiver event →
      peerStep newIss tsk.rcvNxt segments receiver event = some next →
      ∃ k, Keeping tsk.rcvNxt segments tsk.rcvBuf.contents next k := by
    rintro receiver event next ⟨k, keeping⟩ inTurn taken
    exact peerStep_keeping nonempty short keeping inTurn taken
  refine eachStep_iff_guarded _ preserved ?_ ?_ events ⟨0, start⟩
  · rintro receiver event next ⟨k, keeping⟩ taken
    cases event with
    | data i other => exact Iff.rfl
    | control j flags noFin other =>
        obtain ⟨outcome, processed, rfl⟩ := Option.map_eq_some_iff.mp taken
        exact orderly_bare_iff short keeping (tcpProcess_bare keeping.alive rfl processed)
          fun advances => fits_control_iff short keeping advances.2.1 noFin
    | fin other =>
        obtain ⟨outcome, processed, rfl⟩ := Option.map_eq_some_iff.mp taken
        exact fin_noOvertaking_iff nonempty short keeping
          (tcpProcess_bare keeping.alive rfl processed)
    | late flags noFin other =>
        obtain ⟨outcome, processed, rfl⟩ := Option.map_eq_some_iff.mp taken
        exact orderly_bare_iff short keeping (tcpProcess_bare keeping.alive rfl processed)
          fun advances => fits_past_iff nonempty short keeping other
            (bareCb_seqEnd advances.2.1 noFin)
    | read len => exact Iff.rfl
    | close => exact Iff.rfl
  · rintro receiver event - stuck
    cases event with
    | data i other => trivial
    | control j flags noFin other =>
        exact absurd (Option.map_eq_none_iff.mp stuck) (tcpProcess_ne_none rfl)
    | fin other => exact absurd (Option.map_eq_none_iff.mp stuck) (tcpProcess_ne_none rfl)
    | late flags noFin other =>
        exact absurd (Option.map_eq_none_iff.mp stuck) (tcpProcess_ne_none rfl)
    | read len => trivial
    | close => trivial

def anyCb : TcpCb := tcpCbInit (buildSegment smallSock TCP_ACK [])

def nthSegment (i : Nat) : Fin smallStream.length := ⟨i % 3, Nat.mod_lt i (by decide)⟩

/-- The stream with its second segment first, an ACK and the FIN, which comes twice. -/
def orderlyArrivals : List (PeerEvent smallStream) :=
  [.data (nthSegment 1) anyCb, .control ⟨0, by decide⟩ TCP_ACK (by decide) anyCb,
    .data (nthSegment 0) anyCb, .read 3, .data (nthSegment 2) anyCb,
    .fin anyCb, .fin anyCb]

theorem fin_follows_data_small :
    EachStep (peerStep 0 smallSock.rcvNxt smallStream)
      (NoOvertaking smallSock.rcvNxt smallStream smallSock.rcvBuf.contents)
      { tsk := smallSock, taken := [] } orderlyArrivals := by
  refine (fin_follows_data 0 smallSock smallStream orderlyArrivals rfl ?_ (by decide) ?_).mpr ?_
  · exact fun t member => absurd member (List.not_mem_nil)
  · unfold ShortStream
    decide
  · decide

/-- The first segment is lost; the FIN moves `rcv_nxt` past the whole stream. -/
theorem fin_overtakes_data :
    ¬ EachStep (peerStep 0 smallSock.rcvNxt smallStream)
      (NoOvertaking smallSock.rcvNxt smallStream smallSock.rcvBuf.contents)
      { tsk := smallSock, taken := [] } [.data ⟨1, by decide⟩ anyCb, .fin anyCb] := by
  intro follows
  obtain ⟨-, finStep⟩ := follows _ rfl
  obtain ⟨⟨⟨-, covered⟩, -⟩, -⟩ := finStep _ rfl
  revert covered
  decide

end NetworkLab.Tcp
