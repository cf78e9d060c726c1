import NetworkLab.Tcp.ReceiveWindow

/-!
# Shifted sequence numbers

Two runs whose numbers differ by a constant for each direction.  `tcp_process` compares
`seq` with `rcv_nxt`, and `remove_ack_data` compares the numbers of the stored packets with
`ack`, as plain 32-bit numbers.  The runs agree exactly as long as no such comparison
comes out differently in the other run.
-/
set_option autoImplicit false

namespace NetworkLab.Tcp

open Lib Lib.Run

section Shifts

variable (k1 k2 : UInt32)

/-- The numbers of the peer are shifted by `k1`, our own by `k2`. -/
def Segment.shift (segment : Segment) : Segment :=
  { segment with seq := segment.seq + k2, ack := segment.ack + k1 }

def OfoPacket.shift (t : OfoPacket) : OfoPacket := { t with seqNum := t.seqNum + k1 }

def TcpCb.shift (cb : TcpCb) : TcpCb :=
  { cb with seq := cb.seq + k1, seqEnd := cb.seqEnd + k1, ack := cb.ack + k2 }

def TcpSock.shift (tsk : TcpSock) : TcpSock :=
  { tsk with
    iss := tsk.iss + k2, sndUna := tsk.sndUna + k2, sndNxt := tsk.sndNxt + k2,
    rcvNxt := tsk.rcvNxt + k1, sendBuf := tsk.sendBuf.map (Segment.shift k1 k2),
    rcvOfoBuf := tsk.rcvOfoBuf.map (OfoPacket.shift k1) }

/-- An effect of one run and the one of the other run.  A reset has the number 0 in both,
and `snd_una` of a new child is not set yet. -/
inductive ShiftedEffect : Effect → Effect → Prop
  | ipSendPacket (segment : Segment) :
      ShiftedEffect (.ipSendPacket segment) (.ipSendPacket (segment.shift k1 k2))
  | reset (cb : TcpCb) : ShiftedEffect (tcpSendReset cb) (tcpSendReset (cb.shift k1 k2))
  | newChild (child : TcpSock) : ShiftedEffect (.newChild child)
      (.newChild { child.shift k1 k2 with sndUna := child.sndUna })
  | ofChild (effect other : Effect) (shifted : ShiftedEffect effect other) :
      ShiftedEffect (.ofChild effect) (.ofChild other)
  | setRetransTimer : ShiftedEffect .setRetransTimer .setRetransTimer
  | removeRetransTimer : ShiftedEffect .removeRetransTimer .removeRetransTimer
  | setTimewaitTimer : ShiftedEffect .setTimewaitTimer .setTimewaitTimer
  | wakeUp (queue : WaitQueue) : ShiftedEffect (.wakeUp queue) (.wakeUp queue)
  | hashChild : ShiftedEffect .hashChild .hashChild
  | acceptEnqueue : ShiftedEffect .acceptEnqueue .acceptEnqueue
  | clearListenQueue : ShiftedEffect .clearListenQueue .clearListenQueue
  | unhash : ShiftedEffect .unhash .unhash
  | freeTcpSock : ShiftedEffect .freeTcpSock .freeTcpSock

/-- The same state, buffers and effects up to the shifts. -/
structure Outcome.Shifted (outcome other : Outcome) : Prop where
  tsk : other.tsk = outcome.tsk.shift k1 k2
  effects : List.Forall₂ (ShiftedEffect k1 k2) outcome.effects other.effects

inductive CallEvent
  | segment (cb : TcpCb) (iss : UInt32)
  | send (payload : List UInt8)
  | control (flags : UInt8)
  | acked (ackNum : UInt32)
  | read (len : Nat)

def CallEvent.shift : CallEvent → CallEvent
  | .segment cb iss => .segment (cb.shift k1 k2) (iss + k2)
  | .send payload => .send payload
  | .control flags => .control flags
  | .acked ackNum => .acked (ackNum + k2)
  | .read len => .read len

def call (tsk : TcpSock) : CallEvent → Option Outcome
  | .segment cb iss => tcpProcess iss cb tsk
  | .send payload => some (tcpSendPacket tsk payload)
  | .control flags => some (tcpSendControlPacket flags tsk)
  | .acked ackNum => some (removeAckData ackNum tsk)
  | .read len => some (tcpSockRead len tsk).2.done

def callStep (tsk : TcpSock) (event : CallEvent) : Option TcpSock :=
  (call tsk event).map Outcome.tsk

/-- Both calls fail, or both succeed with shifted outcomes. -/
def SameCall (first second : Option Outcome) : Prop :=
  Option.Rel (Outcome.Shifted k1 k2) first second

/-- Every call of the one run does what the call of the other run does. -/
def SameRuns : TcpSock → TcpSock → List CallEvent → Prop
  | _, _, [] => True
  | tsk, other, event :: rest =>
    SameCall k1 k2 (call tsk event) (call other (event.shift k1 k2)) ∧
      ∀ next, callStep tsk event = some next → ∀ after,
        callStep other (event.shift k1 k2) = some after → SameRuns next after rest

/-! ## The comparisons -/

/-- The states whose segments come to the branches for a payload, a FIN or an ACK. -/
def Remaining (tsk : TcpSock) : Prop :=
  tsk.state ≠ .synRecv ∧ tsk.state ≠ .finWait1 ∧ tsk.state ≠ .finWait2 ∧ tsk.state ≠ .lastAck

/-- The segment makes `tcp_process` call `remove_ack_data`. -/
def Acks (tsk : TcpSock) (cb : TcpCb) : Prop :=
  tsk.state = .synSent ∧ hasFlag cb.flags (TCP_SYN ||| TCP_ACK) ∨
    Open tsk ∧ hasFlag cb.flags TCP_RST = false ∧ hasFlag cb.flags TCP_SYN = false ∧
      (hasFlag cb.flags TCP_ACK ∨ hasFlag cb.flags TCP_FIN) ∧
      (tsk.state = .synRecv ∧ hasFlag cb.flags TCP_ACK ∨ tsk.state = .finWait1 ∨
        tsk.state = .lastAck ∨
        Remaining tsk ∧ (cb.plLen ≠ 0 ∧ cb.seq < tsk.rcvNxt ∨
          cb.plLen = 0 ∧ hasFlag cb.flags TCP_ACK))

/-- Shifting does not change which stored packets `ackNum` removes. -/
def KeepsAcked (ackNum : UInt32) (tsk : TcpSock) : Prop :=
  ∀ packet ∈ tsk.sendBuf, packet.seq ≤ ackNum ↔ packet.seq + k2 ≤ ackNum + k2

/-- Shifting does not change the comparisons that a call makes. -/
def KeepsOrder (tsk : TcpSock) : CallEvent → Prop
  | .segment cb _ =>
    (ReachesPayload tsk cb → cb.seq ≠ tsk.rcvNxt →
      (cb.seq < tsk.rcvNxt ↔ cb.seq + k1 < tsk.rcvNxt + k1)) ∧
    (Acks tsk cb → KeepsAcked k2 cb.ack tsk)
  | .send _ => True
  | .control _ => True
  | .acked ackNum => KeepsAcked k2 ackNum tsk
  | .read _ => True

end Shifts

/-! ## Calls whose comparisons agree -/

section Same

variable {k1 k2 : UInt32} {tsk : TcpSock} {cb : TcpCb} {iss : UInt32}

theorem rel_ite {α : Type} {R : α → α → Prop} {p q : Prop} [Decidable p] [Decidable q]
    {yes no yes' no' : α} (same : p ↔ q) (holds : p → R yes yes') (fails : ¬ p → R no no') :
    R (if p then yes else no) (if q then yes' else no') := by
  by_cases here : p
  · rw [if_pos here, if_pos (same.mp here)]
    exact holds here
  · rw [if_neg here, if_neg (fun there => here (same.mpr there))]
    exact fails here

theorem Outcome.Shifted.andThen {outcome other : Outcome} {f g : TcpSock → Outcome}
    (shifted : outcome.Shifted k1 k2 other)
    (later : (f outcome.tsk).Shifted k1 k2 (g (outcome.tsk.shift k1 k2))) :
    (outcome.andThen f).Shifted k1 k2 (other.andThen g) := by
  rw [← shifted.tsk] at later
  exact ⟨later.tsk, List.rel_append shifted.effects later.effects⟩

theorem Outcome.Shifted.emit {outcome other : Outcome} {effect after : Effect}
    (shifted : outcome.Shifted k1 k2 other) (same : ShiftedEffect k1 k2 effect after) :
    (outcome.emit effect).Shifted k1 k2 (other.emit after) :=
  ⟨shifted.tsk, List.rel_append shifted.effects (.cons same .nil)⟩

theorem Outcome.Shifted.setState {outcome other : Outcome} (state : TcpState)
    (shifted : outcome.Shifted k1 k2 other) :
    Outcome.Shifted k1 k2 { outcome with tsk := tcpSetState state outcome.tsk }
      { other with tsk := tcpSetState state other.tsk } :=
  ⟨by rw [shifted.tsk]; rfl, shifted.effects⟩

theorem shifted_done (tsk : TcpSock) : tsk.done.Shifted k1 k2 (tsk.shift k1 k2).done :=
  ⟨rfl, .nil⟩

theorem add_shift (a b k : UInt32) : a + k + b = a + b + k := by
  rw [UInt32.add_assoc, UInt32.add_comm k b, UInt32.add_assoc]

theorem shifted_tcpSendControlPacket (flags : UInt8) (tsk : TcpSock) :
    (tcpSendControlPacket flags tsk).Shifted k1 k2
      (tcpSendControlPacket flags (tsk.shift k1 k2)) := by
  unfold tcpSendControlPacket
  split_ifs
  · constructor
    · simp only [TcpSock.shift, List.map_append, List.map_cons, List.map_nil, add_shift]
      rfl
    · exact .cons .setRetransTimer (.cons (.ipSendPacket _) .nil)
  · exact ⟨rfl, .cons (.ipSendPacket _) .nil⟩

theorem shifted_tcpSendPacket (payload : List UInt8) (tsk : TcpSock) :
    (tcpSendPacket tsk payload).Shifted k1 k2 (tcpSendPacket (tsk.shift k1 k2) payload) := by
  constructor
  · simp only [tcpSendPacket, TcpSock.shift, List.map_append, List.map_cons, List.map_nil,
      add_shift]
    rfl
  · exact .cons .setRetransTimer (.cons (.ipSendPacket _) .nil)

theorem shifted_removeAckData {ackNum : UInt32} (keeps : KeepsAcked k2 ackNum tsk) :
    (removeAckData ackNum tsk).Shifted k1 k2 (removeAckData (ackNum + k2) (tsk.shift k1 k2)) := by
  have agree : ∀ packet ∈ tsk.sendBuf,
      (packet.shift k1 k2).removedBy (ackNum + k2) = packet.removedBy ackNum := by
    intro packet member
    exact decide_eq_decide.mpr (keeps packet member).symm
  have kept : (tsk.shift k1 k2).sendBuf.filter (fun packet => !packet.removedBy (ackNum + k2)) =
      (tsk.sendBuf.filter fun packet => !packet.removedBy ackNum).map (Segment.shift k1 k2) := by
    rw [TcpSock.shift, List.filter_map]
    congr 1
    apply List.filter_congr
    intro packet member
    exact congrArg (!·) (agree packet member)
  have removed : (tsk.shift k1 k2).sendBuf.filter (fun packet => packet.removedBy (ackNum + k2)) =
      (tsk.sendBuf.filter fun packet => packet.removedBy ackNum).map (Segment.shift k1 k2) := by
    rw [TcpSock.shift, List.filter_map]
    congr 1
    apply List.filter_congr
    exact agree
  constructor
  · simp only [removeAckData, kept, removed, List.foldl_map]
    rfl
  · simp only [removeAckData, kept, List.isEmpty_map]
    split_ifs
    · exact .cons .removeRetransTimer .nil
    · exact .cons .removeRetransTimer (.cons .setRetransTimer .nil)

theorem shifted_tcpSockClose (tsk : TcpSock) :
    (tcpSockClose tsk).Shifted k1 k2 (tcpSockClose (tsk.shift k1 k2)) := by
  have sent : Outcome.Shifted k1 k2 _ _ := shifted_tcpSendControlPacket (TCP_FIN ||| TCP_ACK) tsk
  have same : (tsk.shift k1 k2).state = tsk.state := rfl
  unfold tcpSockClose
  rw [same]
  split
  · exact ⟨rfl, .cons .clearListenQueue (.cons .unhash .nil)⟩
  · exact sent.setState .finWait1
  · exact sent.setState .lastAck
  · exact shifted_done tsk

/-! ## The branches for a payload -/

theorem drainPass_shift (queue : List OfoPacket) (tsk : TcpSock) :
    drainPass (queue.map (OfoPacket.shift k1)) (tsk.shift k1 k2) =
      (drainPass queue tsk).map fun (next, left, flag) =>
        (next.shift k1 k2, left.map (OfoPacket.shift k1), flag) := by
  induction queue generalizing tsk with
  | nil => rfl
  | cons t rest ih =>
      have follows : (t.shift k1).seqNum = (tsk.shift k1 k2).rcvNxt ↔ t.seqNum = tsk.rcvNxt :=
        UInt32.add_left_inj k1
      rw [List.map_cons, drainPass, drainPass]
      by_cases same : t.seqNum = tsk.rcvNxt
      · rw [if_pos (follows.mpr same), if_pos same]
        change (tsk.rcvBuf.writeRingBuffer t.packet t.len).bind _ = _
        cases tsk.rcvBuf.writeRingBuffer t.packet t.len with
        | none => rfl
        | some rcvBuf =>
            let written : TcpSock :=
              { tsk with rcvBuf := rcvBuf, rcvNxt := t.seqNum + UInt32.ofInt t.len }
            have moved : { tsk.shift k1 k2 with
                rcvBuf := rcvBuf, rcvNxt := (t.shift k1).seqNum + UInt32.ofInt (t.shift k1).len } =
                written.shift k1 k2 := by
              simp only [written, TcpSock.shift, OfoPacket.shift, add_shift]
            rw [Option.bind_some, moved, ih written]
            change _ = Option.map _ ((drainPass rest written).bind _)
            cases drainPass rest written with
            | none => rfl
            | some passed => rfl
      · rw [if_neg (fun other => same (follows.mp other)), if_neg same, ih tsk]
        cases drainPass rest tsk with
        | none => rfl
        | some passed => rfl

theorem drain_shift (fuel : Nat) (tsk : TcpSock) :
    drain fuel (tsk.shift k1 k2) = (drain fuel tsk).map (TcpSock.shift k1 k2) := by
  induction fuel generalizing tsk with
  | zero => rfl
  | succ fuel ih =>
      have passes : drainPass (tsk.rcvOfoBuf.map (OfoPacket.shift k1)) (tsk.shift k1 k2) = _ :=
        drainPass_shift tsk.rcvOfoBuf tsk
      rw [drain, drain]
      change (drainPass (tsk.rcvOfoBuf.map (OfoPacket.shift k1)) (tsk.shift k1 k2)).bind _ = _
      rw [passes]
      cases drainPass tsk.rcvOfoBuf tsk with
      | none => rfl
      | some result =>
          obtain ⟨next, left, flag⟩ := result
          cases flag with
          | false => rfl
          | true => exact ih { next with rcvOfoBuf := left }

theorem sameCall_tcpRcvInOrder (cb : TcpCb) (tsk : TcpSock) :
    SameCall k1 k2 (tcpRcvInOrder cb tsk)
      (tcpRcvInOrder (cb.shift k1 k2) (tsk.shift k1 k2)) := by
  unfold tcpRcvInOrder
  change Option.Rel _ ((tsk.rcvBuf.writeRingBuffer cb.payload cb.plLen).bind _)
    ((tsk.rcvBuf.writeRingBuffer cb.payload cb.plLen).bind _)
  cases tsk.rcvBuf.writeRingBuffer cb.payload cb.plLen with
  | none => exact .none
  | some rcvBuf =>
      let written : TcpSock := { tsk with rcvBuf := rcvBuf, rcvNxt := cb.seqEnd }
      have drains : drain (tsk.rcvOfoBuf.length + 1) (written.shift k1 k2) = _ :=
        drain_shift (tsk.rcvOfoBuf.length + 1) written
      have sameLength : (tsk.shift k1 k2).rcvOfoBuf.length = tsk.rcvOfoBuf.length :=
        List.length_map _
      rw [Option.bind_some, Option.bind_some, sameLength]
      change Option.Rel _ ((drain _ written).bind _) ((drain _ (written.shift k1 k2)).bind _)
      rw [drains]
      cases drain (tsk.rcvOfoBuf.length + 1) written with
      | none => exact .none
      | some drained =>
          have replied : Outcome.Shifted k1 k2 _ _ := shifted_tcpSendControlPacket TCP_ACK drained
          exact .some ⟨replied.tsk, .cons (.wakeUp _) replied.effects⟩

theorem sameCall_tcpBufferOfo (cb : TcpCb) (tsk : TcpSock) :
    SameCall k1 k2 (tcpBufferOfo cb tsk) (tcpBufferOfo (cb.shift k1 k2) (tsk.shift k1 k2)) := by
  unfold tcpBufferOfo
  change Option.Rel _ _ (if 0 ≤ cb.plLen ∧ cb.plLen ≤ cb.payload.length then _ else none)
  split_ifs
  · apply Option.Rel.some
    constructor
    · simp only [TcpSock.shift, List.map_append, List.map_cons, List.map_nil]
      rfl
    · exact .nil
  · exact .none

/-! ## `tcp_process` -/

theorem shifted_reset (cb : TcpCb) (tsk : TcpSock) :
    Outcome.Shifted k1 k2 { tsk := tsk, effects := [tcpSendReset cb] }
      { tsk := tsk.shift k1 k2, effects := [tcpSendReset (cb.shift k1 k2)] } :=
  ⟨rfl, .cons (.reset cb) .nil⟩

theorem shifted_newChild (child : TcpSock) (noPackets : child.sendBuf = []) :
    ShiftedEffect k1 k2 (.newChild (tcpSendControlPacket (TCP_SYN ||| TCP_ACK) child).tsk)
      (.newChild (tcpSendControlPacket (TCP_SYN ||| TCP_ACK)
        { child.shift k1 k2 with sndUna := child.sndUna }).tsk) := by
  have syn : hasFlag (TCP_SYN ||| TCP_ACK) (TCP_SYN ||| TCP_FIN) = true := by decide
  have sent : ShiftedEffect k1 k2 _ _ :=
    .newChild (tcpSendControlPacket (TCP_SYN ||| TCP_ACK) child).tsk
  simp only [tcpSendControlPacket, syn, if_true, TcpSock.shift, noPackets, add_shift,
    List.nil_append, List.map_cons, List.map_nil] at sent ⊢
  exact sent

theorem shifted_tcpStateListen (iss : UInt32) (cb : TcpCb) (tsk : TcpSock) :
    (tcpStateListen iss cb tsk).Shifted k1 k2
      (tcpStateListen (iss + k2) (cb.shift k1 k2) (tsk.shift k1 k2)) := by
  have syn : hasFlag (TCP_SYN ||| TCP_ACK) (TCP_SYN ||| TCP_FIN) = true := by decide
  unfold tcpStateListen
  apply rel_ite Iff.rfl
  · intro _
    constructor
    · rfl
    · apply List.Forall₂.cons (shifted_newChild _ rfl)
      simp only [tcpSendControlPacket, syn, if_true, List.map_cons, List.map_nil]
      exact .cons (.ofChild _ _ .setRetransTimer)
        (.cons (.ofChild _ _ (.ipSendPacket _)) (.cons .hashChild .nil))
  · exact fun _ => shifted_reset cb tsk

theorem shifted_tcpStateSynSent (keeps : hasFlag cb.flags (TCP_SYN ||| TCP_ACK) →
    KeepsAcked k2 cb.ack tsk) :
    (tcpStateSynSent cb tsk).Shifted k1 k2
      (tcpStateSynSent (cb.shift k1 k2) (tsk.shift k1 k2)) := by
  unfold tcpStateSynSent
  apply rel_ite Iff.rfl
  · intro flags
    have acked : Outcome.Shifted k1 k2 _ _ := shifted_removeAckData (keeps flags)
    apply Outcome.Shifted.emit _ (.wakeUp .waitConnect)
    apply Outcome.Shifted.setState .established
    apply acked.andThen
    exact shifted_tcpSendControlPacket TCP_ACK
      { (removeAckData cb.ack tsk).tsk with rcvNxt := cb.seqEnd, sndUna := cb.ack }
  · exact fun _ => shifted_reset cb tsk

theorem shifted_tcpStateSynRecv (keeps : hasFlag cb.flags TCP_ACK → KeepsAcked k2 cb.ack tsk) :
    (tcpStateSynRecv cb tsk).Shifted k1 k2
      (tcpStateSynRecv (cb.shift k1 k2) (tsk.shift k1 k2)) := by
  unfold tcpStateSynRecv
  apply rel_ite Iff.rfl
  · intro ack
    have acked : Outcome.Shifted k1 k2 _ _ := shifted_removeAckData (keeps ack)
    exact (acked.emit .acceptEnqueue).emit (.wakeUp .parentWaitAccept)
  · exact fun _ => shifted_reset cb tsk

theorem shifted_acked (flag : Bool) {t : TcpSock} {ackNum : UInt32}
    (keeps : flag → KeepsAcked k2 ackNum t) :
    Outcome.Shifted k1 k2 (if flag then removeAckData ackNum t else t.done)
      (if flag then removeAckData (ackNum + k2) (t.shift k1 k2) else (t.shift k1 k2).done) :=
  rel_ite Iff.rfl (fun set => shifted_removeAckData (keeps set)) fun _ => shifted_done t

theorem Outcome.Shifted.reply {outcome other : Outcome} (number : UInt32)
    (shifted : outcome.Shifted k1 k2 other) :
    Outcome.Shifted k1 k2
      (outcome.andThen fun t => tcpSendControlPacket TCP_ACK { t with rcvNxt := number })
      (other.andThen fun t => tcpSendControlPacket TCP_ACK { t with rcvNxt := number + k1 }) := by
  apply shifted.andThen
  exact shifted_tcpSendControlPacket TCP_ACK { outcome.tsk with rcvNxt := number }

theorem sameCall_some {outcome other : Outcome} (shifted : outcome.Shifted k1 k2 other) :
    SameCall k1 k2 (some outcome) (some other) := .some shifted

theorem sameCall_tcpRcvSegment
    (order : cb.plLen ≠ 0 → cb.seq ≠ tsk.rcvNxt →
      (cb.seq < tsk.rcvNxt ↔ cb.seq + k1 < tsk.rcvNxt + k1))
    (keepsOld : cb.plLen ≠ 0 → cb.seq < tsk.rcvNxt → KeepsAcked k2 cb.ack tsk)
    (keeps : cb.plLen = 0 → hasFlag cb.flags TCP_ACK → KeepsAcked k2 cb.ack tsk) :
    SameCall k1 k2 (tcpRcvSegment cb tsk)
      (tcpRcvSegment (cb.shift k1 k2) (tsk.shift k1 k2)) := by
  have same : cb.seq = tsk.rcvNxt ↔ (cb.shift k1 k2).seq = (tsk.shift k1 k2).rcvNxt :=
    (UInt32.add_left_inj k1).symm
  unfold tcpRcvSegment
  apply rel_ite Iff.rfl
  · intro payload
    apply rel_ite same
    · exact fun _ => sameCall_tcpRcvInOrder cb tsk
    · intro other
      apply rel_ite (order payload other)
      · intro old
        have replied : Outcome.Shifted k1 k2 _ _ := shifted_tcpSendControlPacket TCP_ACK tsk
        apply sameCall_some
        apply replied.andThen
        rw [tcpSendControlPacket_ack]
        exact shifted_removeAckData (keepsOld payload old)
      · exact fun _ => sameCall_tcpBufferOfo cb tsk
  · intro noPayload
    have empty : cb.plLen = 0 := not_not.mp noPayload
    apply rel_ite Iff.rfl
    · intro fin
      have acked : Outcome.Shifted k1 k2 _ _ :=
        shifted_acked (hasFlag cb.flags TCP_ACK) (t := tcpSetState .closeWait tsk) (keeps empty)
      exact sameCall_some ((acked.reply cb.seqEnd).andThen (shifted_tcpSockClose _))
    · intro noFin
      have acked : Outcome.Shifted k1 k2 _ _ :=
        shifted_acked (hasFlag cb.flags TCP_ACK) (keeps empty)
      apply rel_ite Iff.rfl
      · exact fun _ => sameCall_some (acked.reply cb.seqEnd)
      · exact fun _ => sameCall_some acked

theorem sameCall_tcpProcess (keeps : KeepsOrder k1 k2 tsk (.segment cb iss)) :
    SameCall k1 k2 (tcpProcess iss cb tsk)
      (tcpProcess (iss + k2) (cb.shift k1 k2) (tsk.shift k1 k2)) := by
  obtain ⟨order, acked⟩ := keeps
  unfold tcpProcess
  apply rel_ite Iff.rfl
  · exact fun _ => sameCall_some (shifted_reset cb tsk)
  intro closed
  apply rel_ite Iff.rfl
  · exact fun _ => sameCall_some (shifted_tcpStateListen iss cb tsk)
  intro listen
  apply rel_ite Iff.rfl
  · exact fun synSent => sameCall_some (shifted_tcpStateSynSent fun flags =>
      acked (.inl ⟨synSent, flags⟩))
  intro synSent
  have opened : Open tsk := ⟨closed, listen, synSent⟩
  have closes : Outcome.Shifted k1 k2 _ _ := shifted_tcpSockClose tsk
  apply rel_ite Iff.rfl
  · exact fun _ => sameCall_some (closes.emit .freeTcpSock)
  intro rst
  have noRst : hasFlag cb.flags TCP_RST = false := Bool.eq_false_of_not_eq_true rst
  apply rel_ite Iff.rfl
  · exact fun _ => sameCall_some ⟨closes.tsk, .cons (.reset cb) closes.effects⟩
  intro syn
  have noSyn : hasFlag cb.flags TCP_SYN = false := Bool.eq_false_of_not_eq_true syn
  apply rel_ite Iff.rfl
  · exact fun _ => sameCall_some (shifted_done tsk)
  intro quiet
  have loud : ¬ (!hasFlag cb.flags TCP_ACK && !hasFlag cb.flags TCP_FIN) = true := quiet
  have flags : hasFlag cb.flags TCP_ACK ∨ hasFlag cb.flags TCP_FIN := by
    by_contra neither
    exact loud (by simpa [not_or] using neither)
  have acks := fun rest => acked (.inr ⟨opened, noRst, noSyn, flags, rest⟩)
  apply rel_ite Iff.rfl
  · exact fun synRecv => sameCall_some (shifted_tcpStateSynRecv fun ack =>
      acks (.inl ⟨synRecv, ack⟩))
  intro synRecv
  apply rel_ite Iff.rfl
  · intro finWait1
    have removed : Outcome.Shifted k1 k2 _ _ := shifted_removeAckData (acks (.inr (.inl finWait1)))
    exact sameCall_some (removed.setState .finWait2)
  intro finWait1
  apply rel_ite Iff.rfl
  · intro finWait2
    apply rel_ite Iff.rfl
    · intro _
      have replied : Outcome.Shifted k1 k2 _ _ :=
        shifted_tcpSendControlPacket TCP_ACK { tsk with rcvNxt := cb.seqEnd }
      exact sameCall_some (replied.emit .setTimewaitTimer)
    · exact fun _ => sameCall_some (shifted_done tsk)
  intro finWait2
  apply rel_ite Iff.rfl
  · intro lastAck
    have keepsClosed : KeepsAcked k2 cb.ack (tcpSetState .closed tsk) :=
      acks (.inr (.inr (.inl lastAck)))
    have removed : Outcome.Shifted k1 k2 _ _ := shifted_removeAckData keepsClosed
    exact sameCall_some (removed.emit .unhash)
  intro lastAck
  have remaining : Remaining tsk := ⟨synRecv, finWait1, finWait2, lastAck⟩
  apply sameCall_tcpRcvSegment
  · intro payload
    exact order ⟨opened, synRecv, finWait1, finWait2, lastAck, noRst, noSyn, flags, payload⟩
  · exact fun payload old => acks (.inr (.inr (.inr ⟨remaining, .inl ⟨payload, old⟩⟩)))
  · exact fun empty ack => acks (.inr (.inr (.inr ⟨remaining, .inr ⟨empty, ack⟩⟩)))

theorem sameCall_of_keepsOrder {event : CallEvent} (keeps : KeepsOrder k1 k2 tsk event) :
    SameCall k1 k2 (call tsk event) (call (tsk.shift k1 k2) (event.shift k1 k2)) := by
  cases event with
  | segment cb iss => exact sameCall_tcpProcess keeps
  | send payload => exact sameCall_some (shifted_tcpSendPacket payload tsk)
  | control flags => exact sameCall_some (shifted_tcpSendControlPacket flags tsk)
  | acked ackNum => exact sameCall_some (shifted_removeAckData keeps)
  | read len => exact sameCall_some (shifted_done _)

/-! ## Comparisons that come out differently -/

theorem shift_injective : Function.Injective (Segment.shift k1 k2) := by
  intro first second same
  cases first
  cases second
  simpa only [Segment.shift, Segment.mk.injEq, UInt32.add_left_inj] using same

theorem keepsAcked_of_kept {ackNum : UInt32}
    (same : (tsk.shift k1 k2).sendBuf.filter (fun packet => !packet.removedBy (ackNum + k2)) =
      (tsk.sendBuf.filter fun packet => !packet.removedBy ackNum).map (Segment.shift k1 k2)) :
    KeepsAcked k2 ackNum tsk := by
  rw [TcpSock.shift, List.filter_map] at same
  have kept := (List.map_injective_iff.mpr shift_injective) same
  intro packet member
  have agree : packet ∈ tsk.sendBuf.filter
        ((fun packet => !packet.removedBy (ackNum + k2)) ∘ Segment.shift k1 k2) ↔
      packet ∈ tsk.sendBuf.filter fun packet => !packet.removedBy ackNum := by
    rw [kept]
  simp only [List.mem_filter, member, true_and, Function.comp_apply, Segment.removedBy,
    Segment.shift, Bool.not_eq_true', decide_eq_false_iff_not] at agree
  exact (not_iff_not.mp ((decide_eq_false_iff_not).symm.trans agree)).symm

theorem tcpBufferOfo_silent {outcome : Outcome} (success : tcpBufferOfo cb tsk = some outcome) :
    outcome.effects = [] := by
  unfold tcpBufferOfo at success
  split_ifs at success
  cases Option.some.inj success
  rfl

/-- An old payload is answered, and one that is kept for later is not. -/
theorem not_sameCall_bufferOfo {outcome : Outcome} (answers : outcome.effects ≠ []) :
    ¬ SameCall k1 k2 (some outcome) (tcpBufferOfo cb tsk) := by
  intro same
  generalize kept : tcpBufferOfo cb tsk = other at same
  obtain ⟨shifted⟩ := same
  have silent := shifted.effects
  rw [tcpBufferOfo_silent kept] at silent
  exact answers (List.forall₂_nil_right_iff.mp silent)

theorem not_bufferOfo_sameCall {outcome : Outcome} (answers : outcome.effects ≠ []) :
    ¬ SameCall k1 k2 (tcpBufferOfo cb tsk) (some outcome) := by
  intro same
  generalize kept : tcpBufferOfo cb tsk = other at same
  obtain ⟨shifted⟩ := same
  have silent := shifted.effects
  rw [tcpBufferOfo_silent kept] at silent
  exact answers (List.forall₂_nil_left_iff.mp silent)

theorem order_of_sameCall (reaches : ReachesPayload tsk cb) (other : cb.seq ≠ tsk.rcvNxt)
    (same : SameCall k1 k2 (tcpProcess iss cb tsk)
      (tcpProcess (iss + k2) (cb.shift k1 k2) (tsk.shift k1 k2))) :
    cb.seq < tsk.rcvNxt ↔ (cb.shift k1 k2).seq < (tsk.shift k1 k2).rcvNxt := by
  have reachesShifted : ReachesPayload (tsk.shift k1 k2) (cb.shift k1 k2) := reaches
  have otherShifted : (cb.shift k1 k2).seq ≠ (tsk.shift k1 k2).rcvNxt := by
    intro equal
    exact other ((UInt32.add_left_inj k1).mp equal)
  rw [tcpProcess_payload reaches, tcpProcess_payload reachesShifted, if_neg other,
    if_neg otherShifted] at same
  have answers : ∀ (ackNum : UInt32) (t : TcpSock),
      ((tcpSendControlPacket TCP_ACK t).andThen (removeAckData ackNum)).effects ≠ [] := by
    intro ackNum t
    rw [Outcome.andThen_effects]
    exact List.append_ne_nil_of_right_ne_nil _ (List.cons_ne_nil _ _)
  constructor
  · intro old
    by_contra young
    rw [if_pos old, if_neg young] at same
    exact not_sameCall_bufferOfo (answers _ _) same
  · intro old
    by_contra young
    rw [if_neg young, if_pos old] at same
    exact not_bufferOfo_sameCall (answers _ _) same

def Finishing (tsk : TcpSock) (cb : TcpCb) : Prop :=
  Open tsk ∧ Remaining tsk ∧ cb.plLen = 0 ∧ hasFlag cb.flags TCP_FIN

theorem tcpSockClose_sendBuf {t : TcpSock} (waiting : t.state = .closeWait) :
    (tcpSockClose t).tsk.sendBuf =
      t.sendBuf ++ [buildSegment t (TCP_FIN ||| TCP_ACK) []] := by
  have fin : hasFlag (TCP_FIN ||| TCP_ACK) (TCP_SYN ||| TCP_FIN) = true := by decide
  simp [tcpSockClose, waiting, tcpSendControlPacket, fin, tcpSetState]

theorem tcpProcess_acks (acks : Acks tsk cb) : ∃ outcome sent,
    tcpProcess iss cb tsk = some outcome ∧
      outcome.tsk.sendBuf =
        tsk.sendBuf.filter (fun packet => !packet.removedBy cb.ack) ++ sent ∧
      (Finishing tsk cb ∧ sent.length = 1 ∨ ¬ Finishing tsk cb ∧ sent.length = 0) := by
  rcases acks with ⟨synSent, flags⟩ | ⟨opened, rst, syn, flags, branch⟩
  · have closed : tsk.state ≠ .closed := by simp [synSent]
    have listen : tsk.state ≠ .listen := by simp [synSent]
    refine ⟨_, [], by rw [tcpProcess, if_neg closed, if_neg listen, if_pos synSent], ?_, ?_⟩
    · rw [tcpStateSynSent, if_pos flags, List.append_nil]
      rfl
    · exact .inr ⟨fun finishing => finishing.1.2.2 synSent, rfl⟩
  rw [tcpProcess_loud opened rst syn flags]
  rcases branch with ⟨synRecv, ack⟩ | finWait1 | lastAck | ⟨remaining, segment⟩
  · rw [if_pos synRecv, tcpStateSynRecv, if_pos ack]
    exact ⟨_, [], rfl, (List.append_nil _).symm,
      .inr ⟨fun finishing => finishing.2.1.1 synRecv, rfl⟩⟩
  · rw [if_neg (by simp [finWait1]), if_pos finWait1]
    exact ⟨_, [], rfl, (List.append_nil _).symm,
      .inr ⟨fun finishing => finishing.2.1.2.1 finWait1, rfl⟩⟩
  · rw [if_neg (by simp [lastAck]), if_neg (by simp [lastAck]), if_neg (by simp [lastAck]),
      if_pos lastAck]
    exact ⟨_, [], rfl, (List.append_nil _).symm,
      .inr ⟨fun finishing => finishing.2.1.2.2.2 lastAck, rfl⟩⟩
  obtain ⟨synRecv, finWait1, finWait2, lastAck⟩ := id remaining
  rw [if_neg synRecv, if_neg finWait1, if_neg finWait2, if_neg lastAck, tcpRcvSegment]
  rcases segment with ⟨payload, old⟩ | ⟨empty, ack⟩
  · have other : cb.seq ≠ tsk.rcvNxt := by
      intro equal
      rw [equal] at old
      exact absurd old (UInt32.lt_irrefl _)
    rw [if_pos payload, if_neg other, if_pos old]
    refine ⟨_, [], rfl, ?_, .inr ⟨fun finishing => payload finishing.2.2.1, rfl⟩⟩
    rw [Outcome.andThen_tsk, tcpSendControlPacket_ack, List.append_nil]
    rfl
  · rw [if_neg (not_not.mpr empty)]
    by_cases fin : hasFlag cb.flags TCP_FIN
    · rw [if_pos fin]
      simp only [ack, if_true]
      let waiting : TcpSock :=
        { (removeAckData cb.ack (tcpSetState .closeWait tsk)).tsk with rcvNxt := cb.seqEnd }
      have closes : (tcpSockClose waiting).tsk.sendBuf =
          waiting.sendBuf ++ [buildSegment waiting (TCP_FIN ||| TCP_ACK) []] :=
        tcpSockClose_sendBuf rfl
      refine ⟨_, [buildSegment waiting (TCP_FIN ||| TCP_ACK) []], rfl, ?_,
        .inl ⟨⟨opened, remaining, empty, fin⟩, rfl⟩⟩
      rw [Outcome.andThen_tsk, Outcome.andThen_tsk, tcpSendControlPacket_ack]
      exact closes
    · rw [if_neg fin]
      simp only [ack, if_true]
      have silent : ¬ Finishing tsk cb := fun finishing => fin finishing.2.2.2
      by_cases plain : cb.flags ≠ TCP_ACK
      · rw [if_pos plain]
        refine ⟨_, [], rfl, ?_, .inr ⟨silent, rfl⟩⟩
        rw [Outcome.andThen_tsk, tcpSendControlPacket_ack, List.append_nil]
        rfl
      · rw [if_neg plain]
        exact ⟨_, [], rfl, (List.append_nil _).symm, .inr ⟨silent, rfl⟩⟩

theorem acks_shift (acks : Acks tsk cb)
    (order : ReachesPayload tsk cb → cb.seq ≠ tsk.rcvNxt →
      (cb.seq < tsk.rcvNxt ↔ (cb.shift k1 k2).seq < (tsk.shift k1 k2).rcvNxt)) :
    Acks (tsk.shift k1 k2) (cb.shift k1 k2) := by
  rcases acks with synSent | ⟨opened, rst, syn, flags, branch⟩
  · exact .inl synSent
  refine .inr ⟨opened, rst, syn, flags, ?_⟩
  rcases branch with synRecv | finWait1 | lastAck | ⟨remaining, ⟨payload, old⟩ | ack⟩
  · exact .inl synRecv
  · exact .inr (.inl finWait1)
  · exact .inr (.inr (.inl lastAck))
  · obtain ⟨synRecv, finWait1, finWait2, lastAck⟩ := id remaining
    have other : cb.seq ≠ tsk.rcvNxt := by
      intro equal
      rw [equal] at old
      exact absurd old (UInt32.lt_irrefl _)
    have reaches : ReachesPayload tsk cb :=
      ⟨opened, synRecv, finWait1, finWait2, lastAck, rst, syn, flags, payload⟩
    exact .inr (.inr (.inr ⟨remaining, .inl ⟨payload, (order reaches other).mp old⟩⟩))
  · exact .inr (.inr (.inr ⟨remaining, .inr ack⟩))

theorem keepsAcked_of_sameCall (acks : Acks tsk cb)
    (same : SameCall k1 k2 (tcpProcess iss cb tsk)
      (tcpProcess (iss + k2) (cb.shift k1 k2) (tsk.shift k1 k2))) :
    KeepsAcked k2 cb.ack tsk := by
  have acksShifted : Acks (tsk.shift k1 k2) (cb.shift k1 k2) :=
    acks_shift acks fun reaches other => order_of_sameCall reaches other same
  obtain ⟨outcome, sent, success, sendBuf, finishing⟩ := tcpProcess_acks acks
  obtain ⟨after, sentAfter, successAfter, sendBufAfter, finishingAfter⟩ :=
    tcpProcess_acks acksShifted
  rw [success, successAfter] at same
  obtain ⟨shifted⟩ := same
  have sameLength : sentAfter.length = (sent.map (Segment.shift k1 k2)).length := by
    rw [List.length_map]
    rcases finishing with ⟨finishes, one⟩ | ⟨goes, zero⟩
    · rcases finishingAfter with ⟨-, oneAfter⟩ | ⟨impossible, -⟩
      · rw [one, oneAfter]
      · exact absurd finishes impossible
    · rcases finishingAfter with ⟨impossible, -⟩ | ⟨-, zeroAfter⟩
      · exact absurd impossible goes
      · rw [zero, zeroAfter]
  have sameSent : (outcome.tsk.shift k1 k2).sendBuf = _ :=
    (congrArg (List.map (Segment.shift k1 k2)) sendBuf).trans List.map_append
  have both := congrArg TcpSock.sendBuf shifted.tsk
  rw [sendBufAfter, sameSent] at both
  exact keepsAcked_of_kept (List.append_inj' both sameLength).1

theorem keepsOrder_of_sameCall {event : CallEvent}
    (same : SameCall k1 k2 (call tsk event) (call (tsk.shift k1 k2) (event.shift k1 k2))) :
    KeepsOrder k1 k2 tsk event := by
  cases event with
  | segment cb iss =>
      exact ⟨fun reaches other => order_of_sameCall reaches other same,
        fun acks => keepsAcked_of_sameCall acks same⟩
  | send payload => trivial
  | control flags => trivial
  | acked ackNum =>
      obtain ⟨shifted⟩ := same
      exact keepsAcked_of_kept (congrArg TcpSock.sendBuf shifted.tsk)
  | read len => trivial

theorem sameCall_iff {event : CallEvent} :
    SameCall k1 k2 (call tsk event) (call (tsk.shift k1 k2) (event.shift k1 k2)) ↔
      KeepsOrder k1 k2 tsk event :=
  ⟨keepsOrder_of_sameCall, sameCall_of_keepsOrder⟩

theorem callStep_shift {event : CallEvent} {next : TcpSock}
    (same : SameCall k1 k2 (call tsk event) (call (tsk.shift k1 k2) (event.shift k1 k2)))
    (taken : callStep tsk event = some next) :
    callStep (tsk.shift k1 k2) (event.shift k1 k2) = some (next.shift k1 k2) := by
  obtain ⟨outcome, success, rfl⟩ := Option.map_eq_some_iff.mp taken
  rw [success] at same
  rw [callStep]
  generalize call (tsk.shift k1 k2) (event.shift k1 k2) = other at same
  obtain ⟨shifted⟩ := same
  exact congrArg some shifted.tsk

end Same

/-- Two runs whose numbers are shifted agree exactly when no comparison of numbers comes out
differently. -/
theorem shifted_runs_agree (k1 k2 : UInt32) (tsk : TcpSock) (events : List CallEvent) :
    SameRuns k1 k2 tsk (tsk.shift k1 k2) events ↔
      Guarded callStep (KeepsOrder k1 k2) tsk events := by
  induction events generalizing tsk with
  | nil => exact Iff.rfl
  | cons event rest ih =>
      rw [SameRuns, Guarded, sameCall_iff]
      apply and_congr_right
      intro keeps
      have same := sameCall_of_keepsOrder keeps
      constructor
      · intro runs next taken
        exact (ih next).mp (runs next taken _ (callStep_shift same taken))
      · intro guarded next taken after takenAfter
        obtain rfl := Option.some.inj ((callStep_shift same taken).symm.trans takenAfter)
        exact (ih next).mpr (guarded next taken)

/-- With `rcv_nxt` 1 a byte with number 5 is kept for later; shifted by -3 the byte has
number 2, and `rcv_nxt` is 4294967294. -/
theorem translation_changes_order :
    ¬ ∀ k1 k2 events, SameRuns k1 k2 smallSock (smallSock.shift k1 k2) events := by
  intro same
  obtain ⟨first, -⟩ := same 4294967293 0 [.segment (payloadCb 5 [7]) 0]
  obtain ⟨order, -⟩ := keepsOrder_of_sameCall first
  have differs := order (by decide) (by decide)
  revert differs
  decide

end NetworkLab.Tcp
