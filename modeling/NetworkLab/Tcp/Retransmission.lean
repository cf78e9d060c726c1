import NetworkLab.Lib.Run
import NetworkLab.Lib.Tiling
import NetworkLab.Tcp.Sock

/-!
# What the sender keeps for retransmission

The packets of `send_buf` tile the sequence numbers up to `snd_nxt`.  They reach down
to the largest acknowledgement exactly as long as no acknowledgement falls into a
packet that is held: `remove_ack_data` drops every packet that starts at or before
`ack_num`, also those that the peer has not received.
-/
set_option autoImplicit false

namespace NetworkLab.Tcp

open Lib Lib.Run

/-- How many sequence numbers a packet takes. -/
def Segment.seqLen (packet : Segment) : Nat :=
  packet.payload.length + if hasFlag packet.flags (TCP_SYN ||| TCP_FIN) then 1 else 0

def Segment.start (packet : Segment) : Nat := packet.seq.toNat

def Segment.stop (packet : Segment) : Nat := packet.start + packet.seqLen

structure Sender where
  tsk : TcpSock
  acked : Nat

inductive SendEvent
  | packet (payload : List UInt8)
  | control (flags : UInt8)
  | ack (ackNum : UInt32)

/-- The calls of a run in which sequence numbers do not wrap and every
acknowledgement is for numbers that were sent. -/
def sendStep (sender : Sender) : SendEvent → Option Sender
  | .packet payload =>
    if sender.tsk.sndNxt.toNat + payload.length < 4294967296 then
      some { sender with tsk := (tcpSendPacket sender.tsk payload).tsk }
    else none
  | .control flags =>
    if sender.tsk.sndNxt.toNat + (buildSegment sender.tsk flags []).seqLen < 4294967296 then
      some { sender with tsk := (tcpSendControlPacket flags sender.tsk).tsk }
    else none
  | .ack ackNum =>
    if ackNum ≤ sender.tsk.sndNxt then
      some { tsk := (removeAckData ackNum sender.tsk).tsk, acked := max sender.acked ackNum.toNat }
    else none

def startSender (tsk : TcpSock) : Sender :=
  { tsk := { tsk with sendBuf := [] }, acked := tsk.sndNxt.toNat }

/-- Every number from the largest acknowledgement to `snd_nxt` is carried by a packet in
`send_buf`, and the packets are in sending order. -/
def HoldsUnacked (sender : Sender) : Prop :=
  (∀ n, sender.acked ≤ n → n < sender.tsk.sndNxt.toNat →
    ∃ packet ∈ sender.tsk.sendBuf, packet.start ≤ n ∧ n < packet.stop) ∧
  sender.tsk.sendBuf.Pairwise fun packet later => packet.stop ≤ later.start

/-- The acknowledgement does not fall into a packet that is held. -/
def AckOutside (sender : Sender) : SendEvent → Prop
  | .ack ackNum => ∀ packet ∈ sender.tsk.sendBuf,
      ¬ (packet.start ≤ ackNum.toNat ∧ ackNum.toNat < packet.stop)
  | _ => True

instance (sender : Sender) (event : SendEvent) : Decidable (AckOutside sender event) :=
  match event with
  | .ack ackNum => inferInstanceAs (Decidable (∀ packet ∈ sender.tsk.sendBuf,
      ¬ (packet.start ≤ ackNum.toNat ∧ ackNum.toNat < packet.stop)))
  | .packet _ => isTrue trivial
  | .control _ => isTrue trivial

/-- The packets held tile the numbers from some `low`, which no acknowledgement passes. -/
def Queued (sender : Sender) (low : Nat) : Prop :=
  sender.acked ≤ low ∧
    Tiles Segment.start Segment.stop low sender.tsk.sendBuf sender.tsk.sndNxt.toNat

section Steps

variable {sender next : Sender} {low : Nat}

theorem Queued.holds_iff (queued : Queued sender low) :
    HoldsUnacked sender ↔ sender.acked = low := by
  obtain ⟨below, tiles⟩ := queued
  constructor
  · rintro ⟨held, -⟩
    by_contra different
    have top := tiles.le
    obtain ⟨packet, member, before, -⟩ := held _ le_rfl (by omega)
    have := (tiles.mem_bounds member).1
    omega
  · intro same
    refine ⟨fun n above beforeNext => tiles.covers (by omega) beforeNext, tiles.pairwise⟩

theorem removeAckData_sendBuf (ackNum : UInt32) (tsk : TcpSock) :
    (removeAckData ackNum tsk).tsk.sendBuf =
      tsk.sendBuf.filter fun packet => !decide (packet.start ≤ ackNum.toNat) := by
  refine List.filter_congr fun packet _ => ?_
  exact congrArg not (decide_eq_decide.mpr UInt32.le_iff_toNat_le)

theorem Queued.send (queued : Queued sender low) {packet : Segment} {tsk : TcpSock}
    (sendBuf : tsk.sendBuf = sender.tsk.sendBuf ++ [packet])
    (first : packet.seq = sender.tsk.sndNxt)
    (sndNxt : tsk.sndNxt.toNat = sender.tsk.sndNxt.toNat + packet.seqLen) :
    Queued { sender with tsk := tsk } low := by
  have start : packet.start = sender.tsk.sndNxt.toNat := congrArg UInt32.toNat first
  have stop : packet.stop = tsk.sndNxt.toNat := by rw [Segment.stop, start, sndNxt]
  refine ⟨queued.1, ?_⟩
  change Tiles _ _ low tsk.sendBuf tsk.sndNxt.toNat
  rw [sendBuf, ← stop]
  exact queued.2.append start (by rw [← start]; exact Nat.le_add_right ..)

theorem Queued.packet (queued : Queued sender low) {payload : List UInt8}
    (taken : sendStep sender (.packet payload) = some next) :
    Queued next low ∧ next.acked = sender.acked := by
  simp only [sendStep] at taken
  split_ifs at taken with fits
  obtain rfl := Option.some.inj taken
  have noFlag : hasFlag (TCP_PSH ||| TCP_ACK) (TCP_SYN ||| TCP_FIN) = false := by decide
  refine ⟨queued.send rfl rfl ?_, rfl⟩
  simp only [tcpSendPacket, Segment.seqLen, buildSegment, noFlag, UInt32.toNat_add,
    UInt32.toNat_ofNat', Bool.false_eq_true, if_false]
  omega

theorem Queued.control (queued : Queued sender low) {flags : UInt8}
    (taken : sendStep sender (.control flags) = some next) :
    Queued next low ∧ next.acked = sender.acked := by
  simp only [sendStep] at taken
  split_ifs at taken with fits
  obtain rfl := Option.some.inj taken
  refine ⟨?_, rfl⟩
  unfold tcpSendControlPacket
  split_ifs with flagged
  · refine queued.send rfl rfl ?_
    have one : (buildSegment sender.tsk flags []).seqLen = 1 := by
      simp [Segment.seqLen, buildSegment, flagged]
    rw [one] at fits ⊢
    change (sender.tsk.sndNxt + 1).toNat = _
    rw [UInt32.toNat_add]
    exact Nat.mod_eq_of_lt fits
  · exact queued

/-- An acknowledgement keeps the tiling, and reaches down to the acknowledged number
exactly when it falls into no packet. -/
theorem Queued.ack (queued : Queued sender low) {ackNum : UInt32}
    (taken : sendStep sender (.ack ackNum) = some next) :
    ∃ middle, Queued next middle ∧ (sender.acked = low →
      (next.acked = middle ↔ AckOutside sender (.ack ackNum))) := by
  simp only [sendStep] at taken
  split_ifs at taken with sent
  obtain rfl := Option.some.inj taken
  rw [UInt32.le_iff_toNat_le] at sent
  obtain ⟨below, tiles⟩ := queued
  obtain ⟨middle, kept, above, droppedBelow, last⟩ := tiles.filter_start ackNum.toNat
  have lowMiddle : low ≤ middle := by
    rcases last with rfl | ⟨packet, member, -, rfl⟩
    · exact le_rfl
    · exact (tiles.mem_bounds member).1.trans (tiles.mem_bounds member).2.1
  have top := kept.le
  refine ⟨middle, ⟨?_, ?_⟩, ?_⟩
  · change max sender.acked ackNum.toNat ≤ middle
    omega
  · change Tiles _ _ middle (removeAckData ackNum sender.tsk).tsk.sendBuf sender.tsk.sndNxt.toNat
    rw [removeAckData_sendBuf]
    exact kept
  · intro reaches
    change max sender.acked ackNum.toNat = middle ↔ _
    rw [reaches]
    constructor
    · intro same packet member inside
      have := droppedBelow packet member inside.1
      have := (tiles.mem_bounds member).1
      omega
    · intro outside
      rcases last with rfl | ⟨packet, member, early, rfl⟩
      · omega
      · have := outside packet member
        omega

theorem sendStep_queued {event : SendEvent} (queued : ∃ low, Queued sender low)
    (taken : sendStep sender event = some next) : ∃ low, Queued next low := by
  obtain ⟨low, queued⟩ := queued
  cases event with
  | packet payload => exact ⟨low, (queued.packet taken).1⟩
  | control flags => exact ⟨low, (queued.control taken).1⟩
  | ack ackNum =>
      obtain ⟨middle, queuedNext, -⟩ := queued.ack taken
      exact ⟨middle, queuedNext⟩

theorem sendStep_holds_iff {event : SendEvent} (queued : ∃ low, Queued sender low)
    (holds : HoldsUnacked sender) (taken : sendStep sender event = some next) :
    HoldsUnacked next ↔ AckOutside sender event := by
  obtain ⟨low, queued⟩ := queued
  have reaches := queued.holds_iff.mp holds
  cases event with
  | packet payload =>
      obtain ⟨queuedNext, acked⟩ := queued.packet taken
      exact iff_of_true (queuedNext.holds_iff.mpr (acked ▸ reaches)) trivial
  | control flags =>
      obtain ⟨queuedNext, acked⟩ := queued.control taken
      exact iff_of_true (queuedNext.holds_iff.mpr (acked ▸ reaches)) trivial
  | ack ackNum =>
      obtain ⟨middle, queuedNext, exact_iff⟩ := queued.ack taken
      rw [queuedNext.holds_iff]
      exact exact_iff reaches

theorem ackOutside_of_stuck {event : SendEvent} (queued : ∃ low, Queued sender low)
    (stuck : sendStep sender event = none) : AckOutside sender event := by
  obtain ⟨low, -, tiles⟩ := queued
  cases event with
  | packet payload => trivial
  | control flags => trivial
  | ack ackNum =>
      simp only [sendStep, ite_eq_right_iff, reduceCtorEq, imp_false,
        UInt32.le_iff_toNat_le] at stuck
      intro packet member inside
      have := (tiles.mem_bounds member).2.2
      omega

end Steps

/-- In every state of a run the sender holds all that is not acknowledged, exactly when no
acknowledgement of the run falls into a packet that is held. -/
theorem sender_holds_unacked (tsk : TcpSock) (events : List SendEvent) :
    Always sendStep HoldsUnacked (startSender tsk) events ↔
      Guarded sendStep AckOutside (startSender tsk) events := by
  have queued : Queued (startSender tsk) tsk.sndNxt.toNat := ⟨le_rfl, rfl⟩
  exact always_iff_guarded sendStep (fun _ _ _ => sendStep_queued)
    (fun _ _ _ => sendStep_holds_iff) (fun _ _ => ackOutside_of_stuck) events ⟨_, queued⟩
    (queued.holds_iff.mpr rfl)

/-- A data packet is sent; an acknowledgement of everything before it drops it. -/
theorem duplicate_ack_drops_packet :
    ∃ sender, run sendStep (startSender allocTcpSock) [.packet [7], .ack 0] = some sender ∧
      ¬ HoldsUnacked sender := by
  refine ⟨_, Option.some_get (by decide) |>.symm, ?_⟩
  intro holds
  obtain ⟨packet, member, -⟩ := holds.1 0 (by decide) (by decide)
  revert packet
  decide

end NetworkLab.Tcp
