import Mathlib.Data.UInt
import NetworkLab.Tcp.Frame
import NetworkLab.Tcp.Retransmission

/-!
# The send window

`snd_wnd` is debited by the length of what is sent and credited with the length that is
read back from the headers of an acknowledged packet, so that together with the payload
in `send_buf` it stays what it was.
-/
set_option autoImplicit false

namespace NetworkLab.Tcp

open Lib Lib.Run

/-- The payload length that the headers of a held packet state; `rest` fills in what a
segment leaves open. -/
def storedDataLen (rest : HdrRest) (packet : Segment) : UInt16 :=
  (frameDataLen (packet.toFrame rest)).getD 0

/-- The payload in `send_buf`. -/
def heldData (rest : Segment → HdrRest) (packets : List Segment) : UInt16 :=
  (packets.map fun packet => storedDataLen (rest packet) packet).sum

theorem storedDataLen_eq (rest : HdrRest) (packet : Segment) :
    storedDataLen rest packet = packet.tcpDataLen := by
  rw [storedDataLen, frameDataLen_toFrame]
  rfl

theorem tcpDataLen_buildSegment (tsk : TcpSock) (flags : UInt8) (payload : List UInt8) :
    (buildSegment tsk flags payload).tcpDataLen = UInt16.ofNat payload.length := by
  apply UInt16.toNat_inj.mp
  simp only [Segment.tcpDataLen, buildSegment, IP_BASE_HDR_SIZE, TCP_BASE_HDR_SIZE,
    UInt16.toNat_sub, UInt16.toNat_ofNat', Nat.reduceAdd, Nat.reducePow, Nat.reduceMod]
  omega

section

variable (rest : Segment → HdrRest)

theorem heldData_append (packets : List Segment) (packet : Segment) :
    heldData rest (packets ++ [packet]) = heldData rest packets + packet.tcpDataLen := by
  simp [heldData, List.sum_append, storedDataLen_eq]

theorem heldData_filter (removed : Segment → Bool) (packets : List Segment) :
    heldData rest (packets.filter removed) + heldData rest (packets.filter fun p => !removed p) =
      heldData rest packets := by
  induction packets with
  | nil => rfl
  | cons packet packets ih =>
      cases taken : removed packet with
      | true =>
          simp only [heldData, List.filter_cons, taken, if_true, Bool.not_true, Bool.false_eq_true,
            if_false, List.map_cons, List.sum_cons, UInt16.add_assoc] at ih ⊢
          rw [ih]
      | false =>
          simp only [heldData, List.filter_cons, taken, if_true, Bool.not_false, Bool.false_eq_true,
            if_false, List.map_cons, List.sum_cons] at ih ⊢
          rw [← ih, ← UInt16.add_assoc, ← UInt16.add_assoc, UInt16.add_comm (storedDataLen ..)]

theorem foldl_tcpDataLen (packets : List Segment) (window : UInt16) :
    packets.foldl (fun window packet => window + packet.tcpDataLen) window =
      window + heldData rest packets := by
  induction packets generalizing window with
  | nil => exact (UInt16.add_zero window).symm
  | cons packet packets ih =>
      rw [List.foldl_cons, ih, heldData, heldData, List.map_cons, List.sum_cons, storedDataLen_eq,
        UInt16.add_assoc]

/-! ## One call -/

theorem tcpSendPacket_balance (tsk : TcpSock) (payload : List UInt8) :
    (tcpSendPacket tsk payload).tsk.sndWnd + heldData rest (tcpSendPacket tsk payload).tsk.sendBuf =
      tsk.sndWnd + heldData rest tsk.sendBuf := by
  simp only [tcpSendPacket]
  rw [heldData_append, tcpDataLen_buildSegment, UInt16.add_comm (heldData ..), ← UInt16.add_assoc,
    UInt16.sub_add_cancel]

theorem tcpSendControlPacket_balance (flags : UInt8) (tsk : TcpSock) :
    (tcpSendControlPacket flags tsk).tsk.sndWnd +
        heldData rest (tcpSendControlPacket flags tsk).tsk.sendBuf =
      tsk.sndWnd + heldData rest tsk.sendBuf := by
  simp only [tcpSendControlPacket]
  split_ifs
  · have empty : (buildSegment tsk flags []).tcpDataLen = 0 := tcpDataLen_buildSegment tsk flags []
    rw [heldData_append, empty, UInt16.add_zero]
  · rfl

theorem removeAckData_balance (ackNum : UInt32) (tsk : TcpSock) :
    (removeAckData ackNum tsk).tsk.sndWnd + heldData rest (removeAckData ackNum tsk).tsk.sendBuf =
      tsk.sndWnd + heldData rest tsk.sendBuf := by
  simp only [removeAckData]
  rw [foldl_tcpDataLen rest, UInt16.add_assoc, heldData_filter]

/-- The three calls, with any arguments; what they do to the timers is left out. -/
def sendCall (tsk : TcpSock) : SendEvent → Option TcpSock
  | .packet payload => some (tcpSendPacket tsk payload).tsk
  | .control flags => some (tcpSendControlPacket flags tsk).tsk
  | .ack ackNum => some (removeAckData ackNum tsk).tsk

/-- `snd_wnd` and the payload held add up to the same number modulo 2^16 all along. -/
theorem send_window_conserved (tsk : TcpSock) (calls : List SendEvent) :
    Always sendCall (fun now => now.sndWnd + heldData rest now.sendBuf =
      tsk.sndWnd + heldData rest tsk.sendBuf) tsk calls := by
  refine always_of_preserved sendCall ?_ calls rfl
  intro before call next balance taken
  rw [← balance]
  cases call with
  | packet payload =>
      cases Option.some.inj taken
      exact tcpSendPacket_balance rest before payload
  | control flags =>
      cases Option.some.inj taken
      exact tcpSendControlPacket_balance rest flags before
  | ack ackNum =>
      cases Option.some.inj taken
      exact removeAckData_balance rest ackNum before

end

end NetworkLab.Tcp
