import Mathlib.Data.List.Basic
import Mathlib.Tactic.Linarith
import NetworkLab.Tcp.Process

/-!
# A byte stream cut into segments

The sequence numbers of a stream of non-empty segments that starts at `first`.
Different segments have different numbers as long as the stream does not reach
`first` again.
-/
set_option autoImplicit false

namespace NetworkLab.Tcp

def upTo (segments : List (List UInt8)) (k : Nat) : List UInt8 := (segments.take k).flatten

def seqOf (first : UInt32) (segments : List (List UInt8)) (k : Nat) : UInt32 :=
  first + UInt32.ofNat (upTo segments k).length

/-- The control block of a PSH|ACK packet with segment `i`; its other fields are those
of `other`. -/
def segmentCb (first : UInt32) (segments : List (List UInt8)) (i : Fin segments.length)
    (other : TcpCb) : TcpCb :=
  { other with
    seq := seqOf first segments i,
    seqEnd := seqOf first segments i + UInt32.ofNat segments[i].length,
    payload := segments[i], plLen := segments[i].length, flags := TCP_PSH ||| TCP_ACK }

/-- Segment `i` as it is kept in `rcv_ofo_buf`. -/
def segmentOfo (first : UInt32) (segments : List (List UInt8)) (i : Fin segments.length) :
    OfoPacket :=
  { packet := segments[i], len := segments[i].length, seqNum := seqOf first segments i }

theorem ofInt_natCast (n : Nat) : UInt32.ofInt n = UInt32.ofNat n := by
  apply UInt32.toNat_inj.mp
  simp only [UInt32.ofInt, UInt32.toNat_ofNat']
  omega

theorem tcpCbInit_segment {first : UInt32} {segments : List (List UInt8)}
    {i : Fin segments.length} {packet : Segment} (seq : packet.seq = seqOf first segments i)
    (payload : packet.payload = segments[i]) (flags : packet.flags = TCP_PSH ||| TCP_ACK)
    (totLen : packet.totLen.toNat = IP_BASE_HDR_SIZE + TCP_BASE_HDR_SIZE + segments[i].length) :
    tcpCbInit packet = segmentCb first segments i (tcpCbInit packet) := by
  have len : (packet.totLen.toNat : Int) - (IP_BASE_HDR_SIZE + TCP_BASE_HDR_SIZE : Nat) =
      (segments[i].length : Nat) := by omega
  have noFlag : hasFlag (TCP_PSH ||| TCP_ACK) (TCP_SYN ||| TCP_FIN) = false := by decide
  simp only [tcpCbInit, segmentCb, len, noFlag, ofInt_natCast, seq, payload, flags,
    Bool.false_eq_true, if_false, UInt32.add_zero]

section Positions

variable {first : UInt32} {segments : List (List UInt8)}

theorem upTo_succ (segments : List (List UInt8)) (i : Fin segments.length) :
    upTo segments (i + 1) = upTo segments i ++ segments[i] := by
  have split : segments.take (i + 1) = segments.take i ++ [segments[i]] :=
    (List.take_append_getElem i.isLt).symm
  rw [upTo, upTo, split, List.flatten_append, List.flatten_singleton]

theorem length_upTo_mono (segments : List (List UInt8)) {i j : Nat} (le : i ≤ j) :
    (upTo segments i).length ≤ (upTo segments j).length := by
  have front : segments.take i = (segments.take j).take i := by
    rw [List.take_take, Nat.min_eq_left le]
  have split : segments.take j = segments.take i ++ (segments.take j).drop i := by
    rw [front, List.take_append_drop]
  rw [upTo, upTo, split, List.flatten_append, List.length_append]
  exact Nat.le_add_right ..

theorem length_upTo_le (segments : List (List UInt8)) (k : Nat) : (upTo segments k).length ≤ segments.flatten.length := by
  have := length_upTo_mono segments (Nat.le_max_left k segments.length)
  rwa [show upTo segments (max k segments.length) = segments.flatten by
    rw [upTo, List.take_of_length_le (Nat.le_max_right ..)]] at this

theorem length_upTo_lt (nonempty : ∀ segment ∈ segments, segment ≠ []) {i j : Nat} (lt : i < j)
    (inside : j ≤ segments.length) : (upTo segments i).length < (upTo segments j).length := by
  have next := upTo_succ segments ⟨i, by omega⟩
  have positive := List.length_pos_iff.mpr (nonempty segments[i] (List.getElem_mem _))
  have later := length_upTo_mono segments (show i + 1 ≤ j by omega)
  have grown := congrArg List.length next
  simp only [List.length_append, Fin.getElem_fin] at grown
  omega

theorem toNat_seqOf (k : Nat) :
    (seqOf first segments k).toNat = (first.toNat + (upTo segments k).length) % 4294967296 := by
  simp [seqOf]

theorem seqOf_succ (i : Fin segments.length) :
    seqOf first segments i + UInt32.ofNat segments[i].length = seqOf first segments (i + 1) := by
  rw [seqOf, seqOf, upTo_succ, List.length_append, UInt32.ofNat_add, UInt32.add_assoc]

/-- The stream does not pass 2^32. -/
def NoWrap (first : UInt32) (segments : List (List UInt8)) : Prop :=
  first.toNat + segments.flatten.length ≤ 4294967296

/-- The only segment that starts where the first `k` end is segment `k`. -/
def Unrepeated (first : UInt32) (segments : List (List UInt8)) : Prop :=
  ∀ k ≤ segments.length, (upTo segments k).length < 4294967296 →
    ∀ i : Fin segments.length, seqOf first segments i = seqOf first segments k → (i : Nat) = k

theorem unrepeated_of_lt (nonempty : ∀ segment ∈ segments, segment ≠ [])
    (bound : ∀ i : Fin segments.length, (upTo segments i).length < 4294967296) :
    Unrepeated first segments := by
  intro k inside short i same
  have sameNat := congrArg UInt32.toNat same
  rw [toNat_seqOf, toNat_seqOf] at sameNat
  have firstLt := first.toNat_lt
  have iBound := bound i
  rcases Nat.lt_trichotomy i k with less | equal | more
  · have := length_upTo_lt nonempty less inside
    omega
  · exact equal
  · have := length_upTo_lt nonempty more i.isLt.le
    omega

theorem NoWrap.unrepeated (nonempty : ∀ segment ∈ segments, segment ≠ [])
    (noWrap : NoWrap first segments) : Unrepeated first segments := by
  refine unrepeated_of_lt nonempty fun i => ?_
  have iBound := length_upTo_lt nonempty i.isLt le_rfl
  have iTotal := length_upTo_le segments segments.length
  unfold NoWrap at noWrap
  omega

theorem segmentOfo_inj (nonempty : ∀ segment ∈ segments, segment ≠ [])
    (noWrap : NoWrap first segments) {i j : Fin segments.length}
    (same : segmentOfo first segments i = segmentOfo first segments j) : i = j := by
  have unrepeated := noWrap.unrepeated nonempty
  have jBound := length_upTo_lt nonempty j.isLt le_rfl
  have total := length_upTo_le segments segments.length
  unfold NoWrap at noWrap
  exact Fin.ext (unrepeated j j.isLt.le (by omega) i (congrArg OfoPacket.seqNum same))

theorem lt_of_seqOf_lt (nonempty : ∀ segment ∈ segments, segment ≠ [])
    (noWrap : NoWrap first segments) {k : Nat} {i : Fin segments.length}
    (less : seqOf first segments i < seqOf first segments k) : (i : Nat) < k := by
  rw [UInt32.lt_iff_toNat_lt, toNat_seqOf, toNat_seqOf] at less
  have iBound := length_upTo_lt nonempty i.isLt le_rfl
  have iTotal := length_upTo_le segments segments.length
  have kTotal := length_upTo_le segments k
  unfold NoWrap at noWrap
  by_contra notLess
  have := length_upTo_mono segments (Nat.le_of_not_lt notLess)
  omega

end Positions

end NetworkLab.Tcp
