import NetworkLab.Tcp16.Process

/-!
# The signed subtractions of the sequence check

`less_than_32b` and `less_or_equal_32b` convert both numbers to `int32_t` before they
subtract, so the difference itself may be no `int32_t`.  Here `is_tcp_seq_valid` of
`15-tcp_stack` and `16-tcp_stack` is evaluated with that overflow in view: `none` stands
for it.  Where nothing overflows the check is the one on differences modulo `2 ^ 32`.
-/
set_option autoImplicit false

namespace NetworkLab.Tcp16

open Tcp

def int32 (a : UInt32) : Int := a.toBitVec.toInt

def int32Sub (a b : UInt32) : Option Int :=
  let difference := int32 a - int32 b
  if -2 ^ 31 ≤ difference ∧ difference < 2 ^ 31 then some difference else none

def checkedLessThan32b (a b : UInt32) : Option Bool := do
  let difference ← int32Sub a b
  some (decide (difference < 0))

def checkedLessOrEqual32b (a b : UInt32) : Option Bool := do
  let difference ← int32Sub a b
  some (decide (difference ≤ 0))

def rcvEnd (tsk : TcpSock) : UInt32 :=
  tsk.rcvNxt + if tsk.rcvWnd.toUInt32 > 1 then tsk.rcvWnd.toUInt32 else 1

/-- `is_tcp_seq_valid`; `&&` leaves the second comparison out when the first one fails. -/
def isTcpSeqValid (tsk : TcpSock) (cb : TcpCb) : Option Bool := do
  let starts ← checkedLessThan32b cb.seq (rcvEnd tsk)
  if starts then checkedLessOrEqual32b tsk.rcvNxt cb.seqEnd else some false

section Specification

/-- The short way round from one number to the other does not lead past `2 ^ 31`. -/
def SameStretch (a b : UInt32) : Prop :=
  (a.toNat < 2 ^ 31 ↔ b.toNat < 2 ^ 31) ∨
    (a.toNat < b.toNat ∧ 2 ^ 31 < b.toNat - a.toNat) ∨
    (b.toNat < a.toNat ∧ 2 ^ 31 ≤ a.toNat - b.toNat)

instance (a b : UInt32) : Decidable (SameStretch a b) := inferInstanceAs (Decidable (_ ∨ _))

/-- Every pair of numbers that is compared lies in one stretch. -/
def Comparable (tsk : TcpSock) (cb : TcpCb) : Prop :=
  SameStretch cb.seq (rcvEnd tsk) ∧
    (lessThan32b cb.seq (rcvEnd tsk) → SameStretch tsk.rcvNxt cb.seqEnd)

def TcpSock.shift (k : UInt32) (tsk : TcpSock) : TcpSock := { tsk with rcvNxt := tsk.rcvNxt + k }

def shiftSegment (k : UInt32) (cb : TcpCb) : TcpCb :=
  { cb with seq := cb.seq + k, seqEnd := cb.seqEnd + k }

/-- The segment starts in the window and is not too long to be compared. -/
def StartsInWindow (tsk : TcpSock) (cb : TcpCb) : Prop :=
  (cb.seq - tsk.rcvNxt).toNat < max tsk.rcvWnd.toNat 1 ∧
    (cb.seqEnd - cb.seq).toNat < 2 ^ 31 - 2 ^ 16

structure Modular (tsk : TcpSock) (cb : TcpCb) (k : UInt32) : Prop where
  evaluated : isTcpSeqValid tsk cb ≠ none
  shifted : isTcpSeqValid (tsk.shift k) (shiftSegment k cb) ≠ none
  sameAnswer : isTcpSeqValid (tsk.shift k) (shiftSegment k cb) = isTcpSeqValid tsk cb
  accepts : StartsInWindow tsk cb → isTcpSeqValid tsk cb = some true

end Specification

section Comparisons

variable (a b : UInt32)

theorem int32_eq : int32 a = if a.toNat < 2 ^ 31 then (a.toNat : Int) else a.toNat - 2 ^ 32 := by
  unfold int32
  rw [BitVec.toInt_eq_toNat_cond, UInt32.toNat_toBitVec]
  split <;> split <;> omega

theorem int32Sub_of_sameStretch (same : SameStretch a b) :
    int32Sub a b = some (int32 (a - b)) := by
  have left := a.toNat_lt
  have right := b.toNat_lt
  have difference : int32 a - int32 b = int32 (a - b) := by
    rw [int32_eq, int32_eq, int32_eq, UInt32.toNat_sub]
    unfold SameStretch at same
    split <;> split <;> split <;> omega
  have range : -2 ^ 31 ≤ int32 (a - b) ∧ int32 (a - b) < 2 ^ 31 := by
    have bound := (a - b).toNat_lt
    rw [int32_eq]
    split <;> omega
  unfold int32Sub
  rw [difference, if_pos range]

theorem int32Sub_of_apart (apart : ¬ SameStretch a b) : int32Sub a b = none := by
  have left := a.toNat_lt
  have right := b.toNat_lt
  have outside : ¬ (-2 ^ 31 ≤ int32 a - int32 b ∧ int32 a - int32 b < 2 ^ 31) := by
    rw [int32_eq, int32_eq]
    unfold SameStretch at apart
    split <;> split <;> omega
  unfold int32Sub
  rw [if_neg outside]

theorem checkedLessThan32b_eq :
    checkedLessThan32b a b =
      if SameStretch a b then some (decide (lessThan32b a b)) else none := by
  unfold checkedLessThan32b
  by_cases same : SameStretch a b
  · rw [int32Sub_of_sameStretch a b same, if_pos same]
    rfl
  · rw [int32Sub_of_apart a b same, if_neg same]
    rfl

theorem checkedLessOrEqual32b_eq :
    checkedLessOrEqual32b a b =
      if SameStretch a b then some (decide (lessOrEqual32b a b)) else none := by
  unfold checkedLessOrEqual32b
  by_cases same : SameStretch a b
  · rw [int32Sub_of_sameStretch a b same, if_pos same]
    rfl
  · rw [int32Sub_of_apart a b same, if_neg same]
    rfl

end Comparisons

section Check

variable (tsk : TcpSock) (cb : TcpCb)

/-- Without an overflow the check is the one that `tcp_process` is modelled with. -/
theorem isTcpSeqValid_of_comparable (comparable : Comparable tsk cb) :
    isTcpSeqValid tsk cb = some (decide (IsTcpSeqValid tsk cb)) := by
  unfold isTcpSeqValid
  rw [checkedLessThan32b_eq, if_pos comparable.1, Option.bind_eq_bind, Option.bind_some]
  by_cases starts : lessThan32b cb.seq (rcvEnd tsk)
  · rw [if_pos (decide_eq_true starts), checkedLessOrEqual32b_eq, if_pos (comparable.2 starts)]
    have answer : IsTcpSeqValid tsk cb ↔ lessOrEqual32b tsk.rcvNxt cb.seqEnd :=
      and_iff_right starts
    simp only [answer]
  · have answer : ¬ IsTcpSeqValid tsk cb := fun valid => starts valid.1
    simp [starts, answer]

theorem isTcpSeqValid_overflows (apart : ¬ Comparable tsk cb) : isTcpSeqValid tsk cb = none := by
  unfold isTcpSeqValid
  rw [checkedLessThan32b_eq]
  by_cases same : SameStretch cb.seq (rcvEnd tsk)
  · rw [if_pos same, Option.bind_eq_bind, Option.bind_some]
    have starts : lessThan32b cb.seq (rcvEnd tsk) := by
      by_contra late
      exact apart ⟨same, fun starts => absurd starts late⟩
    have different : ¬ SameStretch tsk.rcvNxt cb.seqEnd :=
      fun second => apart ⟨same, fun _ => second⟩
    rw [if_pos (decide_eq_true starts), checkedLessOrEqual32b_eq, if_neg different]
  · rw [if_neg same]
    rfl

theorem isTcpSeqValid_evaluated_iff : isTcpSeqValid tsk cb ≠ none ↔ Comparable tsk cb := by
  constructor
  · intro evaluated
    by_contra apart
    exact evaluated (isTcpSeqValid_overflows tsk cb apart)
  · intro comparable
    rw [isTcpSeqValid_of_comparable tsk cb comparable]
    exact Option.some_ne_none _

theorem rcvEnd_shift (k : UInt32) : rcvEnd (tsk.shift k) = rcvEnd tsk + k := by
  unfold rcvEnd TcpSock.shift
  rw [UInt32.add_assoc, UInt32.add_comm k, ← UInt32.add_assoc]

theorem isTcpSeqValid_shift (k : UInt32) :
    IsTcpSeqValid (tsk.shift k) (shiftSegment k cb) ↔ IsTcpSeqValid tsk cb := by
  have cancel (a b : UInt32) : a + k - (b + k) = a - b := by
    rw [← UInt32.toNat_inj]
    simp only [UInt32.toNat_sub, UInt32.toNat_add]
    have left := a.toNat_lt
    have right := b.toNat_lt
    omega
  change lessThan32b (cb.seq + k) (rcvEnd (tsk.shift k)) ∧
    lessOrEqual32b (tsk.rcvNxt + k) (cb.seqEnd + k) ↔
      lessThan32b cb.seq (rcvEnd tsk) ∧ lessOrEqual32b tsk.rcvNxt cb.seqEnd
  rw [rcvEnd_shift]
  unfold lessThan32b lessOrEqual32b
  rw [cancel, cancel]

/-- The window is shorter than `2 ^ 16`, so a segment that starts in it ends less than
`2 ^ 31` behind `rcv_nxt`. -/
theorem isTcpSeqValid_of_startsInWindow (starts : StartsInWindow tsk cb) :
    IsTcpSeqValid tsk cb := by
  have window := tsk.rcvWnd.toNat_lt
  have width : (if tsk.rcvWnd.toUInt32 > 1 then tsk.rcvWnd.toUInt32 else 1).toNat =
      max tsk.rcvWnd.toNat 1 := by
    split
    case isTrue wide =>
      have wider : 1 < tsk.rcvWnd.toNat := wide
      rw [UInt16.toNat_toUInt32]
      omega
    case isFalse narrow =>
      have narrower : ¬ 1 < tsk.rcvWnd.toNat := narrow
      change 1 = _
      omega
  have bounds := starts
  unfold StartsInWindow at bounds
  rw [UInt32.toNat_sub, UInt32.toNat_sub] at bounds
  have number := tsk.rcvNxt.toNat_lt
  have first := cb.seq.toNat_lt
  have last := cb.seqEnd.toNat_lt
  constructor
  · change int32 (cb.seq - rcvEnd tsk) < 0
    rw [int32_eq, UInt32.toNat_sub, rcvEnd, UInt32.toNat_add, width]
    split <;> omega
  · change int32 (tsk.rcvNxt - cb.seqEnd) ≤ 0
    rw [int32_eq, UInt32.toNat_sub]
    split <;> omega

end Check

theorem modular_iff_comparable (tsk : TcpSock) (cb : TcpCb) (k : UInt32) :
    Modular tsk cb k ↔ Comparable tsk cb ∧ Comparable (tsk.shift k) (shiftSegment k cb) := by
  constructor
  · intro modular
    exact ⟨(isTcpSeqValid_evaluated_iff _ _).mp modular.evaluated,
      (isTcpSeqValid_evaluated_iff _ _).mp modular.shifted⟩
  · intro comparable
    have here := isTcpSeqValid_of_comparable tsk cb comparable.1
    have there := isTcpSeqValid_of_comparable _ _ comparable.2
    refine ⟨(isTcpSeqValid_evaluated_iff _ _).mpr comparable.1,
      (isTcpSeqValid_evaluated_iff _ _).mpr comparable.2, ?_, ?_⟩
    · rw [here, there]
      simp only [isTcpSeqValid_shift]
    · intro starts
      rw [here, decide_eq_true (isTcpSeqValid_of_startsInWindow tsk cb starts)]

def atTheEdge : TcpSock := { allocTcpSock with rcvNxt := 0x7fffffff }

def nextByte : TcpCb :=
  { saddr := 0, daddr := 0, sport := 0, dport := 0, seq := 0x7fffffff, seqEnd := 0x80000000,
    ack := 0, payload := [0], plLen := 1, rwnd := 0, flags := TCP_ACK }

/-- The byte that is awaited, on a connection whose peer started just below `2 ^ 31`. -/
theorem isTcpSeqValid_overflows_at_the_edge :
    ¬ (∀ (tsk : TcpSock) (cb : TcpCb) (k : UInt32), Modular tsk cb k) := by
  intro modular
  have overflows : isTcpSeqValid atTheEdge nextByte = none := by decide
  exact (modular atTheEdge nextByte 0).evaluated overflows

end NetworkLab.Tcp16
