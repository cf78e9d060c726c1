import Mathlib.Data.Nat.ModEq
import Mathlib.Tactic.Ring

/-!
# One's complement sums

Numbers up to `m` are added with the carry taken round to the low end.  Words of `w` bits have
`m = 2 ^ w - 1`.
-/
set_option autoImplicit false

namespace Lib.OnesComplement

variable {m : Nat}

/-- A sum over `m` loses the carry `m + 1` and gets one back. -/
def carryAdd (m x y : Nat) : Nat := if x + y ≤ m then x + y else x + y - m

def onesSum (m : Nat) (words : List Nat) : Nat := words.foldr (carryAdd m) 0

/-- What is left of a sum once every carry has been taken round. -/
def folded (m n : Nat) : Nat := if n = 0 then 0 else (n - 1) % m + 1

theorem folded_eq_zero {n : Nat} : folded m n = 0 ↔ n = 0 := by
  by_cases zero : n = 0
  · rw [folded, if_pos zero]
    exact iff_of_true rfl zero
  · rw [folded, if_neg zero]
    exact iff_of_false (Nat.succ_ne_zero _) zero

theorem folded_le (positive : 0 < m) (n : Nat) : folded m n ≤ m := by
  unfold folded
  split_ifs
  · exact Nat.zero_le m
  · exact Nat.mod_lt _ positive

theorem folded_modEq (n : Nat) : folded m n ≡ n [MOD m] := by
  unfold folded
  split_ifs with zero
  · rw [zero]
  · have below := (Nat.mod_modEq (n - 1) m).add_right 1
    rwa [Nat.sub_add_cancel (Nat.pos_of_ne_zero zero)] at below

theorem eq_of_modEq {x y : Nat} (xSmall : x ≤ m) (ySmall : y ≤ m) (same : x ≡ y [MOD m])
    (zero : x = 0 ↔ y = 0) : x = y := by
  rcases Nat.lt_or_eq_of_le xSmall with xLess | rfl
  · rcases Nat.lt_or_eq_of_le ySmall with yLess | rfl
    · exact same.eq_of_lt_of_lt xLess yLess
    · have none : x = 0 := (same.trans Nat.modulus_modEq_zero).eq_of_lt_of_lt xLess (by omega)
      exact none.trans (zero.mp none).symm
  · rcases Nat.lt_or_eq_of_le ySmall with yLess | same
    · have none : y = 0 := (same.symm.trans Nat.modulus_modEq_zero).eq_of_lt_of_lt yLess (by omega)
      exact (zero.mpr none).trans none.symm
    · exact same.symm

theorem eq_folded {x n : Nat} (positive : 0 < m) (small : x ≤ m) (same : x ≡ n [MOD m])
    (zero : x = 0 ↔ n = 0) : x = folded m n :=
  eq_of_modEq small (folded_le positive n) (same.trans (folded_modEq n).symm)
    (zero.trans folded_eq_zero.symm)

theorem folded_add (positive : 0 < m) {a b c d : Nat} (first : folded m a = folded m b)
    (second : folded m c = folded m d) : folded m (a + c) = folded m (b + d) := by
  have aZero := folded_eq_zero (m := m) (n := a)
  have bZero := folded_eq_zero (m := m) (n := b)
  have cZero := folded_eq_zero (m := m) (n := c)
  have dZero := folded_eq_zero (m := m) (n := d)
  have firstSame : a ≡ b [MOD m] := (folded_modEq a).symm.trans (first ▸ folded_modEq b)
  have secondSame : c ≡ d [MOD m] := (folded_modEq c).symm.trans (second ▸ folded_modEq d)
  rw [first] at aZero
  rw [second] at cZero
  apply eq_folded positive (folded_le positive _)
  · exact (folded_modEq _).trans (firstSame.add secondSame)
  · rw [folded_eq_zero]
    omega

theorem carryAdd_modEq (x y : Nat) : carryAdd m x y ≡ x + y [MOD m] := by
  unfold carryAdd
  split_ifs with small
  · rfl
  · exact (Nat.sub_modulus_modEq_iff (by omega)).mpr rfl

theorem carryAdd_le {x y : Nat} (xSmall : x ≤ m) (ySmall : y ≤ m) : carryAdd m x y ≤ m := by
  unfold carryAdd
  split_ifs <;> omega

theorem carryAdd_eq_zero {x y : Nat} : carryAdd m x y = 0 ↔ x + y = 0 := by
  unfold carryAdd
  split_ifs <;> omega

theorem carryAdd_folded (positive : 0 < m) {x : Nat} (small : x ≤ m) (n : Nat) :
    carryAdd m x (folded m n) = folded m (x + n) := by
  apply eq_folded positive (carryAdd_le small (folded_le positive n))
  · exact (carryAdd_modEq x _).trans ((folded_modEq n).add_left x)
  · rw [carryAdd_eq_zero, Nat.add_eq_zero_iff, folded_eq_zero, Nat.add_eq_zero_iff]

theorem onesSum_eq (positive : 0 < m) (words : List Nat) (small : ∀ word ∈ words, word ≤ m) :
    onesSum m words = folded m words.sum := by
  induction words with
  | nil => rfl
  | cons word words ih =>
    have rest := ih fun word member => small word (List.mem_cons_of_mem _ member)
    have sum : onesSum m (word :: words) = carryAdd m word (onesSum m words) := rfl
    rw [sum, rest, List.sum_cons]
    exact carryAdd_folded positive (small word List.mem_cons_self) words.sum

/-- A sum to which the complement of its folding is added folds to `m`. -/
theorem folded_add_complement (positive : 0 < m) (n : Nat) :
    folded m (n + (m - folded m n)) = m := by
  have small := folded_le positive n
  symm
  apply eq_folded positive le_rfl
  · have whole := (folded_modEq (m := m) n).add_right (m - folded m n)
    rwa [Nat.add_sub_cancel' small] at whole
  · have zero := folded_eq_zero (m := m) (n := n)
    omega

/-! ## The order of the bytes -/

section Swap

variable {base : Nat}

def swap (base x : Nat) : Nat := x % base * base + x / base

theorem swap_lt {x : Nat} (small : x < base * base) : swap base x < base * base := by
  have positive : 0 < base := Nat.pos_of_mul_pos_left (Nat.zero_lt_of_lt small)
  have low : x % base < base := Nat.mod_lt x positive
  have high : x / base < base := Nat.div_lt_of_lt_mul small
  calc swap base x < x % base * base + base := Nat.add_lt_add_left high _
    _ = (x % base + 1) * base := (Nat.succ_mul _ _).symm
    _ ≤ base * base := Nat.mul_le_mul_right base low

theorem swap_eq_zero {x : Nat} (positive : 0 < base) : swap base x = 0 ↔ x = 0 := by
  constructor
  · intro none
    rw [swap, Nat.add_eq_zero_iff, Nat.mul_eq_zero] at none
    rw [← Nat.div_add_mod x base, none.2, none.1.resolve_right positive.ne']
    rfl
  · intro zero
    rw [zero, swap, Nat.zero_mod, Nat.zero_div, Nat.zero_mul]

theorem swap_modEq (positive : 0 < base) (x : Nat) :
    swap base x ≡ base * x [MOD base * base - 1] := by
  have whole : base * x = swap base x + x / base * (base * base - 1) := by
    have square : 1 ≤ base * base := Nat.mul_pos positive positive
    have digits := Nat.div_add_mod x base
    obtain ⟨rest, restIs⟩ := Nat.exists_eq_add_of_le square
    rw [swap, restIs, Nat.add_sub_cancel_left]
    calc base * x = base * base * (x / base) + x % base * base := by
          rw [Nat.mul_assoc, Nat.mul_comm (x % base), ← Nat.mul_add, digits]
      _ = (1 + rest) * (x / base) + x % base * base := by rw [restIs]
      _ = x % base * base + x / base + x / base * rest := by ring
  rw [whole]
  exact Nat.modEq_add_mul_modulus_iff.mpr rfl

theorem swap_sum_modEq (positive : 0 < base) (words : List Nat) :
    (words.map (swap base)).sum ≡ base * words.sum [MOD base * base - 1] := by
  induction words with
  | nil => rfl
  | cons word words ih =>
    rw [List.map_cons, List.sum_cons, List.sum_cons, Nat.mul_add]
    exact (swap_modEq positive word).add ih

theorem swap_sum_eq_zero (positive : 0 < base) (words : List Nat) :
    (words.map (swap base)).sum = 0 ↔ words.sum = 0 := by
  induction words with
  | nil => rfl
  | cons word words ih =>
    rw [List.map_cons, List.sum_cons, List.sum_cons, Nat.add_eq_zero_iff, Nat.add_eq_zero_iff, ih,
      swap_eq_zero positive]

/-- The sum of words with exchanged digits is the sum of the words, with exchanged digits. -/
theorem folded_swap (large : 1 < base) (words : List Nat) :
    folded (base * base - 1) (words.map (swap base)).sum =
      swap base (folded (base * base - 1) words.sum) := by
  have positive : 0 < base := Nat.zero_lt_of_lt large
  have square : 1 < base * base := Nat.one_lt_mul_iff.mpr (by omega)
  have modulus : 0 < base * base - 1 := by omega
  symm
  apply eq_folded modulus
  · have small := folded_le modulus words.sum
    have less : swap base (folded (base * base - 1) words.sum) < base * base := swap_lt (by omega)
    omega
  · have place := swap_modEq positive (folded (base * base - 1) words.sum)
    have sums := (folded_modEq (m := base * base - 1) words.sum).mul_left base
    exact place.trans (sums.trans (swap_sum_modEq positive words).symm)
  · rw [swap_eq_zero positive, folded_eq_zero, swap_sum_eq_zero positive]

end Swap

end Lib.OnesComplement
