import Mathlib.Data.Nat.Bitwise
import Mathlib.Tactic.Positivity

/-!
# Network masks

A mask of `k` leading ones, and the length of a prefix as the number of ones.  Among such masks
the greater one is the longer one.
-/
set_option autoImplicit false

namespace Lib

def prefixMask (k : Nat) : UInt32 := UInt32.ofNat (2 ^ 32 - 2 ^ (32 - k))

def maskLength (mask : UInt32) : Nat :=
  (List.range 32).countP fun i => mask.toNat.testBit i

def IsPrefixMask (mask : UInt32) : Prop := ∃ k ≤ 32, mask = prefixMask k

theorem toNat_prefixMask (k : Nat) : (prefixMask k).toNat = 2 ^ 32 - 2 ^ (32 - k) := by
  have positive : 0 < 2 ^ (32 - k) := by positivity
  exact UInt32.toNat_ofNat_of_lt' (by change 2 ^ 32 - 2 ^ (32 - k) < 2 ^ 32; omega)

theorem testBit_prefixMask {k i : Nat} (inside : i < 32) :
    (prefixMask k).toNat.testBit i = decide (32 - k ≤ i) := by
  have small : 2 ^ (32 - k) ≤ 2 ^ 32 := Nat.pow_le_pow_right (by decide) (Nat.sub_le 32 k)
  have positive : 0 < 2 ^ (32 - k) := by positivity
  have split : 2 ^ 32 - 2 ^ (32 - k) = 2 ^ 32 - (2 ^ (32 - k) - 1 + 1) := by omega
  rw [toNat_prefixMask, split, Nat.testBit_two_pow_sub_succ (by omega), Nat.testBit_two_pow_sub_one,
    decide_eq_true inside, Bool.true_and, ← decide_not]
  exact decide_eq_decide.mpr Nat.not_lt

theorem countP_range_le (start size : Nat) :
    ((List.range size).countP fun i => start ≤ i) = size - start := by
  induction size with
  | zero => simp
  | succ size ih =>
      rw [List.range_succ, List.countP_append, ih]
      by_cases counted : start ≤ size
      · simp [counted]
        omega
      · simp [counted]
        omega

theorem maskLength_prefixMask {k : Nat} (short : k ≤ 32) : maskLength (prefixMask k) = k := by
  have same : maskLength (prefixMask k) = (List.range 32).countP fun i => 32 - k ≤ i :=
    List.countP_congr fun i member => by
      rw [testBit_prefixMask (List.mem_range.mp member)]
  rw [same, countP_range_le]
  omega

theorem prefixMask_lt_iff {k l : Nat} (shortK : k ≤ 32) (shortL : l ≤ 32) :
    prefixMask k < prefixMask l ↔ k < l := by
  rw [UInt32.lt_iff_toNat_lt, toNat_prefixMask, toNat_prefixMask]
  have boundK : 2 ^ (32 - k) ≤ 2 ^ 32 := Nat.pow_le_pow_right (by decide) (by omega)
  have boundL : 2 ^ (32 - l) ≤ 2 ^ 32 := Nat.pow_le_pow_right (by decide) (by omega)
  have powers : 2 ^ (32 - l) < 2 ^ (32 - k) ↔ 32 - l < 32 - k := Nat.pow_lt_pow_iff_right (by decide)
  omega

theorem IsPrefixMask.lt_iff {first second : UInt32} (one : IsPrefixMask first)
    (two : IsPrefixMask second) : first < second ↔ maskLength first < maskLength second := by
  obtain ⟨k, shortK, rfl⟩ := one
  obtain ⟨l, shortL, rfl⟩ := two
  rw [prefixMask_lt_iff shortK shortL, maskLength_prefixMask shortK, maskLength_prefixMask shortL]

theorem IsPrefixMask.le_iff {first second : UInt32} (one : IsPrefixMask first)
    (two : IsPrefixMask second) : first ≤ second ↔ maskLength first ≤ maskLength second := by
  rw [← UInt32.not_lt, two.lt_iff one, Nat.not_lt]

theorem IsPrefixMask.eq_of_length {first second : UInt32} (one : IsPrefixMask first)
    (two : IsPrefixMask second) (same : maskLength first = maskLength second) :
    first = second := by
  obtain ⟨k, shortK, rfl⟩ := one
  obtain ⟨l, shortL, rfl⟩ := two
  rw [maskLength_prefixMask shortK, maskLength_prefixMask shortL] at same
  rw [same]

end Lib
