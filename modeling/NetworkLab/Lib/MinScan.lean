import Mathlib.Order.Lattice
import Mathlib.Data.List.Basic

/-!
# Scanning a list for a least element

The loop that keeps a candidate and replaces it by any later element that passes
a test and has a smaller key.
-/
set_option autoImplicit false

namespace Lib

variable {α κ : Type*} [LinearOrder κ] (key : α → κ) (test : α → Bool)

def minScan (candidate : α) (rest : List α) : α :=
  rest.foldl (fun best a => if test a && decide (key a < key best) then a else best) candidate

theorem minScan_cons (candidate a : α) (rest : List α) :
    minScan key test candidate (a :: rest) =
      minScan key test (if test a && decide (key a < key candidate) then a else candidate) rest :=
  rfl

theorem minScan_mem (candidate : α) (rest : List α) :
    minScan key test candidate rest = candidate ∨
      minScan key test candidate rest ∈ rest ∧ test (minScan key test candidate rest) = true := by
  induction rest generalizing candidate with
  | nil => exact Or.inl rfl
  | cons a rest ih =>
      rw [minScan_cons]
      rcases ih (if test a && decide (key a < key candidate) then a else candidate) with same | later
      · rw [same]
        by_cases taken : (test a && decide (key a < key candidate)) = true
        · rw [if_pos taken]
          rw [Bool.and_eq_true] at taken
          exact Or.inr ⟨List.mem_cons_self .., taken.1⟩
        · rw [if_neg taken]
          exact Or.inl rfl
      · exact Or.inr ⟨List.mem_cons_of_mem _ later.1, later.2⟩

theorem minScan_le_candidate (candidate : α) (rest : List α) :
    key (minScan key test candidate rest) ≤ key candidate := by
  induction rest generalizing candidate with
  | nil => exact le_refl _
  | cons a rest ih =>
      rw [minScan_cons]
      refine le_trans (ih _) ?_
      split_ifs with taken
      · rw [Bool.and_eq_true, decide_eq_true_eq] at taken
        exact le_of_lt taken.2
      · exact le_refl _

theorem minScan_le (candidate a : α) (rest : List α) (member : a ∈ rest) (passes : test a = true) :
    key (minScan key test candidate rest) ≤ key a := by
  induction rest generalizing candidate with
  | nil => cases member
  | cons b rest ih =>
      rw [minScan_cons]
      rcases List.mem_cons.mp member with rfl | later
      · refine le_trans (minScan_le_candidate key test _ rest) ?_
        split_ifs with taken
        · exact le_refl _
        · simpa [passes] using taken
      · exact ih _ later

end Lib
