import Mathlib.Order.Lattice
import Mathlib.Data.List.Induction

/-!
# The first of the greatest elements

The loop that keeps an element until it meets one with a greater key, from no element on.
-/
set_option autoImplicit false

namespace Lib

variable {α κ : Type*} [LinearOrder κ] (key : α → κ)

def keepGreater (best : Option α) (a : α) : Option α :=
  match best with
  | none => some a
  | some b => if key b < key a then some a else best

def firstMax (l : List α) : Option α := l.foldl (keepGreater key) none

/-- Smaller keys before it, and no greater ones after it. -/
def IsFirstMax (l : List α) (a : α) : Prop :=
  ∃ before after, l = before ++ a :: after ∧
    (∀ b ∈ before, key b < key a) ∧ ∀ b ∈ after, key b ≤ key a

variable {key} {l : List α} {a : α}

theorem IsFirstMax.mem (greatest : IsFirstMax key l a) : a ∈ l := by
  obtain ⟨before, after, rfl, -, -⟩ := greatest
  simp

theorem IsFirstMax.le (greatest : IsFirstMax key l a) {b : α} (member : b ∈ l) :
    key b ≤ key a := by
  obtain ⟨before, after, rfl, smaller, notGreater⟩ := greatest
  rcases List.mem_append.mp member with early | late
  · exact (smaller b early).le
  · cases List.mem_cons.mp late with
    | inl same => rw [same]
    | inr behind => exact notGreater b behind

theorem IsFirstMax.first (greatest : IsFirstMax key l a) {r : α → α → Prop}
    (ordered : l.Pairwise r) {b : α} (member : b ∈ l) (same : key b = key a) : b = a ∨ r a b := by
  obtain ⟨before, after, rfl, smaller, -⟩ := greatest
  rcases List.mem_append.mp member with early | late
  · exact absurd same (smaller b early).ne
  · cases List.mem_cons.mp late with
    | inl here => exact .inl here
    | inr behind =>
        have later := (List.pairwise_append.mp ordered).2.1
        exact .inr ((List.pairwise_cons.mp later).1 b behind)

theorem IsFirstMax.concat (greatest : IsFirstMax key l a) {b : α} (le : key b ≤ key a) :
    IsFirstMax key (l ++ [b]) a := by
  obtain ⟨before, after, rfl, smaller, notGreater⟩ := greatest
  refine ⟨before, after ++ [b], by simp, smaller, fun c member => ?_⟩
  rcases List.mem_append.mp member with early | late
  · exact notGreater c early
  · rw [List.mem_singleton.mp late]
    exact le

theorem firstMax_concat (l : List α) (a : α) :
    firstMax key (l ++ [a]) = keepGreater key (firstMax key l) a :=
  List.foldl_append

theorem firstMax_eq_none : firstMax key l = none ↔ l = [] := by
  induction l using List.reverseRecOn with
  | nil => exact iff_of_true rfl rfl
  | append_singleton l a ih =>
      rw [firstMax_concat]
      cases firstMax key l with
      | none => simp [keepGreater]
      | some b =>
          dsimp only [keepGreater]
          split_ifs <;> simp

theorem isFirstMax_of_firstMax (found : firstMax key l = some a) : IsFirstMax key l a := by
  induction l using List.reverseRecOn generalizing a with
  | nil => cases found
  | append_singleton l b ih =>
      rw [firstMax_concat] at found
      cases before : firstMax key l with
      | none =>
          rw [before] at found
          cases found
          rw [firstMax_eq_none.mp before]
          exact ⟨[], [], rfl, by simp, by simp⟩
      | some best =>
          have greatest := ih before
          rw [before, keepGreater] at found
          by_cases greater : key best < key b
          · rw [if_pos greater] at found
            cases found
            refine ⟨l, [], rfl, fun c member => ?_, by simp⟩
            exact (greatest.le member).trans_lt greater
          · rw [if_neg greater] at found
            cases found
            exact greatest.concat (not_lt.mp greater)

end Lib
