import Mathlib.Data.List.Basic
import Mathlib.Data.List.Perm.Basic

/-!
# Messages in flight

A list of messages, one of which is taken out at its position.
-/
set_option autoImplicit false

namespace Lib

variable {C : Type*} {copy : C} {k : Nat} {copies : List C}

theorem perm_eraseIdx_append (here : copies[k]? = some copy) :
    (copies.eraseIdx k ++ [copy]).Perm copies := by
  obtain ⟨inside, isCopy⟩ := List.getElem?_eq_some_iff.mp here
  have front := List.getElem_cons_eraseIdx_perm inside
  rw [isCopy] at front
  exact (List.perm_append_singleton copy _).trans front

theorem mem_eraseIdx_append {other : C} (here : copies[k]? = some copy)
    (member : other ∈ copies) : other ∈ copies.eraseIdx k ∨ other = copy := by
  have perm := perm_eraseIdx_append here
  simpa using perm.mem_iff.mpr member

/-- Counting without the copy that is taken out. -/
theorem countP_eraseIdx_add (here : copies[k]? = some copy) (property : C → Bool) :
    (copies.eraseIdx k).countP property + (if property copy then 1 else 0) =
      copies.countP property := by
  rw [← (perm_eraseIdx_append here).countP_eq property, List.countP_append, List.countP_singleton]

end Lib
