import Mathlib.Data.Nat.Find
import Mathlib.Data.Fintype.Basic
import Mathlib.Logic.Relation

/-!
# Walks of a given length

`Walk adj n u v` says that `n` steps of the relation `adj` lead from `u` to `v`;
`IsDistance adj d u v` that `d` is the least such length.  Loops and repeated
vertices are allowed.
-/
set_option autoImplicit false

namespace Lib

variable {V : Type*}

def Walk (adj : V → V → Prop) : Nat → V → V → Prop
  | 0, u, v => u = v
  | n + 1, u, v => ∃ w, adj u w ∧ Walk adj n w v

/-- `d` is the length of a shortest walk from `u` to `v`. -/
def IsDistance (adj : V → V → Prop) (d : Nat) (u v : V) : Prop :=
  Walk adj d u v ∧ ∀ n, Walk adj n u v → d ≤ n

variable {adj : V → V → Prop}

instance decidableWalk [Fintype V] [DecidableEq V] [DecidableRel adj] :
    ∀ n u v, Decidable (Walk adj n u v)
  | 0, u, v => inferInstanceAs (Decidable (u = v))
  | n + 1, u, v =>
    have : ∀ w, Decidable (Walk adj n w v) := fun w => decidableWalk n w v
    inferInstanceAs (Decidable (∃ w, adj u w ∧ Walk adj n w v))

@[simp] theorem walk_zero (u v : V) : Walk adj 0 u v ↔ u = v := Iff.rfl

theorem Walk.cons {n : Nat} {u v w : V} (first : adj u w) (rest : Walk adj n w v) :
    Walk adj (n + 1) u v := ⟨w, first, rest⟩

theorem Walk.last_step {n : Nat} {u v : V} (walk : Walk adj (n + 1) u v) :
    ∃ w, Walk adj n u w ∧ adj w v := by
  induction n generalizing u with
  | zero =>
      obtain ⟨w, first, same⟩ := walk
      exact ⟨u, rfl, same ▸ first⟩
  | succ n ih =>
      obtain ⟨w, first, rest⟩ := walk
      obtain ⟨before, earlier, last⟩ := ih rest
      exact ⟨before, Walk.cons first earlier, last⟩

theorem Walk.cut {n m : Nat} {u v : V} (walk : Walk adj (n + m) u v) :
    ∃ w, Walk adj n u w ∧ Walk adj m w v := by
  induction n generalizing u with
  | zero =>
      rw [Nat.zero_add] at walk
      exact ⟨u, rfl, walk⟩
  | succ n ih =>
      rw [Nat.succ_add] at walk
      obtain ⟨next, first, rest⟩ := walk
      obtain ⟨w, front, back⟩ := ih rest
      exact ⟨w, Walk.cons first front, back⟩

theorem Walk.reaches {n : Nat} {u v : V} (walk : Walk adj n u v) :
    Relation.ReflTransGen adj u v := by
  induction n generalizing u with
  | zero =>
      cases walk
      exact .refl
  | succ n ih =>
      obtain ⟨w, first, rest⟩ := walk
      exact .head first (ih rest)

theorem exists_walk_of_reaches {u v : V} (reaches : Relation.ReflTransGen adj u v) :
    ∃ n, Walk adj n u v := by
  induction reaches using Relation.ReflTransGen.head_induction_on with
  | refl => exact ⟨0, rfl⟩
  | head first _ ih =>
      obtain ⟨n, rest⟩ := ih
      exact ⟨n + 1, Walk.cons first rest⟩

theorem IsDistance.unique {d e : Nat} {u v : V} (left : IsDistance adj d u v)
    (right : IsDistance adj e u v) : d = e :=
  Nat.le_antisymm (left.2 e right.1) (right.2 d left.1)

theorem IsDistance.zero_iff {u v : V} : IsDistance adj 0 u v ↔ u = v :=
  ⟨fun shortest => shortest.1, fun same => ⟨same, fun n _ => Nat.zero_le n⟩⟩

/-- A shortest walk of positive length starts with a step that comes one closer. -/
theorem IsDistance.step {d : Nat} {u v : V} (shortest : IsDistance adj (d + 1) u v) :
    ∃ w, adj u w ∧ IsDistance adj d w v := by
  obtain ⟨⟨w, first, rest⟩, least⟩ := shortest
  refine ⟨w, first, rest, ?_⟩
  intro n walk
  have longer := least (n + 1) (Walk.cons first walk)
  omega

theorem exists_distance {n : Nat} {u v : V} (walk : Walk adj n u v) :
    ∃ d, IsDistance adj d u v := by
  classical
  have some_walk : ∃ m, Walk adj m u v := ⟨n, walk⟩
  exact ⟨Nat.find some_walk, Nat.find_spec some_walk, fun m h => Nat.find_min' some_walk h⟩

/-! ## Chains that descend -/

theorem length_le_of_descending (measure : V → Nat) (low : Nat) {first : V} {rest : List V}
    (descends : (first :: rest).IsChain fun u v => low ≤ measure v ∧ measure v < measure u) :
    rest.length ≤ measure first - low := by
  induction rest generalizing first with
  | nil => exact Nat.zero_le _
  | cons second rest ih =>
      have step := List.isChain_cons_cons.mp descends
      have shorter := ih step.2
      have above := step.1.1
      have below := step.1.2
      rw [List.length_cons]
      omega

end Lib
