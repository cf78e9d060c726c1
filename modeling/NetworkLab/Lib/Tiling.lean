import Mathlib.Data.List.Basic
import Mathlib.Tactic.Linarith

/-!
# Lists of blocks that tile an interval

A block `x` takes the numbers from `start x` to `stop x`.  `Tiles low blocks high`
says that the blocks follow one another without gap from `low` to `high`.  Blocks may
be empty.
-/
set_option autoImplicit false

namespace Lib

variable {α : Type*}

section Tiling

variable (start stop : α → Nat)

def Tiles : Nat → List α → Nat → Prop
  | low, [], high => low = high
  | low, x :: rest, high => start x = low ∧ low ≤ stop x ∧ Tiles (stop x) rest high

end Tiling

namespace Tiles

variable {start stop : α → Nat} {low high : Nat} {blocks : List α}

theorem append {x : α} (tiles : Tiles start stop low blocks high) (next : start x = high)
    (forward : high ≤ stop x) : Tiles start stop low (blocks ++ [x]) (stop x) := by
  induction blocks generalizing low with
  | nil =>
      obtain rfl : low = high := tiles
      exact ⟨next, forward, rfl⟩
  | cons y rest ih =>
      obtain ⟨first, inside, later⟩ := tiles
      exact ⟨first, inside, ih later⟩

theorem le (tiles : Tiles start stop low blocks high) : low ≤ high := by
  induction blocks generalizing low with
  | nil => exact (show low = high from tiles).le
  | cons x rest ih => exact tiles.2.1.trans (ih tiles.2.2)

theorem mem_bounds (tiles : Tiles start stop low blocks high) {x : α} (member : x ∈ blocks) :
    low ≤ start x ∧ start x ≤ stop x ∧ stop x ≤ high := by
  induction blocks generalizing low with
  | nil => cases member
  | cons y rest ih =>
      obtain ⟨first, inside, later⟩ := tiles
      rcases List.mem_cons.mp member with rfl | inRest
      · exact ⟨first.ge, first.le.trans inside, later.le⟩
      · obtain ⟨above, within, below⟩ := ih later inRest
        exact ⟨inside.trans above, within, below⟩

theorem covers (tiles : Tiles start stop low blocks high) {n : Nat} (above : low ≤ n)
    (below : n < high) : ∃ x ∈ blocks, start x ≤ n ∧ n < stop x := by
  induction blocks generalizing low with
  | nil =>
      obtain rfl : low = high := tiles
      omega
  | cons y rest ih =>
      obtain ⟨first, inside, later⟩ := tiles
      by_cases here : n < stop y
      · exact ⟨y, List.mem_cons_self, by omega, here⟩
      · obtain ⟨x, member, holds⟩ := ih later (by omega)
        exact ⟨x, List.mem_cons_of_mem _ member, holds⟩

theorem pairwise (tiles : Tiles start stop low blocks high) :
    blocks.Pairwise fun x y => stop x ≤ start y := by
  induction blocks generalizing low with
  | nil => exact List.Pairwise.nil
  | cons x rest ih =>
      obtain ⟨-, -, later⟩ := tiles
      exact List.Pairwise.cons (fun y member => (later.mem_bounds member).1) (ih later)

/-- Dropping the blocks that start at or before `bound` drops a front part of the
tiling; what is left starts where the last dropped block stops. -/
theorem filter_start (tiles : Tiles start stop low blocks high) (bound : Nat) :
    ∃ middle, Tiles start stop middle (blocks.filter fun x => !decide (start x ≤ bound)) high ∧
      (middle = high ∨ bound < middle) ∧
      (∀ x ∈ blocks, start x ≤ bound → stop x ≤ middle) ∧
      (middle = low ∨ ∃ x ∈ blocks, start x ≤ bound ∧ stop x = middle) := by
  induction blocks generalizing low with
  | nil => exact ⟨low, tiles, Or.inl tiles, nofun, Or.inl rfl⟩
  | cons x rest ih =>
      obtain ⟨first, inside, later⟩ := tiles
      by_cases dropped : start x ≤ bound
      · obtain ⟨middle, restTiles, above, dropsBelow, last⟩ := ih later
        refine ⟨middle, by simpa [dropped] using restTiles, above, ?_, Or.inr ?_⟩
        · intro y member early
          rcases List.mem_cons.mp member with rfl | inRest
          · rcases last with rfl | ⟨z, zMember, -, rfl⟩
            · exact le_rfl
            · exact ((later.mem_bounds zMember).1).trans (later.mem_bounds zMember).2.1
          · exact dropsBelow y inRest early
        · rcases last with rfl | ⟨z, zMember, zEarly, zStop⟩
          · exact ⟨x, List.mem_cons_self, dropped, rfl⟩
          · exact ⟨z, List.mem_cons_of_mem _ zMember, zEarly, zStop⟩
      · have allLater : ∀ y ∈ x :: rest, ¬ start y ≤ bound := by
          intro y member
          rcases List.mem_cons.mp member with rfl | inRest
          · exact dropped
          · have := (later.mem_bounds inRest).1
            omega
        have kept : (x :: rest).filter (fun y => !decide (start y ≤ bound)) = x :: rest :=
          List.filter_eq_self.mpr fun y member => by simpa using allLater y member
        refine ⟨low, ?_, Or.inr (by omega), fun y member early => absurd early (allLater y member),
          Or.inl rfl⟩
        rw [kept]
        exact ⟨first, inside, later⟩

end Tiles

end Lib
