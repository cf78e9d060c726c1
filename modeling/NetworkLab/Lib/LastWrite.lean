import Mathlib.Data.List.Lex
import Mathlib.Order.Lattice

/-!
# The last write to a cell

Writes stand at positions of an order, and a cell holds what the last of them wrote, or
what it held before when there is none.  The lexicographic order of lists is the order
in which a traversal visits the nodes of a tree, each node before its subtrees.
-/
set_option autoImplicit false

namespace Lib

section LastWrite

variable {κ δ : Type} [PartialOrder κ]

def LastWrite (writes : κ → δ → Prop) (old new : δ) : Prop :=
  (∀ k d, ¬ writes k d) ∧ new = old ∨ ∃ k, writes k new ∧ ∀ k' d, writes k' d → k' ≤ k

variable {first second : κ → δ → Prop} {old middle new : δ}

theorem LastWrite.none (silent : ∀ k d, ¬ first k d) : LastWrite first old old :=
  .inl ⟨silent, rfl⟩

theorem LastWrite.append (before : LastWrite first old middle)
    (after : LastWrite second middle new)
    (ordered : ∀ k d k' d', first k d → second k' d' → k ≤ k') :
    LastWrite (fun k d => first k d ∨ second k d) old new := by
  rcases after with ⟨silent, rfl⟩ | ⟨k, written, last⟩
  · rcases before with ⟨silent', rfl⟩ | ⟨k, written, last⟩
    · exact .none fun k d => not_or.mpr ⟨silent' k d, silent k d⟩
    · refine .inr ⟨k, .inl written, fun k' d writes => ?_⟩
      exact last k' d (writes.resolve_right (silent k' d))
  · refine .inr ⟨k, .inr written, fun k' d writes => ?_⟩
    rcases writes with early | late
    · exact ordered k' d k new early written
    · exact last k' d late

theorem LastWrite.congr (last : LastWrite first old new) (same : ∀ k d, first k d ↔ second k d) :
    LastWrite second old new := by
  have equal : first = second := funext fun k => funext fun d => propext (same k d)
  rwa [← equal]

end LastWrite

section Visits

variable {κ δ : Type} [LinearOrder κ] {i j : κ} {first second : List κ}

theorem nil_le_path (path : List κ) : [] ≤ path := by
  cases path with
  | nil => exact le_rfl
  | cons i rest => exact le_of_lt List.Lex.nil

theorem cons_le_cons_path (le : first ≤ second) : i :: first ≤ i :: second := by
  rcases le.eq_or_lt with rfl | less
  · exact le_rfl
  · exact le_of_lt (List.Lex.cons less)

theorem cons_le_of_lt (less : i < j) : i :: first ≤ j :: second :=
  le_of_lt (List.Lex.rel less)

theorem lt_append_path (path : List κ) (i : κ) (rest : List κ) : path < path ++ i :: rest := by
  induction path with
  | nil => exact List.Lex.nil
  | cons j path ih => exact List.Lex.cons ih

theorem prefix_of_le {path : List κ} (le : first ≤ second) (one : first <+: path)
    (other : second <+: path) : first <+: second := by
  rcases List.prefix_or_prefix_of_prefix one other with shorter | longer
  · exact shorter
  · obtain ⟨rest, rfl⟩ := longer
    cases rest with
    | nil => simp
    | cons i rest => exact absurd le (not_le_of_gt (lt_append_path second i rest))

def writesBelow (i : κ) (writes : List κ → δ → Prop) : List κ → δ → Prop
  | [], _ => False
  | j :: rest, d => j = i ∧ writes rest d

theorem LastWrite.below {writes : List κ → δ → Prop} {old new : δ}
    (last : LastWrite writes old new) (i : κ) : LastWrite (writesBelow i writes) old new := by
  rcases last with ⟨silent, rfl⟩ | ⟨k, written, last⟩
  · refine .none fun path d writes => ?_
    cases path with
    | nil => exact writes
    | cons j rest => exact silent rest d writes.2
  · refine .inr ⟨i :: k, ⟨rfl, written⟩, fun path d writes => ?_⟩
    cases path with
    | nil => exact writes.elim
    | cons j rest =>
        obtain ⟨rfl, below⟩ := writes
        exact cons_le_cons_path (last rest d below)

end Visits

end Lib
