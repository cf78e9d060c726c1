import NetworkLab.Lib.Walk

/-!
# Shortest paths by visiting the nearest node

Labels in a graph whose edges have length one: visited nodes are labelled with their
distance from the source, the others with the length of a walk through visited nodes,
or with `top`.  Visiting an unvisited node with the least label, and lowering the labels
of its neighbours, keeps this.
-/
set_option autoImplicit false

namespace Lib

variable {V : Type*} {adj : V → V → Prop}

theorem Walk.snoc {n : Nat} {u v w : V} (first : Walk adj n u v) (last : adj v w) :
    Walk adj (n + 1) u w := by
  induction n generalizing u with
  | zero =>
      obtain rfl := first
      exact ⟨w, last, rfl⟩
  | succ n ih =>
      obtain ⟨x, step, rest⟩ := first
      exact ⟨x, step, ih rest⟩

theorem Walk.exit {inside : V → Prop} {n : Nat} {u v : V} (walk : Walk adj n u v)
    (starts : inside u) (ends : ¬ inside v) :
    ∃ x y j k, Walk adj j u x ∧ adj x y ∧ Walk adj k y v ∧ inside x ∧ ¬ inside y ∧ j + 1 + k = n := by
  induction n generalizing u with
  | zero =>
      obtain rfl := walk
      exact absurd starts ends
  | succ n ih =>
      obtain ⟨w, step, rest⟩ := walk
      by_cases stays : inside w
      · obtain ⟨x, y, j, k, before, crossing, after, isInside, isOutside, total⟩ := ih rest stays
        exact ⟨x, y, j + 1, k, before.cons step, crossing, after, isInside, isOutside, by omega⟩
      · exact ⟨u, w, 0, n, rfl, step, rest, starts, stays, by omega⟩

structure Settled (adj : V → V → Prop) (source : V) (top : Nat) (visited : V → Prop)
    (dist : V → Nat) (pred : V → V → Prop) : Prop where
  start : visited source
  nearest : ∀ v, visited v → IsDistance adj (dist v) source v
  reached : ∀ v, v ≠ source → dist v ≠ top →
    ∃ u, pred v u ∧ visited u ∧ adj u v ∧ dist u + 1 = dist v
  relaxed : ∀ u v, visited u → ¬ visited v → adj u v → dist v ≤ dist u + 1

namespace Settled

variable {source : V} {top : Nat} {visited : V → Prop} {dist : V → Nat} {pred : V → V → Prop}

/-- Before all nodes within reach are visited, some unvisited one has a label. -/
theorem exists_frontier (settled : Settled adj source top visited dist pred) {n : Nat} {v : V}
    (walk : Walk adj n source v) (unvisited : ¬ visited v) :
    ∃ x y, visited x ∧ ¬ visited y ∧ adj x y ∧ dist y ≤ dist x + 1 ∧ dist x + 1 ≤ n := by
  obtain ⟨x, y, j, k, before, crossing, -, isVisited, isUnvisited, total⟩ :=
    walk.exit settled.start unvisited
  have short := (settled.nearest x isVisited).2 j before
  exact ⟨x, y, isVisited, isUnvisited, crossing,
    settled.relaxed x y isVisited isUnvisited crossing, by omega⟩

/-- The unvisited node with the least label has its distance already. -/
theorem isDistance (settled : Settled adj source top visited dist pred) {u : V}
    (unvisited : ¬ visited u) (labelled : dist u ≠ top)
    (least : ∀ x y, adj x y → ¬ visited y → dist u ≤ dist y) :
    IsDistance adj (dist u) source u := by
  have other : u ≠ source := fun same => unvisited (same ▸ settled.start)
  obtain ⟨w, -, isVisited, edge, next⟩ := settled.reached u other labelled
  constructor
  · rw [← next]
    exact (settled.nearest w isVisited).1.snoc edge
  · intro n walk
    obtain ⟨x, y, -, isUnvisited, crossing, label, short⟩ := settled.exists_frontier walk unvisited
    exact (least x y crossing isUnvisited).trans (label.trans short)

/-- Visiting `u` lowers the labels of its unvisited neighbours to one more than its own. -/
theorem visit (settled : Settled adj source top visited dist pred) {u : V}
    (distance : IsDistance adj (dist u) source u) {dist' : V → Nat} {pred' : V → V → Prop}
    (lowers : ∀ v, ¬ (visited v ∨ v = u) ∧ adj u v ∧ dist u + 1 < dist v →
      dist' v = dist u + 1 ∧ pred' v u)
    (keeps : ∀ v, ¬ (¬ (visited v ∨ v = u) ∧ adj u v ∧ dist u + 1 < dist v) →
      dist' v = dist v ∧ ∀ w, pred v w → pred' v w) :
    Settled adj source top (fun v => visited v ∨ v = u) dist' pred' := by
  have same : ∀ v, visited v ∨ v = u → dist' v = dist v := fun v isVisited =>
    (keeps v fun lowered => lowered.1 isVisited).1
  have below : ∀ v, dist' v ≤ dist v := by
    intro v
    by_cases lowered : ¬ (visited v ∨ v = u) ∧ adj u v ∧ dist u + 1 < dist v
    · rw [(lowers v lowered).1]
      exact lowered.2.2.le
    · exact (keeps v lowered).1.le
  refine ⟨.inl settled.start, ?_, ?_, ?_⟩
  · intro v isVisited
    rw [same v isVisited]
    rcases isVisited with old | rfl
    · exact settled.nearest v old
    · exact distance
  · intro v other labelled
    by_cases lowered : ¬ (visited v ∨ v = u) ∧ adj u v ∧ dist u + 1 < dist v
    · obtain ⟨label, from_u⟩ := lowers v lowered
      exact ⟨u, from_u, .inr rfl, lowered.2.1, by rw [same u (.inr rfl), label]⟩
    · obtain ⟨label, from_old⟩ := keeps v lowered
      rw [label] at labelled ⊢
      obtain ⟨w, from_w, isVisited, edge, next⟩ := settled.reached v other labelled
      exact ⟨w, from_old w from_w, .inl isVisited, edge, by rw [same w (.inl isVisited), next]⟩
  · intro x y isVisited isUnvisited edge
    rw [same x isVisited]
    rcases isVisited with old | rfl
    · exact (below y).trans (settled.relaxed x y old (fun also => isUnvisited (.inl also)) edge)
    · by_cases less : dist x + 1 < dist y
      · exact (lowers y ⟨isUnvisited, edge, less⟩).1.le
      · exact (below y).trans (Nat.le_of_not_lt less)

end Settled

end Lib
