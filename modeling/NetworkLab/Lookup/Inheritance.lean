import NetworkLab.Lookup.PushedRoutes

/-!
# Inheritance through the leaf push

A missing place should get the entry of the nearest node above it that has one.  The node
that fills it is also written by nodes beside the way, so that it does if and only if the
last of these writes comes from the way, or from the other node of an odd prefix that ends
at the nearest one.
-/
set_option autoImplicit false

namespace NetworkLab.Lookup

open Lib

/-- The entry of the nearest node on the way to a missing child of `node`, itself included,
whose network is not zero. -/
def Inherits (tree : MulPTree) (node : List (Fin 4)) (leaf : Leaf) : Prop :=
  (∃ above, above <+: node ∧ tree.get? above = some leaf ∧ leaf.subNet ≠ 0 ∧
    ∀ other data, other <+: node → tree.get? other = some data → data.subNet ≠ 0 →
      other <+: above) ∨
  (∀ other data, other <+: node → tree.get? other = some data → data.subNet = 0) ∧ leaf = .blank

/-- What the push is for: the missing children of a node that has others are filled with leaves
that inherit, and leaves stay as they are. -/
structure PushInherits (tree : MulPTree) : Prop where
  leaf : ∀ node data, tree.sub node = .single data → tree.mleafPush.sub node = .single data
  missing : ∀ node slot child, (tree.get? (node ++ [child])).isSome →
    tree.get? (node ++ [slot]) = none →
    ∃ leaf, tree.mleafPush.sub (node ++ [slot]) = .single leaf ∧ Inherits tree node leaf

section Condition

variable (routes : List Leaf)

/-- The lowest node on the way to the missing children of `node` that has an entry. -/
def NearestEntry (node nearest : List (Fin 4)) : Prop :=
  nearest <+: node ∧ (stored routes nearest).subNet ≠ 0 ∧
    ∀ above, above <+: node → (stored routes above).subNet ≠ 0 → above <+: nearest

/-- The last node that writes to what fills the missing children of this one lies on the
way, or one odd route made it together with the nearest node that has an entry. -/
def WrittenFromWay (node : List (Fin 4)) : Prop :=
  ∀ other, LastSupplier routes node other →
    other <+: node ∨ ∃ nearest route, NearestEntry routes node nearest ∧
      MadeByOdd routes nearest route ∧ MadeByOdd routes other route

def Undisturbed : Prop :=
  ∀ node slot, InnerNode routes node → ¬ HasNode routes (node ++ [slot]) →
    WrittenFromWay routes node

end Condition

section Way

variable {routes : List Leaf} {node above : List (Fin 4)}

theorem HasNode.get? (present : HasNode routes node) :
    (MulPTree.construct routes).get? node = some (stored routes node) := by
  rw [MulPTree.get?_construct, if_pos present]

theorem get?_construct_eq_none :
    (MulPTree.construct routes).get? node = none ↔ ¬ HasNode routes node := by
  rw [MulPTree.get?_construct]
  by_cases present : HasNode routes node <;> simp [present]

theorem InnerNode.of_onWay (inner : InnerNode routes node) (onWay : above <+: node) :
    InnerNode routes above := by
  obtain ⟨rest, rfl⟩ := onWay
  cases rest with
  | nil => simpa using inner
  | cons i rest =>
      refine ⟨i, (hasNode_iff _).mpr fun absent => ?_⟩
      have missing := Trie.isNull_iff.mp absent
      exact not_innerNode_append missing rest (by simpa using inner)

theorem comesTo_onWay (top : List (Fin 4)) (onWay : above <+: node) :
    ComesTo routes top node above := by
  induction above generalizing top node with
  | nil => cases node <;> trivial
  | cons j above ih =>
      cases node with
      | nil => exact absurd (List.prefix_nil.mp onWay) (List.cons_ne_nil j above)
      | cons i node =>
          obtain ⟨same, below⟩ := List.cons_prefix_cons.mp onWay
          rw [ComesTo, if_pos same]
          exact ih _ below

theorem supplies_of_onWay (inner : InnerNode routes node) (onWay : above <+: node)
    (entry : (stored routes above).subNet ≠ 0) : Supplies routes node above :=
  ⟨⟨inner.of_onWay onWay, entry⟩, comesTo_onWay [] onWay⟩

/-- The last write comes from the way: then it is that of the nearest node. -/
theorem inherits_of_onWay (inner : InnerNode routes node) (last : LastSupplier routes node above)
    (onWay : above <+: node) : Inherits (MulPTree.construct routes) node (stored routes above) := by
  refine .inl ⟨above, onWay, (inner.of_onWay onWay).hasNode.get?, last.1.1.2, ?_⟩
  intro other data onWay' found entry
  rw [(inner.of_onWay onWay').hasNode.get?] at found
  cases found
  exact prefix_of_le (last.2 other (supplies_of_onWay inner onWay' entry)) onWay' onWay

theorem inherits_blank (inner : InnerNode routes node)
    (silent : ∀ other, ¬ Supplies routes node other) :
    Inherits (MulPTree.construct routes) node .blank := by
  refine .inr ⟨fun other data onWay found => ?_, rfl⟩
  rw [(inner.of_onWay onWay).hasNode.get?] at found
  cases found
  by_contra entry
  exact silent other (supplies_of_onWay inner onWay entry)

/-- Two nodes have the same entry only if one odd route made both. -/
theorem stored_twin {first second : List (Fin 4)} (differ : first ≠ second)
    (entry : (stored routes first).subNet ≠ 0) (same : stored routes second = stored routes first) :
    ∃ route, MadeByOdd routes second route ∧ MadeByOdd routes first route := by
  have nonblank : stored routes first ≠ .blank := by
    intro blank
    rw [blank] at entry
    exact entry rfl
  have nonblank' : stored routes second ≠ .blank := by
    rw [same]
    exact nonblank
  -- a prefix of even length has one node, and an odd one is a bit shorter than its nodes
  rcases (stored_cases routes first).resolve_left nonblank with ⟨present, isLast⟩ | made
  · have isKey := (lastRoute_mem present).2
    rw [← isLast] at isKey
    rcases (stored_cases routes second).resolve_left nonblank' with ⟨present', isLast'⟩ | made'
    · have isKey' := (lastRoute_mem present').2
      rw [← isLast', same, isKey] at isKey'
      exact absurd (flat_inj isKey') differ
    · have odd := made'.2.2
      rw [same, isKey] at odd
      exact absurd odd (dropLast_flat_ne made'.ne_nil)
  · rcases (stored_cases routes second).resolve_left nonblank' with ⟨present', isLast'⟩ | made'
    · have isKey' := (lastRoute_mem present').2
      have odd := made.2.2
      rw [← isLast', same] at isKey'
      rw [isKey'] at odd
      exact absurd odd (dropLast_flat_ne made.ne_nil)
    · rw [same] at made'
      exact ⟨_, made', made⟩

/-- The entry that is written last is inherited exactly in these cases. -/
theorem inherits_supplied_iff (inner : InnerNode routes node) {other : List (Fin 4)}
    (last : LastSupplier routes node other) :
    Inherits (MulPTree.construct routes) node (stored routes other) ↔
      other <+: node ∨ ∃ nearest route, NearestEntry routes node nearest ∧
        MadeByOdd routes nearest route ∧ MadeByOdd routes other route := by
  constructor
  · rintro (⟨above, onWay, found, entry, nearest⟩ | ⟨-, blank⟩)
    · rw [(inner.of_onWay onWay).hasNode.get?, Option.some.injEq] at found
      by_cases isOther : other = above
      · exact .inl (isOther ▸ onWay)
      obtain ⟨route, here, there⟩ := stored_twin isOther last.1.1.2 found
      refine .inr ⟨above, route, ⟨onWay, found ▸ entry, ?_⟩, here, there⟩
      intro another onWay' entry'
      exact nearest another _ onWay' (inner.of_onWay onWay').hasNode.get? entry'
    · have entry := last.1.1.2
      rw [blank] at entry
      exact absurd rfl entry
  · rintro (onWay | ⟨above, route, ⟨onWay, entry, nearest⟩, here, there⟩)
    · exact inherits_of_onWay inner last onWay
    · refine .inl ⟨above, onWay, ?_, last.1.1.2, ?_⟩
      · rw [(inner.of_onWay onWay).hasNode.get?, here.stored, there.stored]
      · intro another data onWay' found entry'
        rw [(inner.of_onWay onWay').hasNode.get?] at found
        cases found
        exact nearest another onWay' entry'

end Way

/-- The leaf push fills every missing place with the entry of the nearest node above it, in
exactly the trees where no later write from beside the way brings another entry. -/
theorem push_inherits_iff (routes : List Leaf) :
    PushInherits (MulPTree.construct routes) ↔ Undisturbed routes := by
  constructor
  · intro inherits node slot inner missing other last
    obtain ⟨child, present⟩ := id inner
    obtain ⟨leaf, pushed, inherited⟩ := inherits.missing node slot child (by simp [present.get?])
      (get?_construct_eq_none.mpr missing)
    obtain ⟨leaf', pushed', written⟩ := mleafPush_construct_missing inner missing
    cases (Trie.node.inj (pushed'.symm.trans pushed)).1
    rcases written with ⟨silent, -⟩ | ⟨another, also, isLeaf⟩
    · exact absurd last.1 (silent other)
    · rw [isLeaf, ← last.unique also] at inherited
      exact (inherits_supplied_iff inner last).mp inherited
  · intro undisturbed
    refine ⟨fun node data reached => MulPTree.mleafPush_leaf reached, ?_⟩
    intro node slot child present missing
    have inner : InnerNode routes node := by
      refine ⟨child, ?_⟩
      by_contra absent
      simp [get?_construct_eq_none.mpr absent] at present
    rw [get?_construct_eq_none] at missing
    obtain ⟨leaf, pushed, written⟩ := mleafPush_construct_missing inner missing
    refine ⟨leaf, pushed, ?_⟩
    rcases written with ⟨silent, isBlank⟩ | ⟨other, last, isLeaf⟩
    · rw [isBlank]
      exact inherits_blank inner silent
    · rw [isLeaf]
      exact (inherits_supplied_iff inner last).mpr (undisturbed node slot inner missing other last)

def sisterRoutes : List Leaf :=
  [⟨0x40000000, 2, 1⟩, ⟨0x40000000, 4, 2⟩, ⟨0x80000000, 4, 3⟩]

/-- Its missing child gets the entry of the earlier sister: 64.0.0.0/2 is found under 144.0.0.0. -/
theorem sister_entry_inherited : ¬ PushInherits (MulPTree.construct sisterRoutes) := by
  intro inherits
  obtain ⟨leaf, pushed, inherited⟩ := inherits.missing [2] 1 0 (by decide) (by decide)
  have entry : (MulPTree.construct sisterRoutes).mleafPush.get? [2, 1] =
      some ⟨0x40000000, 2, 1⟩ := by decide
  rw [Trie.get?_eq_sub, show ([2, 1] : List (Fin 4)) = [2] ++ [1] from rfl, pushed] at entry
  cases Option.some.inj entry
  rcases inherited with ⟨above, onWay, found, -⟩ | ⟨-, blank⟩
  · have onlyTwo : above = [] ∨ above = [2] := by
      rcases List.prefix_concat_iff.mp (show above <+: [] ++ [2] from onWay) with whole | start
      · exact .inr whole
      · exact .inl (List.prefix_nil.mp start)
    rcases onlyTwo with rfl | rfl
    · revert found
      decide
    · revert found
      decide
  · revert blank
    decide

end NetworkLab.Lookup
