import NetworkLab.Lookup.Insertion
import NetworkLab.Lookup.LeafPush

/-!
# The leaf push on the tree of a list of routes

Which routes come to a missing place, in terms of the list: the entries of the nodes on
the way to it, and those of nodes beside the way that are handed the same node.
-/
set_option autoImplicit false

namespace NetworkLab.Lookup

open Lib

section Definitions

variable (routes : List Leaf)

def FullNode (node : List (Fin 4)) : Prop := ∀ i, HasNode routes (node ++ [i])

def InnerNode (node : List (Fin 4)) : Prop := ∃ i, HasNode routes (node ++ [i])

instance (node : List (Fin 4)) : Decidable (FullNode routes node) :=
  inferInstanceAs (Decidable (∀ _, _))

instance (node : List (Fin 4)) : Decidable (InnerNode routes node) :=
  inferInstanceAs (Decidable (∃ _, _))

/-- The push hands the end of `path` below `node` what it hands `node`. -/
def HandedOn : List (Fin 4) → List (Fin 4) → Prop
  | _, [] => True
  | node, i :: rest => FullNode routes node ∧ HandedOn (node ++ [i]) rest

def Pushes (node : List (Fin 4)) : Prop :=
  InnerNode routes node ∧ (stored routes node).subNet ≠ 0

/-- What the node at `other` below `top` is handed comes to the one at `path`: it lies
above, or beside it where it is still handed the same node, later only if `path` is too. -/
def ComesTo : List (Fin 4) → List (Fin 4) → List (Fin 4) → Prop
  | _, _, [] => True
  | _, [], _ :: _ => False
  | top, i :: path, j :: other =>
    if j = i then ComesTo (top ++ [j]) path other
    else HandedOn routes (top ++ [j]) other ∧ (j < i ∨ HandedOn routes (top ++ [i]) path)

def Supplies (node other : List (Fin 4)) : Prop :=
  Pushes routes other ∧ ComesTo routes [] node other

def LastSupplier (node other : List (Fin 4)) : Prop :=
  Supplies routes node other ∧ ∀ another, Supplies routes node another → another ≤ other

end Definitions

section Nodes

variable {routes : List Leaf}

theorem hasNode_iff (node : List (Fin 4)) :
    HasNode routes node ↔ ¬ ((MulPTree.construct routes).sub node).isNull := by
  have found := MulPTree.get?_construct routes node
  rw [Trie.get?_eq_sub] at found
  rw [← Trie.get?_nil_eq_none, found]
  by_cases present : HasNode routes node <;> simp [present]

theorem sub_construct {node : List (Fin 4)} (present : HasNode routes node) :
    ∃ child, (MulPTree.construct routes).sub node = .node (stored routes node) child := by
  have found := MulPTree.get?_construct routes node
  rw [if_pos present] at found
  exact Trie.sub_of_get? found

variable {node : List (Fin 4)} {data : Leaf} {child : Fin 4 → MulPTree}

theorem sub_construct_child (reached : (MulPTree.construct routes).sub node = .node data child)
    (i : Fin 4) : (MulPTree.construct routes).sub (node ++ [i]) = child i := by
  rw [Trie.sub_append, reached, Trie.sub_node_cons, Trie.sub_nil]

theorem sub_construct_data (reached : (MulPTree.construct routes).sub node = .node data child) :
    data = stored routes node := by
  have present : HasNode routes node := (hasNode_iff node).mpr (by simp [reached])
  obtain ⟨child', reached'⟩ := sub_construct present
  exact (Trie.node.inj (reached.symm.trans reached')).1

theorem fullNode_iff (reached : (MulPTree.construct routes).sub node = .node data child) :
    FullNode routes node ↔ ∀ i, ¬ (child i).isNull :=
  forall_congr' fun i => by rw [hasNode_iff, sub_construct_child reached]

theorem innerNode_iff (reached : (MulPTree.construct routes).sub node = .node data child) :
    InnerNode routes node ↔ ¬ ∀ i, (child i).isNull := by
  rw [not_forall]
  exact exists_congr fun i => by rw [hasNode_iff, sub_construct_child reached]

theorem InnerNode.hasNode (inner : InnerNode routes node) : HasNode routes node := by
  obtain ⟨i, below⟩ := inner
  rw [hasNode_iff] at below ⊢
  intro isNull
  rw [Trie.sub_append, Trie.isNull_iff.mp isNull, Trie.sub_null] at below
  exact below rfl

theorem not_innerNode_append (absent : (MulPTree.construct routes).sub node = .null)
    (path : List (Fin 4)) : ¬ InnerNode routes (node ++ path) := by
  intro inner
  refine (hasNode_iff (node ++ path)).mp inner.hasNode ?_
  rw [Trie.sub_append, absent, Trie.sub_null, Trie.isNull_null]

theorem fullAlong_construct (node path : List (Fin 4)) :
    MulPTree.FullAlong ((MulPTree.construct routes).sub node) path ↔ HandedOn routes node path := by
  induction path generalizing node with
  | nil => cases (MulPTree.construct routes).sub node <;> simp [MulPTree.FullAlong, HandedOn]
  | cons i rest ih =>
      cases reached : (MulPTree.construct routes).sub node with
      | null =>
          have bare : ¬ FullNode routes node := fun full =>
            not_innerNode_append reached [] (by simpa using ⟨0, full 0⟩)
          simp [MulPTree.FullAlong, HandedOn, bare]
      | node data child =>
          rw [MulPTree.FullAlong, HandedOn, fullNode_iff reached, ← ih, sub_construct_child reached]

theorem writes_construct (node path : List (Fin 4)) (leaf : Leaf) :
    MulPTree.Writes ((MulPTree.construct routes).sub node) path leaf ↔
      Pushes routes (node ++ path) ∧ leaf = stored routes (node ++ path) ∧
        HandedOn routes node path := by
  induction path generalizing node with
  | nil =>
      cases reached : (MulPTree.construct routes).sub node with
      | null => simp [MulPTree.Writes, Pushes, by simpa using not_innerNode_append reached []]
      | node data child =>
          rw [MulPTree.Writes, List.append_nil, Pushes, HandedOn, innerNode_iff reached,
            sub_construct_data reached]
          tauto
  | cons i rest ih =>
      cases reached : (MulPTree.construct routes).sub node with
      | null => simp [MulPTree.Writes, Pushes, not_innerNode_append reached (i :: rest)]
      | node data child =>
          rw [MulPTree.Writes, HandedOn, fullNode_iff reached, ← sub_construct_child reached, ih,
            List.append_assoc, List.singleton_append]
          tauto

theorem feeds_construct {node path : List (Fin 4)} (inner : InnerNode routes (node ++ path))
    (other : List (Fin 4)) (leaf : Leaf) :
    MulPTree.Feeds ((MulPTree.construct routes).sub node) path other leaf ↔
      Pushes routes (node ++ other) ∧ leaf = stored routes (node ++ other) ∧
        ComesTo routes node path other := by
  induction path generalizing node other with
  | nil =>
      rw [List.append_nil] at inner
      obtain ⟨child, reached⟩ := sub_construct inner.hasNode
      rw [reached]
      cases other with
      | nil => simp [MulPTree.Feeds, ComesTo, Pushes, inner]
      | cons j other => simp [MulPTree.Feeds, ComesTo]
  | cons i rest ih =>
      cases reached : (MulPTree.construct routes).sub node with
      | null => exact absurd inner (not_innerNode_append reached (i :: rest))
      | node data child =>
          have below : InnerNode routes (node ++ [i] ++ rest) := by simpa using inner
          cases other with
          | nil =>
              have here : InnerNode routes node := by
                refine (innerNode_iff reached).mpr fun leaf => ?_
                have absent := Trie.isNull_iff.mp (leaf i)
                rw [← sub_construct_child reached i] at absent
                exact not_innerNode_append absent rest below
              simp [MulPTree.Feeds, ComesTo, Pushes, here, sub_construct_data reached]
          | cons j other =>
              rw [MulPTree.Feeds, ComesTo, ← sub_construct_child reached,
                ← sub_construct_child reached, fullAlong_construct]
              by_cases same : j = i
              · subst same
                rw [if_pos rfl, if_pos rfl, ih below, List.append_assoc, List.singleton_append]
              · rw [if_neg same, if_neg same, writes_construct, List.append_assoc,
                  List.singleton_append]
                tauto

theorem mleafPush_construct_leaf (present : HasNode routes node) (leaf : ¬ InnerNode routes node) :
    (MulPTree.construct routes).mleafPush.sub node = .single (stored routes node) := by
  obtain ⟨child, reached⟩ := sub_construct present
  rw [innerNode_iff reached, not_not] at leaf
  have childless : child = fun _ => .null := funext fun i => Trie.isNull_iff.mp (leaf i)
  rw [childless] at reached
  exact MulPTree.mleafPush_leaf reached

/-- A missing place gets the entry that is written last, if there is any. -/
theorem mleafPush_construct_missing {i : Fin 4} (inner : InnerNode routes node)
    (missing : ¬ HasNode routes (node ++ [i])) :
    ∃ leaf, (MulPTree.construct routes).mleafPush.sub (node ++ [i]) = .single leaf ∧
      ((∀ other, ¬ Supplies routes node other) ∧ leaf = .blank ∨
        ∃ other, LastSupplier routes node other ∧ leaf = stored routes other) := by
  obtain ⟨child, reached⟩ := sub_construct inner.hasNode
  have empty : (child i).isNull := by
    rwa [hasNode_iff, not_not, sub_construct_child reached] at missing
  obtain ⟨leaf, pushed, last⟩ :=
    MulPTree.mleafPush_target reached ((innerNode_iff reached).mp inner) empty
  have feeds : ∀ other leaf, MulPTree.Feeds (MulPTree.construct routes) node other leaf ↔
      Supplies routes node other ∧ leaf = stored routes other := fun other leaf => by
    have whole : InnerNode routes ([] ++ node) := inner
    have below := feeds_construct whole other leaf
    rw [Trie.sub_nil, List.nil_append] at below
    rw [below, Supplies]
    tauto
  refine ⟨leaf, pushed, last.imp (fun none => ⟨fun other supplies => ?_, none.2⟩) ?_⟩
  · exact none.1 other _ ((feeds other _).mpr ⟨supplies, rfl⟩)
  · rintro ⟨other, written, latest⟩
    obtain ⟨supplies, isLeaf⟩ := (feeds other leaf).mp written
    exact ⟨other, ⟨supplies, fun another also =>
      latest another _ ((feeds another _).mpr ⟨also, rfl⟩)⟩, isLeaf⟩

theorem LastSupplier.unique {node first second : List (Fin 4)}
    (one : LastSupplier routes node first) (two : LastSupplier routes node second) :
    first = second :=
  le_antisymm (two.2 first one.1) (one.2 second two.1)

end Nodes

end NetworkLab.Lookup
