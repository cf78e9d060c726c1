import NetworkLab.Lookup.Prefixes

/-!
# The trees that a list of routes builds

A node of either tree is there when a route passes through it, and its data is settled
by the list: `lastRoute` for the tree on bits, `stored` for the tree on pairs, where an
odd prefix is kept only by a node that it creates.
-/
set_option autoImplicit false

namespace NetworkLab.Lookup

open Lib

section Bits

def HasBit (routes : List Leaf) (node : List Bool) : Prop :=
  node = [] ∨ ∃ route ∈ routes, node <+: route.key

def lastRoute (routes : List Leaf) (node : List Bool) : Leaf :=
  (routes.reverse.find? fun route => route.key = node).getD .blank

instance (routes : List Leaf) (node : List Bool) : Decidable (HasBit routes node) :=
  inferInstanceAs (Decidable (_ ∨ _))

theorem hasBit_concat (routes : List Leaf) (new : Leaf) (node : List Bool) :
    HasBit (routes ++ [new]) node ↔ HasBit routes node ∨ node <+: new.key := by
  simp [HasBit, or_and_right, exists_or, or_assoc]

theorem lastRoute_concat (routes : List Leaf) (new : Leaf) (node : List Bool) :
    lastRoute (routes ++ [new]) node = if new.key = node then new else lastRoute routes node := by
  by_cases same : new.key = node <;> simp [lastRoute, same]

theorem lastRoute_eq_blank {routes : List Leaf} {node : List Bool}
    (absent : ∀ route ∈ routes, route.key ≠ node) : lastRoute routes node = .blank := by
  have none : routes.reverse.find? (fun route => route.key = node) = none :=
    List.find?_eq_none.mpr fun route member => by simpa using absent route (by simpa using member)
  rw [lastRoute, none]
  rfl

theorem lastRoute_mem {routes : List Leaf} {node : List Bool}
    (present : ∃ route ∈ routes, route.key = node) :
    lastRoute routes node ∈ routes ∧ (lastRoute routes node).key = node := by
  obtain ⟨route, member, same⟩ := present
  have found : (routes.reverse.find? fun route => route.key = node).isSome :=
    List.find?_isSome.mpr ⟨route, by simpa using member, by simpa using same⟩
  obtain ⟨last, isLast⟩ := Option.isSome_iff_exists.mp found
  rw [lastRoute, isLast]
  exact ⟨by simpa using List.mem_of_find?_eq_some isLast, by simpa using List.find?_some isLast⟩

theorem PTree.get?_chain (new : Leaf) (ip : UInt32) (n : Nat) (node : List Bool) :
    (PTree.chain new ip n).get? node =
      if node = bits n ip then some new
      else if node <+: bits n ip then some .blank
      else none := by
  induction n generalizing ip node with
  | zero =>
      cases node with
      | nil => rfl
      | cons b rest => simp [PTree.chain, Trie.single, bits, Trie.path]
  | succ n ih =>
      have first : bits (n + 1) ip = topBit ip :: bits n (shiftOne ip) := rfl
      cases node with
      | nil => simp [PTree.chain, first]
      | cons b rest =>
          by_cases same : b = topBit ip
          · subst same
            simp [PTree.chain, first, ih, List.cons_prefix_cons]
          · simp [PTree.chain, first, same, List.cons_prefix_cons]

theorem PTree.get?_insertFrom (new : Leaf) (ip : UInt32) (n : Nat) (tree : PTree) (node : List Bool) :
    (PTree.insertFrom new ip n tree).get? node =
      if node = bits n ip then some new
      else if node <+: bits n ip then some ((tree.get? node).getD .blank)
      else tree.get? node := by
  induction n generalizing ip tree node with
  | zero =>
      cases node with
      | nil => cases tree <;> rfl
      | cons b rest => cases tree <;> simp [PTree.insertFrom, Trie.single, bits, Trie.path]
  | succ n ih =>
      have first : bits (n + 1) ip = topBit ip :: bits n (shiftOne ip) := rfl
      cases tree with
      | null => simp [PTree.insertFrom, PTree.get?_chain]
      | node data child =>
          cases node with
          | nil => simp [PTree.insertFrom, first]
          | cons b rest =>
              by_cases same : b = topBit ip
              · subst same
                simp [PTree.insertFrom, first, ih, List.cons_prefix_cons]
              · simp [PTree.insertFrom, first, same, List.cons_prefix_cons]

theorem PTree.get?_construct (routes : List Leaf) (node : List Bool) :
    (PTree.construct routes).get? node =
      if HasBit routes node then some (lastRoute routes node) else none := by
  induction routes using List.reverseRecOn with
  | nil =>
      cases node with
      | nil => simp [PTree.construct, Trie.single, HasBit, lastRoute]
      | cons b rest => simp [PTree.construct, Trie.single, HasBit]
  | append_singleton routes new ih =>
      rw [PTree.construct_concat, PTree.insert, PTree.get?_insertFrom, ih, lastRoute_concat]
      change (if node = new.key then _ else if node <+: new.key then _ else _) = _
      simp only [hasBit_concat]
      by_cases same : node = new.key
      · simp [same]
      by_cases passed : node <+: new.key
      · by_cases before : HasBit routes node
        · simp [same, Ne.symm same, passed, before]
        · have absent : lastRoute routes node = .blank := lastRoute_eq_blank fun route member found =>
            before (.inr ⟨route, member, found ▸ List.prefix_rfl⟩)
          simp [same, Ne.symm same, passed, before, absent]
      · simp [same, Ne.symm same, passed]

end Bits

section Pairs

/-- The route makes this node if it is missing: the node lies on its prefix, or an odd
prefix ends one bit above it. -/
def Leaf.Reaches (route : Leaf) (node : List (Fin 4)) : Prop :=
  flat node <+: route.key ∨ node ≠ [] ∧ (flat node).dropLast = route.key

instance (route : Leaf) (node : List (Fin 4)) : Decidable (route.Reaches node) :=
  inferInstanceAs (Decidable (_ ∨ _))

def HasNode (routes : List Leaf) (node : List (Fin 4)) : Prop :=
  node = [] ∨ ∃ route ∈ routes, route.Reaches node

instance (routes : List Leaf) (node : List (Fin 4)) : Decidable (HasNode routes node) :=
  inferInstanceAs (Decidable (_ ∨ _))

/-- The data of a node: the last route with exactly its prefix, or else the odd route that
made the node. -/
def stored (routes : List Leaf) (node : List (Fin 4)) : Leaf :=
  match routes.reverse.find? fun route => route.key = flat node with
  | some route => route
  | none =>
    match routes.find? fun route => route.Reaches node with
    | some route => if (flat node).dropLast = route.key then route else .blank
    | none => .blank

theorem hasNode_concat (routes : List Leaf) (new : Leaf) (node : List (Fin 4)) :
    HasNode (routes ++ [new]) node ↔ HasNode routes node ∨ new.Reaches node := by
  simp [HasNode, or_and_right, exists_or, or_assoc]

theorem stored_of_key {routes : List Leaf} {node : List (Fin 4)}
    (present : ∃ route ∈ routes, route.key = flat node) :
    stored routes node = lastRoute routes (flat node) := by
  obtain ⟨route, member, same⟩ := present
  have found : (routes.reverse.find? fun route => route.key = flat node).isSome :=
    List.find?_isSome.mpr ⟨route, by simpa using member, by simpa using same⟩
  obtain ⟨last, isLast⟩ := Option.isSome_iff_exists.mp found
  rw [stored, lastRoute, isLast]
  rfl

theorem stored_of_no_key {routes : List Leaf} {node : List (Fin 4)}
    (absent : ∀ route ∈ routes, route.key ≠ flat node) :
    stored routes node =
      match routes.find? fun route => route.Reaches node with
      | some route => if (flat node).dropLast = route.key then route else .blank
      | none => .blank := by
  have none : routes.reverse.find? (fun route => route.key = flat node) = none :=
    List.find?_eq_none.mpr fun route member => by simpa using absent route (by simpa using member)
  rw [stored, none]

/-- No route has exactly the prefix of the node, and the first one to reach it is this one, whose
odd prefix ends a bit above it. -/
def MadeByOdd (routes : List Leaf) (node : List (Fin 4)) (route : Leaf) : Prop :=
  (∀ other ∈ routes, other.key ≠ flat node) ∧
    routes.find? (fun other => other.Reaches node) = some route ∧
    (flat node).dropLast = route.key

instance (routes : List Leaf) (node : List (Fin 4)) (route : Leaf) :
    Decidable (MadeByOdd routes node route) :=
  inferInstanceAs (Decidable (_ ∧ _))

theorem MadeByOdd.stored {routes : List Leaf} {node : List (Fin 4)} {route : Leaf}
    (made : MadeByOdd routes node route) : stored routes node = route := by
  obtain ⟨absent, first, odd⟩ := made
  rw [stored_of_no_key absent, first]
  exact if_pos odd

theorem MadeByOdd.ne_nil {routes : List Leaf} {node : List (Fin 4)} {route : Leaf}
    (made : MadeByOdd routes node route) : node ≠ [] := by
  rintro rfl
  obtain ⟨absent, first, odd⟩ := made
  exact absent route (List.mem_of_find?_eq_some first) odd.symm

theorem stored_cases (routes : List Leaf) (node : List (Fin 4)) :
    stored routes node = .blank ∨
      (∃ route ∈ routes, route.key = flat node) ∧
        stored routes node = lastRoute routes (flat node) ∨
      MadeByOdd routes node (stored routes node) := by
  by_cases present : ∃ route ∈ routes, route.key = flat node
  · exact .inr (.inl ⟨present, stored_of_key present⟩)
  have absent : ∀ route ∈ routes, route.key ≠ flat node := fun route member isKey =>
    present ⟨route, member, isKey⟩
  have whole := stored_of_no_key absent
  cases first : routes.find? fun route => route.Reaches node with
  | none =>
    rw [first] at whole
    exact .inl whole
  | some route =>
    rw [first] at whole
    dsimp only at whole
    split_ifs at whole with odd
    · rw [whole]
      exact .inr (.inr ⟨absent, first, odd⟩)
    · exact .inl whole

theorem stored_concat (routes : List Leaf) (new : Leaf) (node : List (Fin 4)) :
    stored (routes ++ [new]) node =
      if new.key = flat node then new
      else if HasNode routes node then stored routes node
      else if node ≠ [] ∧ (flat node).dropLast = new.key then new
      else .blank := by
  by_cases same : new.key = flat node
  · simp [stored, same]
  by_cases present : ∃ route ∈ routes, route.key = flat node
  · obtain ⟨route, member, isKey⟩ := present
    have before : HasNode routes node := .inr ⟨route, member, .inl (isKey ▸ List.prefix_rfl)⟩
    rw [if_neg same, if_pos before, stored_of_key ⟨route, by simp [member], isKey⟩,
      lastRoute_concat, if_neg same, stored_of_key ⟨route, member, isKey⟩]
  have absent : ∀ route ∈ routes, route.key ≠ flat node := fun route member isKey =>
    present ⟨route, member, isKey⟩
  rw [if_neg same, stored_of_no_key absent, stored_of_no_key (by
    simpa [or_imp, forall_and] using ⟨absent, same⟩), List.find?_append]
  cases first : routes.find? fun route => route.Reaches node with
  | some route =>
      have before : HasNode routes node := .inr ⟨route, List.mem_of_find?_eq_some first, by
        simpa using List.find?_some first⟩
      simp [before]
  | none =>
      have unreached : ∀ route ∈ routes, ¬ route.Reaches node := by
        simpa using List.find?_eq_none.mp first
      by_cases empty : node = []
      · subst empty
        have other : ¬ [] = new.key := fun isKey => same isKey.symm
        by_cases reaches : new.Reaches [] <;> simp [HasNode, reaches, other]
      · have missing : ¬ HasNode routes node := by
          rintro (isEmpty | ⟨route, member, reaches⟩)
          · exact empty isEmpty
          · exact unreached route member reaches
        by_cases odd : (flat node).dropLast = new.key
        · have reaches : new.Reaches node := .inr ⟨empty, odd⟩
          simp [missing, empty, odd, reaches]
        · by_cases reaches : new.Reaches node <;> simp [missing, odd, reaches]

theorem stored_mem (routes : List Leaf) (node : List (Fin 4)) :
    stored routes node = .blank ∨ stored routes node ∈ routes ∧
      ((stored routes node).key = flat node ∨ (stored routes node).key = (flat node).dropLast) := by
  rcases stored_cases routes node with blank | ⟨present, isLast⟩ | ⟨-, first, odd⟩
  · exact .inl blank
  · obtain ⟨member, isKey⟩ := lastRoute_mem present
    rw [isLast]
    exact .inr ⟨member, .inl isKey⟩
  · exact .inr ⟨List.mem_of_find?_eq_some first, .inr odd.symm⟩

theorem stored_nil (routes : List Leaf) : stored routes [] = lastRoute routes [] := by
  by_cases present : ∃ route ∈ routes, route.key = []
  · exact stored_of_key present
  have absent : ∀ route ∈ routes, route.key ≠ [] := fun route member isKey =>
    present ⟨route, member, isKey⟩
  rw [stored_of_no_key absent, lastRoute_eq_blank absent]
  cases first : routes.find? fun route => route.Reaches [] with
  | none => rfl
  | some route =>
      have other := absent route (List.mem_of_find?_eq_some first)
      simp [Ne.symm other]

theorem MulPTree.chain_eq (new : Leaf) (ip : UInt32) (n : Nat) :
    MulPTree.chain new ip n = MulPTree.insertFrom new ip n .null := by
  match n with
  | 0 => rfl
  | 1 => rfl
  | _ + 2 => rfl

theorem half_iff (ip : UInt32) (i : Fin 4) :
    i.val / 2 = (topPair ip).val / 2 ↔ decide (2 ≤ i.val) = topBit ip := by
  have head : decide (2 ≤ (topPair ip).val) = topBit ip :=
    (List.cons.inj (flat_topPair ip)).1
  rw [← head, decide_eq_decide]
  omega

theorem MulPTree.get?_fillPair (new : Leaf) (ip : UInt32) (child : Fin 4 → MulPTree) (i : Fin 4)
    (rest : List (Fin 4)) :
    (MulPTree.fillPair new ip child i).get? rest =
      if rest = [] ∧ decide (2 ≤ i.val) = topBit ip then some (((child i).get? []).getD new)
      else (child i).get? rest := by
  simp only [MulPTree.fillPair, half_iff]
  cases here : child i with
  | null => by_cases half : decide (2 ≤ i.val) = topBit ip <;> cases rest <;> simp [half, Trie.single]
  | node data grandchild => cases rest <;> simp

/-- Two more bits of the prefix are one level of the descent, through a node or not. -/
theorem MulPTree.insertFrom_deeper (new : Leaf) (ip : UInt32) (n : Nat) (tree : MulPTree) :
    ∃ child : Fin 4 → MulPTree, MulPTree.insertFrom new ip (n + 2) tree =
        .node ((tree.get? []).getD .blank) (Function.update child (topPair ip)
          (MulPTree.insertFrom new (shiftTwo ip) n (child (topPair ip)))) ∧
      ∀ i rest, (child i).get? rest = tree.get? (i :: rest) := by
  cases tree with
  | null => exact ⟨fun _ => .null, by simp only [← MulPTree.chain_eq]; rfl, fun _ _ => by simp⟩
  | node data child => exact ⟨child, rfl, fun _ _ => rfl⟩

theorem MulPTree.get?_insertFrom (new : Leaf) (ip : UInt32) (n : Nat) (tree : MulPTree)
    (node : List (Fin 4)) :
    (MulPTree.insertFrom new ip n tree).get? node =
      if flat node = bits n ip then some new
      else if flat node <+: bits n ip then some ((tree.get? node).getD .blank)
      else if node ≠ [] ∧ (flat node).dropLast = bits n ip then some ((tree.get? node).getD new)
      else tree.get? node := by
  induction n using Nat.twoStepInduction generalizing ip tree node with
  | zero =>
      cases node with
      | nil => cases tree <;> rfl
      | cons i rest => cases tree <;> simp [MulPTree.insertFrom, Trie.single, bits, Trie.path]
  | one =>
      have first : bits 1 ip = [topBit ip] := rfl
      cases node with
      | nil => cases tree <;> simp [MulPTree.insertFrom, first]
      | cons i rest =>
          cases tree <;> cases rest <;>
            simp [MulPTree.insertFrom, first, MulPTree.get?_fillPair]
  | more n ih _ =>
      have first : bits (n + 2) ip = flat [topPair ip] ++ bits n (shiftTwo ip) := by
        rw [flat_topPair, shiftTwo_eq]
        rfl
      obtain ⟨child, inserted, below⟩ := MulPTree.insertFrom_deeper new ip n tree
      rw [inserted, first]
      cases node with
      | nil => simp
      | cons i rest =>
          by_cases same : i = topPair ip
          · subst same
            cases rest <;> simp [ih, below, List.cons_prefix_cons]
          · have other : (2 ≤ i.val ↔ 2 ≤ (topPair ip).val) →
                ¬ (i.val % 2 = 1 ↔ (topPair ip).val % 2 = 1) :=
              fun upper lower => same (Fin.ext (by omega))
            by_cases upper : 2 ≤ i.val ↔ 2 ≤ (topPair ip).val
            · cases rest <;> simp [same, below, List.cons_prefix_cons, upper, other upper]
            · cases rest <;> simp [same, below, List.cons_prefix_cons, upper]

theorem MulPTree.get?_construct (routes : List Leaf) (node : List (Fin 4)) :
    (MulPTree.construct routes).get? node =
      if HasNode routes node then some (stored routes node) else none := by
  induction routes using List.reverseRecOn with
  | nil =>
      cases node with
      | nil => simp [MulPTree.construct, Trie.single, HasNode, stored]
      | cons i rest => simp [MulPTree.construct, Trie.single, HasNode]
  | append_singleton routes new ih =>
      rw [MulPTree.construct_concat, MulPTree.insert, MulPTree.get?_insertFrom, ih, stored_concat]
      change (if flat node = new.key then _ else if flat node <+: new.key then _ else
        if node ≠ [] ∧ (flat node).dropLast = new.key then _ else _) = _
      simp only [hasNode_concat, Leaf.Reaches]
      by_cases same : flat node = new.key
      · simp [same]
      by_cases before : HasNode routes node
      · by_cases passed : flat node <+: new.key <;> simp [same, Ne.symm same, passed, before]
      · by_cases passed : flat node <+: new.key
        · have notOdd : ¬ (node ≠ [] ∧ (flat node).dropLast = new.key) := by
            rintro ⟨nonempty, odd⟩
            have positive := List.length_pos_iff.mpr nonempty
            have long := passed.length_le
            rw [← odd, List.length_dropLast, length_flat] at long
            omega
          simp [same, Ne.symm same, passed, before, notOdd]
        · by_cases odd : node ≠ [] ∧ (flat node).dropLast = new.key <;>
            simp [same, Ne.symm same, passed, before, odd]

/-! ## Construction twice -/

variable (routes : List Leaf) (node : List (Fin 4))

theorem hasNode_twice : HasNode (routes ++ routes) node ↔ HasNode routes node := by
  simp [HasNode]

/-- The second pass ends with the same last route at every prefix, and the odd route that
made a node is still the first one to come by. -/
theorem stored_twice : stored (routes ++ routes) node = stored routes node := by
  unfold stored
  rw [List.reverse_append, List.find?_append, Option.or_self, List.find?_append, Option.or_self]

/-- `ConstructTree` on a tree that it has already filled leaves it as it is. -/
theorem construct_twice :
    routes.foldl MulPTree.insert (MulPTree.construct routes) = MulPTree.construct routes := by
  have appended : routes.foldl MulPTree.insert (MulPTree.construct routes) =
      MulPTree.construct (routes ++ routes) :=
    List.foldl_append.symm
  rw [appended]
  refine Trie.ext_get? fun node => ?_
  simp only [MulPTree.get?_construct, hasNode_twice, stored_twice]

end Pairs

end NetworkLab.Lookup
