import Mathlib.Data.Fintype.Pi
import NetworkLab.Lookup.CvTree

/-!
# Vector compression keeps every lookup

After the push every node has four children or none.  On such a tree the position of a
child among the children of its kind is what `Count` computes, so that both searches
end in the same leaf.
-/
set_option autoImplicit false

namespace NetworkLab.Lookup

open Lib

section Prefixes

theorem le_length_takeWhile_iff {α : Type} (p : α → Bool) (list : List α) (n : Nat) :
    n ≤ (list.takeWhile p).length ↔
      n ≤ list.length ∧ ∀ i (inside : i < list.length), i < n → p list[i] := by
  induction list generalizing n with
  | nil => simp
  | cons x rest ih =>
      cases n with
      | zero => simp
      | succ n =>
          by_cases holds : p x
          · rw [List.takeWhile_cons_of_pos holds, List.length_cons, Nat.add_le_add_iff_right, ih]
            constructor
            · rintro ⟨long, all⟩
              refine ⟨Nat.succ_le_succ long, fun i inside below => ?_⟩
              cases i with
              | zero => exact holds
              | succ i => exact all i (Nat.lt_of_succ_lt_succ inside) (Nat.lt_of_succ_lt_succ below)
            · rintro ⟨long, all⟩
              exact ⟨Nat.le_of_succ_le_succ long, fun i inside below =>
                all (i + 1) (Nat.succ_lt_succ inside) (Nat.succ_lt_succ below)⟩
          · rw [List.takeWhile_cons_of_neg holds]
            simpa using fun _ => ⟨0, by simp, by simp, by simpa using holds⟩

theorem shift_eq {i : Nat} : 31 - UInt32.ofNat i = 32 - UInt32.ofNat (i + 1) := by
  rw [UInt32.ofNat_add]
  grind

theorem bite_ge_iff (leaf : Leaf) (ip : UInt32) :
    leaf.preLen.toNat ≤ bite leaf.subNet leaf.preLen.toNat ip ↔ CVTree.matchesPrefix leaf ip := by
  rw [bite, le_length_takeWhile_iff]
  simp only [CVTree.matchesPrefix, List.all_eq_true, List.mem_range, List.length_range,
    List.getElem_range, shift_eq]
  constructor
  · rintro ⟨-, all⟩ i below
    exact all i (by omega) below
  · intro all
    exact ⟨Nat.le_succ _, fun i _ below => all i below⟩

theorem checkPrefix_eq (this q : Leaf) (ip : UInt32) :
    checkPrefix this q ip = if CVTree.matchesPrefix q ip then q else this := by
  have iff := bite_ge_iff q ip
  by_cases matched : CVTree.matchesPrefix q ip
  · simp [checkPrefix, matched, (iff.mpr matched).not_gt]
  · have short : bite q.subNet q.preLen.toNat ip < q.preLen.toNat :=
      not_le.mp (mt iff.mp matched)
    simp [checkPrefix, matched, short]

end Prefixes

section Shape

variable {δ ε : Type}

def ZeroOrFour (tree : Trie (Fin 4) δ) : Prop :=
  ∀ path, (tree.get? path).isSome →
    (∀ i, tree.get? (path ++ [i]) = none) ∨ ∀ i, (tree.get? (path ++ [i])).isSome

theorem zeroOrFour_node {data : δ} {child : Fin 4 → Trie (Fin 4) δ}
    (here : (∀ i, (child i).isNull) ∨ ∀ i, ¬ (child i).isNull)
    (below : ∀ i, ZeroOrFour (child i)) : ZeroOrFour (.node data child) := by
  intro path present
  cases path with
  | nil =>
      refine here.imp (fun none i => ?_) (fun all i => ?_)
      · simp [Trie.isNull_iff.mp (none i)]
      · simpa [Trie.isSome_get?_nil] using all i
  | cons k rest => exact below k rest present

theorem zeroOrFour_single (data : δ) : ZeroOrFour (.single data : Trie (Fin 4) δ) :=
  zeroOrFour_node (.inl fun _ => rfl) fun _ _ present => by simp at present

theorem ZeroOrFour.here {data : δ} {child : Fin 4 → Trie (Fin 4) δ}
    (shape : ZeroOrFour (.node data child)) :
    (∀ i, (child i).isNull) ∨ ∀ i, ¬ (child i).isNull := by
  refine (shape [] rfl).imp (fun none i => ?_) (fun all i => ?_)
  · have absent : (child i).get? [] = Option.none := none i
    simpa [absent] using (child i).isSome_get?_nil
  · have present : ((child i).get? []).isSome := all i
    simpa [present] using (child i).isSome_get?_nil

theorem ZeroOrFour.child {data : δ} {child : Fin 4 → Trie (Fin 4) δ}
    (shape : ZeroOrFour (.node data child)) (i : Fin 4) : ZeroOrFour (child i) :=
  fun path present => shape (i :: path) present

theorem ZeroOrFour.map {tree : Trie (Fin 4) δ} (shape : ZeroOrFour tree) (f : δ → ε) :
    ZeroOrFour (tree.map f) := by
  induction tree with
  | null => exact fun _ present => by simp [Trie.map] at present
  | node data child ih =>
      refine zeroOrFour_node ?_ fun i => ih i (shape.child i)
      simpa using shape.here

theorem isNull_mleafPushFrom (tree : MulPTree) (node : Nat) (nodes : List Leaf) :
    (MulPTree.mleafPushFrom tree node nodes).1.isNull = tree.isNull := by
  cases tree with
  | null => rfl
  | node data child =>
      simp only [MulPTree.mleafPushFrom]
      split_ifs <;> rfl

theorem mleafPushFrom_shape (tree : MulPTree) (node : Nat) (nodes : List Leaf) :
    ZeroOrFour (MulPTree.mleafPushFrom tree node nodes).1 := by
  induction tree generalizing node nodes with
  | null => exact fun _ present => by simp [MulPTree.mleafPushFrom] at present
  | node data child ih =>
      by_cases leaf : ∀ i, (child i).isNull
      · rw [MulPTree.mleafPushFrom_leaf node nodes leaf]
        exact zeroOrFour_single _
      · obtain ⟨children, after, made, each⟩ := MulPTree.mleafPushFrom_inner data node nodes leaf
          (fun _ t => ¬ t.isNull ∧ ZeroOrFour t)
          (fun i node nodes present =>
            ⟨by simpa [isNull_mleafPushFrom] using present, ih i node nodes⟩)
          (fun _ _ => ⟨by simp, zeroOrFour_single _⟩)
        rw [made]
        exact zeroOrFour_node (.inr fun i => (each i).1) fun i => (each i).2

theorem mleafPush_shape (tree : MulPTree) : ZeroOrFour tree.mleafPush :=
  (mleafPushFrom_shape tree 0 [.blank]).map _

end Shape

section Positions

open CVTree

variable (notLeaf : Fin 4 → Bool) (loc : Fin 4)

theorem childVec_position (child : notLeaf loc) :
    ((List.finRange 4).filter notLeaf)[count notLeaf loc]? = some loc := by
  revert notLeaf loc
  decide

theorem leafVec_position (leaf : notLeaf loc = false) :
    ((List.finRange 4).filter fun i => !notLeaf i)[loc.val - count notLeaf loc]? = some loc := by
  revert notLeaf loc
  decide

theorem length_filter_add_not :
    ((List.finRange 4).filter fun i => !notLeaf i).length +
      ((List.finRange 4).filter notLeaf).length = 4 := by
  revert notLeaf
  decide

end Positions

theorem constructCVTree_full {data : Leaf} {child : Fin 4 → MulPTree}
    (full : ∀ i, ¬ (child i).isNull) :
    CVTree.constructCVTree (.node data child) =
      (true, .node (fun i => !MulPTree.isLeaf (child i))
        (((List.finRange 4).filter fun i => MulPTree.isLeaf (child i)).map fun i =>
          ((child i).get? []).getD .blank)
        ((List.finRange 4).filter fun i => !MulPTree.isLeaf (child i)).length
        fun j => (CVTree.constructCVTree (child
          (((List.finRange 4).filter fun i => !MulPTree.isLeaf (child i)).get j))).2) := by
  have present : ∀ i, (child i).isNull = false := fun i => by simpa using full i
  have others : (fun i => !(child i).isNull && !MulPTree.isLeaf (child i)) =
      fun i => !MulPTree.isLeaf (child i) := by
    simp [present]
  have leaves : (fun i => !(child i).isNull && MulPTree.isLeaf (child i)) =
      fun i => MulPTree.isLeaf (child i) := by
    simp [present]
  have four := length_filter_add_not fun i => !MulPTree.isLeaf (child i)
  simp only [Bool.not_not] at four
  conv_lhs =>
    unfold CVTree.constructCVTree
    dsimp only
  rw [others, leaves, if_neg (not_not.mpr four)]

theorem leafFor_constructCVTree {tree : MulPTree} (shape : ZeroOrFour tree)
    (inner : MulPTree.isLeaf tree = false) (ip : UInt32) (last : Leaf) :
    (CVTree.constructCVTree tree).2.leafFor ip =
      some (tree.walk topPair shiftTwo ip last) := by
  induction tree generalizing ip last with
  | null => cases inner
  | node data child ih =>
      have full : ∀ i, ¬ (child i).isNull :=
        shape.here.resolve_left (by simpa [MulPTree.isLeaf] using inner)
      rw [constructCVTree_full full, Trie.walk]
      by_cases leaf : MulPTree.isLeaf (child (topPair ip))
      · have position := leafVec_position (fun i => !MulPTree.isLeaf (child i)) (topPair ip)
          (by simp [leaf])
        simp only [Bool.not_not] at position
        cases here : child (topPair ip) with
        | null => exact absurd (by rw [here]; rfl) (full (topPair ip))
        | node leafData none =>
            have noChild : ∀ i, (none i).isNull := by simpa [here, MulPTree.isLeaf] using leaf
            simp only [CVTree.leafFor, leaf, Bool.not_true, Bool.false_eq_true, if_false]
            simp [position, here, Trie.walk, Trie.isNull_iff.mp (noChild _)]
      · have position := childVec_position (fun i => !MulPTree.isLeaf (child i)) (topPair ip)
          (by simp [leaf])
        obtain ⟨inside, isChild⟩ := List.getElem?_eq_some_iff.mp position
        have later := ih (topPair ip) (shape.child _) (by simpa using leaf) (shiftTwo ip) data
        simp only [CVTree.leafFor, leaf, Bool.not_false, if_true, inside, dif_pos]
        simpa [isChild] using later

section Construct

theorem isNull_insertFrom (new : Leaf) (nodeIp : UInt32) (preLen : Nat) (tree : MulPTree) :
    (MulPTree.insertFrom new nodeIp preLen tree).isNull = false := by
  match preLen, tree with
  | 0, .null => rfl
  | 0, .node _ _ => rfl
  | 1, .null => rfl
  | 1, .node _ _ => rfl
  | _ + 2, .null => rfl
  | _ + 2, .node _ _ => rfl

/-- A route with a prefix leaves a child below the root and the root's data alone. -/
theorem insert_root (data : Leaf) (child : Fin 4 → MulPTree) {new : Leaf}
    (prefixed : 1 ≤ new.preLen) :
    ∃ child', MulPTree.insert (.node data child) new = .node data child' ∧
      ¬ ∀ i, (child' i).isNull := by
  have positive : 1 ≤ new.preLen.toNat := prefixed
  rw [MulPTree.insert]
  generalize new.preLen.toNat = preLen at positive
  match preLen with
  | 1 =>
      refine ⟨_, rfl, fun empty => ?_⟩
      have here := empty (topPair new.subNet)
      by_cases missing : (child (topPair new.subNet)).isNull <;>
        simp [MulPTree.fillPair, missing] at here
  | preLen + 2 =>
      refine ⟨_, rfl, fun empty => ?_⟩
      simpa [isNull_insertFrom] using empty (topPair new.subNet)

theorem construct_root {routes : List Leaf} (nonempty : routes ≠ [])
    (lengths : ∀ route ∈ routes, 1 ≤ route.preLen) :
    ∃ child, MulPTree.construct routes = .node .blank child ∧ ¬ ∀ i, (child i).isNull := by
  induction routes using List.reverseRecOn with
  | nil => exact absurd rfl nonempty
  | append_singleton routes route ih =>
      have prefixed := lengths route (by simp)
      have before : ∃ child, MulPTree.construct routes = .node .blank child := by
        by_cases empty : routes = []
        · exact ⟨_, by rw [empty]; rfl⟩
        · obtain ⟨child, constructed, -⟩ :=
            ih empty fun route member => lengths route (List.mem_append_left _ member)
          exact ⟨child, constructed⟩
      obtain ⟨child, constructed⟩ := before
      obtain ⟨child', inserted, inner⟩ := insert_root .blank child prefixed
      exact ⟨child', by rw [MulPTree.construct_concat, constructed, inserted], inner⟩

theorem mleafPush_root (data : Leaf) {child : Fin 4 → MulPTree} (inner : ¬ ∀ i, (child i).isNull) :
    ∃ child', MulPTree.mleafPush (.node data child) = .node data child' ∧
      ∀ i, ¬ (child' i).isNull := by
  obtain ⟨children, after, made, each⟩ := MulPTree.mleafPushFrom_inner data 0 [.blank] inner
    (fun _ t => ¬ t.isNull)
    (fun i node nodes present => by simpa [isNull_mleafPushFrom] using present) (by simp)
  refine ⟨fun i => (children i).map (MulPTree.PushedData.read after), ?_, by simpa using each⟩
  simp [MulPTree.mleafPush, made, Trie.map, MulPTree.PushedData.read]

end Construct

/-- On a pushed tree with a blank root the two searches give the same entry. -/
theorem search_constructCVTree {child : Fin 4 → MulPTree}
    (shape : ZeroOrFour (.node .blank child : MulPTree)) (full : ∀ i, ¬ (child i).isNull) (ip : UInt32) :
    (CVTree.constructCVTree (.node .blank child)).2.search ip =
      MulPTree.search (.node .blank child) ip := by
  have inner : MulPTree.isLeaf (.node .blank child : MulPTree) = false := by
    simpa [MulPTree.isLeaf] using ⟨0, by simpa using full 0⟩
  rw [CVTree.search, leafFor_constructCVTree shape inner ip .blank, MulPTree.search,
    checkPrefix_eq]
  rfl

theorem compression_preserves_search (routes : List Leaf) (nonempty : routes ≠ [])
    (lengths : ∀ route ∈ routes, 1 ≤ route.preLen ∧ route.preLen ≤ 32) :
    ZeroOrFour (MulPTree.construct routes).mleafPush ∧
      (CVTree.constructCVTree (MulPTree.construct routes).mleafPush).1 = true ∧
      ∀ ip, ∃ leaf, (MulPTree.construct routes).mleafPush.search ip = some leaf ∧
        (CVTree.constructCVTree (MulPTree.construct routes).mleafPush).2.search ip = some leaf := by
  obtain ⟨child, constructed, inner⟩ :=
    construct_root nonempty fun route member => (lengths route member).1
  obtain ⟨child', pushed, full⟩ := mleafPush_root .blank inner
  have shape := mleafPush_shape (MulPTree.construct routes)
  rw [constructed, pushed] at shape ⊢
  refine ⟨shape, by rw [constructCVTree_full full], fun ip => ⟨_, rfl, ?_⟩⟩
  exact search_constructCVTree shape full ip

def nestedRoutes : List Leaf :=
  [⟨0x40000000, 2, 1⟩, ⟨0x50000000, 4, 2⟩, ⟨0x54000000, 7, 3⟩]

theorem compression_preserves_search_nested :
    ZeroOrFour (MulPTree.construct nestedRoutes).mleafPush ∧
      (CVTree.constructCVTree (MulPTree.construct nestedRoutes).mleafPush).1 = true ∧
      ∀ ip, ∃ leaf, (MulPTree.construct nestedRoutes).mleafPush.search ip = some leaf ∧
        (CVTree.constructCVTree
          (MulPTree.construct nestedRoutes).mleafPush).2.search ip = some leaf :=
  compression_preserves_search nestedRoutes (by decide) (by decide)

end NetworkLab.Lookup
