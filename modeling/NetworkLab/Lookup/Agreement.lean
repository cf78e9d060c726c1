import Mathlib.Data.List.Find
import NetworkLab.Lookup.Compression
import NetworkLab.Lookup.PushedRoutes

/-!
# When the three searches agree

The tree on bits returns the entry of the deepest node on the way, blank when no route
ends there; the other two return what the leaf push left, and differ again in what they
return where that does not cover the address.  `SearchesMeet` lists the tables and
addresses for which this comes to the same.
-/
set_option autoImplicit false

namespace NetworkLab.Lookup

open Lib

section Condition

variable (routes : List Leaf)

def firstRoute (node : List Bool) : Leaf :=
  (routes.find? fun route => route.key = node).getD .blank

/-- The way of the address ends in a leaf of the tree on pairs, and an odd prefix that made
this leaf was not repeated with other data. -/
def EndsInLeaf (ip : UInt32) : Prop :=
  ∃ n, HasNode routes (pairs n ip) ∧ ¬ InnerNode routes (pairs n ip) ∧
    ((∃ route ∈ routes, route.key = bits (2 * n) ip) ∨
      firstRoute routes (bits (2 * n - 1) ip) = lastRoute routes (bits (2 * n - 1) ip))

/-- The way of the address leaves both trees at a route of even length, whose entry is the
last that comes to the missing place. -/
def EndsAtRoute (ip : UInt32) : Prop :=
  ∃ n, InnerNode routes (pairs n ip) ∧ ¬ HasBit routes (bits (2 * n + 1) ip) ∧
    (∃ route ∈ routes, route.key = bits (2 * n) ip) ∧
    LastSupplier routes (pairs n ip) (pairs n ip)

/-- The way of the address leaves both trees where no route ends, and nothing comes to the
missing place, or in the end an entry that does not cover the address. -/
def EndsUnserved (ip : UInt32) : Prop :=
  ∃ n, InnerNode routes (pairs n ip) ∧ ¬ HasNode routes (pairs (n + 1) ip) ∧
    (HasBit routes (bits (2 * n + 1) ip) ∨ lastRoute routes (bits (2 * n) ip) = .blank) ∧
    ((∀ other, ¬ Supplies routes (pairs n ip) other) ∨
      lastRoute routes [] = .blank ∧
        ∃ other, LastSupplier routes (pairs n ip) other ∧ ¬ (stored routes other).Covers ip)

def SearchesMeet (ip : UInt32) : Prop :=
  (∃ route ∈ routes, route.preLen ≠ 0) ∧
    (EndsInLeaf routes ip ∨ EndsAtRoute routes ip ∨ EndsUnserved routes ip)

end Condition

section Ends

variable {routes : List Leaf}

theorem innerNode_of_longer {route : Leaf} {n : Nat} {ip : UInt32} (member : route ∈ routes)
    (passes : bits (2 * n) ip <+: route.key) (longer : 2 * n < route.key.length) :
    InnerNode routes (pairs n ip) := by
  have onWay : bits (2 * n) ip = bits (2 * n) route.subNet := by
    simpa using eq_bits_of_prefix passes
  have sameNode : pairs n ip = pairs n route.subNet :=
    flat_inj (by rw [flat_pairs, flat_pairs, onWay])
  refine ⟨topPair (shiftTwo^[n] route.subNet), .inr ⟨route, member, ?_⟩⟩
  rw [sameNode, ← pairs_succ]
  rw [length_key] at longer
  by_cases even : 2 * (n + 1) ≤ route.preLen.toNat
  · left
    rw [flat_pairs]
    exact bits_prefix_of_le even route.subNet
  · right
    have odd : route.preLen.toNat = 2 * n + 1 := by omega
    refine ⟨by simp [pairs_succ], ?_⟩
    rw [flat_pairs, Leaf.key, odd]
    exact dropLast_bits (2 * n + 1) route.subNet

theorem innerNode_nil (prefixed : ∃ route ∈ routes, route.preLen ≠ 0) : InnerNode routes [] := by
  obtain ⟨route, member, nonzero⟩ := prefixed
  have positive : route.preLen.toNat ≠ 0 := fun zero => nonzero (UInt8.toNat_inj.mp zero)
  have passes : bits (2 * 0) route.subNet <+: route.key := List.nil_prefix
  exact innerNode_of_longer member passes (by rw [length_key]; omega)

theorem hasBit_of_hasNode {n : Nat} {ip : UInt32} (present : HasNode routes (pairs (n + 1) ip)) :
    HasBit routes (bits (2 * n + 1) ip) := by
  rcases present with isEmpty | ⟨route, member, passes | ⟨-, odd⟩⟩
  · simp [pairs_succ] at isEmpty
  · rw [flat_pairs] at passes
    exact .inr ⟨route, member, (bits_prefix_of_le (by omega) ip).trans passes⟩
  · rw [flat_pairs, Nat.mul_succ, dropLast_bits] at odd
    exact .inr ⟨route, member, odd ▸ List.prefix_rfl⟩

theorem hasNode_of_hasBit {n : Nat} {ip : UInt32} (found : HasBit routes (bits (2 * n) ip)) :
    HasNode routes (pairs n ip) := by
  rcases found with isEmpty | ⟨route, member, passes⟩
  · have zero : n = 0 := by simpa using congrArg List.length isEmpty
    exact .inl (by rw [zero]; rfl)
  · exact .inr ⟨route, member, .inl (by rwa [flat_pairs])⟩

theorem InnerNode.hasBit {n : Nat} {ip : UInt32} (inner : InnerNode routes (pairs n ip)) :
    HasBit routes (bits (2 * n) ip) := by
  obtain ⟨i, isEmpty | ⟨route, member, reaches⟩⟩ := inner
  · simp at isEmpty
  · refine .inr ⟨route, member, ?_⟩
    rw [Leaf.Reaches, flat_append, flat_pairs] at reaches
    rcases reaches with passes | ⟨-, odd⟩
    · exact (List.prefix_append _ _).trans passes
    · rw [← odd, List.dropLast_append_of_ne_nil (by simp)]
      exact List.prefix_append _ _

/-- The last bit of the way, where it leaves the tree on pairs below an inner node. -/
theorem bit_of_missing {n : Nat} {ip : UInt32} (inner : InnerNode routes (pairs n ip))
    (missing : ¬ HasNode routes (pairs (n + 1) ip)) :
    ∃ k, HasBit routes (bits k ip) ∧ ¬ HasBit routes (bits (k + 1) ip) ∧
      (HasBit routes (bits (2 * n + 1) ip) ∧ lastRoute routes (bits k ip) = .blank ∨
        ¬ HasBit routes (bits (2 * n + 1) ip) ∧ k = 2 * n) := by
  by_cases half : HasBit routes (bits (2 * n + 1) ip)
  · refine ⟨2 * n + 1, half, fun found => missing (hasNode_of_hasBit found), .inl ⟨half, ?_⟩⟩
    refine lastRoute_eq_blank fun route member isKey => missing (.inr ⟨route, member, .inr ⟨?_, ?_⟩⟩)
    · simp [pairs_succ]
    · rw [flat_pairs, isKey]
      exact dropLast_bits (2 * n + 1) ip
  · exact ⟨2 * n, inner.hasBit, half, .inr ⟨half, rfl⟩⟩

end Ends

section Searches

variable {routes : List Leaf} {ip : UInt32}

theorem firstRoute_mem {node : List Bool} (present : ∃ route ∈ routes, route.key = node) :
    firstRoute routes node ∈ routes ∧ (firstRoute routes node).key = node := by
  obtain ⟨route, member, same⟩ := present
  have found : (routes.find? fun route => route.key = node).isSome :=
    List.find?_isSome.mpr ⟨route, member, by simpa using same⟩
  obtain ⟨first, isFirst⟩ := Option.isSome_iff_exists.mp found
  rw [firstRoute, isFirst]
  exact ⟨List.mem_of_find?_eq_some isFirst, by simpa using List.find?_some isFirst⟩

theorem matchesPrefix_blank (ip : UInt32) : CVTree.matchesPrefix .blank ip := rfl

theorem matchesPrefix_of_key {route : Leaf} (short : route.preLen ≤ 32) {n : Nat}
    (isKey : route.key = bits n ip) : CVTree.matchesPrefix route ip := by
  have le : n ≤ 32 := by
    have long := congrArg List.length isKey
    rw [length_key, length_bits] at long
    exact long ▸ short
  rw [matchesPrefix_iff short, Leaf.Covers, isKey]
  exact bits_prefix_of_le le ip

theorem matchesPrefix_lastRoute (short : ∀ route ∈ routes, route.preLen ≤ 32) (n : Nat)
    (ip : UInt32) : CVTree.matchesPrefix (lastRoute routes (bits n ip)) ip := by
  by_cases present : ∃ route ∈ routes, route.key = bits n ip
  · obtain ⟨member, isKey⟩ := lastRoute_mem present
    exact matchesPrefix_of_key (short _ member) isKey
  · rw [lastRoute_eq_blank fun route member isKey => present ⟨route, member, isKey⟩]
    exact matchesPrefix_blank ip

theorem PTree.search_construct (short : ∀ route ∈ routes, route.preLen ≤ 32) {n : Nat}
    {ip : UInt32} (found : HasBit routes (bits n ip)) (ends : ¬ HasBit routes (bits (n + 1) ip)) :
    (PTree.construct routes).search ip = some (lastRoute routes (bits n ip)) := by
  have here := PTree.get?_construct routes (bits n ip)
  have below := PTree.get?_construct routes (bits (n + 1) ip)
  rw [if_pos found] at here
  rw [if_neg ends] at below
  cases tree : PTree.construct routes with
  | null => simp [tree] at here
  | node this child =>
      rw [tree] at here below
      have reached : (Trie.node this child).walk topBit shiftOne ip this =
          lastRoute routes (bits n ip) := Trie.walk_of_get? topBit shiftOne here below
      rw [PTree.search, checkPrefix_eq, reached, if_pos (matchesPrefix_lastRoute short n ip)]

/-- The root keeps its own entry, with or without nodes below it. -/
theorem mleafPush_construct_root (routes : List Leaf) :
    ∃ child, (MulPTree.construct routes).mleafPush = .node (lastRoute routes []) child := by
  have root : HasNode routes [] := .inl rfl
  by_cases inner : InnerNode routes []
  · obtain ⟨child, isRoot⟩ := sub_construct root
    rw [innerNode_iff isRoot] at inner
    rw [Trie.sub_nil, stored_nil] at isRoot
    obtain ⟨child', made, -⟩ := mleafPush_root (lastRoute routes []) inner
    exact ⟨child', isRoot ▸ made⟩
  · have pushed := mleafPush_construct_leaf root inner
    rw [Trie.sub_nil, stored_nil] at pushed
    exact ⟨_, pushed⟩

theorem walk_construct {n : Nat} {leaf : Leaf} (last : Leaf)
    (pushed : (MulPTree.construct routes).mleafPush.sub (pairs n ip) = .single leaf) :
    (MulPTree.construct routes).mleafPush.walk topPair shiftTwo ip last = leaf := by
  refine Trie.walk_of_get? topPair shiftTwo (n := n) ?_ ?_
  · rw [Trie.get?_eq_sub]
    exact congrArg (Trie.get? · []) pushed
  · rw [Trie.path_succ, Trie.get?_append]
    exact congrArg (Trie.get? · _) pushed

theorem MulPTree.search_construct {n : Nat} {leaf : Leaf}
    (pushed : (MulPTree.construct routes).mleafPush.sub (pairs n ip) = .single leaf) :
    (MulPTree.construct routes).mleafPush.search ip =
      some (if CVTree.matchesPrefix leaf ip then leaf else lastRoute routes []) := by
  obtain ⟨child, made⟩ := mleafPush_construct_root routes
  have walked := walk_construct (lastRoute routes []) pushed
  rw [made] at walked ⊢
  rw [MulPTree.search, checkPrefix_eq, walked]

theorem CVTree.search_construct (prefixed : ∃ route ∈ routes, route.preLen ≠ 0) {n : Nat}
    {leaf : Leaf}
    (pushed : (MulPTree.construct routes).mleafPush.sub (pairs n ip) = .single leaf) :
    (CVTree.constructCVTree (MulPTree.construct routes).mleafPush).2.search ip =
      some (if CVTree.matchesPrefix leaf ip then leaf else .blank) := by
  have innerRoot := innerNode_nil prefixed
  obtain ⟨child, isRoot⟩ := sub_construct innerRoot.hasNode
  rw [innerNode_iff isRoot] at innerRoot
  rw [Trie.sub_nil, stored_nil] at isRoot
  obtain ⟨child', made, full⟩ := mleafPush_root (lastRoute routes []) innerRoot
  have shape := mleafPush_shape (MulPTree.construct routes)
  have walked := walk_construct (lastRoute routes []) pushed
  rw [isRoot, made] at shape walked ⊢
  have inner : MulPTree.isLeaf (.node (lastRoute routes []) child' : MulPTree) = false := by
    simpa [MulPTree.isLeaf] using ⟨0, by simpa using full 0⟩
  rw [CVTree.search, leafFor_constructCVTree shape inner ip (lastRoute routes []), walked]
  rfl

/-- Without a prefix there is only the root, and the compressed tree has no leaf to read. -/
theorem search_constructCVTree_bare (bare : ∀ route ∈ routes, route.preLen = 0) :
    (CVTree.constructCVTree (MulPTree.construct routes).mleafPush).2.search ip = none := by
  have lone : ¬ InnerNode routes [] := by
    rintro ⟨i, isEmpty | ⟨route, member, reaches⟩⟩
    · cases isEmpty
    · have short : route.key = [] := by
        rw [Leaf.key, bare route member]
        rfl
      rcases reaches with passes | ⟨-, odd⟩
      · simp [short] at passes
      · simp [short] at odd
  have root : HasNode routes [] := .inl rfl
  have pushed := mleafPush_construct_leaf root lone
  rw [Trie.sub_nil] at pushed
  rw [pushed]
  rfl

end Searches

section Agreement

variable {routes : List Leaf} {ip : UInt32}

/-- The three searches return this entry. -/
def Agree (routes : List Leaf) (ip : UInt32) (leaf : Leaf) : Prop :=
  (PTree.construct routes).search ip = some leaf ∧
    (MulPTree.construct routes).mleafPush.search ip = some leaf ∧
    (CVTree.constructCVTree (MulPTree.construct routes).mleafPush).2.search ip = some leaf

theorem agree_iff (short : ∀ route ∈ routes, route.preLen ≤ 32)
    (prefixed : ∃ route ∈ routes, route.preLen ≠ 0) {n k : Nat} {leaf : Leaf}
    (pushed : (MulPTree.construct routes).mleafPush.sub (pairs n ip) = .single leaf)
    (found : HasBit routes (bits k ip)) (ends : ¬ HasBit routes (bits (k + 1) ip)) :
    (∃ entry, Agree routes ip entry) ↔
      if CVTree.matchesPrefix leaf ip then leaf = lastRoute routes (bits k ip)
      else lastRoute routes [] = .blank ∧ lastRoute routes (bits k ip) = .blank := by
  unfold Agree
  rw [PTree.search_construct short found ends, MulPTree.search_construct pushed,
    CVTree.search_construct prefixed pushed]
  split_ifs with covers
  · simp
  · simp only [Option.some.injEq]
    constructor
    · rintro ⟨entry, rfl, sameRoot, sameBlank⟩
      exact ⟨sameRoot.trans sameBlank.symm, sameBlank.symm⟩
    · rintro ⟨rootBlank, hereBlank⟩
      exact ⟨.blank, hereBlank, rootBlank, rfl⟩

section Leaf

variable {n : Nat} (leaf : ¬ InnerNode routes (pairs n ip))
include leaf

theorem key_of_leaf {route : Leaf} (member : route ∈ routes)
    (passes : bits (2 * n) ip <+: route.key) : route.key = bits (2 * n) ip := by
  by_contra other
  refine leaf (innerNode_of_longer member passes ?_)
  have long := passes.length_le
  rw [length_bits] at long
  refine lt_of_le_of_ne long fun same => other ?_
  exact (passes.eq_of_length (by rw [length_bits, same])).symm

theorem ends_of_leaf : ¬ HasBit routes (bits (2 * n + 1) ip) := by
  rintro (isEmpty | ⟨route, member, passes⟩)
  · simpa using congrArg List.length isEmpty
  · have isKey := key_of_leaf leaf member ((bits_prefix_of_le (by omega) ip).trans passes)
    have long := passes.length_le
    rw [isKey, length_bits, length_bits] at long
    omega

/-- A leaf without a route of its own was made by an odd one. -/
theorem odd_of_leaf (notRoot : n ≠ 0) (present : HasNode routes (pairs n ip))
    (absent : ¬ ∃ route ∈ routes, route.key = bits (2 * n) ip) :
    ∃ k, 2 * n = k + 1 ∧ (∃ route ∈ routes, route.key = bits k ip) ∧
      stored routes (pairs n ip) = firstRoute routes (bits k ip) := by
  obtain ⟨k, even⟩ : ∃ k, 2 * n = k + 1 := ⟨2 * n - 1, by omega⟩
  have nonempty : pairs n ip ≠ [] := by
    rw [← List.length_pos_iff, pairs, Trie.length_path]
    omega
  have reaches : ∀ route ∈ routes, (route.Reaches (pairs n ip) ↔ route.key = bits k ip) := by
    intro route member
    rw [Leaf.Reaches, flat_pairs, even, dropLast_bits]
    refine ⟨?_, fun isKey => .inr ⟨nonempty, isKey.symm⟩⟩
    rintro (passes | ⟨-, odd⟩)
    · rw [← even] at passes
      exact absurd ⟨route, member, key_of_leaf leaf member passes⟩ absent
    · exact odd.symm
  refine ⟨k, even, ?_, ?_⟩
  · rcases present with isEmpty | ⟨route, member, passes⟩
    · exact absurd isEmpty nonempty
    · exact ⟨route, member, (reaches route member).mp passes⟩
  · rw [stored_of_no_key (by
      rw [flat_pairs]
      exact fun route member isKey => absent ⟨route, member, isKey⟩)]
    have same : routes.find? (fun route => route.Reaches (pairs n ip)) =
        routes.find? fun route => route.key = bits k ip :=
      List.find?_congr fun route member => decide_eq_decide.mpr (reaches route member)
    rw [same, firstRoute, flat_pairs, even, dropLast_bits]
    cases found : routes.find? fun route => route.key = bits k ip with
    | none => rfl
    | some route =>
        have isKey : route.key = bits k ip := by simpa using List.find?_some found
        simp [isKey]

theorem agree_leaf_iff (short : ∀ route ∈ routes, route.preLen ≤ 32)
    (prefixed : ∃ route ∈ routes, route.preLen ≠ 0) (present : HasNode routes (pairs n ip)) :
    (∃ entry, Agree routes ip entry) ↔
      (∃ route ∈ routes, route.key = bits (2 * n) ip) ∨
        firstRoute routes (bits (2 * n - 1) ip) = lastRoute routes (bits (2 * n - 1) ip) := by
  have pushed := mleafPush_construct_leaf present leaf
  by_cases even : ∃ route ∈ routes, route.key = bits (2 * n) ip
  · have found : HasBit routes (bits (2 * n) ip) := by
      obtain ⟨route, member, isKey⟩ := even
      exact .inr ⟨route, member, isKey ▸ List.prefix_rfl⟩
    rw [stored_of_key (by rwa [flat_pairs]), flat_pairs] at pushed
    rw [agree_iff short prefixed pushed found (ends_of_leaf leaf),
      if_pos (matchesPrefix_lastRoute short (2 * n) ip)]
    simp [even]
  · have notRoot : n ≠ 0 := by
      rintro rfl
      exact leaf (innerNode_nil prefixed)
    obtain ⟨k, odd, ⟨route, member, isKey⟩, isStored⟩ := odd_of_leaf leaf notRoot present even
    have found : HasBit routes (bits k ip) := .inr ⟨route, member, isKey ▸ List.prefix_rfl⟩
    have ends : ¬ HasBit routes (bits (k + 1) ip) := by
      rw [← odd]
      rintro (isEmpty | ⟨route, member, passes⟩)
      · rw [odd] at isEmpty
        simpa using congrArg List.length isEmpty
      · exact even ⟨route, member, key_of_leaf leaf member passes⟩
    rw [isStored] at pushed
    obtain ⟨firstMember, firstKey⟩ := firstRoute_mem ⟨route, member, isKey⟩
    rw [agree_iff short prefixed pushed found ends, odd, Nat.add_sub_cancel]
    rw [if_pos (matchesPrefix_of_key (short _ firstMember) firstKey)]
    have absent : ¬ ∃ route ∈ routes, route.key = bits (k + 1) ip := odd ▸ even
    simp [absent]

end Leaf

section Missing

variable {n : Nat} {other : List (Fin 4)}

theorem stored_ne_blank (last : LastSupplier routes (pairs n ip) other) :
    stored routes other ≠ .blank := by
  intro blank
  refine last.1.1.2 ?_
  rw [blank]
  rfl

theorem stored_self (route : ∃ route ∈ routes, route.key = bits (2 * n) ip)
    (last : LastSupplier routes (pairs n ip) (pairs n ip))
    (same : LastSupplier routes (pairs n ip) other) :
    stored routes other = lastRoute routes (bits (2 * n) ip) := by
  rw [← last.unique same, stored_of_key (by rwa [flat_pairs]), flat_pairs]

/-- Only the node itself supplies the entry of the last route that ends at it. -/
theorem supplier_self (last : LastSupplier routes (pairs n ip) other)
    (same : stored routes other = lastRoute routes (bits (2 * n) ip)) :
    (∃ route ∈ routes, route.key = bits (2 * n) ip) ∧
      LastSupplier routes (pairs n ip) (pairs n ip) := by
  have nonblank := stored_ne_blank last
  have present : ∃ route ∈ routes, route.key = bits (2 * n) ip := by
    by_contra absent
    refine nonblank (same.trans (lastRoute_eq_blank fun route member isKey => ?_))
    exact absent ⟨route, member, isKey⟩
  have isKey := (lastRoute_mem present).2
  rw [← same] at isKey
  have here : other = pairs n ip := by
    obtain ⟨-, even | odd⟩ := (stored_mem routes other).resolve_left nonblank
    · rw [isKey, ← flat_pairs] at even
      exact (flat_inj even).symm
    · have lengths := congrArg List.length (isKey.symm.trans odd)
      rw [length_bits, List.length_dropLast, length_flat] at lengths
      have zero : n = 0 ∧ other.length = 0 := by omega
      obtain ⟨rfl, empty⟩ := zero
      exact List.length_eq_zero_iff.mp empty
  exact ⟨present, here ▸ last⟩

theorem agree_missing_iff (short : ∀ route ∈ routes, route.preLen ≤ 32)
    (prefixed : ∃ route ∈ routes, route.preLen ≠ 0) (inner : InnerNode routes (pairs n ip))
    (missing : ¬ HasNode routes (pairs (n + 1) ip)) :
    (∃ entry, Agree routes ip entry) ↔
      (¬ HasBit routes (bits (2 * n + 1) ip) ∧ (∃ route ∈ routes, route.key = bits (2 * n) ip) ∧
        LastSupplier routes (pairs n ip) (pairs n ip)) ∨
      ((HasBit routes (bits (2 * n + 1) ip) ∨ lastRoute routes (bits (2 * n) ip) = .blank) ∧
        ((∀ other, ¬ Supplies routes (pairs n ip) other) ∨
          lastRoute routes [] = .blank ∧
            ∃ other, LastSupplier routes (pairs n ip) other ∧ ¬ (stored routes other).Covers ip)) := by
  obtain ⟨k, found, ends, last⟩ := bit_of_missing inner missing
  rw [pairs_succ] at missing
  obtain ⟨leaf, pushed, written⟩ := mleafPush_construct_missing inner missing
  rw [← pairs_succ] at pushed
  rw [agree_iff short prefixed pushed found ends]
  have unserved : HasBit routes (bits (2 * n + 1) ip) ∨ lastRoute routes (bits (2 * n) ip) = .blank ↔
      lastRoute routes (bits k ip) = .blank := by
    rcases last with ⟨half, blank⟩ | ⟨whole, rfl⟩
    · simp [half, blank]
    · simp [whole]
  rw [unserved]
  rcases written with ⟨silent, rfl⟩ | ⟨other, supplied, rfl⟩
  · have unsupplied : ¬ LastSupplier routes (pairs n ip) (pairs n ip) := fun self => silent _ self.1
    rw [if_pos (matchesPrefix_blank ip)]
    simp [silent, unsupplied, eq_comm]
  have nonblank := stored_ne_blank supplied
  have shortLeaf : (stored routes other).preLen ≤ 32 :=
    short _ ((stored_mem routes other).resolve_left nonblank).1
  have apart : (∃ other, LastSupplier routes (pairs n ip) other ∧ ¬ (stored routes other).Covers ip) ↔
      ¬ CVTree.matchesPrefix (stored routes other) ip := by
    rw [matchesPrefix_iff shortLeaf]
    refine ⟨?_, fun uncovered => ⟨other, supplied, uncovered⟩⟩
    rintro ⟨another, also, uncovered⟩
    rwa [supplied.unique also]
  rw [apart]
  by_cases meets : CVTree.matchesPrefix (stored routes other) ip
  · rw [if_pos meets]
    constructor
    · intro same
      obtain ⟨-, blank⟩ | ⟨whole, rfl⟩ := last
      · exact absurd (same.trans blank) nonblank
      · exact .inl ⟨whole, supplier_self supplied same⟩
    · rintro (⟨whole, route, self⟩ | ⟨-, silent | ⟨-, uncovered⟩⟩)
      · obtain ⟨half, -⟩ | ⟨-, rfl⟩ := last
        · exact absurd half whole
        · exact stored_self route self supplied
      · exact absurd supplied.1 (silent other)
      · exact absurd meets uncovered
  · rw [if_neg meets]
    constructor
    · rintro ⟨rootBlank, here⟩
      exact .inr ⟨here, .inr ⟨rootBlank, meets⟩⟩
    · rintro (⟨-, route, self⟩ | ⟨here, silent | ⟨rootBlank, -⟩⟩)
      · rw [stored_self route self supplied] at meets
        exact absurd (matchesPrefix_lastRoute short (2 * n) ip) meets
      · exact absurd supplied.1 (silent other)
      · exact ⟨rootBlank, here⟩

end Missing

theorem exists_last {P : Nat → Prop} {bound : Nat} (start : P 0) (ends : ¬ P bound) :
    ∃ n, P n ∧ ¬ P (n + 1) := by
  by_contra endless
  have all : ∀ n, P n := by
    intro n
    induction n with
    | zero => exact start
    | succ n ih => exact not_not.mp fun last => endless ⟨n, ih, last⟩
  exact ends (all bound)

theorem not_hasBit (short : ∀ route ∈ routes, route.preLen ≤ 32) {n : Nat} (long : 32 < n)
    (ip : UInt32) : ¬ HasBit routes (bits n ip) := by
  rintro (isEmpty | ⟨route, member, passes⟩)
  · have length := congrArg List.length isEmpty
    rw [length_bits, List.length_nil] at length
    omega
  · have length := passes.length_le
    have le : route.preLen.toNat ≤ 32 := short route member
    rw [length_bits, length_key] at length
    omega

theorem exists_end (short : ∀ route ∈ routes, route.preLen ≤ 32) (ip : UInt32) :
    ∃ n, HasNode routes (pairs n ip) ∧ ¬ HasNode routes (pairs (n + 1) ip) :=
  @exists_last (fun n => HasNode routes (pairs n ip)) 17 (.inl rfl)
    fun present => not_hasBit short (by decide) ip (hasBit_of_hasNode present)

theorem three_searches_agree (routes : List Leaf) (short : ∀ route ∈ routes, route.preLen ≤ 32)
    (ip : UInt32) : (∃ leaf, Agree routes ip leaf) ↔ SearchesMeet routes ip := by
  by_cases prefixed : ∃ route ∈ routes, route.preLen ≠ 0
  · rw [SearchesMeet, and_iff_right prefixed]
    constructor
    · intro agree
      obtain ⟨n, present, ends⟩ := exists_end short ip
      by_cases inner : InnerNode routes (pairs n ip)
      · rcases (agree_missing_iff short prefixed inner ends).mp agree with
          ⟨whole, route, self⟩ | ⟨unserved, supply⟩
        · exact .inr (.inl ⟨n, inner, whole, route, self⟩)
        · exact .inr (.inr ⟨n, inner, ends, unserved, supply⟩)
      · exact .inl ⟨n, present, inner, (agree_leaf_iff inner short prefixed present).mp agree⟩
    · rintro (⟨n, present, leaf, even⟩ | ⟨n, inner, whole, route, self⟩ |
        ⟨n, inner, ends, unserved, supply⟩)
      · exact (agree_leaf_iff leaf short prefixed present).mpr even
      · refine (agree_missing_iff short prefixed inner fun present => ?_).mpr
          (.inl ⟨whole, route, self⟩)
        exact whole (hasBit_of_hasNode present)
      · exact (agree_missing_iff short prefixed inner ends).mpr (.inr ⟨unserved, supply⟩)
  · have bare : ∀ route ∈ routes, route.preLen = 0 := fun route member => by
      by_contra nonzero
      exact prefixed ⟨route, member, nonzero⟩
    refine iff_of_false ?_ fun meets => prefixed meets.1
    rintro ⟨leaf, -, -, cv⟩
    rw [search_constructCVTree_bare bare] at cv
    cases cv

/-- 85.0.0.0 lies in all three prefixes. -/
theorem three_searches_agree_nested : ∃ leaf, Agree nestedRoutes 0x55000000 leaf :=
  (three_searches_agree nestedRoutes (by decide) 0x55000000).mpr
    ⟨by decide, .inl ⟨4, by decide, by decide, .inr (by decide)⟩⟩

/-- The longer route leads the tree on bits past the shorter one to a blank node. -/
theorem longer_route_hides_shorter :
    ¬ ∃ leaf, Agree [{ subNet := 0x40000000, preLen := 2, port := 1 },
      { subNet := 0x50000000, preLen := 4, port := 2 }] 0x40000000 leaf := by
  rintro ⟨leaf, bit, mul, -⟩
  have lost : (PTree.construct [{ subNet := 0x40000000, preLen := 2, port := 1 },
      { subNet := 0x50000000, preLen := 4, port := 2 }]).search 0x40000000 = some .blank := by
    decide
  have kept : (MulPTree.construct [{ subNet := 0x40000000, preLen := 2, port := 1 },
      { subNet := 0x50000000, preLen := 4, port := 2 }]).mleafPush.search 0x40000000 =
      some { subNet := 0x40000000, preLen := 2, port := 1 } := by
    decide
  rw [lost] at bit
  rw [kept, ← bit] at mul
  revert mul
  decide

end Agreement

end NetworkLab.Lookup
