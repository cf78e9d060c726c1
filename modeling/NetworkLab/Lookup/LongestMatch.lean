import NetworkLab.Lookup.Agreement

/-!
# Longest-prefix match by the two trees

`LongestMatch` is what a lookup in the list of routes should return.  The tree on bits returns
it where the way of the address leaves the tree at the node of a route.  `ServesLongest`
lists the tables and addresses for which `MulPTree::Search` returns it: where a missing
place of the tree is reached, the entry that the push leaves there has to be that of the
longest route, which an odd prefix is not if its two nodes were there before it.
-/
set_option autoImplicit false

namespace NetworkLab.Lookup

open Lib

section Specification

variable (routes : List Leaf)

/-- The last one of the longest routes that cover the address, or the blank entry. -/
def LongestMatch (ip : UInt32) (leaf : Leaf) : Prop :=
  (leaf ∈ routes ∧ leaf.Covers ip ∧ lastRoute routes leaf.key = leaf ∧
      ∀ other ∈ routes, other.Covers ip → other.preLen ≤ leaf.preLen) ∨
    (∀ route ∈ routes, ¬ route.Covers ip) ∧ leaf = .blank

def OnlyDefault (ip : UInt32) : Prop := ∀ route ∈ routes, route.Covers ip → route.preLen = 0

/-- The routes that cover the address have at most `k` bits, and one has these. -/
def LongestLength (ip : UInt32) (k : Nat) : Prop :=
  (∃ route ∈ routes, route.key = bits k ip) ∧
    ∀ route ∈ routes, route.Covers ip → route.preLen.toNat ≤ k

/-- The node of an even prefix, or one that the last route with an odd prefix made. -/
def KeepsLast (node : List (Fin 4)) (key : List Bool) : Prop :=
  flat node = key ∨ MadeByOdd routes node (lastRoute routes key)

/-- The way of the address leaves the tree at a missing place, and the last node that writes to
what fills it keeps the longest prefix of the address; or only a default route covers the
address, and either nothing comes to the place or what does covers another part of it. -/
def LastIsLongest (ip : UInt32) : Prop :=
  ∃ n, InnerNode routes (pairs n ip) ∧ ¬ HasNode routes (pairs (n + 1) ip) ∧
    ((∃ other, LastSupplier routes (pairs n ip) other ∧
        ∃ k, LongestLength routes ip k ∧ KeepsLast routes other (bits k ip)) ∨
      OnlyDefault routes ip ∧
        ((∀ other, ¬ Supplies routes (pairs n ip) other) ∧ lastRoute routes [] = .blank ∨
          ∃ other, LastSupplier routes (pairs n ip) other ∧ ¬ (stored routes other).Covers ip))

def ServesLongest (ip : UInt32) : Prop := EndsInLeaf routes ip ∨ LastIsLongest routes ip

end Specification

section Longest

variable {routes : List Leaf} {ip : UInt32} {leaf : Leaf}

theorem key_of_covers {route : Leaf} (covers : route.Covers ip) :
    route.key = bits route.preLen.toNat ip := by
  have onWay := eq_bits_of_prefix covers
  rwa [length_key] at onWay

/-- The longest match, when no route goes past `k` bits of the address. -/
theorem longestMatch_iff {k : Nat} (short : k ≤ 32)
    (present : ∃ route ∈ routes, route.key = bits k ip)
    (bound : ∀ route ∈ routes, route.Covers ip → route.preLen.toNat ≤ k) :
    LongestMatch routes ip leaf ↔ leaf = lastRoute routes (bits k ip) := by
  obtain ⟨member, isKey⟩ := lastRoute_mem present
  have length : (lastRoute routes (bits k ip)).preLen.toNat = k := by
    rw [← length_key, isKey, length_bits]
  have covers : (lastRoute routes (bits k ip)).Covers ip := by
    rw [Leaf.Covers, isKey]
    exact bits_prefix_of_le short ip
  constructor
  · rintro (⟨inTable, leafCovers, last, longest⟩ | ⟨uncovered, -⟩)
    · have low : k ≤ leaf.preLen.toNat := by
        have atMost : (lastRoute routes (bits k ip)).preLen.toNat ≤ leaf.preLen.toNat :=
          longest _ member covers
        rwa [length] at atMost
      have same := le_antisymm (bound leaf inTable leafCovers) low
      rw [key_of_covers leafCovers, same] at last
      exact last.symm
    · exact absurd covers (uncovered _ member)
  · rintro rfl
    refine .inl ⟨member, covers, by rw [isKey], fun other inTable otherCovers => ?_⟩
    rw [UInt8.le_iff_toNat_le, length]
    exact bound other inTable otherCovers

theorem key_eq_nil {route : Leaf} : route.key = [] ↔ route.preLen = 0 := by
  rw [← List.length_eq_zero_iff, length_key]
  exact UInt8.toNat_inj (b := 0)

/-- An entry of the tree is the longest match if its node keeps the longest prefix. -/
theorem longestMatch_stored_iff (short : ∀ route ∈ routes, route.preLen ≤ 32)
    {node : List (Fin 4)} (nonblank : stored routes node ≠ .blank) :
    LongestMatch routes ip (stored routes node) ↔
      ∃ k, LongestLength routes ip k ∧ KeepsLast routes node (bits k ip) := by
  constructor
  · rintro (⟨member, covers, last, longest⟩ | ⟨-, blank⟩)
    · have isKey := key_of_covers covers
      refine ⟨(stored routes node).preLen.toNat, ⟨⟨_, member, isKey⟩, longest⟩, ?_⟩
      rw [KeepsLast, ← isKey, last]
      rcases (stored_cases routes node).resolve_left nonblank with ⟨present, isLast⟩ | made
      · left
        rw [isLast]
        exact (lastRoute_mem present).2.symm
      · exact .inr made
    · exact absurd blank nonblank
  · rintro ⟨k, ⟨present, bound⟩, keeps⟩
    have le : k ≤ 32 := by
      obtain ⟨route, member, isKey⟩ := present
      have shortRoute : route.preLen.toNat ≤ 32 := short route member
      rwa [← length_key, isKey, length_bits] at shortRoute
    apply (longestMatch_iff le present bound).mpr
    rcases keeps with here | made
    · rw [stored_of_key (by rwa [here]), here]
    · exact made.stored

theorem longestMatch_default : LongestMatch routes ip (lastRoute routes []) ↔ OnlyDefault routes ip := by
  by_cases present : ∃ route ∈ routes, route.key = bits 0 ip
  · constructor
    · rintro (⟨-, -, -, longest⟩ | ⟨uncovered, -⟩)
      · intro route member covers
        have root : (lastRoute routes []).preLen = 0 := key_eq_nil.mp (lastRoute_mem present).2
        have le := longest route member covers
        rw [root, UInt8.le_iff_toNat_le] at le
        exact UInt8.toNat_inj.mp (Nat.le_zero.mp le)
      · exact fun route member covers => absurd covers (uncovered route member)
    · intro only
      refine (longestMatch_iff (Nat.zero_le 32) present fun route member covers => ?_).mpr rfl
      rw [only route member covers]
      exact le_rfl
  · have blank : lastRoute routes [] = .blank :=
      lastRoute_eq_blank fun route member isKey => present ⟨route, member, isKey⟩
    rw [blank]
    constructor
    · rintro (⟨member, -, -, -⟩ | ⟨uncovered, -⟩)
      · exact absurd ⟨Leaf.blank, member, rfl⟩ present
      · exact fun route member covers => absurd covers (uncovered route member)
    · intro only
      refine .inr ⟨fun route member covers => present ⟨route, member, ?_⟩, rfl⟩
      exact key_eq_nil.mpr (only route member covers)

theorem longestMatch_blank : LongestMatch routes ip .blank ↔
    OnlyDefault routes ip ∧ lastRoute routes [] = .blank := by
  constructor
  · intro longest
    have root : lastRoute routes [] = .blank := by
      rcases longest with ⟨-, -, last, -⟩ | ⟨uncovered, -⟩
      · exact last
      · refine lastRoute_eq_blank fun route member isKey => uncovered route member ?_
        rw [Leaf.Covers, isKey]
        exact List.nil_prefix
    exact ⟨longestMatch_default.mp (root ▸ longest), root⟩
  · rintro ⟨only, root⟩
    exact root ▸ longestMatch_default.mpr only

end Longest

section Search

variable {routes : List Leaf} {ip : UInt32} {n : Nat}

def FindsLongest (routes : List Leaf) (ip : UInt32) : Prop :=
  ∃ leaf, (MulPTree.construct routes).mleafPush.search ip = some leaf ∧ LongestMatch routes ip leaf

theorem findsLongest_iff {leaf : Leaf}
    (pushed : (MulPTree.construct routes).mleafPush.sub (pairs n ip) = .single leaf) :
    FindsLongest routes ip ↔
      LongestMatch routes ip (if CVTree.matchesPrefix leaf ip then leaf else lastRoute routes []) := by
  rw [FindsLongest, MulPTree.search_construct pushed]
  simp

theorem findsLongest_leaf (short : ∀ route ∈ routes, route.preLen ≤ 32)
    (present : HasNode routes (pairs n ip)) (leaf : ¬ InnerNode routes (pairs n ip)) :
    FindsLongest routes ip ↔
      (∃ route ∈ routes, route.key = bits (2 * n) ip) ∨
        firstRoute routes (bits (2 * n - 1) ip) = lastRoute routes (bits (2 * n - 1) ip) := by
  have pushed := mleafPush_construct_leaf present leaf
  rw [findsLongest_iff pushed]
  have bound : ∀ route ∈ routes, route.Covers ip → route.preLen.toNat ≤ 2 * n := by
    intro route member covers
    by_contra longer
    have passes : bits (2 * n) ip <+: route.key := by
      rw [key_of_covers covers]
      exact bits_prefix_of_le (by omega) ip
    have lengths := congrArg List.length (key_of_leaf leaf member passes)
    rw [length_key, length_bits] at lengths
    omega
  by_cases even : ∃ route ∈ routes, route.key = bits (2 * n) ip
  · obtain ⟨route, member, isKey⟩ := id even
    have le : 2 * n ≤ 32 := by
      have shortRoute : route.preLen.toNat ≤ 32 := short route member
      rwa [← length_key, isKey, length_bits] at shortRoute
    rw [stored_of_key (by rwa [flat_pairs]), flat_pairs,
      if_pos (matchesPrefix_lastRoute short (2 * n) ip), longestMatch_iff le even bound]
    simp [even]
  by_cases root : n = 0
  · subst root
    have absent : ∀ route ∈ routes, route.key ≠ [] := fun route member isKey =>
      even ⟨route, member, isKey⟩
    have noFirst : routes.find? (fun route => route.key = []) = none :=
      List.find?_eq_none.mpr fun route member => by simpa using absent route member
    have nothing : firstRoute routes [] = lastRoute routes [] := by
      rw [lastRoute_eq_blank absent, firstRoute, noFirst]
      rfl
    have only : OnlyDefault routes ip := fun route member covers =>
      UInt8.toNat_inj.mp (Nat.le_zero.mp (bound route member covers))
    have isStored : stored routes (pairs 0 ip) = lastRoute routes [] := stored_nil routes
    rw [isStored, ite_self]
    exact iff_of_true (longestMatch_default.mpr only) (.inr nothing)
  · obtain ⟨k, odd, present', isStored⟩ := odd_of_leaf leaf root present even
    obtain ⟨firstMember, firstKey⟩ := firstRoute_mem present'
    have boundOdd : ∀ route ∈ routes, route.Covers ip → route.preLen.toNat ≤ k := by
      intro route member covers
      have le := bound route member covers
      have other : route.preLen.toNat ≠ 2 * n := fun same =>
        even ⟨route, member, same ▸ key_of_covers covers⟩
      omega
    have le : k ≤ 32 := by
      have shortFirst : (firstRoute routes (bits k ip)).preLen.toNat ≤ 32 := short _ firstMember
      rwa [← length_key, firstKey, length_bits] at shortFirst
    rw [isStored, if_pos (matchesPrefix_of_key (short _ firstMember) firstKey),
      longestMatch_iff le present' boundOdd, odd, Nat.add_sub_cancel]
    have absent : ¬ ∃ route ∈ routes, route.key = bits (k + 1) ip := odd ▸ even
    simp [absent]

theorem findsLongest_missing (short : ∀ route ∈ routes, route.preLen ≤ 32)
    (inner : InnerNode routes (pairs n ip)) (missing : ¬ HasNode routes (pairs (n + 1) ip)) :
    FindsLongest routes ip ↔
      (∃ other, LastSupplier routes (pairs n ip) other ∧
        ∃ k, LongestLength routes ip k ∧ KeepsLast routes other (bits k ip)) ∨
      OnlyDefault routes ip ∧
        ((∀ other, ¬ Supplies routes (pairs n ip) other) ∧ lastRoute routes [] = .blank ∨
          ∃ other, LastSupplier routes (pairs n ip) other ∧ ¬ (stored routes other).Covers ip) := by
  rw [pairs_succ] at missing
  obtain ⟨leaf, pushed, written⟩ := mleafPush_construct_missing inner missing
  rw [← pairs_succ] at pushed
  rw [findsLongest_iff pushed]
  rcases written with ⟨silent, rfl⟩ | ⟨other, supplied, rfl⟩
  · have unsupplied : ∀ other, ¬ LastSupplier routes (pairs n ip) other :=
      fun other last => silent other last.1
    rw [if_pos (matchesPrefix_blank ip), longestMatch_blank]
    simp [silent, unsupplied]
  have only : ∀ another, LastSupplier routes (pairs n ip) another ↔ another = other :=
    fun another => ⟨fun also => also.unique supplied, fun same => same ▸ supplied⟩
  have noisy : ¬ ∀ other, ¬ Supplies routes (pairs n ip) other := fun silent =>
    silent other supplied.1
  have nonblank := stored_ne_blank supplied
  have shortLeaf : (stored routes other).preLen ≤ 32 :=
    short _ ((stored_mem routes other).resolve_left nonblank).1
  simp only [only, exists_eq_left, noisy, false_and, false_or,
    ← longestMatch_stored_iff short nonblank]
  by_cases covers : (stored routes other).Covers ip
  · rw [if_pos ((matchesPrefix_iff shortLeaf ip).mpr covers)]
    simp [covers]
  · have notLongest : ¬ LongestMatch routes ip (stored routes other) := by
      rintro (⟨-, also, -⟩ | ⟨-, blank⟩)
      · exact covers also
      · exact nonblank blank
    rw [if_neg fun meets => covers ((matchesPrefix_iff shortLeaf ip).mp meets),
      longestMatch_default]
    simp [covers, notLongest]

end Search

/-- The search on pairs of bits returns the longest match for exactly these addresses. -/
theorem longest_prefix_match (routes : List Leaf) (short : ∀ route ∈ routes, route.preLen ≤ 32)
    (ip : UInt32) : FindsLongest routes ip ↔ ServesLongest routes ip := by
  constructor
  · intro finds
    obtain ⟨n, present, ends⟩ := exists_end short ip
    by_cases inner : InnerNode routes (pairs n ip)
    · exact .inr ⟨n, inner, ends, (findsLongest_missing short inner ends).mp finds⟩
    · exact .inl ⟨n, present, inner, (findsLongest_leaf short present inner).mp finds⟩
  · rintro (⟨n, present, leaf, even⟩ | ⟨n, inner, ends, last⟩)
    · exact (findsLongest_leaf short present leaf).mpr even
    · exact (findsLongest_missing short inner ends).mpr last

theorem longest_prefix_match_nested : FindsLongest nestedRoutes 0x55000000 :=
  (longest_prefix_match nestedRoutes (by decide) 0x55000000).mpr
    (.inl ⟨4, by decide, by decide, .inr (by decide)⟩)

/-- The route of odd length comes after a longer one whose way has taken its node. -/
theorem odd_route_lost :
    ¬ FindsLongest [{ subNet := 0xc0000000, preLen := 4, port := 1 },
      { subNet := 0x80000000, preLen := 1, port := 2 }] 0xffffffff := by
  rintro ⟨leaf, found, longest⟩
  have lost : (MulPTree.construct [{ subNet := 0xc0000000, preLen := 4, port := 1 },
      { subNet := 0x80000000, preLen := 1, port := 2 }]).mleafPush.search 0xffffffff =
      some .blank := by
    decide
  obtain rfl := Option.some.inj (lost.symm.trans found)
  have only := (longestMatch_blank.mp longest).1
  revert only
  simp only [OnlyDefault]
  decide

/-! ## The tree on single bits -/

section Bits

variable {routes : List Leaf} {ip : UInt32} {n : Nat}

def BitFindsLongest (routes : List Leaf) (ip : UInt32) : Prop :=
  ∃ leaf, (PTree.construct routes).search ip = some leaf ∧ LongestMatch routes ip leaf

/-- No route has more bits in common with the address than one that covers it. -/
def LeavesAtRoute (routes : List Leaf) (ip : UInt32) : Prop :=
  ∃ route ∈ routes, route.Covers ip ∧ ¬ HasBit routes (bits (route.preLen.toNat + 1) ip)

theorem HasBit.of_le {m : Nat} (le : m ≤ n) (found : HasBit routes (bits n ip)) :
    HasBit routes (bits m ip) := by
  have shorter := bits_prefix_of_le le ip
  cases found with
  | inl isEmpty =>
    rw [isEmpty] at shorter
    exact .inl (List.prefix_nil.mp shorter)
  | inr passes =>
    obtain ⟨route, member, passes⟩ := passes
    exact .inr ⟨route, member, shorter.trans passes⟩

theorem hasBit_of_covers {route : Leaf} (member : route ∈ routes) (covers : route.Covers ip) :
    HasBit routes (bits route.preLen.toNat ip) :=
  .inr ⟨route, member, by rw [key_of_covers covers]⟩

theorem le_end {route : Leaf} (member : route ∈ routes) (covers : route.Covers ip)
    (ends : ¬ HasBit routes (bits (n + 1) ip)) : route.preLen.toNat ≤ n := by
  by_contra longer
  exact ends ((hasBit_of_covers member covers).of_le (by omega))

/-- What is returned where the way of the address leaves the tree at a node of `n` bits. -/
theorem bitFindsLongest_iff (short : ∀ route ∈ routes, route.preLen ≤ 32)
    (found : HasBit routes (bits n ip)) (ends : ¬ HasBit routes (bits (n + 1) ip)) :
    BitFindsLongest routes ip ↔ LongestMatch routes ip (lastRoute routes (bits n ip)) := by
  rw [BitFindsLongest, PTree.search_construct short found ends]
  simp

theorem leavesAtRoute_iff (found : HasBit routes (bits n ip))
    (ends : ¬ HasBit routes (bits (n + 1) ip)) (le : n ≤ 32) :
    LeavesAtRoute routes ip ↔ ∃ route ∈ routes, route.key = bits n ip := by
  constructor
  · intro leaves
    obtain ⟨route, member, covers, last⟩ := leaves
    have below := le_end member covers ends
    have same : route.preLen.toNat = n := by
      by_contra shorter
      exact last (found.of_le (by omega))
    exact ⟨route, member, by rw [key_of_covers covers, same]⟩
  · intro present
    obtain ⟨route, member, isKey⟩ := present
    have length : route.preLen.toNat = n := by rw [← length_key, isKey, length_bits]
    have covers : route.Covers ip := by
      rw [Leaf.Covers, isKey]
      exact bits_prefix_of_le le ip
    exact ⟨route, member, covers, by rwa [length]⟩

end Bits

/-- The search on single bits tests the deepest node only: it returns the longest match if a
route ends in that node, or if the longest match is the blank entry. -/
theorem longest_match_of_bits (routes : List Leaf) (short : ∀ route ∈ routes, route.preLen ≤ 32)
    (ip : UInt32) : BitFindsLongest routes ip ↔
      LeavesAtRoute routes ip ∨ OnlyDefault routes ip ∧ lastRoute routes [] = .blank := by
  obtain ⟨n, found, ends⟩ := @exists_last (fun n => HasBit routes (bits n ip)) 33
    (.inl rfl) (not_hasBit short (by decide) ip)
  have le : n ≤ 32 := by
    by_contra long
    exact not_hasBit short (by omega) ip found
  rw [bitFindsLongest_iff short found ends, leavesAtRoute_iff found ends le]
  by_cases present : ∃ route ∈ routes, route.key = bits n ip
  · have longest : LongestMatch routes ip (lastRoute routes (bits n ip)) :=
      (longestMatch_iff le present fun route member covers => le_end member covers ends).mpr rfl
    exact iff_of_true longest (.inl present)
  · have blank : lastRoute routes (bits n ip) = .blank :=
      lastRoute_eq_blank fun route member isKey => present ⟨route, member, isKey⟩
    rw [blank, longestMatch_blank, or_iff_right present]

theorem longest_match_of_bits_nested : BitFindsLongest nestedRoutes 0x55000000 :=
  (longest_match_of_bits nestedRoutes (by decide) 0x55000000).mpr
    (.inl ⟨⟨0x54000000, 7, 3⟩, by decide⟩)

/-- The address shares a third bit with the longer route, which does not cover it. -/
theorem shorter_route_missed :
    ¬ BitFindsLongest [{ subNet := 0x40000000, preLen := 2, port := 1 },
      { subNet := 0x50000000, preLen := 4, port := 2 }] 0x40000000 := by
  intro finds
  obtain ⟨leaf, found, longest⟩ := finds
  have lost : (PTree.construct [{ subNet := 0x40000000, preLen := 2, port := 1 },
      { subNet := 0x50000000, preLen := 4, port := 2 }]).search 0x40000000 = some .blank := by
    decide
  cases Option.some.inj (lost.symm.trans found)
  have only := (longestMatch_blank.mp longest).1
  revert only
  simp only [OnlyDefault]
  decide

end NetworkLab.Lookup
