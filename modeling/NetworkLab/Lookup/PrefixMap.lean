import NetworkLab.Lookup.Insertion

/-!
# The tree on bits as a map

What the tree is for: a map from the networks to the routes that were put there last.
`Refines` tells how the nodes of a tree show such a map, and an insertion into the tree
is an insertion into the map.
-/
set_option autoImplicit false

namespace NetworkLab.Lookup

open Lib

def Leaf.network (route : Leaf) : List Bool :=
  (List.range route.preLen.toNat).map fun i => route.subNet.toNat.testBit (31 - i)

abbrev PrefixMap := List Bool → Option Leaf

namespace PrefixMap

def insert (map : PrefixMap) (route : Leaf) : PrefixMap :=
  Function.update map route.network (some route)

def construct (routes : List Leaf) : PrefixMap := routes.foldl insert fun _ => none

theorem insert_network (map : PrefixMap) (route : Leaf) :
    map.insert route route.network = some route :=
  Function.update_self ..

theorem insert_other (map : PrefixMap) (route : Leaf) {node : List Bool}
    (other : node ≠ route.network) : map.insert route node = map node :=
  Function.update_of_ne other ..

theorem construct_concat (routes : List Leaf) (new : Leaf) :
    construct (routes ++ [new]) = (construct routes).insert new :=
  List.foldl_concat insert _ new routes

end PrefixMap

def LastAt (routes : List Leaf) (node : List Bool) (data : Leaf) : Prop :=
  (∃ earlier route later, routes = earlier ++ route :: later ∧ route.network = node ∧
    (∀ other ∈ later, other.network ≠ node) ∧ data = route) ∨
  (∀ route ∈ routes, route.network ≠ node) ∧ data = .blank

section Map

variable {routes : List Leaf}

theorem LastAt.concat_same (new : Leaf) : LastAt (routes ++ [new]) new.network new :=
  .inl ⟨routes, new, [], rfl, rfl, by simp, rfl⟩

theorem LastAt.concat_other {node : List Bool} {data new : Leaf}
    (last : LastAt routes node data) (other : node ≠ new.network) :
    LastAt (routes ++ [new]) node data := by
  rcases last with ⟨earlier, route, later, split, here, after, isLast⟩ | ⟨absent, isBlank⟩
  · refine .inl ⟨earlier, route, later ++ [new], by simp [split], here, ?_, isLast⟩
    intro another member
    rcases List.mem_append.mp member with old | isNew
    · exact after another old
    · rw [List.mem_singleton.mp isNew]
      exact other.symm
  · refine .inr ⟨fun route member => ?_, isBlank⟩
    rcases List.mem_append.mp member with old | isNew
    · exact absent route old
    · rw [List.mem_singleton.mp isNew]
      exact other.symm

theorem PrefixMap.lastAt_construct (routes : List Leaf) (node : List Bool) :
    LastAt routes node ((construct routes node).getD .blank) := by
  induction routes using List.reverseRecOn with
  | nil => exact .inr ⟨by simp, rfl⟩
  | append_singleton routes new ih =>
      rw [construct_concat]
      by_cases same : node = new.network
      · rw [same, insert_network]
        exact .concat_same new
      · rw [insert_other _ new same]
        exact ih.concat_other same

theorem PrefixMap.isSome_construct (routes : List Leaf) (node : List Bool) :
    (construct routes node).isSome ↔ ∃ route ∈ routes, route.network = node := by
  induction routes using List.reverseRecOn with
  | nil => simp [construct]
  | append_singleton routes new ih =>
      rw [construct_concat]
      by_cases same : node = new.network
      · simp [same, insert_network]
      · simp [insert_other _ new same, ih, Ne.symm same]

end Map

/-- A node for every beginning of a network of the map, with the route to the network
that it is, or blank. -/
structure Refines (tree : PTree) (map : PrefixMap) : Prop where
  present : ∀ node, (tree.get? node).isSome ↔
    node = [] ∨ ∃ network, (map network).isSome ∧ node <+: network
  data : ∀ node leaf, tree.get? node = some leaf → leaf = (map node).getD .blank

section Tree

theorem Leaf.key_eq_network {route : Leaf} (short : route.preLen ≤ 32) :
    route.key = route.network :=
  bits_eq_map short route.subNet

theorem refines_fresh : Refines (.single .blank) fun _ => none where
  present node := by cases node <;> simp [Trie.single]
  data node leaf found := by
    cases node with
    | nil => simpa [Trie.single] using found.symm
    | cons b rest => simp [Trie.single] at found

variable {tree : PTree} {map : PrefixMap} {new : Leaf}

theorem PTree.get?_insert (tree : PTree) (short : new.preLen ≤ 32) (node : List Bool) :
    (tree.insert new).get? node =
      if node = new.network then some new
      else if node <+: new.network then some ((tree.get? node).getD .blank)
      else tree.get? node := by
  rw [← Leaf.key_eq_network short]
  exact PTree.get?_insertFrom new new.subNet new.preLen.toNat tree node

/-- Where the tree has no node, the map has no network. -/
theorem Refines.absent (refines : Refines tree map) {node : List Bool}
    (missing : tree.get? node = none) : map node = none := by
  have none := (refines.present node).not.mp (by simp [missing])
  cases found : map node with
  | none => rfl
  | some route => exact absurd (.inr ⟨node, by simp [found], List.prefix_rfl⟩) none

theorem Refines.insert (refines : Refines tree map) (short : new.preLen ≤ 32) :
    Refines (tree.insert new) (map.insert new) where
  present node := by
    rw [PTree.get?_insert tree short]
    have inserted : (map.insert new new.network).isSome := by simp [PrefixMap.insert_network]
    by_cases same : node = new.network
    · simp only [if_pos same, Option.isSome_some, true_iff]
      exact .inr ⟨new.network, inserted, same ▸ List.prefix_rfl⟩
    by_cases passed : node <+: new.network
    · simp only [if_neg same, if_pos passed, Option.isSome_some, true_iff]
      exact .inr ⟨new.network, inserted, passed⟩
    · rw [if_neg same, if_neg passed, refines.present]
      refine or_congr_right (exists_congr fun network => and_congr_left fun below => ?_)
      have other : network ≠ new.network := fun isNew => passed (isNew ▸ below)
      rw [PrefixMap.insert_other map new other]
  data node leaf found := by
    rw [PTree.get?_insert tree short] at found
    by_cases same : node = new.network
    · rw [if_pos same] at found
      rw [same, PrefixMap.insert_network]
      exact (Option.some.inj found).symm
    rw [PrefixMap.insert_other map new same]
    by_cases passed : node <+: new.network
    · rw [if_neg same, if_pos passed] at found
      cases before : tree.get? node with
      | none =>
          rw [refines.absent before]
          simpa [before] using found.symm
      | some old =>
          rw [← refines.data node old before]
          simpa [before] using found.symm
    · rw [if_neg same, if_neg passed] at found
      exact refines.data node leaf found

theorem refines_construct {routes : List Leaf} (short : ∀ route ∈ routes, route.preLen ≤ 32) :
    Refines (PTree.construct routes) (PrefixMap.construct routes) := by
  induction routes using List.reverseRecOn with
  | nil => exact refines_fresh
  | append_singleton routes new ih =>
      rw [PTree.construct_concat, PrefixMap.construct_concat]
      exact (ih fun route member => short route (by simp [member])).insert (short new (by simp))

/-- The tree on bits after any list of insertions. -/
theorem insert_refines_map {routes : List Leaf} (short : ∀ route ∈ routes, route.preLen ≤ 32)
    (node : List Bool) :
    (((PTree.construct routes).get? node).isSome ↔
      node = [] ∨ ∃ route ∈ routes, node <+: route.network) ∧
    ∀ leaf, (PTree.construct routes).get? node = some leaf → LastAt routes node leaf := by
  have refines := refines_construct short
  constructor
  · rw [refines.present]
    refine or_congr_right ?_
    constructor
    · rintro ⟨network, known, below⟩
      obtain ⟨route, member, rfl⟩ := (PrefixMap.isSome_construct routes network).mp known
      exact ⟨route, member, below⟩
    · rintro ⟨route, member, below⟩
      exact ⟨route.network, (PrefixMap.isSome_construct routes _).mpr ⟨route, member, rfl⟩, below⟩
  · intro leaf found
    rw [refines.data node leaf found]
    exact PrefixMap.lastAt_construct routes node

def movedRoute : List Leaf :=
  [⟨0x40000000, 2, 1⟩, ⟨0x80000000, 1, 2⟩, ⟨0x40000000, 2, 3⟩]

theorem insert_refines_map_moved :
    (((PTree.construct movedRoute).get? [false, true]).isSome ↔
      [false, true] = [] ∨ ∃ route ∈ movedRoute, [false, true] <+: route.network) ∧
    ∀ leaf, (PTree.construct movedRoute).get? [false, true] = some leaf →
      LastAt movedRoute [false, true] leaf :=
  insert_refines_map (by decide) [false, true]

end Tree

end NetworkLab.Lookup
