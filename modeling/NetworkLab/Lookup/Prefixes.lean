import Mathlib.Data.Nat.Bitwise
import NetworkLab.Lookup.CvTree

/-!
# Prefixes as strings of bits

`bits n ip` are the first `n` bits of an address, as the descents read them.  A route
covers an address when its key starts the address, which is what both comparison loops
of the searches test.
-/
set_option autoImplicit false

namespace NetworkLab.Lookup

open Lib

def bits (n : Nat) (ip : UInt32) : List Bool := Trie.path topBit shiftOne n ip

def pairs (n : Nat) (ip : UInt32) : List (Fin 4) := Trie.path topPair shiftTwo n ip

def flat (node : List (Fin 4)) : List Bool :=
  node.flatMap fun i => [decide (2 ≤ i.val), decide (i.val % 2 = 1)]

def Leaf.key (route : Leaf) : List Bool := bits route.preLen.toNat route.subNet

def Leaf.Covers (route : Leaf) (ip : UInt32) : Prop := route.key <+: bits 32 ip

instance (route : Leaf) (ip : UInt32) : Decidable (route.Covers ip) :=
  inferInstanceAs (Decidable (route.key <+: bits 32 ip))

@[simp] theorem flat_nil : flat [] = [] := rfl

@[simp] theorem flat_cons (i : Fin 4) (rest : List (Fin 4)) :
    flat (i :: rest) = decide (2 ≤ i.val) :: decide (i.val % 2 = 1) :: flat rest := rfl

@[simp] theorem flat_append (first second : List (Fin 4)) :
    flat (first ++ second) = flat first ++ flat second :=
  List.flatMap_append

@[simp] theorem length_flat (node : List (Fin 4)) : (flat node).length = 2 * node.length := by
  induction node with
  | nil => rfl
  | cons i rest ih => simp [ih, Nat.mul_succ]

@[simp] theorem length_bits (n : Nat) (ip : UInt32) : (bits n ip).length = n :=
  Trie.length_path topBit shiftOne n ip

@[simp] theorem length_key (route : Leaf) : route.key.length = route.preLen.toNat :=
  length_bits _ _

theorem flat_pair_inj {i j : Fin 4} (same : flat [i] = flat [j]) : i = j := by
  revert i j
  decide

theorem flat_inj {first second : List (Fin 4)} (same : flat first = flat second) :
    first = second := by
  induction first generalizing second with
  | nil =>
      cases second with
      | nil => rfl
      | cons j rest => simp at same
  | cons i rest ih =>
      cases second with
      | nil => simp at same
      | cons j rest' =>
          simp only [flat_cons, List.cons.injEq] at same
          rw [ih same.2.2, flat_pair_inj (by simp [same.1, same.2.1] : flat [i] = flat [j])]

theorem dropLast_flat_ne {first second : List (Fin 4)} (nonempty : second ≠ []) :
    (flat second).dropLast ≠ flat first := by
  intro same
  have positive := List.length_pos_iff.mpr nonempty
  have lengths := congrArg List.length same
  rw [List.length_dropLast, length_flat, length_flat] at lengths
  omega

theorem bits_prefix_of_le {m n : Nat} (le : m ≤ n) (ip : UInt32) : bits m ip <+: bits n ip := by
  obtain ⟨k, rfl⟩ := Nat.exists_eq_add_of_le le
  exact ⟨_, (Trie.path_add topBit shiftOne m k ip).symm⟩

theorem eq_bits_of_prefix {node : List Bool} {n : Nat} {ip : UInt32} (passes : node <+: bits n ip) :
    node = bits node.length ip := by
  have le : node.length ≤ n := by simpa using passes.length_le
  exact (List.prefix_of_prefix_length_le passes (bits_prefix_of_le le ip) (by simp)).eq_of_length (by simp)

theorem dropLast_bits (n : Nat) (ip : UInt32) : (bits (n + 1) ip).dropLast = bits n ip := by
  rw [bits, Trie.path_succ, List.dropLast_concat]
  rfl

theorem topBit_eq (ip : UInt32) : topBit ip = ip.toNat.testBit 31 := by
  have single : (ip &&& 0x80000000).toNat = (ip.toNat.testBit 31).toNat * 2 ^ 31 := by
    rw [UInt32.toNat_and]
    exact Nat.and_two_pow _ 31
  unfold topBit
  cases set : ip.toNat.testBit 31 with
  | true =>
      refine bne_iff_ne.mpr fun zero => ?_
      simp [zero, set] at single
  | false =>
      have zero : ip &&& 0x80000000 = 0 := UInt32.toNat_inj.mp (by simp [single, set])
      simp [zero]

theorem topPair_val (ip : UInt32) : (topPair ip).val = ip.toNat / 2 ^ 30 := by
  have lt := ip.toNat_lt
  have shifted : ((ip &&& 0xc0000000) >>> 30).toNat = ip.toNat / 2 ^ 30 := by
    rw [UInt32.toNat_shiftRight, UInt32.toNat_and]
    change (ip.toNat &&& 3221225472) >>> 30 = _
    rw [Nat.shiftRight_and_distrib, Nat.shiftRight_eq_div_pow]
    exact (Nat.and_two_pow_sub_one_eq_mod _ 2).trans (Nat.mod_eq_of_lt (by omega))
  rw [topPair, shifted]
  exact Nat.mod_eq_of_lt (by omega)

theorem shiftOne_toNat (ip : UInt32) : (shiftOne ip).toNat = ip.toNat * 2 % 2 ^ 32 := by
  rw [shiftOne, UInt32.toNat_shiftLeft]
  exact congrArg (· % 2 ^ 32) (Nat.shiftLeft_eq _ _)

theorem shiftTwo_eq (ip : UInt32) : shiftTwo ip = shiftOne (shiftOne ip) := by
  refine UInt32.toNat_inj.mp ?_
  rw [shiftOne_toNat, shiftOne_toNat, shiftTwo, UInt32.toNat_shiftLeft]
  change ip.toNat <<< 2 % 2 ^ 32 = _
  rw [Nat.shiftLeft_eq]
  omega

theorem flat_topPair (ip : UInt32) : flat [topPair ip] = [topBit ip, topBit (shiftOne ip)] := by
  have lt := ip.toNat_lt
  simp only [flat_cons, flat_nil, topPair_val, topBit_eq, shiftOne_toNat, Nat.testBit_eq_decide_div_mod_eq]
  congr 1
  · exact decide_eq_decide.mpr (by omega)
  · congr 1
    exact decide_eq_decide.mpr (by omega)

theorem flat_pairs (n : Nat) (ip : UInt32) : flat (pairs n ip) = bits (2 * n) ip := by
  induction n generalizing ip with
  | zero => rfl
  | succ n ih =>
      have first : flat (pairs (n + 1) ip) = flat [topPair ip] ++ flat (pairs n (shiftTwo ip)) := rfl
      rw [first, flat_topPair, ih, shiftTwo_eq]
      rfl

theorem pairs_succ (n : Nat) (ip : UInt32) :
    pairs (n + 1) ip = pairs n ip ++ [topPair (shiftTwo^[n] ip)] :=
  Trie.path_succ topPair shiftTwo n ip

theorem bits_eq_map {n : Nat} (short : n ≤ 32) (ip : UInt32) :
    bits n ip = (List.range n).map fun i => ip.toNat.testBit (31 - i) := by
  induction n generalizing ip with
  | zero => rfl
  | succ n ih =>
      have first : bits (n + 1) ip = topBit ip :: bits n (shiftOne ip) := rfl
      rw [first, ih (by omega), topBit_eq, List.range_succ_eq_map, List.map_cons, List.map_map]
      congr 1
      refine List.map_congr_left fun i inside => ?_
      have below := List.mem_range.mp inside
      have doubled : ip.toNat * 2 = ip.toNat <<< 1 := (Nat.shiftLeft_eq _ 1).symm
      have position : 31 - i - 1 = 31 - (i + 1) := by omega
      have low : 31 - i < 32 := by omega
      have high : 1 ≤ 31 - i := by omega
      rw [shiftOne_toNat, doubled, Nat.testBit_mod_two_pow, Nat.testBit_shiftLeft, position]
      simp [low, high]

theorem shift_toNat {i : Nat} (below : i < 32) :
    (32 - UInt32.ofNat (i + 1)).toNat % 32 = 31 - i := by
  have small : (UInt32.ofNat (i + 1)).toNat = i + 1 := UInt32.toNat_ofNat_of_lt' (by
    change i + 1 < 2 ^ 32
    omega)
  have le : UInt32.ofNat (i + 1) ≤ 32 := UInt32.le_iff_toNat_le.mpr (by
    rw [small]
    change i + 1 ≤ 32
    omega)
  rw [UInt32.toNat_sub_of_le _ _ le, small]
  change (32 - (i + 1)) % 32 = _
  omega

theorem shiftRight_eq_iff_testBit {a b n : Nat} (aSmall : a < 2 ^ 32) (bSmall : b < 2 ^ 32)
    (short : n ≤ 32) : (∀ i < n, a >>> (31 - i) = b >>> (31 - i)) ↔
      ∀ i < n, a.testBit (31 - i) = b.testBit (31 - i) := by
  constructor
  · intro equal i below
    have low := congrArg (Nat.testBit · 0) (equal i below)
    simpa [Nat.testBit_shiftRight] using low
  · intro equal i below
    refine Nat.eq_of_testBit_eq fun j => ?_
    rw [Nat.testBit_shiftRight, Nat.testBit_shiftRight]
    by_cases inside : j ≤ i
    · have position : 31 - i + j = 31 - (i - j) := by omega
      rw [position]
      exact equal (i - j) (by omega)
    · have high : 2 ^ 32 ≤ 2 ^ (31 - i + j) := Nat.pow_le_pow_right (by omega) (by omega)
      rw [Nat.testBit_lt_two_pow (aSmall.trans_le high),
        Nat.testBit_lt_two_pow (bSmall.trans_le high)]

theorem matchesPrefix_iff {leaf : Leaf} (short : leaf.preLen ≤ 32) (ip : UInt32) :
    CVTree.matchesPrefix leaf ip ↔ leaf.Covers ip := by
  have short' : leaf.preLen.toNat ≤ 32 := short
  have covers : leaf.Covers ip ↔ leaf.key = bits leaf.preLen.toNat ip := by
    rw [Leaf.Covers, List.prefix_iff_eq_take, length_key]
    rw [List.prefix_iff_eq_take.mp (bits_prefix_of_le short' ip), length_bits]
  rw [covers, Leaf.key, bits_eq_map short', bits_eq_map short']
  simp only [CVTree.matchesPrefix, List.all_eq_true, List.mem_range, beq_iff_eq,
    List.map_inj_left, ← UInt32.toNat_inj, UInt32.toNat_shiftRight]
  rw [← shiftRight_eq_iff_testBit leaf.subNet.toNat_lt ip.toNat_lt short']
  refine forall₂_congr fun i below => ?_
  have shift := shift_toNat (below.trans_le short')
  rw [shift]

end NetworkLab.Lookup
