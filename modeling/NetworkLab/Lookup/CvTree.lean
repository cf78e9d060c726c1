import NetworkLab.Lookup.PrefixTree

/-!
# Compressed vectors

`cvTree.cpp`: each node packs its leaves and its other children into two arrays.
`none` is a null pointer that is followed, or an index outside an array.
-/
set_option autoImplicit false

namespace NetworkLab.Lookup

open Lib

inductive CVTree
  | node (notLeaf : Fin 4 → Bool) (leafVec : List Leaf) (size : Nat) (childVec : Fin size → CVTree)

namespace CVTree

/-- The tree that is left when a node does not have four children. -/
def incomplete (notLeaf : Fin 4 → Bool) : CVTree := .node notLeaf [] 0 Fin.elim0

/-- The result of the call, and the tree that it fills in; it is never called on a null
pointer. -/
def constructCVTree : MulPTree → Bool × CVTree
  | .null => (false, incomplete fun _ => false)
  | .node _ child =>
    let notLeaf : Fin 4 → Bool := fun i => !(child i).isNull && !MulPTree.isLeaf (child i)
    let haveChild := (List.finRange 4).filter notLeaf
    let haveLeaf := (List.finRange 4).filter fun i => !(child i).isNull && MulPTree.isLeaf (child i)
    if haveLeaf.length + haveChild.length ≠ 4 then (false, incomplete notLeaf)
    else
      (true, .node notLeaf (haveLeaf.map fun i => ((child i).get? []).getD .blank) haveChild.length
        fun j => (constructCVTree (child (haveChild.get j))).2)

def count (notLeaf : Fin 4 → Bool) (loc : Fin 4) : Nat :=
  ((List.finRange 4).filter fun i => i < loc && notLeaf i).length

/-- The descent, up to the element of `LeafVec`. -/
def leafFor : CVTree → UInt32 → Option Leaf
  | .node notLeaf leafVec size childVec, ip =>
    let loc := topPair ip
    if notLeaf loc then
      if inside : count notLeaf loc < size then leafFor (childVec ⟨_, inside⟩) (shiftTwo ip)
      else none
    else leafVec[loc - count notLeaf loc]?

/-- The loop from 1 to `prelen` over the prefixes. -/
def matchesPrefix (leaf : Leaf) (ip : UInt32) : Bool :=
  (List.range leaf.preLen.toNat).all fun i =>
    leaf.subNet >>> (32 - UInt32.ofNat (i + 1)) == ip >>> (32 - UInt32.ofNat (i + 1))

def search (tree : CVTree) (ip : UInt32) : Option Leaf :=
  (tree.leafFor ip).map fun leaf => if matchesPrefix leaf ip then leaf else .blank

end CVTree

end NetworkLab.Lookup
