import NetworkLab.Lib.Trie
import Mathlib.Data.Fintype.Basic

/-!
# Prefix trees

`prefixTree.cpp`: the tree on single bits and the tree on pairs of bits, both with
null pointers for missing children.  Nothing shares a node before `MleafPush`, which
puts the node that it is handed into every missing place and still writes to it later:
`PushedData` tells the data of a node itself from such a reference.
-/
set_option autoImplicit false

namespace NetworkLab.Lookup

open Lib

/-- The fields of a tree node, and `struct Leaf`. -/
structure Leaf where
  subNet : UInt32
  preLen : UInt8
  port : UInt8
deriving DecidableEq

def Leaf.blank : Leaf := { subNet := 0, preLen := 0, port := 0 }

abbrev PTree := Trie Bool Leaf

abbrev MulPTree := Trie (Fin 4) Leaf

def topBit (ip : UInt32) : Bool := ip &&& 0x80000000 != 0

def shiftOne (ip : UInt32) : UInt32 := ip <<< 1

def topPair (ip : UInt32) : Fin 4 := Fin.ofNat 4 ((ip &&& 0xc0000000) >>> 30).toNat

def shiftTwo (ip : UInt32) : UInt32 := ip <<< 2

/-- The loop that counts equal prefixes.  With 32 equal bits it ends on a shift by -1;
the count is at least 32 then whatever that shift gives. -/
def bite (subNet : UInt32) (preLen : Nat) (ip : UInt32) : Nat :=
  ((List.range (preLen + 1)).takeWhile fun i =>
    subNet >>> (31 - UInt32.ofNat i) == ip >>> (31 - UInt32.ofNat i)).length

/-- The end of both `Search` functions: `q` is the last node of the descent. -/
def checkPrefix (this q : Leaf) (ip : UInt32) : Leaf :=
  if bite q.subNet q.preLen.toNat ip < q.preLen.toNat then this else q

namespace PTree

def chain (new : Leaf) : UInt32 → Nat → PTree
  | _, 0 => .single new
  | nodeIp, preLen + 1 =>
    .node .blank
      (Function.update (fun _ => .null) (topBit nodeIp) (chain new (shiftOne nodeIp) preLen))

def insertFrom (new : Leaf) : UInt32 → Nat → PTree → PTree
  | _, 0, .null => .single new
  | _, 0, .node _ child => .node new child
  | nodeIp, preLen + 1, .null => chain new nodeIp (preLen + 1)
  | nodeIp, preLen + 1, .node data child =>
    .node data (Function.update child (topBit nodeIp)
      (insertFrom new (shiftOne nodeIp) preLen (child (topBit nodeIp))))

def insert (tree : PTree) (new : Leaf) : PTree :=
  insertFrom new new.subNet new.preLen.toNat tree

def construct (routes : List Leaf) : PTree := routes.foldl insert (.single .blank)

def search : PTree → UInt32 → Option Leaf
  | .null, _ => none
  | .node this child, ip =>
    some (checkPrefix this ((Trie.node this child).walk topBit shiftOne ip this) ip)

theorem construct_concat (routes : List Leaf) (new : Leaf) :
    construct (routes ++ [new]) = (construct routes).insert new :=
  List.foldl_concat insert _ new routes

end PTree

namespace MulPTree

def isLeaf : {δ : Type} → Trie (Fin 4) δ → Bool
  | _, .null => true
  | _, .node _ child => decide (∀ i, (child i).isNull)

/-- The two children for an odd prefix: it is stored where nothing is yet. -/
def fillPair (new : Leaf) (nodeIp : UInt32) (child : Fin 4 → MulPTree) : Fin 4 → MulPTree :=
  fun i => if i.val / 2 = (topPair nodeIp).val / 2 ∧ (child i).isNull then .single new else child i

def chain (new : Leaf) : UInt32 → Nat → MulPTree
  | _, 0 => .single new
  | nodeIp, 1 => .node .blank (fillPair new nodeIp fun _ => .null)
  | nodeIp, preLen + 2 =>
    .node .blank
      (Function.update (fun _ => .null) (topPair nodeIp) (chain new (shiftTwo nodeIp) preLen))

def insertFrom (new : Leaf) : UInt32 → Nat → MulPTree → MulPTree
  | _, 0, .null => .single new
  | _, 0, .node _ child => .node new child
  | nodeIp, 1, .null => .node .blank (fillPair new nodeIp fun _ => .null)
  | nodeIp, 1, .node data child => .node data (fillPair new nodeIp child)
  | nodeIp, preLen + 2, .null => chain new nodeIp (preLen + 2)
  | nodeIp, preLen + 2, .node data child =>
    .node data (Function.update child (topPair nodeIp)
      (insertFrom new (shiftTwo nodeIp) preLen (child (topPair nodeIp))))

def insert (tree : MulPTree) (new : Leaf) : MulPTree :=
  insertFrom new new.subNet new.preLen.toNat tree

def construct (routes : List Leaf) : MulPTree := routes.foldl insert (.single .blank)

def search : MulPTree → UInt32 → Option Leaf
  | .null, _ => none
  | .node this child, ip =>
    some (checkPrefix this ((Trie.node this child).walk topPair shiftTwo ip this) ip)

inductive PushedData
  | own (leaf : Leaf)
  | shared (node : Nat)
deriving DecidableEq

def forChildren {τ ρ : Type} (body : Fin 4 → ρ → τ × ρ) (state : ρ) : (Fin 4 → τ) × ρ :=
  let (t₀, state) := body 0 state
  let (t₁, state) := body 1 state
  let (t₂, state) := body 2 state
  let (t₃, state) := body 3 state
  (fun i => if i = 0 then t₀ else if i = 1 then t₁ else if i = 2 then t₂ else t₃, state)

/-- The write of `MleafPush` to the node that it is handed. -/
def writeNode (data : Leaf) (node : Nat) (nodes : List Leaf) : List Leaf :=
  if data.subNet ≠ 0 then nodes.set node data else nodes

/-- `nodes` is the memory of the nodes handed down, `node` the one handed to this call. -/
def mleafPushFrom : MulPTree → Nat → List Leaf → Trie (Fin 4) PushedData × List Leaf
  | .null, _, nodes => (.null, nodes)
  | .node data child, node, nodes =>
    if ∀ i, (child i).isNull then (.single (.own data), nodes)
    else
      let nodes := writeNode data node nodes
      if ∀ i, ¬ (child i).isNull then
        let (children, nodes) := forChildren (fun i => mleafPushFrom (child i) node) nodes
        (.node (.own data) children, nodes)
      else
        let newNode := nodes.length
        let (children, nodes) := forChildren
          (fun i nodes =>
            if (child i).isNull then (.single (.shared node), nodes)
            else mleafPushFrom (child i) newNode nodes)
          (nodes ++ [nodes.getD node .blank])
        (.node (.own data) children, nodes)

def PushedData.read (nodes : List Leaf) : PushedData → Leaf
  | .own leaf => leaf
  | .shared node => nodes.getD node .blank

/-- The tree after `MleafPush` with a blank node, every pointer followed. -/
def mleafPush (tree : MulPTree) : MulPTree :=
  let (pushed, nodes) := mleafPushFrom tree 0 [.blank]
  pushed.map (PushedData.read nodes)

theorem construct_concat (routes : List Leaf) (new : Leaf) :
    construct (routes ++ [new]) = (construct routes).insert new :=
  List.foldl_concat insert _ new routes

theorem forChildren_forall {τ ρ : Type} {body : Fin 4 → ρ → τ × ρ} {state : ρ}
    {result : (Fin 4 → τ) × ρ} (made : forChildren body state = result) (P : Fin 4 → τ → Prop)
    (each : ∀ i state, P i (body i state).1) : ∀ i, P i (result.1 i) := by
  subst made
  exact fun i => match i with
    | 0 => each 0 _
    | 1 => each 1 _
    | 2 => each 2 _
    | 3 => each 3 _

section Push

variable {data : Leaf} {child : Fin 4 → MulPTree} (node : Nat) (nodes : List Leaf)

theorem mleafPushFrom_leaf (leaf : ∀ i, (child i).isNull) :
    mleafPushFrom (.node data child) node nodes = (.single (.own data), nodes) := by
  simp [mleafPushFrom, leaf]

theorem mleafPushFrom_full (full : ∀ i, ¬ (child i).isNull) :
    mleafPushFrom (.node data child) node nodes =
      ((forChildren (fun i => mleafPushFrom (child i) node) (writeNode data node nodes)).map
        (Trie.node (.own data)) id) := by
  have notLeaf : ¬ ∀ i, (child i).isNull := fun leaf => full 0 (leaf 0)
  simp only [mleafPushFrom, if_neg notLeaf, if_pos full]
  rfl

theorem mleafPushFrom_gaps (notLeaf : ¬ ∀ i, (child i).isNull)
    (gaps : ¬ ∀ i, ¬ (child i).isNull) :
    mleafPushFrom (.node data child) node nodes =
      ((forChildren
        (fun i after =>
          if (child i).isNull then (.single (.shared node), after)
          else mleafPushFrom (child i) (writeNode data node nodes).length after)
        (writeNode data node nodes ++ [(writeNode data node nodes).getD node .blank])).map
        (Trie.node (.own data)) id) := by
  simp only [mleafPushFrom, if_neg notLeaf, if_neg gaps]
  rfl

/-- An inner node stays one, and each of its four children is a pushed child or the node
that was handed down. -/
theorem mleafPushFrom_inner (data : Leaf) {child : Fin 4 → MulPTree} (node : Nat)
    (nodes : List Leaf) (inner : ¬ ∀ i, (child i).isNull)
    (P : Fin 4 → Trie (Fin 4) PushedData → Prop)
    (pushed : ∀ i node nodes, ¬ (child i).isNull → P i (mleafPushFrom (child i) node nodes).1)
    (filled : ∀ i, (child i).isNull → P i (.single (.shared node))) :
    ∃ children after, mleafPushFrom (.node data child) node nodes =
      (.node (.own data) children, after) ∧ ∀ i, P i (children i) := by
  by_cases full : ∀ i, ¬ (child i).isNull
  · rw [mleafPushFrom_full node nodes full]
    generalize made : forChildren _ _ = result
    refine ⟨result.1, result.2, rfl, forChildren_forall made P ?_⟩
    exact fun i after => pushed i node after (full i)
  · rw [mleafPushFrom_gaps node nodes inner full]
    generalize made : forChildren _ _ = result
    refine ⟨result.1, result.2, rfl, forChildren_forall made P ?_⟩
    intro i after
    split_ifs with missing
    · exact filled i missing
    · exact pushed i _ after missing

end Push

end MulPTree

end NetworkLab.Lookup
