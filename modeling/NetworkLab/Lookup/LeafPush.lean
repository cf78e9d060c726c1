import NetworkLab.Lib.LastWrite
import NetworkLab.Lookup.PrefixTree
import Mathlib.Order.Fin.Basic

/-!
# What the leaf push leaves in a missing place

The node that a call is handed goes into its missing places, and calls that come later
may still write to it.  `push_target` gives the entry in such a place in the end: that of
the last node, in the order of the visits, which writes to the node that fills the place.
-/
set_option autoImplicit false

namespace NetworkLab.Lookup.MulPTree

open Lib

section Loop

variable {τ ρ : Type} {body : Fin 4 → ρ → τ × ρ} {state : ρ} {result : (Fin 4 → τ) × ρ}

theorem forChildren_state (made : forChildren body state = result) {R : ρ → ρ → Prop}
    (trans : ∀ {s t u}, R s t → R t u → R s u) (each : ∀ i s, R s (body i s).2) :
    R state result.2 := by
  subst made
  exact trans (trans (trans (each 0 _) (each 1 _)) (each 2 _)) (each 3 _)

theorem forChildren_count (made : forChildren body state = result) {I : Nat → ρ → Prop}
    (start : I 0 state) (step : ∀ (j : Fin 4) s, I j s → I (j + 1) (body j s).2) :
    I 4 result.2 := by
  subst made
  exact step 3 _ (step 2 _ (step 1 _ (step 0 _ start)))

/-- The loop around iteration `i`: what the iterations before it and after it do. -/
theorem forChildren_split (made : forChildren body state = result) (i : Fin 4)
    {I : Nat → ρ → Prop} (start : I 0 state)
    (before : ∀ (j : Fin 4) s, I j s → I (j + 1) (body j s).2) :
    ∃ s, I i s ∧ result.1 i = (body i s).1 ∧
      ∀ J : Nat → ρ → Prop, J (i + 1) (body i s).2 →
        (∀ (j : Fin 4) s, i < j → J j s → J (j + 1) (body j s).2) → J 4 result.2 := by
  subst made
  match i with
  | 0 =>
      exact ⟨_, start, rfl, fun J here after =>
        after 3 _ (by decide) (after 2 _ (by decide) (after 1 _ (by decide) here))⟩
  | 1 =>
      exact ⟨_, before 0 _ start, rfl, fun J here after =>
        after 3 _ (by decide) (after 2 _ (by decide) here)⟩
  | 2 =>
      exact ⟨_, before 1 _ (before 0 _ start), rfl, fun J here after => after 3 _ (by decide) here⟩
  | 3 => exact ⟨_, before 2 _ (before 1 _ (before 0 _ start)), rfl, fun J here _ => here⟩

end Loop

section Memory

/-- The entry of node `m` stays. -/
def Holds (m : Nat) (nodes after : List Leaf) : Prop :=
  ∀ leaf, nodes[m]? = some leaf → after[m]? = some leaf

/-- No node disappears, and only `node` changes. -/
def Extends (node : Nat) (nodes after : List Leaf) : Prop :=
  nodes.length ≤ after.length ∧ ∀ m, m ≠ node → Holds m nodes after

theorem Holds.refl (m : Nat) (nodes : List Leaf) : Holds m nodes nodes := fun _ => id

theorem Holds.trans {m : Nat} {nodes middle after : List Leaf} (first : Holds m nodes middle)
    (second : Holds m middle after) : Holds m nodes after :=
  fun leaf stored => second leaf (first leaf stored)

theorem Extends.refl (node : Nat) (nodes : List Leaf) : Extends node nodes nodes :=
  ⟨le_rfl, fun m _ => Holds.refl m nodes⟩

theorem Extends.trans {node : Nat} {nodes middle after : List Leaf}
    (first : Extends node nodes middle) (second : Extends node middle after) :
    Extends node nodes after :=
  ⟨first.1.trans second.1, fun m other => (first.2 m other).trans (second.2 m other)⟩

theorem length_writeNode (data : Leaf) (node : Nat) (nodes : List Leaf) :
    (writeNode data node nodes).length = nodes.length := by
  unfold writeNode
  split_ifs <;> simp

theorem writeNode_extends (data : Leaf) (node : Nat) (nodes : List Leaf) :
    Extends node nodes (writeNode data node nodes) := by
  refine ⟨(length_writeNode data node nodes).ge, fun m other leaf stored => ?_⟩
  unfold writeNode
  split_ifs
  · rwa [List.getElem?_set_ne (Ne.symm other)]
  · exact stored

theorem holds_append (m : Nat) (nodes rest : List Leaf) : Holds m nodes (nodes ++ rest) := by
  intro leaf stored
  obtain ⟨inside, -⟩ := List.getElem?_eq_some_iff.mp stored
  rwa [List.getElem?_append_left inside]

theorem extends_fresh {node : Nat} {nodes written after : List Leaf} {leaf : Leaf}
    (first : Extends node nodes written)
    (second : Extends written.length (written ++ [leaf]) after) : Extends node nodes after := by
  refine ⟨first.1.trans ((by simp : written.length ≤ (written ++ [leaf]).length).trans second.1),
    fun m other => (first.2 m other).trans fun old stored => ?_⟩
  obtain ⟨inside, -⟩ := List.getElem?_eq_some_iff.mp stored
  exact second.2 m inside.ne old (holds_append m written [leaf] old stored)

/-- The writes to node `m`, in the order of their positions. -/
def Written (m : Nat) (writes : List (Fin 4) → Leaf → Prop) (nodes after : List Leaf) : Prop :=
  ∀ old, nodes[m]? = some old → ∃ new, after[m]? = some new ∧ LastWrite writes old new

variable {m : Nat} {nodes middle after : List Leaf} {writes : List (Fin 4) → Leaf → Prop}

theorem Holds.written (holds : Holds m nodes after) (silent : ∀ path leaf, ¬ writes path leaf) :
    Written m writes nodes after :=
  fun old stored => ⟨old, holds old stored, .none silent⟩

/-- The writes of the children from `low` up to `high`. -/
def Among (W : Fin 4 → List (Fin 4) → Leaf → Prop) (low high : Nat) : List (Fin 4) → Leaf → Prop
  | [], _ => False
  | j :: rest, leaf => low ≤ j ∧ j < high ∧ W j rest leaf

theorem among_le_below {W : Fin 4 → List (Fin 4) → Leaf → Prop} {low : Nat} {i : Fin 4}
    {first second : List (Fin 4)} {leaf leaf' : Leaf} (early : Among W low i first leaf)
    (late : writesBelow i writes second leaf') : first ≤ second := by
  cases first with
  | nil => exact early.elim
  | cons j rest =>
      cases second with
      | nil => exact late.elim
      | cons k rest' =>
          obtain ⟨rfl, -⟩ := late
          exact cons_le_of_lt early.2.1

theorem Written.start (W : Fin 4 → List (Fin 4) → Leaf → Prop) (low : Nat) :
    Written m (Among W low low) nodes nodes := by
  refine (Holds.refl m nodes).written fun path leaf writes => ?_
  cases path with
  | nil => exact writes
  | cons j rest => exact absurd writes.2.1 (Nat.not_lt.mpr writes.1)

theorem Written.next {W : Fin 4 → List (Fin 4) → Leaf → Prop} {low : Nat} {k : Fin 4}
    (before : Written m (Among W low k) nodes middle) (here : Written m (W k) middle after)
    (le : low ≤ k) : Written m (Among W low (k + 1)) nodes after := by
  intro old stored
  obtain ⟨mid, isMid, first⟩ := before old stored
  obtain ⟨new, isNew, second⟩ := here mid isMid
  refine ⟨new, isNew, (first.append (second.below k) ?_).congr ?_⟩
  · exact fun first leaf second leaf' early late => among_le_below early late
  · rintro (_ | ⟨j, rest⟩) leaf
    · simp [Among, writesBelow]
    · simp only [Among, writesBelow, Nat.lt_succ_iff]
      constructor
      · rintro (⟨above, below, writes⟩ | ⟨rfl, writes⟩)
        · exact ⟨above, below.le, writes⟩
        · exact ⟨le, le_rfl, writes⟩
      · rintro ⟨above, below, writes⟩
        rcases below.eq_or_lt with same | less
        · obtain rfl := Fin.ext same
          exact .inr ⟨rfl, writes⟩
        · exact .inl ⟨above, less, writes⟩

end Memory

section Push

theorem push_extends (tree : MulPTree) (node : Nat) (nodes : List Leaf) :
    Extends node nodes (mleafPushFrom tree node nodes).2 := by
  induction tree generalizing node nodes with
  | null => exact Extends.refl node nodes
  | node data child ih =>
      by_cases leaf : ∀ i, (child i).isNull
      · rw [mleafPushFrom_leaf node nodes leaf]
        exact Extends.refl node nodes
      by_cases full : ∀ i, ¬ (child i).isNull
      · rw [mleafPushFrom_full node nodes full]
        generalize made : forChildren _ _ = result
        exact (writeNode_extends data node nodes).trans
          (forChildren_state made Extends.trans fun i => ih i node)
      · rw [mleafPushFrom_gaps node nodes leaf full]
        generalize made : forChildren _ _ = result
        refine extends_fresh (writeNode_extends data node nodes)
          (forChildren_state made Extends.trans fun i s => ?_)
        split_ifs
        · exact Extends.refl _ s
        · exact ih i _ s

section Calls

variable (data : Leaf) (child : Fin 4 → MulPTree)

/-- The body of the loop in both branches. -/
def callChild (node handed : Nat) (i : Fin 4) (nodes : List Leaf) :
    Trie (Fin 4) PushedData × List Leaf :=
  if (child i).isNull then (.single (.shared node), nodes)
  else mleafPushFrom (child i) handed nodes

theorem callChild_state (node handed : Nat) (i : Fin 4) (nodes : List Leaf) :
    (callChild child node handed i nodes).2 = (mleafPushFrom (child i) handed nodes).2 := by
  unfold callChild
  split_ifs with missing
  · rw [Trie.isNull_iff.mp missing, mleafPushFrom]
  · rfl

/-- The entry of the handed node after the write of the call. -/
def written (old : Leaf) : Leaf := if data.subNet ≠ 0 then data else old

/-- What the loop of a call finds: its children are handed the node of the call, or a copy. -/
structure Handed (node : Nat) (nodes : List Leaf) (old : Leaf) (handed : Nat)
    (start : List Leaf) : Prop where
  copied : start[handed]? = some (written data old)
  here : start[node]? = some (written data old)
  grows : nodes.length ≤ start.length
  others : ∀ m, m ≠ node → Holds m nodes start
  fresh : (∀ i, ¬ (child i).isNull) ∧ handed = node ∨
    (¬ ∀ i, ¬ (child i).isNull) ∧ nodes.length ≤ handed

variable {child}

theorem mleafPushFrom_calls (inner : ¬ ∀ i, (child i).isNull) {node : Nat} {nodes : List Leaf}
    {old : Leaf} (stored : nodes[node]? = some old) :
    ∃ handed start, mleafPushFrom (.node data child) node nodes =
        (forChildren (callChild child node handed) start).map (Trie.node (.own data)) id ∧
      Handed data child node nodes old handed start := by
  obtain ⟨inside, -⟩ := List.getElem?_eq_some_iff.mp stored
  have now : (writeNode data node nodes)[node]? = some (written data old) := by
    unfold writeNode written
    split_ifs
    · simp [inside]
    · exact stored
  have others : ∀ m, m ≠ node → Holds m nodes (writeNode data node nodes) :=
    (writeNode_extends data node nodes).2
  by_cases full : ∀ i, ¬ (child i).isNull
  · refine ⟨node, writeNode data node nodes, ?_, now, now, (length_writeNode data node nodes).ge,
      others, .inl ⟨full, rfl⟩⟩
    have body : callChild child node node = fun i => mleafPushFrom (child i) node :=
      funext fun i => funext fun s => if_neg (full i)
    rw [mleafPushFrom_full node nodes full, body]
  · refine ⟨(writeNode data node nodes).length, writeNode data node nodes ++
      [(writeNode data node nodes).getD node .blank], mleafPushFrom_gaps node nodes inner full, ?_,
      holds_append node _ _ _ now, ?_, fun m other => (others m other).trans (holds_append m _ _),
      .inr ⟨full, (length_writeNode data node nodes).ge⟩⟩
    · simp [List.getD_eq_getElem?_getD, now]
    · simp [length_writeNode]

end Calls

section Writes

/-- The write of a call to the node that it is handed. -/
def ownWrite (data : Leaf) : List (Fin 4) → Leaf → Prop
  | [], leaf => data.subNet ≠ 0 ∧ leaf = data
  | _ :: _, _ => False

theorem ownWrite_le {data leaf : Leaf} {first : List (Fin 4)} (early : ownWrite data first leaf)
    (second : List (Fin 4)) : first ≤ second := by
  cases first with
  | nil => exact nil_le_path second
  | cons j rest => exact early.elim

theorem lastWrite_ownWrite (data old : Leaf) : LastWrite (ownWrite data) old (written data old) := by
  unfold written
  split_ifs with nonzero
  · refine .inr ⟨[], ⟨nonzero, rfl⟩, fun path leaf writes => ?_⟩
    cases path with
    | nil => exact le_rfl
    | cons i rest => exact writes.elim
  · refine .none fun path leaf writes => ?_
    cases path with
    | nil => exact nonzero writes.1
    | cons i rest => exact writes

/-- The writes of the push of this tree to the node that it is handed. -/
def Writes : MulPTree → List (Fin 4) → Leaf → Prop
  | .null, _, _ => False
  | .node data child, [], leaf => (¬ ∀ i, (child i).isNull) ∧ data.subNet ≠ 0 ∧ leaf = data
  | .node _ child, i :: rest, leaf => (∀ i, ¬ (child i).isNull) ∧ Writes (child i) rest leaf

theorem mleafPushFrom_writes (tree : MulPTree) (node : Nat) (nodes : List Leaf) :
    Written node (Writes tree) nodes (mleafPushFrom tree node nodes).2 := by
  induction tree generalizing node nodes with
  | null => exact (Holds.refl node nodes).written fun _ _ => id
  | node data child ih =>
      by_cases leaf : ∀ i, (child i).isNull
      · rw [mleafPushFrom_leaf node nodes leaf]
        refine (Holds.refl node nodes).written fun path entry writes => ?_
        cases path with
        | nil => exact writes.1 leaf
        | cons i rest => exact writes.1 i (leaf i)
      intro old stored
      obtain ⟨handed, start, made, calls⟩ := mleafPushFrom_calls data leaf stored
      rw [made]
      generalize looped : forChildren _ _ = result
      rcases calls.fresh with ⟨full, rfl⟩ | ⟨gaps, fresh⟩
      · have loop : Written handed (Among (fun i => Writes (child i)) 0 4) start result.2 := by
          refine forChildren_count looped
            (I := fun k => Written handed (Among (fun i => Writes (child i)) 0 k) start)
            (Written.start _ 0) fun j s before => ?_
          rw [callChild_state]
          exact before.next (ih j handed s) (Nat.zero_le _)
        obtain ⟨new, isNew, last⟩ := loop _ calls.here
        refine ⟨new, isNew, ((lastWrite_ownWrite data old).append last ?_).congr ?_⟩
        · exact fun first leaf second leaf' early _ => ownWrite_le early second
        · rintro (_ | ⟨i, rest⟩) entry
          · simp [ownWrite, Among, Writes, leaf]
          · simp [ownWrite, Among, Writes, full]
      · obtain ⟨inside, -⟩ := List.getElem?_eq_some_iff.mp stored
        have loop : Extends handed start result.2 := by
          refine forChildren_state looped Extends.trans fun i s => ?_
          rw [callChild_state]
          exact push_extends (child i) handed s
        refine ⟨_, loop.2 node (by omega) _ calls.here, (lastWrite_ownWrite data old).congr ?_⟩
        rintro (_ | ⟨i, rest⟩) entry
        · simp [ownWrite, Writes, leaf]
        · simp only [ownWrite, Writes, gaps, false_and]

end Writes

section Target

/-- All nodes on the path, the last one apart, have four children: the node handed to the
first is handed to the last. -/
def FullAlong : MulPTree → List (Fin 4) → Prop
  | _, [] => True
  | .null, _ :: _ => False
  | .node _ child, i :: rest => (∀ j, ¬ (child j).isNull) ∧ FullAlong (child i) rest

/-- The writes to the node that is handed to the end of `path`, and before it is copied
those to the node that it is a copy of. -/
def Feeds : MulPTree → List (Fin 4) → List (Fin 4) → Leaf → Prop
  | .null, _, _, _ => False
  | .node data _, _, [], leaf => data.subNet ≠ 0 ∧ leaf = data
  | .node _ _, [], _ :: _, _ => False
  | .node _ child, i :: rest, j :: other, leaf =>
    if j = i then Feeds (child j) rest other leaf
    else Writes (child j) other leaf ∧ (j < i ∨ FullAlong (child i) rest)

theorem feeds_node {data : Leaf} {child : Fin 4 → MulPTree} {i : Fin 4}
    {rest path : List (Fin 4)} {leaf : Leaf} :
    Feeds (.node data child) (i :: rest) path leaf ↔
      ((ownWrite data path leaf ∨ Among (fun j => Writes (child j)) 0 i path leaf) ∨
        writesBelow i (Feeds (child i) rest) path leaf) ∨
          Among (fun j => Writes (child j)) (i + 1) 4 path leaf ∧ FullAlong (child i) rest := by
  cases path with
  | nil => simp [Feeds, ownWrite, Among, writesBelow]
  | cons j other =>
      simp only [Feeds, ownWrite, Among, writesBelow]
      rcases lt_trichotomy j i with before | rfl | after
      · have other := before.ne
        have notAfter : ¬ i.val + 1 ≤ j.val := by omega
        simp [other, before, notAfter]
      · simp
      · have other := after.ne'
        have notBefore := after.not_gt
        have later : i.val + 1 ≤ j.val := after
        have inside : j.val < 4 := j.isLt
        simp [other, notBefore, later, inside]

/-- The writes up to child `i` come before those of the later children. -/
theorem le_among {data leaf leaf' : Leaf} {W V : Fin 4 → List (Fin 4) → Leaf → Prop} {i : Fin 4}
    {U : List (Fin 4) → Leaf → Prop} {first second : List (Fin 4)}
    (early : (ownWrite data first leaf ∨ Among W 0 i first leaf) ∨ writesBelow i U first leaf)
    (late : Among V (i + 1) 4 second leaf') : first ≤ second := by
  cases first with
  | nil => exact nil_le_path second
  | cons j rest =>
      cases second with
      | nil => exact late.elim
      | cons k rest' =>
          have after : i < k := late.1
          rcases early with (own | ⟨-, before, -⟩) | ⟨rfl, -⟩
          · exact own.elim
          · exact cons_le_of_lt ((Fin.lt_def.mpr before).trans after)
          · exact cons_le_of_lt after

/-- A missing child of the node itself is filled with the node that it is handed. -/
theorem push_missing {data : Leaf} {child : Fin 4 → MulPTree} {slot : Fin 4}
    (inner : ¬ ∀ i, (child i).isNull) (missing : (child slot).isNull) {node : Nat}
    {nodes : List Leaf} {old : Leaf} (stored : nodes[node]? = some old) :
    ∃ new, (mleafPushFrom (.node data child) node nodes).1.sub [slot] = .single (.shared node) ∧
      (mleafPushFrom (.node data child) node nodes).2[node]? = some new ∧
      LastWrite (Feeds (.node data child) []) old new := by
  obtain ⟨inside, -⟩ := List.getElem?_eq_some_iff.mp stored
  obtain ⟨handed, start, made, calls⟩ := mleafPushFrom_calls data inner stored
  rw [made]
  generalize looped : forChildren _ _ = result
  have filled : result.1 slot = .single (.shared node) :=
    forChildren_forall looped (fun i t => i = slot → t = .single (.shared node))
      (by rintro i s rfl; simp [callChild, missing]) slot rfl
  have other : node ≠ handed := by
    rcases calls.fresh with ⟨full, -⟩ | ⟨-, fresh⟩
    · exact absurd missing (full slot)
    · omega
  have loop : Extends handed start result.2 := by
    refine forChildren_state looped Extends.trans fun i s => ?_
    rw [callChild_state]
    exact push_extends (child i) handed s
  refine ⟨_, by simpa using filled, loop.2 node other _ calls.here,
    (lastWrite_ownWrite data old).congr ?_⟩
  rintro (_ | ⟨i, rest⟩) leaf
  · simp [ownWrite, Feeds]
  · simp [ownWrite, Feeds]

/-- From child `i` on, the later children write to the node if it is still shared. -/
theorem written_behind {child : Fin 4 → MulPTree} {i : Fin 4} {rest : List (Fin 4)}
    {node handed m : Nat} {here final : List Leaf}
    (after : ∀ J : Nat → List Leaf → Prop, J (i + 1) here →
      (∀ (j : Fin 4) s, i < j → J j s → J (j + 1) (callChild child node handed j s).2) → J 4 final)
    (cell : m = handed ∧ FullAlong (child i) rest ∨ m ≠ handed ∧ ¬ FullAlong (child i) rest) :
    Written m (fun path leaf =>
      Among (fun j => Writes (child j)) (i + 1) 4 path leaf ∧ FullAlong (child i) rest)
      here final := by
  rcases cell with ⟨rfl, along⟩ | ⟨other, apart⟩
  · have loop := after (fun k => Written m (Among (fun j => Writes (child j)) (i + 1) k) here)
      (Written.start _ _) fun j t later written => by
        rw [callChild_state]
        exact written.next (mleafPushFrom_writes (child j) m t) later
    simpa [along] using loop
  · have loop := after (fun _ => Extends handed here) (Extends.refl _ _) fun j t _ extended => by
      rw [callChild_state]
      exact extended.trans (push_extends (child j) handed t)
    exact (loop.2 m other).written fun path leaf writes => apart writes.2

theorem push_target {tree : MulPTree} {path : List (Fin 4)} {data : Leaf}
    {child : Fin 4 → MulPTree} {slot : Fin 4} (reached : tree.sub path = .node data child)
    (inner : ¬ ∀ i, (child i).isNull) (missing : (child slot).isNull) {node : Nat}
    {nodes : List Leaf} {old : Leaf} (stored : nodes[node]? = some old) :
    ∃ m new, (mleafPushFrom tree node nodes).1.sub (path ++ [slot]) = .single (.shared m) ∧
      (mleafPushFrom tree node nodes).2[m]? = some new ∧ LastWrite (Feeds tree path) old new ∧
      (m = node ∧ FullAlong tree path ∨ nodes.length ≤ m ∧ ¬ FullAlong tree path) := by
  induction path generalizing tree node nodes old with
  | nil =>
      rw [Trie.sub_nil] at reached
      subst reached
      obtain ⟨new, filled, isNew, last⟩ := push_missing inner missing stored
      exact ⟨node, new, filled, isNew, last, .inl ⟨rfl, trivial⟩⟩
  | cons i rest ih =>
      cases tree with
      | null => simp at reached
      | node above children =>
          rw [Trie.sub_node_cons] at reached
          have present := Trie.not_isNull_of_sub reached
          have notLeaf : ¬ ∀ j, (children j).isNull := fun leaf => present (leaf i)
          obtain ⟨handed, start, made, calls⟩ := mleafPushFrom_calls above notLeaf stored
          rw [made]
          generalize looped : forChildren _ _ = result
          -- up to child `i`, the writes of the children before it
          obtain ⟨s, ⟨extended, before⟩, here, after⟩ := forChildren_split looped i
            (I := fun k s => Extends handed start s ∧
              Written handed (Among (fun j => Writes (children j)) 0 k) start s)
            ⟨Extends.refl handed start, Written.start _ 0⟩
            (fun j s ⟨extended, written⟩ => by
              rw [callChild_state]
              exact ⟨extended.trans (push_extends (children j) handed s),
                written.next (mleafPushFrom_writes (children j) handed s) (Nat.zero_le _)⟩)
          obtain ⟨mid, isMid, lastBefore⟩ := before _ calls.copied
          obtain ⟨m, new, isShared, isNew, lastHere, cell⟩ := ih reached isMid
          have called : callChild children node handed i s = mleafPushFrom (children i) handed s :=
            if_neg present
          rw [called] at here after
          obtain ⟨insideHanded, -⟩ := List.getElem?_eq_some_iff.mp calls.copied
          have long := extended.1
          have later := written_behind after
            (cell.imp_right fun fresh => ⟨by omega, fresh.2⟩)
          obtain ⟨final, isFinal, lastAfter⟩ := later new isNew
          refine ⟨m, final, by simpa [here] using isShared, isFinal, ?_, ?_⟩
          · refine (((((lastWrite_ownWrite above old).append lastBefore ?_).append
              (lastHere.below i) ?_).append lastAfter ?_)).congr fun path leaf => feeds_node.symm
            · exact fun first leaf second leaf' early _ => ownWrite_le early second
            · intro first leaf second leaf' early late
              exact early.elim (ownWrite_le · second) (among_le_below · late)
            · rintro first leaf second leaf' early ⟨late, -⟩
              exact le_among early late
          · rcases calls.fresh with ⟨full, rfl⟩ | ⟨gaps, fresh⟩
            · refine cell.imp (fun same => ⟨same.1, full, same.2⟩) fun apart => ?_
              exact ⟨calls.grows.trans (long.trans apart.1), fun along => apart.2 along.2⟩
            · refine .inr ⟨?_, fun along => gaps along.1⟩
              rcases cell with ⟨rfl, -⟩ | ⟨above, -⟩
              · exact fresh
              · exact calls.grows.trans (long.trans above)

end Target

theorem push_leaf {tree : MulPTree} {path : List (Fin 4)} {data : Leaf}
    (reached : tree.sub path = .single data) (node : Nat) (nodes : List Leaf) :
    (mleafPushFrom tree node nodes).1.sub path = .single (.own data) := by
  induction path generalizing tree node nodes with
  | nil =>
      rw [Trie.sub_nil] at reached
      rw [reached, Trie.single, mleafPushFrom_leaf node nodes fun _ => rfl, Trie.sub_nil]
  | cons i rest ih =>
      cases tree with
      | null => simp [Trie.single] at reached
      | node above children =>
          rw [Trie.sub_node_cons] at reached
          have present := Trie.not_isNull_of_sub reached
          obtain ⟨pushed, after, made, each⟩ := mleafPushFrom_inner above node nodes
            (fun leaf => present (leaf i))
            (fun j t => j = i → t.sub rest = .single (.own data))
            (by rintro j node nodes - rfl; exact ih reached node nodes)
            (by rintro j isNull rfl; exact absurd isNull present)
          rw [made, Trie.sub_node_cons]
          exact each i rfl

end Push

section Pushed

variable {tree : MulPTree} {path : List (Fin 4)} {data : Leaf}

theorem mleafPush_leaf (reached : tree.sub path = .single data) :
    tree.mleafPush.sub path = .single data := by
  rw [mleafPush, Trie.sub_map, push_leaf reached]
  rfl

theorem mleafPush_target {child : Fin 4 → MulPTree} {slot : Fin 4}
    (reached : tree.sub path = .node data child) (inner : ¬ ∀ i, (child i).isNull)
    (missing : (child slot).isNull) :
    ∃ leaf, tree.mleafPush.sub (path ++ [slot]) = .single leaf ∧
      LastWrite (Feeds tree path) .blank leaf := by
  have blank : [Leaf.blank][0]? = some .blank := rfl
  obtain ⟨m, leaf, isShared, isNew, last, -⟩ := push_target reached inner missing blank
  refine ⟨leaf, ?_, last⟩
  rw [mleafPush, Trie.sub_map, isShared]
  simp [Trie.single, Trie.map, PushedData.read, isNew]

end Pushed

end NetworkLab.Lookup.MulPTree
