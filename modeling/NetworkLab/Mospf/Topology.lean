import Mathlib.Data.List.Nodup
import NetworkLab.Mospf.ShortestPaths

/-!
# The topology that a database describes

`Hop` says which nodes of the database are neighbours, with no reference to the arrays;
`caculate_graph` gets through when the nodes fit and every advertised router is among
them, and leaves the matrix of this relation.
-/
set_option autoImplicit false

namespace NetworkLab.Mospf

open Lib

section Definitions

variable (routerId : UInt32) (db : List MospfDbEntry)

/-- The routers in the order of `Node`. -/
def rids : List UInt32 := routerId :: db.map MospfDbEntry.rid

/-- An LSA with `rid` 0 stands for a network without a neighbour. -/
def MospfDbEntry.Advertises (entry : MospfDbEntry) (rid : UInt32) : Prop :=
  rid ≠ 0 ∧ ∃ lsa ∈ entry.array.take entry.nadv.toNat, lsa.rid = rid

def Advertised (a b : UInt32) : Prop := ∃ entry ∈ db, entry.rid = a ∧ entry.Advertises b

/-- Nodes `x` and `y` are neighbours: one of them advertises the other. -/
def Hop (x y : Nat) : Prop :=
  x ≠ y ∧ ∃ a b, (rids routerId db)[x]? = some a ∧ (rids routerId db)[y]? = some b ∧
    (Advertised db a b ∨ Advertised db b a)

/-- `array` has the LSAs that `nadv` counts. -/
def Sized : Prop := ∀ entry ∈ db, 0 ≤ entry.nadv ∧ entry.nadv ≤ entry.array.length

/-- Every advertised router has an entry, or is the router itself. -/
def Known : Prop := ∀ entry ∈ db, ∀ rid, entry.Advertises rid → rid ∈ rids routerId db

end Definitions

section Nodes

variable {node : Nat → UInt32} {rid : UInt32}

theorem getNodeFrom_some {left i j : Nat} (found : getNodeFrom node rid left i = some j) :
    i ≤ j ∧ j < i + left ∧ node j = rid := by
  induction left generalizing i with
  | zero => cases found
  | succ left ih =>
      obtain ⟨here, isHere, found⟩ := Option.bind_eq_some_iff.mp found
      unfold readAt at isHere
      split_ifs at isHere
      obtain rfl := Option.some.inj isHere
      split_ifs at found with same
      · obtain rfl := Option.some.inj found
        exact ⟨le_rfl, by omega, same.symm⟩
      · obtain ⟨low, high, isRid⟩ := ih found
        exact ⟨by omega, by omega, isRid⟩

theorem getNodeFrom_isSome {left i : Nat} (small : i + left ≤ MAX_NUM) :
    (getNodeFrom node rid left i).isSome ↔ ∃ j, i ≤ j ∧ j < i + left ∧ node j = rid := by
  constructor
  · intro success
    obtain ⟨j, found⟩ := Option.isSome_iff_exists.mp success
    exact ⟨j, getNodeFrom_some found⟩
  · rintro ⟨j, low, high, isRid⟩
    induction left generalizing i with
    | zero => omega
    | succ left ih =>
        have inside : i < MAX_NUM := by omega
        by_cases here : rid = node i
        · simp [getNodeFrom, readAt, inside, here]
        · have later : i + 1 ≤ j := by
            refine Nat.succ_le_of_lt (lt_of_le_of_ne low fun same => here ?_)
            rw [same, isRid]
          simpa [getNodeFrom, readAt, inside, here] using ih (by omega) later (by omega)

/-- `Node` holds these routers. -/
def Holding (node : Nat → UInt32) (routers : List UInt32) : Prop :=
  ∀ x a, routers[x]? = some a → node x = a

theorem getNode_isSome {routers : List UInt32} (holding : Holding node routers)
    (small : routers.length ≤ MAX_NUM) :
    (getNode node rid routers.length).isSome ↔ rid ∈ routers := by
  rw [getNode, getNodeFrom_isSome (by omega), List.mem_iff_getElem?]
  constructor
  · rintro ⟨x, -, high, isRid⟩
    have bound : x < routers.length := by omega
    have here := List.getElem?_eq_getElem bound
    exact ⟨x, by rw [here, ← holding x _ here, isRid]⟩
  · rintro ⟨x, here⟩
    obtain ⟨bound, -⟩ := List.getElem?_eq_some_iff.mp here
    exact ⟨x, Nat.zero_le x, by omega, holding x rid here⟩

theorem getNode_some {routers : List UInt32} (holding : Holding node routers)
    {x : Nat} (found : getNode node rid routers.length = some x) : routers[x]? = some rid := by
  obtain ⟨-, high, isRid⟩ := getNodeFrom_some found
  have here := List.getElem?_eq_getElem (show x < routers.length by omega)
  rw [here, ← holding x _ here, isRid]

theorem addNodes {db : List MospfDbEntry} {routers : List UInt32} (holding : Holding node routers)
    (small : routers.length + db.length ≤ MAX_NUM) :
    ∃ filled, db.foldlM addNode (routers.length, node) =
        some (routers.length + db.length, filled) ∧
      Holding filled (routers ++ db.map MospfDbEntry.rid) := by
  induction db generalizing node routers with
  | nil => exact ⟨node, rfl, by simpa using holding⟩
  | cons entry rest ih =>
      rw [List.length_cons] at small
      have inside : routers.length < MAX_NUM := by omega
      have grown : Holding (Function.update node routers.length entry.rid) (routers ++ [entry.rid]) := by
        intro x a here
        by_cases last : x = routers.length
        · subst last
          simpa using here
        · have bound : x < routers.length := by
            obtain ⟨within, -⟩ := List.getElem?_eq_some_iff.mp here
            rw [List.length_append, List.length_singleton] at within
            omega
          rw [List.getElem?_append_left bound] at here
          simpa [last] using holding x a here
      obtain ⟨filled, success, holdingAll⟩ := ih grown (by
        rw [List.length_append, List.length_singleton]
        omega)
      refine ⟨filled, ?_, by simpa using holdingAll⟩
      have step : addNode (routers.length, node) entry =
          some ((routers ++ [entry.rid]).length,
            Function.update node routers.length entry.rid) := by
        simp [addNode, writeAt, inside]
      have total : (routers ++ [entry.rid]).length + rest.length =
          routers.length + (entry :: rest).length := by
        simp only [List.length_append, List.length_cons, List.length_nil]
        omega
      rw [List.foldlM_cons, step, Option.bind_eq_bind, Option.bind_some, success, total]

theorem addNodes_overflow {db : List MospfDbEntry} {k : Nat} (nonempty : db ≠ [])
    (large : MAX_NUM < k + db.length) : db.foldlM addNode (k, node) = none := by
  induction db generalizing node k with
  | nil => exact absurd rfl nonempty
  | cons entry rest ih =>
      rw [List.length_cons] at large
      rw [List.foldlM_cons]
      by_cases inside : k < MAX_NUM
      · have more : rest ≠ [] := by
          rintro rfl
          rw [List.length_nil] at large
          omega
        have later : rest.foldlM addNode (k + 1, Function.update node k entry.rid) = none :=
          ih more (by omega)
        simpa [addNode, writeAt, inside] using later
      · simp [addNode, writeAt, inside]

end Nodes

section Edges

variable {graph next : Nat → Nat → UInt32} {P : Nat → Nat → Prop}

/-- The entries of the matrix at `P` become 1, the others stay. -/
structure Marks (P : Nat → Nat → Prop) (graph next : Nat → Nat → UInt32) : Prop where
  marked : ∀ x y, P x y → next x y = 1
  kept : ∀ x y, ¬ P x y → next x y = graph x y

theorem Marks.foldlM {α : Type} {step : (Nat → Nat → UInt32) → α → Option (Nat → Nat → UInt32)}
    {Q : α → Nat → Nat → Prop} {list : List α}
    (each : ∀ a ∈ list, ∀ s t, step s a = some t → Marks (Q a) s t)
    (success : list.foldlM step graph = some next) :
    Marks (fun x y => ∃ a ∈ list, Q a x y) graph next := by
  induction list generalizing graph with
  | nil =>
      obtain rfl := Option.some.inj success
      exact ⟨by simp, by simp⟩
  | cons a rest ih =>
      rw [List.foldlM_cons] at success
      obtain ⟨middle, first, success⟩ := Option.bind_eq_some_iff.mp success
      have here := each a List.mem_cons_self graph middle first
      have later := ih (fun b member => each b (List.mem_cons_of_mem _ member)) success
      refine ⟨fun x y marked => ?_, fun x y unmarked => ?_⟩
      · by_cases again : ∃ b ∈ rest, Q b x y
        · exact later.marked x y again
        · have now : Q a x y := by
            obtain ⟨b, member, marks⟩ := marked
            rcases List.mem_cons.mp member with rfl | inRest
            · exact marks
            · exact absurd ⟨b, inRest, marks⟩ again
          rw [later.kept x y again, here.marked x y now]
      · rw [List.exists_mem_cons_iff, not_or] at unmarked
        rw [later.kept x y unmarked.2, here.kept x y unmarked.1]

theorem Marks.congr {Q : Nat → Nat → Prop} (marks : Marks P graph next)
    (same : ∀ x y, P x y ↔ Q x y) : Marks Q graph next :=
  ⟨fun x y marked => marks.marked x y ((same x y).mpr marked),
    fun x y unmarked => marks.kept x y fun marked => unmarked ((same x y).mp marked)⟩

end Edges

section Graph

variable {node : Nat → UInt32} {routers : List UInt32} {rid : UInt32}
  {graph next : Nat → Nat → UInt32}

/-- The edge between the nodes of `a` and `b`. -/
def Edge (routers : List UInt32) (a b : UInt32) (x y : Nat) : Prop :=
  routers[x]? = some a ∧ routers[y]? = some b ∨ routers[x]? = some b ∧ routers[y]? = some a

theorem addLsa_marks (distinct : routers.Nodup) (holding : Holding node routers) {lsa : MospfLsa}
    (success : addLsa node routers.length rid graph lsa = some next) :
    Marks (fun x y => lsa.rid ≠ 0 ∧ Edge routers lsa.rid rid x y) graph next := by
  unfold addLsa at success
  split_ifs at success with zero
  · obtain rfl := Option.some.inj success
    exact ⟨by simp [zero], fun x y _ => rfl⟩
  · obtain ⟨x, isX, success⟩ := Option.bind_eq_some_iff.mp success
    obtain ⟨y, isY, success⟩ := Option.bind_eq_some_iff.mp success
    have atX := getNode_some holding isX
    have atY := getNode_some holding isY
    unfold linkNodes at success
    split_ifs at success
    obtain rfl := Option.some.inj success
    have only : ∀ {a : UInt32} {i j : Nat}, routers[i]? = some a → (routers[j]? = some a ↔ j = i) := by
      intro a i j atI
      obtain ⟨iBound, isI⟩ := List.getElem?_eq_some_iff.mp atI
      constructor
      · intro atJ
        obtain ⟨jBound, isJ⟩ := List.getElem?_eq_some_iff.mp atJ
        exact (List.Nodup.getElem_inj_iff distinct).mp (isJ.trans isI.symm)
      · rintro rfl
        exact atI
    have edge : ∀ i j, Edge routers lsa.rid rid i j ↔ i = x ∧ j = y ∨ i = y ∧ j = x := fun i j => by
      rw [Edge, only atX, only atY, only atX, only atY]
    exact ⟨fun i j marked => if_pos ((edge i j).mp marked.2),
      fun i j unmarked => if_neg fun here => unmarked ⟨zero, (edge i j).mpr here⟩⟩

theorem addLsa_isSome (holding : Holding node routers) (small : routers.length ≤ MAX_NUM)
    (member : rid ∈ routers) (graph : Nat → Nat → UInt32) (lsa : MospfLsa) :
    (addLsa node routers.length rid graph lsa).isSome ↔ (lsa.rid ≠ 0 → lsa.rid ∈ routers) := by
  unfold addLsa
  split_ifs with zero
  · simp [zero]
  · obtain ⟨y, isY⟩ := Option.isSome_iff_exists.mp ((getNode_isSome holding small).mpr member)
    rw [← getNode_isSome holding small]
    cases isX : getNode node lsa.rid routers.length with
    | none => simp [zero]
    | some x =>
        have xBound : x < MAX_NUM := by
          obtain ⟨bound, -⟩ := List.getElem?_eq_some_iff.mp (getNode_some holding isX)
          omega
        have yBound : y < MAX_NUM := by
          obtain ⟨bound, -⟩ := List.getElem?_eq_some_iff.mp (getNode_some holding isY)
          omega
        simp [isY, linkNodes, xBound, yBound]

theorem lsas_some {entry : MospfDbEntry} {lsas : List MospfLsa} (read : entry.lsas = some lsas) :
    lsas = entry.array.take entry.nadv.toNat := by
  unfold MospfDbEntry.lsas at read
  split_ifs at read
  exact (Option.some.inj read).symm

theorem addEntry_marks (distinct : routers.Nodup) (holding : Holding node routers)
    {entry : MospfDbEntry} (success : addEntry node routers.length graph entry = some next) :
    Marks (fun x y => ∃ rid, entry.Advertises rid ∧ Edge routers rid entry.rid x y) graph next := by
  obtain ⟨lsas, read, success⟩ := Option.bind_eq_some_iff.mp success
  obtain rfl := lsas_some read
  refine (Marks.foldlM (fun lsa _ s t step => addLsa_marks distinct holding step) success).congr
    fun x y => ⟨?_, ?_⟩
  · rintro ⟨lsa, member, nonzero, edge⟩
    exact ⟨lsa.rid, ⟨nonzero, lsa, member, rfl⟩, edge⟩
  · rintro ⟨-, ⟨nonzero, lsa, member, rfl⟩, edge⟩
    exact ⟨lsa, member, nonzero, edge⟩

theorem addEntry_isSome (holding : Holding node routers) (small : routers.length ≤ MAX_NUM)
    (graph : Nat → Nat → UInt32) {entry : MospfDbEntry} (member : entry.rid ∈ routers) :
    (addEntry node routers.length graph entry).isSome ↔
      (0 ≤ entry.nadv ∧ entry.nadv ≤ entry.array.length) ∧
        ∀ rid, entry.Advertises rid → rid ∈ routers := by
  unfold addEntry MospfDbEntry.lsas
  split_ifs with sized
  · rw [Option.bind_eq_bind, Option.bind_some,
      isSome_foldlM fun lsa _ s => addLsa_isSome holding small member s lsa]
    constructor
    · rintro known
      refine ⟨sized, ?_⟩
      rintro rid ⟨nonzero, lsa, inEntry, rfl⟩
      exact known lsa inEntry nonzero
    · rintro ⟨-, known⟩ lsa inEntry nonzero
      exact known lsa.rid ⟨nonzero, lsa, inEntry, rfl⟩
  · simp [sized]

end Graph

section Whole

variable {routerId : UInt32} {db : List MospfDbEntry} {globals done : Globals} {nodeNum : Nat}

theorem caculateGraph_eq (routerId : UInt32) (db : List MospfDbEntry) (globals : Globals) :
    caculateGraph routerId db globals =
      (db.foldlM addNode (1, Function.update globals.node 0 routerId)).bind fun filled =>
        (db.foldlM (addEntry filled.2 filled.1) initGraph).map fun graph =>
          (filled.1, { globals with node := filled.2, graph := graph }) := by
  have zero : 0 < MAX_NUM := by decide
  cases db with
  | nil => simp [caculateGraph, writeAt, zero]
  | cons entry rest =>
      simp only [caculateGraph, writeAt, if_pos zero, List.isEmpty_cons, Option.bind_eq_bind,
        Option.bind_some, Bool.false_eq_true, if_false]
      refine congrArg _ (funext fun filled => ?_)
      exact (Option.map_eq_bind).symm

theorem holding_start (routerId : UInt32) (node : Nat → UInt32) :
    Holding (Function.update node 0 routerId) [routerId] := by
  intro x a here
  obtain ⟨bound, isRid⟩ := List.getElem?_eq_some_iff.mp here
  obtain rfl : x = 0 := by simpa using bound
  simpa using isRid

theorem length_rids (routerId : UInt32) (db : List MospfDbEntry) :
    (rids routerId db).length = db.length + 1 := by
  simp [rids]

theorem caculateGraph_some (distinct : (rids routerId db).Nodup)
    (success : caculateGraph routerId db globals = some (nodeNum, done)) :
    nodeNum = db.length + 1 ∧ nodeNum ≤ MAX_NUM ∧ Holding done.node (rids routerId db) ∧
      Marks (fun x y => ∃ entry ∈ db, ∃ rid, entry.Advertises rid ∧
        Edge (rids routerId db) rid entry.rid x y) initGraph done.graph := by
  rw [caculateGraph_eq] at success
  obtain ⟨filled, isFilled, success⟩ := Option.bind_eq_some_iff.mp success
  have small : 1 + db.length ≤ MAX_NUM := by
    by_contra large
    have nonempty : db ≠ [] := by
      rintro rfl
      exact large (by decide)
    rw [addNodes_overflow nonempty (by omega)] at isFilled
    cases isFilled
  obtain ⟨node, isNode, holding⟩ := addNodes (holding_start routerId globals.node) small
  obtain rfl := Option.some.inj (isNode.symm.trans isFilled)
  obtain ⟨graph, edges, result⟩ := Option.map_eq_some_iff.mp success
  obtain ⟨rfl, rfl⟩ := Prod.mk.inj result
  have length : [routerId].length + db.length = (rids routerId db).length := by
    rw [length_rids, List.length_singleton, Nat.add_comm]
  refine ⟨Nat.add_comm 1 db.length, small, holding, ?_⟩
  rw [length] at edges ⊢
  exact Marks.foldlM (fun entry _ s t step => addEntry_marks distinct holding step) edges

theorem caculateGraph_isSome_iff (routerId : UInt32) (db : List MospfDbEntry) (globals : Globals) :
    (caculateGraph routerId db globals).isSome ↔
      db.length < MAX_NUM ∧ Sized db ∧ Known routerId db := by
  rw [caculateGraph_eq]
  by_cases small : [routerId].length + db.length ≤ MAX_NUM
  · obtain ⟨node, filled, holding⟩ := addNodes (holding_start routerId globals.node) small
    have length : [routerId].length + db.length = (rids routerId db).length := by
      rw [length_rids, List.length_singleton, Nat.add_comm]
    have member : ∀ entry ∈ db, entry.rid ∈ rids routerId db := fun entry inDb =>
      List.mem_cons_of_mem _ (List.mem_map_of_mem inDb)
    have less : db.length < MAX_NUM := by
      rw [List.length_singleton] at small
      omega
    rw [length] at small filled
    have holdingRids : Holding node (rids routerId db) := holding
    rw [List.length_singleton] at filled
    rw [filled, Option.bind_some, Option.isSome_map]
    have each : ∀ entry ∈ db, ∀ s, (addEntry node (rids routerId db).length s entry).isSome ↔
        (0 ≤ entry.nadv ∧ entry.nadv ≤ entry.array.length) ∧
          ∀ rid, entry.Advertises rid → rid ∈ rids routerId db := by
      intro entry inDb s
      exact addEntry_isSome holdingRids small s (member entry inDb)
    have edges := isSome_foldlM each initGraph
    rw [edges]
    constructor
    · intro each
      exact ⟨less, fun entry inDb => (each entry inDb).1, fun entry inDb => (each entry inDb).2⟩
    · rintro ⟨-, sized, known⟩ entry inDb
      exact ⟨sized entry inDb, known entry inDb⟩
  · rw [List.length_singleton] at small
    have large : ¬ db.length < MAX_NUM := by omega
    have nonempty : db ≠ [] := by
      rintro rfl
      exact large (by decide)
    rw [addNodes_overflow nonempty (by omega)]
    simp [large]

end Whole

end NetworkLab.Mospf
