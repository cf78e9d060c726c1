import Mathlib.Logic.Function.Basic
import Mathlib.Order.Nat
import NetworkLab.Mospf.Daemon

/-!
# The graph of the link-state database

`caculate_graph` and `Dijkstra` of `mospf_daemon.c` with their global arrays.  `none`
stands for a failed assertion and for an index outside an array.
-/
set_option autoImplicit false

namespace NetworkLab.Mospf

def MAX_NUM : Nat := 15
def MAX_INT : UInt32 := 255

/-- The arrays `Dist`, `Prev`, `Node`, `Visited` and `Graph`, below `MAX_NUM`. -/
structure Globals where
  dist : Nat → UInt32
  prev : Nat → UInt32
  node : Nat → UInt32
  visited : Nat → Bool
  graph : Nat → Nat → UInt32

def readAt {α : Type} (array : Nat → α) (i : Nat) : Option α :=
  if i < MAX_NUM then some (array i) else none

def writeAt {α : Type} (array : Nat → α) (i : Nat) (value : α) : Option (Nat → α) :=
  if i < MAX_NUM then some (Function.update array i value) else none

def MospfDbEntry.lsas (entry : MospfDbEntry) : Option (List MospfLsa) :=
  if 0 ≤ entry.nadv ∧ entry.nadv ≤ entry.array.length then some (entry.array.take entry.nadv.toNat)
  else none

def initGraph : Nat → Nat → UInt32 := fun i j => if i = j then 0 else MAX_INT

/-- The loop of `get_Node` with `left` rounds to go. -/
def getNodeFrom (node : Nat → UInt32) (rid : UInt32) : Nat → Nat → Option Nat
  | 0, _ => none
  | left + 1, i => do
    let here ← readAt node i
    if rid = here then some i else getNodeFrom node rid left (i + 1)

def getNode (node : Nat → UInt32) (rid : UInt32) (nodeNum : Nat) : Option Nat :=
  getNodeFrom node rid nodeNum 0

def addNode (nodes : Nat × (Nat → UInt32)) (entry : MospfDbEntry) : Option (Nat × (Nat → UInt32)) :=
  (writeAt nodes.2 nodes.1 entry.rid).map fun node => (nodes.1 + 1, node)

def linkNodes (graph : Nat → Nat → UInt32) (x y : Nat) : Option (Nat → Nat → UInt32) :=
  if x < MAX_NUM ∧ y < MAX_NUM then
    some fun i j => if i = x ∧ j = y ∨ i = y ∧ j = x then 1 else graph i j
  else none

def addLsa (node : Nat → UInt32) (nodeNum : Nat) (rid : UInt32) (graph : Nat → Nat → UInt32)
    (lsa : MospfLsa) : Option (Nat → Nat → UInt32) :=
  if lsa.rid = 0 then some graph
  else do
    let x ← getNode node lsa.rid nodeNum
    let y ← getNode node rid nodeNum
    linkNodes graph x y

def addEntry (node : Nat → UInt32) (nodeNum : Nat) (graph : Nat → Nat → UInt32)
    (entry : MospfDbEntry) : Option (Nat → Nat → UInt32) := do
  let lsas ← entry.lsas
  lsas.foldlM (addLsa node nodeNum entry.rid) graph

/-- The number of nodes, and the arrays with `Node` and `Graph` filled in. -/
def caculateGraph (routerId : UInt32) (db : List MospfDbEntry) (globals : Globals) :
    Option (Nat × Globals) := do
  let node ← writeAt globals.node 0 routerId
  if db.isEmpty then some (1, { globals with node := node, graph := initGraph })
  else
    let (nodeNum, node) ← db.foldlM addNode (1, node)
    let graph ← db.foldlM (addEntry node nodeNum) initGraph
    some (nodeNum, { globals with node := node, graph := graph })

/-- One round of the loop of `Min_dist`, on `rank` and `Min`. -/
def minDistRound (globals : Globals) (best : Option Nat × UInt32) (i : Nat) :
    Option (Option Nat × UInt32) := do
  let visited ← readAt globals.visited i
  let dist ← readAt globals.dist i
  some (if !visited && dist < best.2 then (some i, dist) else best)

def minDist (globals : Globals) (nodeNum : Nat) : Option Nat := do
  let (rank, _) ← (List.range nodeNum).foldlM (minDistRound globals) (none, MAX_INT)
  rank

def startRound (globals : Globals) (i : Nat) : Option Globals :=
  if i < MAX_NUM then
    let dist := globals.graph 0 i
    some
      { globals with
        visited := Function.update globals.visited i false,
        dist := Function.update globals.dist i dist,
        prev := Function.update globals.prev i (if dist = MAX_INT ∨ dist = 0 then -1 else 0) }
  else none

def Improves (globals : Globals) (u v : Nat) : Prop :=
  globals.visited v = false ∧ 0 < globals.graph u v ∧ globals.dist u ≠ MAX_INT ∧
    globals.dist u + globals.graph u v < globals.dist v

instance (globals : Globals) (u v : Nat) : Decidable (Improves globals u v) :=
  inferInstanceAs (Decidable (_ ∧ _))

def relaxRound (u : Nat) (globals : Globals) (v : Nat) : Option Globals :=
  if u < MAX_NUM ∧ v < MAX_NUM then
    some (if Improves globals u v then
      { globals with
        dist := Function.update globals.dist v (globals.dist u + globals.graph u v),
        prev := Function.update globals.prev v (UInt32.ofNat u) }
    else globals)
  else none

def visitRound (nodeNum : Nat) (globals : Globals) : Option Globals := do
  let u ← minDist globals nodeNum
  let visited ← writeAt globals.visited u true
  (List.range nodeNum).foldlM (relaxRound u) { globals with visited := visited }

def dijkstra (nodeNum : Nat) (globals : Globals) : Option Globals := do
  let globals ← (List.range nodeNum).foldlM startRound globals
  let dist ← writeAt globals.dist 0 0
  let visited ← writeAt globals.visited 0 true
  (List.range (nodeNum - 1)).foldlM (fun globals _ => visitRound nodeNum globals)
    { globals with dist := dist, visited := visited }

section Folds

variable {α σ : Type}

theorem foldlM_range_succ (step : σ → Nat → Option σ) (n : Nat) (s : σ) :
    (List.range (n + 1)).foldlM step s = (List.range n).foldlM step s >>= fun t => step t n := by
  simp [List.range_succ, List.foldlM_append]

theorem isSome_foldlM {step : σ → α → Option σ} {C : α → Prop} {list : List α}
    (each : ∀ a ∈ list, ∀ s, (step s a).isSome ↔ C a) (s : σ) :
    (list.foldlM step s).isSome ↔ ∀ a ∈ list, C a := by
  induction list generalizing s with
  | nil => simp
  | cons a rest ih =>
      have here := each a List.mem_cons_self s
      have later := ih fun b member => each b (List.mem_cons_of_mem _ member)
      rw [List.foldlM_cons, List.forall_mem_cons, ← here]
      cases step s a with
      | none => simp
      | some t => simpa using later t

end Folds

section Dijkstra

variable {globals : Globals} {nodeNum : Nat}

theorem minDist_scan (globals : Globals) (small : nodeNum ≤ MAX_NUM) :
    ∃ rank min, (List.range nodeNum).foldlM (minDistRound globals) (none, MAX_INT) = some (rank, min) ∧
      (∀ v < nodeNum, globals.visited v = false → min.toNat ≤ (globals.dist v).toNat) ∧
      (rank = none ∧ min = MAX_INT ∨
        ∃ u, rank = some u ∧ u < nodeNum ∧ globals.visited u = false ∧ min = globals.dist u ∧
          (globals.dist u).toNat < 255) := by
  induction nodeNum with
  | zero => exact ⟨none, MAX_INT, rfl, by simp, .inl ⟨rfl, rfl⟩⟩
  | succ n ih =>
      obtain ⟨rank, min, scanned, least, found⟩ := ih (by omega)
      have inside : n < MAX_NUM := by omega
      have below : min.toNat ≤ 255 := by
        rcases found with ⟨-, rfl⟩ | ⟨u, -, -, -, rfl, less⟩
        · exact le_rfl
        · exact less.le
      rw [foldlM_range_succ, scanned]
      by_cases better : globals.visited n = false ∧ globals.dist n < min
      · have less := UInt32.lt_iff_toNat_lt.mp better.2
        refine ⟨some n, globals.dist n, ?_, ?_, .inr ⟨n, rfl, Nat.lt_succ_self n, better.1, rfl, ?_⟩⟩
        · simp [minDistRound, readAt, inside, better]
        · intro v bound unvisited
          rcases Nat.lt_succ_iff_lt_or_eq.mp bound with earlier | rfl
          · exact less.le.trans (least v earlier unvisited)
          · exact le_rfl
        · omega
      · refine ⟨rank, min, ?_, ?_, found.imp id ?_⟩
        · have stays : globals.visited n = false → globals.dist n < min →
              some n = rank ∧ globals.dist n = min :=
            fun unvisited less => absurd ⟨unvisited, less⟩ better
          simpa [minDistRound, readAt, inside] using stays
        · intro v bound unvisited
          rcases Nat.lt_succ_iff_lt_or_eq.mp bound with earlier | rfl
          · exact least v earlier unvisited
          · refine Nat.le_of_not_lt fun less => better ⟨unvisited, ?_⟩
            exact UInt32.lt_iff_toNat_lt.mpr less
        · rintro ⟨u, isRank, bound, rest⟩
          exact ⟨u, isRank, bound.trans (Nat.lt_succ_self n), rest⟩

/-- An unvisited node with the least label, if one is below `MAX_INT`. -/
theorem minDist_some {u : Nat} (small : nodeNum ≤ MAX_NUM) (found : minDist globals nodeNum = some u) :
    u < nodeNum ∧ globals.visited u = false ∧ (globals.dist u).toNat < 255 ∧
      ∀ v < nodeNum, globals.visited v = false →
        (globals.dist u).toNat ≤ (globals.dist v).toNat := by
  obtain ⟨rank, min, scanned, least, last⟩ := minDist_scan globals small
  obtain rfl : rank = some u := by simpa [minDist, scanned] using found
  obtain ⟨none, -⟩ | ⟨w, same, bound, unvisited, rfl, finite⟩ := last
  · cases none
  · cases same
    exact ⟨bound, unvisited, finite, least⟩

theorem exists_minDist {v : Nat} (small : nodeNum ≤ MAX_NUM) (bound : v < nodeNum)
    (unvisited : globals.visited v = false) (finite : (globals.dist v).toNat < 255) :
    ∃ u, minDist globals nodeNum = some u := by
  obtain ⟨rank, min, scanned, least, last⟩ := minDist_scan globals small
  obtain ⟨-, rfl⟩ | ⟨u, rfl, -⟩ := last
  · have le : (255 : UInt32).toNat ≤ (globals.dist v).toNat := least v bound unvisited
    exact absurd finite (Nat.not_lt.mpr le)
  · exact ⟨u, by simp [minDist, scanned]⟩

theorem startRounds {n : Nat} (globals : Globals) (small : n ≤ MAX_NUM) :
    ∃ started, (List.range n).foldlM startRound globals = some started ∧
      started.graph = globals.graph ∧ started.node = globals.node ∧
      ∀ v < n, started.visited v = false ∧ started.dist v = globals.graph 0 v ∧
        started.prev v =
          if globals.graph 0 v = MAX_INT ∨ globals.graph 0 v = 0 then -1 else 0 := by
  induction n with
  | zero => exact ⟨globals, rfl, rfl, rfl, by simp⟩
  | succ n ih =>
      obtain ⟨started, success, graph, node, before⟩ := ih (by omega)
      have inside : n < MAX_NUM := by omega
      rw [foldlM_range_succ, success]
      refine ⟨_, if_pos inside, graph, node, fun v bound => ?_⟩
      by_cases last : v = n
      · subst last
        simp [graph]
      · simpa [last] using before v (by omega)

/-- The labels after the loop that relaxes the edges of `u`, up to node `n`. -/
theorem relaxRounds {n u : Nat} (globals : Globals) (small : n ≤ MAX_NUM) (inside : u < MAX_NUM)
    (visited : globals.visited u = true) :
    ∃ relaxed, (List.range n).foldlM (relaxRound u) globals = some relaxed ∧
      relaxed.graph = globals.graph ∧ relaxed.node = globals.node ∧
      relaxed.visited = globals.visited ∧
      ∀ v, (v < n ∧ Improves globals u v → relaxed.dist v = globals.dist u + globals.graph u v ∧
          relaxed.prev v = UInt32.ofNat u) ∧
        (¬ (v < n ∧ Improves globals u v) → relaxed.dist v = globals.dist v ∧
          relaxed.prev v = globals.prev v) := by
  induction n with
  | zero => exact ⟨globals, rfl, rfl, rfl, rfl, by simp⟩
  | succ n ih =>
      obtain ⟨relaxed, success, graph, node, seen, before⟩ := ih (by omega)
      have bound : u < MAX_NUM ∧ n < MAX_NUM := ⟨inside, by omega⟩
      have settled : ¬ (u < n ∧ Improves globals u u) := fun improved => by
        simp [Improves, visited] at improved
      have same := (before u).2 settled
      have still := (before n).2 (by simp)
      have improves : Improves relaxed u n ↔ Improves globals u n := by
        simp only [Improves, seen, graph, same.1, still.1]
      rw [foldlM_range_succ, success]
      by_cases improved : Improves globals u n
      · refine ⟨_, (if_pos bound).trans (congrArg some (if_pos (improves.mpr improved))), graph, node,
          seen, fun v => ?_⟩
        by_cases last : v = n
        · subst last
          simp [improved, same, graph]
        · have below : v < n + 1 ↔ v < n := by omega
          simpa [last, below] using before v
      · refine ⟨relaxed, (if_pos bound).trans (congrArg some (if_neg (mt improves.mp improved))), graph,
          node, seen, fun v => ?_⟩
        by_cases last : v = n
        · subst last
          simpa [improved] using still
        · have below : v < n + 1 ↔ v < n := by omega
          simpa [below] using before v

end Dijkstra

end NetworkLab.Mospf
