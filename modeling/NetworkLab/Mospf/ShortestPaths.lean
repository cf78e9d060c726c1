import Mathlib.Data.Finset.Card
import Mathlib.Data.Finset.Range
import NetworkLab.Lib.ShortestPath
import NetworkLab.Mospf.Graph

/-!
# Distances in the link-state graph

The rounds of `Dijkstra` visit the nodes in the order of their distance from node 0, as
long as nodes are within reach; the run gets through exactly when all of them are.
-/
set_option autoImplicit false

namespace NetworkLab.Mospf

open Lib

section Labels

variable {nodeNum : Nat} {graph : Nat → Nat → UInt32} {globals : Globals} {rounds : Nat}

def Linked (nodeNum : Nat) (graph : Nat → Nat → UInt32) (x y : Nat) : Prop :=
  x < nodeNum ∧ y < nodeNum ∧ x ≠ y ∧ graph x y = 1

/-- Different nodes are linked or `MAX_INT` apart. -/
def TwoValued (nodeNum : Nat) (graph : Nat → Nat → UInt32) : Prop :=
  ∀ x < nodeNum, ∀ y < nodeNum, x ≠ y → graph x y = 1 ∨ graph x y = MAX_INT

/-- `Dist` with `MAX_INT` outside the nodes. -/
def label (nodeNum : Nat) (globals : Globals) (v : Nat) : Nat :=
  if v < nodeNum then (globals.dist v).toNat else 255

/-- After `rounds` rounds of the main loop. -/
structure Visiting (nodeNum : Nat) (graph : Nat → Nat → UInt32) (globals : Globals)
    (rounds : Nat) : Prop where
  same : globals.graph = graph
  count : ((Finset.range nodeNum).filter fun v => globals.visited v).card = rounds + 1
  near : ∀ v < nodeNum, globals.visited v → (globals.dist v).toNat ≤ rounds
  low : ∀ v < nodeNum, (globals.dist v).toNat ≤ 255
  settled : Settled (Linked nodeNum graph) 0 255 (fun v => v < nodeNum ∧ globals.visited v)
    (label nodeNum globals) fun v u => globals.prev v = UInt32.ofNat u

theorem label_of_lt {v : Nat} (bound : v < nodeNum) :
    label nodeNum globals v = (globals.dist v).toNat := if_pos bound

variable (globals) in
/-- The test of the inner loop, on distances without overflow. -/
theorem improves_iff (twoValued : TwoValued nodeNum globals.graph)
    (low : ∀ v < nodeNum, (globals.dist v).toNat ≤ 255) {u v : Nat} (uBound : u < nodeNum)
    (vBound : v < nodeNum) (finite : (globals.dist u).toNat < 255) (different : u ≠ v) :
    Improves globals u v ↔ globals.visited v = false ∧ Linked nodeNum globals.graph u v ∧
      (globals.dist u).toNat + 1 < (globals.dist v).toNat := by
  have notTop : globals.dist u ≠ MAX_INT := by
    intro top
    rw [top] at finite
    exact absurd finite (by decide)
  have sum : ∀ step : UInt32, step.toNat ≤ 255 →
      (globals.dist u + step < globals.dist v ↔
        (globals.dist u).toNat + step.toNat < (globals.dist v).toNat) := by
    intro step small
    rw [UInt32.lt_iff_toNat_lt, UInt32.toNat_add, Nat.mod_eq_of_lt (by omega)]
  have top := low v vBound
  rcases twoValued u uBound v vBound different with one | far
  · have edge : Linked nodeNum globals.graph u v := ⟨uBound, vBound, different, one⟩
    have step := sum 1 (by decide)
    simp only [Improves, one, notTop, edge, ne_eq, not_false_eq_true, true_and, step]
    simp
  · have noEdge : ¬ Linked nodeNum globals.graph u v := by
      rintro ⟨-, -, -, one⟩
      rw [far] at one
      exact absurd one (by decide)
    have tooFar : ¬ globals.dist u + MAX_INT < globals.dist v := by
      rw [sum MAX_INT (by decide)]
      change ¬ (globals.dist u).toNat + 255 < (globals.dist v).toNat
      omega
    simp [Improves, far, noEdge, tooFar]

theorem Visiting.near_next (visiting : Visiting nodeNum graph globals rounds) {u : Nat}
    (bound : u < nodeNum) (unvisited : globals.visited u = false)
    (finite : (globals.dist u).toNat < 255) : (globals.dist u).toNat ≤ rounds + 1 := by
  have other : u ≠ 0 := by
    rintro rfl
    have start := visiting.settled.start.2
    simp [unvisited] at start
  have labelled : label nodeNum globals u ≠ 255 := by
    rw [label_of_lt bound]
    omega
  obtain ⟨w, -, ⟨wBound, wVisited⟩, -, next⟩ := visiting.settled.reached u other labelled
  have close := visiting.near w wBound wVisited
  rw [label_of_lt bound, label_of_lt wBound] at next
  omega

/-- The nodes whose labels the loop lowers when it visits `u`. -/
theorem Visiting.lowered_iff (visiting : Visiting nodeNum graph globals rounds)
    (twoValued : TwoValued nodeNum graph) {u : Nat} (bound : u < nodeNum)
    (finite : (globals.dist u).toNat < 255) (v : Nat) :
    v < nodeNum ∧
      Improves { globals with visited := Function.update globals.visited u true } u v ↔
        ¬ ((v < nodeNum ∧ globals.visited v) ∨ v = u) ∧ Linked nodeNum graph u v ∧
          label nodeNum globals u + 1 < label nodeNum globals v := by
  by_cases vBound : v < nodeNum
  · by_cases same : v = u
    · subst same
      simp [Improves]
    · have test := improves_iff
        { globals with visited := Function.update globals.visited u true }
        (by rwa [visiting.same]) visiting.low bound vBound finite (Ne.symm same)
      rw [test, label_of_lt bound, label_of_lt vBound, visiting.same]
      simp [vBound, same]
  · have noEdge : ¬ Linked nodeNum graph u v := fun edge => vBound edge.2.1
    simp [vBound, noEdge]

theorem Visiting.dist_edge (visiting : Visiting nodeNum graph globals rounds) {u v : Nat}
    (finite : (globals.dist u).toNat < 255) (edge : Linked nodeNum graph u v) :
    (globals.dist u + globals.graph u v).toNat = (globals.dist u).toNat + 1 := by
  obtain ⟨-, -, -, one⟩ := edge
  rw [visiting.same, one, UInt32.toNat_add]
  exact Nat.mod_eq_of_lt (by change (globals.dist u).toNat + 1 < 4294967296; omega)

/-- What a round does that visits `u`: it lowers labels through `u`, each to one more than that
of `u`. -/
structure VisitsNode (nodeNum : Nat) (graph : Nat → Nat → UInt32) (globals next : Globals)
    (u : Nat) : Prop where
  sameGraph : next.graph = graph
  sameNode : next.node = globals.node
  bound : u < nodeNum
  unvisited : globals.visited u = false
  finite : (globals.dist u).toNat < 255
  least : ∀ v < nodeNum, globals.visited v = false →
    (globals.dist u).toNat ≤ (globals.dist v).toNat
  visited : ∀ v, v < nodeNum ∧ next.visited v ↔ (v < nodeNum ∧ globals.visited v) ∨ v = u
  lowered : ∀ v, ¬ ((v < nodeNum ∧ globals.visited v) ∨ v = u) ∧ Linked nodeNum graph u v ∧
      label nodeNum globals u + 1 < label nodeNum globals v →
    (next.dist v).toNat = (globals.dist u).toNat + 1 ∧ next.prev v = UInt32.ofNat u
  kept : ∀ v, ¬ (¬ ((v < nodeNum ∧ globals.visited v) ∨ v = u) ∧ Linked nodeNum graph u v ∧
      label nodeNum globals u + 1 < label nodeNum globals v) →
    next.dist v = globals.dist v ∧ next.prev v = globals.prev v

theorem Visiting.round (visiting : Visiting nodeNum graph globals rounds)
    (twoValued : TwoValued nodeNum graph) (small : nodeNum ≤ MAX_NUM)
    {next : Globals} (success : visitRound nodeNum globals = some next) :
    ∃ u, VisitsNode nodeNum graph globals next u := by
  obtain ⟨u, found, success⟩ := Option.bind_eq_some_iff.mp success
  obtain ⟨visited, marked, success⟩ := Option.bind_eq_some_iff.mp success
  obtain ⟨bound, unvisited, finite, least⟩ := minDist_some small found
  have inside : u < MAX_NUM := bound.trans_le small
  obtain rfl := Option.some.inj ((if_pos inside).symm.trans marked)
  obtain ⟨relaxed, done, sameGraph, sameNode, sameVisited, labels⟩ := relaxRounds
    { globals with visited := Function.update globals.visited u true } small inside
    (Function.update_self u true globals.visited)
  obtain rfl := Option.some.inj (done.symm.trans success)
  have lowered (v : Nat) := visiting.lowered_iff twoValued bound finite v
  refine ⟨u, sameGraph.trans visiting.same, sameNode, bound, unvisited, finite, least, ?_, ?_, ?_⟩
  · intro v
    rw [sameVisited]
    by_cases same : v = u
    · subst same
      simp [bound]
    · simp [same]
  · intro v step
    obtain ⟨isSum, isPrev⟩ := (labels v).1 ((lowered v).mpr step)
    refine ⟨?_, isPrev⟩
    rw [isSum]
    exact visiting.dist_edge finite step.2.1
  · intro v notLowered
    exact (labels v).2 fun improved => notLowered ((lowered v).mp improved)

namespace VisitsNode

variable {next : Globals} {u : Nat}

theorem settled (visits : VisitsNode nodeNum graph globals next u)
    (visiting : Visiting nodeNum graph globals rounds) :
    Settled (Linked nodeNum graph) 0 255 (fun v => v < nodeNum ∧ next.visited v)
      (label nodeNum next) fun v w => next.prev v = UInt32.ofNat w := by
  have bound := visits.bound
  have notVisited : ¬ (u < nodeNum ∧ globals.visited u) := by simp [visits.unvisited]
  have finite := visits.finite
  have distance := visiting.settled.isDistance notVisited
    (by rw [label_of_lt bound]; omega) (by
      rintro x y ⟨-, yBound, -⟩ alsoNot
      rw [label_of_lt bound, label_of_lt yBound]
      exact visits.least y yBound (by simpa [yBound] using alsoNot))
  have same : (fun v => v < nodeNum ∧ next.visited v) =
      fun v => (v < nodeNum ∧ globals.visited v) ∨ v = u :=
    funext fun v => propext (visits.visited v)
  rw [same]
  apply visiting.settled.visit distance
  · intro v step
    obtain ⟨isSum, isPrev⟩ := visits.lowered v step
    refine ⟨?_, isPrev⟩
    rw [label_of_lt step.2.1.2.1, label_of_lt bound, isSum]
  · intro v notLowered
    obtain ⟨sameDist, samePrev⟩ := visits.kept v notLowered
    refine ⟨?_, fun w isPrev => samePrev.trans isPrev⟩
    unfold label
    rw [sameDist]

theorem dist_visited (visits : VisitsNode nodeNum graph globals next u) {v : Nat}
    (bound : v < nodeNum) (isVisited : next.visited v) : next.dist v = globals.dist v := by
  have known := (visits.visited v).mp ⟨bound, isVisited⟩
  exact (visits.kept v fun step => step.1 known).1

theorem count (visits : VisitsNode nodeNum graph globals next u)
    (visiting : Visiting nodeNum graph globals rounds) :
    ((Finset.range nodeNum).filter fun v => next.visited v).card = rounds + 1 + 1 := by
  have grown : (Finset.range nodeNum).filter (fun v => next.visited v) =
      insert u ((Finset.range nodeNum).filter fun v => globals.visited v) := by
    ext v
    simpa [or_comm] using visits.visited v
  rw [grown, Finset.card_insert_of_notMem (by simp [visits.unvisited]), visiting.count]

theorem near (visits : VisitsNode nodeNum graph globals next u)
    (visiting : Visiting nodeNum graph globals rounds) {v : Nat} (bound : v < nodeNum)
    (isVisited : next.visited v) : (next.dist v).toNat ≤ rounds + 1 := by
  rw [visits.dist_visited bound isVisited]
  cases (visits.visited v).mp ⟨bound, isVisited⟩ with
  | inl old => exact (visiting.near v bound old.2).trans (Nat.le_succ rounds)
  | inr same =>
    subst same
    exact visiting.near_next bound visits.unvisited visits.finite

theorem low (visits : VisitsNode nodeNum graph globals next u)
    (visiting : Visiting nodeNum graph globals rounds) {v : Nat} (bound : v < nodeNum) :
    (next.dist v).toNat ≤ 255 := by
  by_cases step : ¬ ((v < nodeNum ∧ globals.visited v) ∨ v = u) ∧ Linked nodeNum graph u v ∧
      label nodeNum globals u + 1 < label nodeNum globals v
  · have top := visiting.low v bound
    have total := (visits.lowered v step).1
    have below := step.2.2
    rw [label_of_lt visits.bound, label_of_lt bound] at below
    omega
  · rw [(visits.kept v step).1]
    exact visiting.low v bound

end VisitsNode

theorem Visiting.visit (visiting : Visiting nodeNum graph globals rounds)
    (twoValued : TwoValued nodeNum graph) (small : nodeNum ≤ MAX_NUM)
    {next : Globals} (success : visitRound nodeNum globals = some next) :
    Visiting nodeNum graph next (rounds + 1) ∧ next.node = globals.node := by
  obtain ⟨u, visits⟩ := visiting.round twoValued small success
  refine ⟨?_, visits.sameNode⟩
  constructor
  case same => exact visits.sameGraph
  case count => exact visits.count visiting
  case near => exact fun v bound isVisited => visits.near visiting bound isVisited
  case low => exact fun v bound => visits.low visiting bound
  case settled => exact visits.settled visiting

theorem exists_visiting (globals : Globals) (small : nodeNum ≤ MAX_NUM) (positive : 0 < nodeNum)
    (twoValued : TwoValued nodeNum globals.graph) :
    ∃ started, Visiting nodeNum globals.graph started 0 ∧ started.node = globals.node ∧
      dijkstra nodeNum globals = (List.range (nodeNum - 1)).foldlM
        (fun globals _ => visitRound nodeNum globals) started := by
  obtain ⟨started, success, graph, node, rounds⟩ := startRounds globals small
  have zero : 0 < MAX_NUM := positive.trans_le small
  refine ⟨{ started with
      dist := Function.update started.dist 0 0,
      visited := Function.update started.visited 0 true }, ⟨graph, ?_, ?_, ?_, ?_⟩, node, ?_⟩
  · have only : (Finset.range nodeNum).filter
        (fun v => Function.update started.visited 0 true v) = {0} := by
      ext v
      by_cases isZero : v = 0
      · simp [isZero, positive]
      · have unvisited : v < nodeNum → started.visited v = false := fun bound => (rounds v bound).1
        simpa [isZero] using unvisited
    exact (congrArg Finset.card only).trans (Finset.card_singleton 0)
  · intro v bound isVisited
    by_cases isZero : v = 0
    · simp [isZero]
    · simp [isZero, (rounds v bound).1] at isVisited
  · intro v bound
    by_cases isZero : v = 0
    · simp [isZero]
    · rcases twoValued 0 positive v bound (Ne.symm isZero) with one | far
      · simp [isZero, (rounds v bound).2.1, one]
      · simp [isZero, (rounds v bound).2.1, far, MAX_INT]
  · have atSource : ∀ v, v < nodeNum ∧ Function.update started.visited 0 true v → v = 0 := by
      rintro v ⟨bound, isVisited⟩
      by_contra notZero
      simp [notZero, (rounds v bound).1] at isVisited
    refine ⟨⟨positive, by simp⟩, ?_, ?_, ?_⟩
    · intro v isVisited
      obtain rfl := atSource v isVisited
      simp [label, positive, IsDistance.zero_iff]
    · intro v notZero labelled
      have bound : v < nodeNum := by
        by_contra outside
        simp [label, outside] at labelled
      obtain ⟨-, isDist, isPrev⟩ := rounds v bound
      rcases twoValued 0 positive v bound (Ne.symm notZero) with one | far
      · refine ⟨0, ?_, ⟨positive, by simp⟩, ⟨positive, bound, Ne.symm notZero, one⟩, ?_⟩
        · simpa [one, MAX_INT] using isPrev
        · simp [label, positive, bound, notZero, isDist, one]
      · simp [label, bound, notZero, isDist, far, MAX_INT] at labelled
    · rintro x v isVisited - ⟨-, bound, different, one⟩
      obtain rfl := atSource x isVisited
      simp [label, bound, Ne.symm different, (rounds v bound).2.1, one]
  · simp [dijkstra, success, writeAt, zero]

theorem rounds_visiting {started done : Globals} (visiting : Visiting nodeNum graph started 0)
    (twoValued : TwoValued nodeNum graph) (small : nodeNum ≤ MAX_NUM) (rounds : Nat)
    (success : (List.range rounds).foldlM (fun globals _ => visitRound nodeNum globals) started =
      some done) : Visiting nodeNum graph done rounds ∧ done.node = started.node := by
  induction rounds generalizing done with
  | zero =>
      obtain rfl := Option.some.inj success
      exact ⟨visiting, rfl⟩
  | succ n ih =>
      rw [foldlM_range_succ] at success
      obtain ⟨middle, before, last⟩ := Option.bind_eq_some_iff.mp success
      obtain ⟨visitingMiddle, sameMiddle⟩ := ih before
      obtain ⟨visitingDone, sameDone⟩ := visitingMiddle.visit twoValued small last
      exact ⟨visitingDone, sameDone.trans sameMiddle⟩

/-- When as many rounds are done as there are nodes besides the first, all are visited. -/
theorem Visiting.all (visiting : Visiting nodeNum graph globals rounds)
    (full : rounds + 1 = nodeNum) : ∀ v < nodeNum, globals.visited v := by
  have whole : (Finset.range nodeNum).filter (fun v => globals.visited v) = Finset.range nodeNum := by
    refine Finset.eq_of_subset_of_card_le (Finset.filter_subset _ _) ?_
    rw [visiting.count, Finset.card_range, full]
  intro v bound
  have member : v ∈ (Finset.range nodeNum).filter fun v => globals.visited v := by
    rw [whole]
    exact Finset.mem_range.mpr bound
  exact (Finset.mem_filter.mp member).2

theorem Visiting.exists_unvisited (visiting : Visiting nodeNum graph globals rounds)
    (few : rounds + 1 < nodeNum) : ∃ v < nodeNum, globals.visited v = false := by
  by_contra none
  have whole : (Finset.range nodeNum).filter (fun v => globals.visited v) = Finset.range nodeNum := by
    refine Finset.filter_true_of_mem fun v member => ?_
    by_contra unvisited
    exact none ⟨v, Finset.mem_range.mp member, by simpa using unvisited⟩
  have count := visiting.count
  rw [whole, Finset.card_range] at count
  omega

/-- The rounds of the main loop get through as long as all nodes are in reach. -/
theorem exists_rounds {started : Globals} (visiting : Visiting nodeNum graph started 0)
    (twoValued : TwoValued nodeNum graph) (small : nodeNum ≤ MAX_NUM)
    (reachable : ∀ v < nodeNum, ∃ d, Walk (Linked nodeNum graph) d 0 v) (rounds : Nat)
    (few : rounds < nodeNum) :
    ∃ done, (List.range rounds).foldlM (fun globals _ => visitRound nodeNum globals) started =
      some done := by
  induction rounds with
  | zero => exact ⟨started, rfl⟩
  | succ n ih =>
      obtain ⟨middle, before⟩ := ih (by omega)
      obtain ⟨visitingMiddle, -⟩ := rounds_visiting visiting twoValued small n before
      obtain ⟨v, bound, unvisited⟩ := visitingMiddle.exists_unvisited few
      obtain ⟨d, walk⟩ := reachable v bound
      obtain ⟨x, y, xVisited, yUnvisited, edge, step, -⟩ :=
        visitingMiddle.settled.exists_frontier walk fun isVisited => by simp [unvisited] at isVisited
      have near := visitingMiddle.near x xVisited.1 xVisited.2
      have most : nodeNum ≤ 15 := small
      rw [label_of_lt xVisited.1, label_of_lt edge.2.1] at step
      obtain ⟨u, found⟩ := exists_minDist small edge.2.1
        (by simpa [edge.2.1] using yUnvisited) (by omega)
      have inside : u < MAX_NUM := (minDist_some small found).1.trans_le small
      obtain ⟨relaxed, done, -⟩ := relaxRounds
        { middle with visited := Function.update middle.visited u true } small inside
        (Function.update_self u true middle.visited)
      refine ⟨relaxed, ?_⟩
      rw [foldlM_range_succ, before]
      simp only [Option.bind_eq_bind, Option.bind_some, visitRound, found, writeAt, if_pos inside]
      exact done

theorem dijkstra_settled (small : nodeNum ≤ MAX_NUM) (positive : 0 < nodeNum)
    (twoValued : TwoValued nodeNum globals.graph) {done : Globals}
    (success : dijkstra nodeNum globals = some done) :
    Visiting nodeNum globals.graph done (nodeNum - 1) ∧ done.node = globals.node ∧
      ∀ v < nodeNum, done.visited v := by
  obtain ⟨started, visiting, node, run⟩ := exists_visiting globals small positive twoValued
  rw [run] at success
  obtain ⟨last, sameNode⟩ := rounds_visiting visiting twoValued small _ success
  exact ⟨last, sameNode.trans node, last.all (by omega)⟩

/-- `Dijkstra` gets through exactly when all nodes are within reach of node 0. -/
theorem dijkstra_isSome_iff (globals : Globals) (small : nodeNum ≤ MAX_NUM)
    (positive : 0 < nodeNum) (twoValued : TwoValued nodeNum globals.graph) :
    (dijkstra nodeNum globals).isSome ↔
      ∀ v < nodeNum, ∃ d, Walk (Linked nodeNum globals.graph) d 0 v := by
  constructor
  · intro success
    obtain ⟨done, isDone⟩ := Option.isSome_iff_exists.mp success
    obtain ⟨visiting, -, all⟩ := dijkstra_settled small positive twoValued isDone
    exact fun v bound => ⟨_, (visiting.settled.nearest v ⟨bound, all v bound⟩).1⟩
  · intro reachable
    obtain ⟨started, visiting, -, run⟩ := exists_visiting globals small positive twoValued
    obtain ⟨done, success⟩ :=
      exists_rounds visiting twoValued small reachable (nodeNum - 1) (by omega)
    rw [run, success]
    rfl

end Labels

end NetworkLab.Mospf
