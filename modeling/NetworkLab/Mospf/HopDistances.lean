import NetworkLab.Mospf.Topology

/-!
# Shortest paths of a database

`caculate_graph` and then `Dijkstra`, as `caculate_rtable_thread` calls them: when they
get through, and that the arrays they leave hold the distances of the topology.
-/
set_option autoImplicit false

namespace NetworkLab.Mospf

open Lib

def caculatePaths (routerId : UInt32) (db : List MospfDbEntry) (globals : Globals) :
    Option (Nat × Globals) := do
  let (nodeNum, globals) ← caculateGraph routerId db globals
  let globals ← dijkstra nodeNum globals
  some (nodeNum, globals)

section Matrix

variable {routerId : UInt32} {db : List MospfDbEntry} {graph : Nat → Nat → UInt32}

/-- The entries that `caculate_graph` sets. -/
def Drawn (routerId : UInt32) (db : List MospfDbEntry) (x y : Nat) : Prop :=
  ∃ entry ∈ db, ∃ rid, entry.Advertises rid ∧ Edge (rids routerId db) rid entry.rid x y

theorem drawn_iff (x y : Nat) : Drawn routerId db x y ↔
    ∃ a b, (rids routerId db)[x]? = some a ∧ (rids routerId db)[y]? = some b ∧
      (Advertised db a b ∨ Advertised db b a) := by
  constructor
  · rintro ⟨entry, member, rid, advertises, ⟨atX, atY⟩ | ⟨atX, atY⟩⟩
    · exact ⟨rid, entry.rid, atX, atY, .inr ⟨entry, member, rfl, advertises⟩⟩
    · exact ⟨entry.rid, rid, atX, atY, .inl ⟨entry, member, rfl, advertises⟩⟩
  · rintro ⟨a, b, atX, atY, ⟨entry, member, rfl, advertises⟩ | ⟨entry, member, rfl, advertises⟩⟩
    · exact ⟨entry, member, b, advertises, .inr ⟨atX, atY⟩⟩
    · exact ⟨entry, member, a, advertises, .inl ⟨atX, atY⟩⟩

theorem hop_iff_drawn (x y : Nat) :
    Hop routerId db x y ↔ x ≠ y ∧ Drawn routerId db x y := by
  rw [Hop, drawn_iff]

theorem Drawn.symm {x y : Nat} (drawn : Drawn routerId db x y) : Drawn routerId db y x := by
  obtain ⟨entry, member, rid, advertises, edge⟩ := drawn
  exact ⟨entry, member, rid, advertises, edge.elim (fun h => .inr ⟨h.2, h.1⟩) fun h => .inl ⟨h.2, h.1⟩⟩

theorem Hop.lt {x y : Nat} (hop : Hop routerId db x y) :
    x < db.length + 1 ∧ y < db.length + 1 := by
  obtain ⟨-, a, b, atX, atY, -⟩ := hop
  obtain ⟨xBound, -⟩ := List.getElem?_eq_some_iff.mp atX
  obtain ⟨yBound, -⟩ := List.getElem?_eq_some_iff.mp atY
  rw [length_rids] at xBound yBound
  exact ⟨xBound, yBound⟩

variable (marks : Marks (Drawn routerId db) initGraph graph)

include marks

theorem marked_iff {x y : Nat} (different : x ≠ y) : graph x y = 1 ↔ Hop routerId db x y := by
  rw [hop_iff_drawn]
  by_cases drawn : Drawn routerId db x y
  · simp [marks.marked x y drawn, different, drawn]
  · rw [marks.kept x y drawn, initGraph, if_neg different]
    simp [drawn, MAX_INT]

theorem marked_twoValued (n : Nat) : TwoValued n graph := by
  intro x _ y _ different
  by_cases drawn : Drawn routerId db x y
  · exact .inl (marks.marked x y drawn)
  · rw [marks.kept x y drawn, initGraph, if_neg different]
    exact .inr rfl

theorem marked_symm (x y : Nat) : graph x y = graph y x := by
  by_cases drawn : Drawn routerId db x y
  · rw [marks.marked x y drawn, marks.marked y x drawn.symm]
  · rw [marks.kept x y drawn, marks.kept y x fun back => drawn back.symm]
    simp only [initGraph, eq_comm]

theorem linked_eq_hop : Linked (db.length + 1) graph = Hop routerId db := by
  funext x y
  refine propext ⟨?_, ?_⟩
  · rintro ⟨-, -, different, one⟩
    exact (marked_iff marks different).mp one
  · intro hop
    exact ⟨hop.lt.1, hop.lt.2, hop.1, (marked_iff marks hop.1).mpr hop⟩

end Matrix

def Connected (routerId : UInt32) (db : List MospfDbEntry) : Prop :=
  ∀ x < db.length + 1, ∃ d, Walk (Hop routerId db) d 0 x

/-- The arrays hold the topology and its shortest paths from node 0. -/
structure ShortestPaths (routerId : UInt32) (db : List MospfDbEntry) (nodeNum : Nat)
    (globals : Globals) : Prop where
  count : nodeNum = db.length + 1
  inside : nodeNum ≤ MAX_NUM
  nodes : ∀ x < nodeNum, (rids routerId db)[x]? = some (globals.node x)
  symmetric : ∀ x y, globals.graph x y = globals.graph y x
  edges : ∀ x < nodeNum, ∀ y < nodeNum, x ≠ y →
    (globals.graph x y = 1 ↔ Hop routerId db x y)
  distances : ∀ x < nodeNum, IsDistance (Hop routerId db) (globals.dist x).toNat 0 x
  near : ∀ x < nodeNum, (globals.dist x).toNat < nodeNum
  predecessors : ∀ x < nodeNum, x ≠ 0 →
    (globals.prev x).toNat < nodeNum ∧
      (globals.dist (globals.prev x).toNat).toNat + 1 = (globals.dist x).toNat ∧
      Hop routerId db (globals.prev x).toNat x

section Paths

variable {routerId : UInt32} {db : List MospfDbEntry} {globals done : Globals} {nodeNum : Nat}

theorem caculatePaths_some (distinct : (rids routerId db).Nodup)
    (success : caculatePaths routerId db globals = some (nodeNum, done)) :
    ShortestPaths routerId db nodeNum done := by
  obtain ⟨⟨n, graphed⟩, isGraph, success⟩ := Option.bind_eq_some_iff.mp success
  obtain ⟨settled, isSettled, success⟩ := Option.bind_eq_some_iff.mp success
  obtain ⟨rfl, rfl⟩ := Prod.mk.inj (Option.some.inj success)
  obtain ⟨rfl, inside, holding, marks⟩ := caculateGraph_some distinct isGraph
  have twoValued := marked_twoValued marks (db.length + 1)
  obtain ⟨visiting, sameNode, all⟩ :=
    dijkstra_settled inside (Nat.succ_pos _) twoValued isSettled
  have sameGraph := visiting.same
  have isDistance := visiting.settled.nearest
  have reached := visiting.settled.reached
  rw [linked_eq_hop marks] at isDistance reached
  refine ⟨rfl, inside, ?_, ?_, ?_, ?_, ?_, ?_⟩
  · intro x bound
    have here := List.getElem?_eq_getElem (by rw [length_rids]; exact bound :
      x < (rids routerId db).length)
    rw [here, sameNode, holding x _ here]
  · rw [sameGraph]
    exact marked_symm marks
  · intro x _ y _ different
    rw [sameGraph]
    exact marked_iff marks different
  · intro x bound
    rw [← label_of_lt bound]
    exact isDistance x ⟨bound, all x bound⟩
  · intro x bound
    exact Nat.lt_succ_of_le (visiting.near x bound (all x bound))
  · intro x bound other
    have near := visiting.near x bound (all x bound)
    obtain ⟨u, isPrev, ⟨uBound, -⟩, hop, next⟩ := reached x other (by
      rw [label_of_lt bound]
      have most : db.length + 1 ≤ 15 := inside
      omega)
    have small : u < UInt32.size := by
      have most : db.length + 1 ≤ 15 := inside
      change u < 4294967296
      omega
    have toU : (settled.prev x).toNat = u := by
      rw [isPrev]
      exact UInt32.toNat_ofNat_of_lt' small
    rw [label_of_lt bound, label_of_lt uBound] at next
    rw [toU]
    exact ⟨uBound, next, hop⟩

/-- When no assertion fails and no index leaves an array. -/
theorem caculatePaths_isSome_iff (distinct : (rids routerId db).Nodup) (globals : Globals) :
    (caculatePaths routerId db globals).isSome ↔
      db.length < MAX_NUM ∧ Sized db ∧ Known routerId db ∧ Connected routerId db := by
  have graphs := caculateGraph_isSome_iff routerId db globals
  cases isGraph : caculateGraph routerId db globals with
  | none =>
      have failed : ¬ (db.length < MAX_NUM ∧ Sized db ∧ Known routerId db) := by
        rw [← graphs, isGraph]
        simp
      simp only [caculatePaths, isGraph, Option.bind_eq_bind, Option.bind_none, Option.isSome_none,
        Bool.false_eq_true, false_iff]
      exact fun all => failed ⟨all.1, all.2.1, all.2.2.1⟩
  | some graphed =>
      obtain ⟨n, graphed⟩ := graphed
      obtain ⟨rfl, inside, -, marks⟩ := caculateGraph_some distinct isGraph
      have holds : db.length < MAX_NUM ∧ Sized db ∧ Known routerId db := by
        rw [← graphs, isGraph]
        rfl
      have runs := dijkstra_isSome_iff graphed inside (Nat.succ_pos _) (marked_twoValued marks _)
      rw [linked_eq_hop marks] at runs
      have same : (caculatePaths routerId db globals).isSome =
          (dijkstra (db.length + 1) graphed).isSome := by
        simp only [caculatePaths, isGraph, Option.bind_eq_bind, Option.bind_some]
        cases dijkstra (db.length + 1) graphed <;> rfl
      rw [same, runs]
      exact ⟨fun connected => ⟨holds.1, holds.2.1, holds.2.2, connected⟩, fun all => all.2.2.2⟩

theorem ShortestPaths.follow (paths : ShortestPaths routerId db nodeNum done) {x : Nat}
    (bound : x < nodeNum) : ∃ k, (fun y => (done.prev y).toNat)^[k] x = 0 := by
  generalize isDistance : (done.dist x).toNat = d
  induction d generalizing x with
  | zero =>
      have shortest := paths.distances x bound
      rw [isDistance, IsDistance.zero_iff] at shortest
      exact ⟨0, shortest.symm⟩
  | succ d ih =>
      have other : x ≠ 0 := by
        rintro rfl
        have zero := (paths.distances 0 bound).unique (IsDistance.zero_iff.mpr rfl)
        omega
      obtain ⟨prevBound, next, -⟩ := paths.predecessors x bound other
      obtain ⟨k, arrives⟩ := ih prevBound (by omega)
      exact ⟨k + 1, arrives⟩

end Paths

/-- With at most 14 entries of distinct other routers, all advertised routers known and
all nodes within reach, no assertion fails and the arrays hold the shortest paths. -/
theorem shortest_paths (routerId : UInt32) (db : List MospfDbEntry) (globals : Globals)
    (few : db.length ≤ 14) (distinct : (rids routerId db).Nodup) (sized : Sized db)
    (known : Known routerId db) (connected : Connected routerId db) :
    ∃ nodeNum done, caculatePaths routerId db globals = some (nodeNum, done) ∧
      ShortestPaths routerId db nodeNum done ∧
      ∀ i < nodeNum, ∃ k, (fun j => (done.prev j).toNat)^[k] i = 0 := by
  have inside : db.length < MAX_NUM := Nat.lt_succ_of_le few
  have runs := (caculatePaths_isSome_iff distinct globals).mpr ⟨inside, sized, known, connected⟩
  obtain ⟨⟨nodeNum, done⟩, success⟩ := Option.isSome_iff_exists.mp runs
  have paths := caculatePaths_some distinct success
  exact ⟨nodeNum, done, success, paths, fun i bound => paths.follow bound⟩

def chainDb : List MospfDbEntry :=
  [{ addTime := 0, rid := 2, seq := 0, nadv := 2,
     array := [{ subnet := 0x0a000100, mask := 0xffffff00, rid := 1 },
       { subnet := 0x0a000200, mask := 0xffffff00, rid := 3 }] },
   { addTime := 0, rid := 3, seq := 0, nadv := 2,
     array := [{ subnet := 0x0a000200, mask := 0xffffff00, rid := 2 },
       { subnet := 0x0a000300, mask := 0xffffff00, rid := 0 }] }]

def zeroGlobals : Globals :=
  { dist := fun _ => 0, prev := fun _ => 0, node := fun _ => 0, visited := fun _ => false,
    graph := fun _ _ => 0 }

theorem shortest_paths_chain :
    ∃ nodeNum done, caculatePaths 1 chainDb zeroGlobals = some (nodeNum, done) ∧
      ShortestPaths 1 chainDb nodeNum done ∧
      ∀ i < nodeNum, ∃ k, (fun j => (done.prev j).toNat)^[k] i = 0 := by
  have first : Advertised chainDb 2 1 := ⟨_, List.mem_cons_self, rfl, by decide,
    ⟨0x0a000100, 0xffffff00, 1⟩, by decide, rfl⟩
  have second : Advertised chainDb 2 3 := ⟨_, List.mem_cons_self, rfl, by decide,
    ⟨0x0a000200, 0xffffff00, 3⟩, by decide, rfl⟩
  have toTwo : Hop 1 chainDb 0 1 := ⟨by decide, 1, 2, rfl, rfl, .inr first⟩
  have toThree : Hop 1 chainDb 1 2 := ⟨by decide, 2, 3, rfl, rfl, .inl second⟩
  refine shortest_paths 1 chainDb zeroGlobals (by decide) (by decide) ?_ ?_ ?_
  · intro entry member
    revert entry member
    decide
  · rintro entry member rid ⟨nonzero, lsa, inEntry, rfl⟩
    revert entry member lsa
    decide
  · intro x bound
    have cases : x = 0 ∨ x = 1 ∨ x = 2 := by
      have three : x < 3 := bound
      omega
    rcases cases with rfl | rfl | rfl
    · exact ⟨0, rfl⟩
    · exact ⟨1, 1, toTwo, rfl⟩
    · exact ⟨2, 1, toTwo, 2, toThree, rfl⟩

end NetworkLab.Mospf
