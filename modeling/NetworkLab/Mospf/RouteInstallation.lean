import NetworkLab.Mospf.Threads

/-!
# Installing routes along shortest paths

The last loops of `caculate_rtable_thread`.  Following `Prev` finds the first hop of a
shortest path, but `iface_addr` is NULL, so that the first route to be added ends the
run: the loops do their work only when no route is missing.
-/
set_option autoImplicit false

namespace NetworkLab.Mospf

open Lib

section FirstHop

variable {routerId : UInt32} {db : List MospfDbEntry} {nodeNum : Nat} {globals : Globals}

/-- The loop over `Prev` ends at a neighbour from which a shortest path goes on. -/
theorem firstHop_shortest (paths : ShortestPaths routerId db nodeNum globals) (left : Nat) {x d : Nat}
    (bound : x < nodeNum) (isDist : (globals.dist x).toNat = d + 1) (enough : d < left) :
    ∃ hop, firstHop globals.prev left x = some hop ∧ Hop routerId db 0 hop ∧
      IsDistance (Hop routerId db) d hop x := by
  induction left generalizing x d with
  | zero => omega
  | succ left ih =>
      have other : x ≠ 0 := by
        rintro rfl
        have zero := (paths.distances 0 bound).unique (IsDistance.zero_iff.mpr rfl)
        omega
      obtain ⟨prevBound, next, edge⟩ := paths.predecessors x bound other
      have inside : x < MAX_NUM := bound.trans_le paths.inside
      have shortest := paths.distances x bound
      rw [isDist] at next shortest
      by_cases last : globals.prev x = 0
      · rw [last] at next edge
        have zero := (paths.distances 0 (by omega)).unique (IsDistance.zero_iff.mpr rfl)
        have direct : d = 0 := by
          change (globals.dist 0).toNat + 1 = d + 1 at next
          omega
        subst direct
        refine ⟨x, ?_, edge, IsDistance.zero_iff.mpr rfl⟩
        simp [firstHop, readAt, inside, last]
      · have prevOther : (globals.prev x).toNat ≠ 0 := fun zero =>
          last (UInt32.toNat_inj.mp zero)
        obtain ⟨k, rfl⟩ : ∃ k, d = k + 1 := by
          refine Nat.exists_eq_add_one_of_ne_zero fun zero => prevOther ?_
          have atSource := paths.distances _ prevBound
          rw [show (globals.dist (globals.prev x).toNat).toNat = 0 by omega,
            IsDistance.zero_iff] at atSource
          exact atSource.symm
        obtain ⟨hop, found, first, rest⟩ := ih prevBound (by omega : _ = k + 1) (by omega)
        refine ⟨hop, ?_, first, rest.1.snoc edge, ?_⟩
        · simpa [firstHop, readAt, inside, last] using found
        · intro n walk
          have longer := shortest.2 (n + 1) (walk.cons first)
          omega

end FirstHop

section Specification

variable (routerId : UInt32) (db : List MospfDbEntry) (ifaceList : List Interface)
  (rtable : List RtEntry)

def Routed (subnet mask : UInt32) : Prop :=
  ∃ route ∈ rtable, route.dest &&& route.mask = subnet ∧ route.mask = mask

def MospfDbEntry.AdvertisesNet (entry : MospfDbEntry) (subnet mask : UInt32) : Prop :=
  ∃ lsa ∈ entry.array.take entry.nadv.toNat, lsa.subnet = subnet ∧ lsa.mask = mask

def Origin (subnet mask : UInt32) (x : Nat) : Prop :=
  ∃ entry ∈ db, (rids routerId db)[x]? = some entry.rid ∧ entry.AdvertisesNet subnet mask

/-- The route goes to the neighbour that starts a shortest path to a nearest origin. -/
def LeadsToNearest (subnet mask : UInt32) (route : RtEntry) : Prop :=
  ∃ x d hop, Origin routerId db subnet mask x ∧ IsDistance (Hop routerId db) (d + 1) 0 x ∧
    (∀ y e, Origin routerId db subnet mask y → IsDistance (Hop routerId db) e 0 y → d + 1 ≤ e) ∧
    Hop routerId db 0 hop ∧ IsDistance (Hop routerId db) d hop x ∧
    ∃ iface ∈ ifaceList, ∃ nbr ∈ iface.nbrList, (rids routerId db)[hop]? = some nbr.nbrId ∧
      route.gw = nbr.nbrIp ∧ route.iface = iface.index

/-- The old routes stay, and each advertised network without one gets exactly one. -/
def FollowsPaths (final : List RtEntry) : Prop :=
  ∃ added, final = rtable ++ added ∧
    ∀ entry ∈ db, ∀ subnet mask, entry.AdvertisesNet subnet mask → ¬ Routed rtable subnet mask →
      ∃ route, (added.filter fun other => other.dest = subnet ∧ other.mask = mask) = [route] ∧
        LeadsToNearest routerId db ifaceList subnet mask route

end Specification

section Loops

variable {nodeNum : Nat} {globals : Globals} {ifaceList : List Interface} {db : List MospfDbEntry}
  {routing final : Routing}

theorem foldlM_same {α σ : Type} {step : σ → α → Option σ} {list : List α}
    (each : ∀ a ∈ list, ∀ s t, step s a = some t → t = s) {s t : σ}
    (success : list.foldlM step s = some t) : t = s := by
  induction list generalizing s with
  | nil => exact (Option.some.inj success).symm
  | cons a rest ih =>
      rw [List.foldlM_cons] at success
      obtain ⟨middle, here, later⟩ := Option.bind_eq_some_iff.mp success
      obtain rfl := each a List.mem_cons_self s middle here
      exact ih (fun b member => each b (List.mem_cons_of_mem _ member)) later

theorem foldlM_stays {α σ : Type} {step : σ → α → Option σ} {list : List α} {s : σ}
    (each : ∀ a ∈ list, step s a = some s) : list.foldlM step s = some s := by
  induction list with
  | nil => rfl
  | cons a rest ih =>
      rw [List.foldlM_cons, each a List.mem_cons_self]
      exact ih fun b member => each b (List.mem_cons_of_mem _ member)

theorem getIfaceAndGw_null (ifaceList : List Interface) (rid gw : UInt32)
    {outcome : Option (Option Interface) × UInt32}
    (success : getIfaceAndGw ifaceList rid none gw = some outcome) : outcome.1 = none := by
  simp only [getIfaceAndGw] at success
  split at success
  · cases success
  · obtain rfl := Option.some.inj success
    rfl

theorem installLsa_some {rid : UInt32} {lsa : MospfLsa}
    (success : installLsa nodeNum globals ifaceList rid routing lsa = some final) :
    final = routing ∧ isInRtable routing.rtable lsa.subnet := by
  unfold installLsa at success
  split_ifs at success with known
  · exact ⟨(Option.some.inj success).symm, known⟩
  · obtain ⟨node, -, success⟩ := Option.bind_eq_some_iff.mp success
    obtain ⟨hop, -, success⟩ := Option.bind_eq_some_iff.mp success
    obtain ⟨hopRid, -, success⟩ := Option.bind_eq_some_iff.mp success
    obtain ⟨⟨ifaceAddr, gw⟩, lookup, success⟩ := Option.bind_eq_some_iff.mp success
    obtain rfl : ifaceAddr = none := getIfaceAndGw_null ifaceList hopRid routing.gw lookup
    cases success

theorem installEntry_some {entry : MospfDbEntry}
    (success : installEntry nodeNum globals ifaceList routing entry = some final) :
    final = routing := by
  obtain ⟨lsas, -, success⟩ := Option.bind_eq_some_iff.mp success
  exact foldlM_same (fun lsa _ s t round => (installLsa_some round).1) success

/-- The loops leave the routing table as it was, if they return. -/
theorem installRoutes_some {distRank : List Nat}
    (success : installRoutes nodeNum globals ifaceList db distRank routing = some final) :
    final = routing := by
  refine foldlM_same (fun node _ s t round => ?_) success
  obtain ⟨prev, -, round⟩ := Option.bind_eq_some_iff.mp round
  split_ifs at round
  · exact foldlM_same (fun entry _ s t here => installEntry_some here) round
  · exact (Option.some.inj round).symm

/-- They do when every advertised subnet has a route. -/
theorem installRoutes_stays {distRank : List Nat} (sized : Sized db)
    (inside : ∀ node ∈ distRank, node < MAX_NUM)
    (known : ∀ entry ∈ db, ∀ lsa ∈ entry.array.take entry.nadv.toNat,
      isInRtable routing.rtable lsa.subnet) :
    installRoutes nodeNum globals ifaceList db distRank routing = some routing := by
  have entries : ∀ entry ∈ db, installEntry nodeNum globals ifaceList routing entry = some routing := by
    intro entry member
    rw [installEntry, MospfDbEntry.lsas, if_pos (sized entry member), Option.bind_eq_bind,
      Option.bind_some]
    exact foldlM_stays fun lsa inEntry => if_pos (known entry member lsa inEntry)
  refine foldlM_stays fun node member => ?_
  rw [installNode, readAt, if_pos (inside node member), Option.bind_eq_bind, Option.bind_some]
  split_ifs
  · exact foldlM_stays entries
  · rfl

end Loops

/-- For the arrays that `caculate_graph` and `Dijkstra` leave, and any order of the
nodes: the routes follow shortest paths exactly when every advertised network has a
route from the start. -/
theorem routes_follow_paths {routerId : UInt32} {db : List MospfDbEntry} {start done : Globals}
    {nodeNum : Nat} {distRank : List Nat} (distinct : (rids routerId db).Nodup)
    (paths : caculatePaths routerId db start = some (nodeNum, done))
    (ranks : distRank.Perm (List.range nodeNum)) (ifaceList : List Interface)
    (rtable : List RtEntry) (gw : UInt32) :
    (∃ final, installRoutes nodeNum done ifaceList db distRank { gw := gw, rtable := rtable } =
        some final ∧ FollowsPaths routerId db ifaceList rtable final.rtable) ↔
      ∀ entry ∈ db, ∀ lsa ∈ entry.array.take entry.nadv.toNat,
        Routed rtable lsa.subnet lsa.mask := by
  constructor
  · rintro ⟨final, success, added, grown, served⟩ entry member lsa inEntry
    by_contra missing
    obtain rfl := installRoutes_some success
    obtain rfl : added = [] := List.self_eq_append_right.mp grown
    obtain ⟨route, only, -⟩ := served entry member lsa.subnet lsa.mask ⟨lsa, inEntry, rfl, rfl⟩ missing
    cases only
  · intro routed
    have sized : Sized db := ((caculatePaths_isSome_iff distinct start).mp (by rw [paths]; rfl)).2.1
    have inside : ∀ node ∈ distRank, node < MAX_NUM := fun node member =>
      (List.mem_range.mp (ranks.subset member)).trans_le (caculatePaths_some distinct paths).inside
    have known : ∀ entry ∈ db, ∀ lsa ∈ entry.array.take entry.nadv.toNat,
        isInRtable rtable lsa.subnet := by
      intro entry member lsa inEntry
      obtain ⟨route, inTable, same, -⟩ := routed entry member lsa inEntry
      exact List.any_eq_true.mpr ⟨route, inTable, by simpa using same⟩
    refine ⟨_, installRoutes_stays sized inside known, [], (List.append_nil _).symm, ?_⟩
    rintro entry member subnet mask ⟨lsa, inEntry, rfl, rfl⟩ missing
    exact absurd (routed entry member lsa inEntry) missing

def heardTwo : List Interface :=
  [{ index := 0, ip := 0x0a000101, mask := 0xffffff00, name := "r1-eth0", numNbr := 1,
     nbrList := [{ nbrId := 2, nbrIp := 0x0a000102, nbrMask := 0xffffff00, alive := 0 }] }]

def directRoute : RtEntry :=
  { dest := 0x0a000100, mask := 0xffffff00, gw := 0, ifName := "r1-eth0", iface := 0 }

theorem routes_follow_paths_direct :
    ∃ nodeNum done, caculatePaths 1
        [{ addTime := 0, rid := 2, seq := 0, nadv := 1,
           array := [{ subnet := 0x0a000100, mask := 0xffffff00, rid := 1 }] }] zeroGlobals =
        some (nodeNum, done) ∧
      ∃ final, installRoutes nodeNum done heardTwo
          [{ addTime := 0, rid := 2, seq := 0, nadv := 1,
             array := [{ subnet := 0x0a000100, mask := 0xffffff00, rid := 1 }] }]
          (List.range nodeNum) { gw := 0, rtable := [directRoute] } = some final ∧
        FollowsPaths 1
          [{ addTime := 0, rid := 2, seq := 0, nadv := 1,
             array := [{ subnet := 0x0a000100, mask := 0xffffff00, rid := 1 }] }]
          heardTwo [directRoute] final.rtable := by
  obtain ⟨⟨nodeNum, done⟩, paths⟩ : ∃ result, caculatePaths 1
    [{ addTime := 0, rid := 2, seq := 0, nadv := 1,
       array := [{ subnet := 0x0a000100, mask := 0xffffff00, rid := 1 }] }] zeroGlobals =
    some result := ⟨_, rfl⟩
  refine ⟨nodeNum, done, paths, (routes_follow_paths (by decide) paths (.refl _) heardTwo
    [directRoute] 0).mpr ?_⟩
  intro entry member lsa inEntry
  refine ⟨directRoute, List.mem_singleton_self _, ?_⟩
  revert entry member lsa
  decide

theorem missing_route_ends_run :
    ∃ done, caculatePaths 1 chainDb zeroGlobals = some (3, done) ∧
      [0, 1, 2].Pairwise (fun x y => done.dist x ≤ done.dist y) ∧
      installRoutes 3 done heardTwo chainDb [0, 1, 2] { gw := 0, rtable := [directRoute] } = none ∧
      ¬ ∃ final, installRoutes 3 done heardTwo chainDb [0, 1, 2]
          { gw := 0, rtable := [directRoute] } = some final ∧
        FollowsPaths 1 chainDb heardTwo [directRoute] final.rtable := by
  refine ⟨_, rfl, by decide, rfl, ?_⟩
  rintro ⟨final, success, -⟩
  cases success

end NetworkLab.Mospf
