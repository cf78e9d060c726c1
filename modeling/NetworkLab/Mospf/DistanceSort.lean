import NetworkLab.Mospf.LockDiscipline

/-!
# The sort by distance

The double loop of `caculate_rtable_thread` that orders `Dist_rank`.  The condition of its
inner loop tests `i` and not `j`: with more than one node the first inner loop reads on
behind the nodes and never ends.
-/
set_option autoImplicit false

namespace NetworkLab.Mospf

section Indices

variable (nodeNum : Nat)

/-- The indices of `Dist` and `Dist_rank` that the inner loop uses from `j` on. -/
def indicesFrom (i : Nat) : Nat → Nat → Ranking → List Nat
  | left, j, ranking =>
    if (i : Int) ≠ nodeNum - i - 1 then
      match left with
      | 0 => [j, j + 1]
      | left + 1 =>
        [j, j + 1] ++ ((rankRound j ranking).map (indicesFrom i left (j + 1))).getD []
    else []

/-- The same for the outer loop with these `i` to come. -/
def rankIndices : List Nat → Ranking → List Nat
  | [], _ => []
  | i :: rest, ranking =>
    indicesFrom nodeNum i (MAX_NUM - 1) 0 ranking ++
      ((rankFrom nodeNum i (MAX_NUM - 1) 0 ranking).map (rankIndices rest)).getD []

def startRanking (dist : Nat → UInt32) : Ranking :=
  { dist := dist, distRank := List.range nodeNum }

/-- What the loop is for: `Dist` in ascending order, and the nodes in that of the distances
that they had. -/
structure RankedByDistance (dist : Nat → UInt32) (ranking : Ranking) : Prop where
  ascending : ∀ i j, i ≤ j → j < nodeNum → ranking.dist i ≤ ranking.dist j
  permutation : ranking.distRank.Perm (List.range nodeNum)
  ranked : (ranking.distRank.map dist).Pairwise (· ≤ ·)

/-- The double loop comes to its end, stays with the nodes, and sorts them. -/
def SortsByDistance (dist : Nat → UInt32) : Prop :=
  ∃ ranking, rankNodes nodeNum dist = some ranking ∧
    (∀ k ∈ rankIndices nodeNum (List.range (nodeNum - 1)) (startRanking nodeNum dist),
      k < nodeNum) ∧
    RankedByDistance nodeNum dist ranking

end Indices

section Loop

variable {nodeNum : Nat}

/-- A round among the nodes neither fails nor changes the size of `Dist_rank`. -/
theorem rankRound_inside {j : Nat} {ranking : Ranking} (inside : j + 1 < ranking.distRank.length)
    (fits : ranking.distRank.length ≤ MAX_NUM) :
    ∃ next, rankRound j ranking = some next ∧
      next.distRank.length = ranking.distRank.length := by
  have here : readAt ranking.dist j = some (ranking.dist j) := if_pos (by omega)
  have after : readAt ranking.dist (j + 1) = some (ranking.dist (j + 1)) := if_pos (by omega)
  have rankHere := List.getElem?_eq_getElem (show j < ranking.distRank.length by omega)
  have rankAfter := List.getElem?_eq_getElem inside
  by_cases larger : ranking.dist j > ranking.dist (j + 1)
  · refine ⟨_, by simp [rankRound, here, after, larger, rankHere, rankAfter]; rfl, ?_⟩
    simp
  · exact ⟨ranking, by simp [rankRound, here, after, larger], rfl⟩

theorem nodeNum_mem_indicesFrom (several : 2 ≤ nodeNum) (fits : nodeNum ≤ MAX_NUM)
    {left j : Nat} {ranking : Ranking} (size : ranking.distRank.length = nodeNum)
    (below : j < nodeNum) (enough : nodeNum ≤ j + 1 + left) :
    nodeNum ∈ indicesFrom nodeNum 0 left j ranking := by
  have runs : ((0 : Nat) : Int) ≠ nodeNum - (0 : Nat) - 1 := by omega
  induction left generalizing j ranking with
  | zero =>
      have last : nodeNum = j + 1 := by omega
      rw [indicesFrom, if_pos runs]
      simp [← last]
  | succ left ih =>
      rw [indicesFrom, if_pos runs]
      by_cases last : nodeNum = j + 1
      · simp [← last]
      · obtain ⟨next, round, kept⟩ := @rankRound_inside j ranking (by omega) (by omega)
        have later := @ih (j + 1) next (kept.trans size) (by omega) (by omega)
        rw [round]
        exact List.mem_append_right _ later

theorem nodeNum_mem_rankIndices (several : 2 ≤ nodeNum) (fits : nodeNum ≤ MAX_NUM)
    (dist : Nat → UInt32) :
    nodeNum ∈ rankIndices nodeNum (List.range (nodeNum - 1)) (startRanking nodeNum dist) := by
  obtain ⟨k, rfl⟩ := Nat.exists_eq_add_of_le' several
  have rounds : List.range (k + 2 - 1) = 0 :: (List.range k).map Nat.succ := List.range_succ_eq_map
  have maxNum : MAX_NUM = 15 := rfl
  rw [rounds, rankIndices]
  refine List.mem_append_left _ (nodeNum_mem_indicesFrom several fits ?_ (by omega) (by omega))
  exact List.length_range

theorem rankNodes_one (dist : Nat → UInt32) :
    rankNodes 1 dist = some (startRanking 1 dist) := rfl

end Loop

/-- The sort does what it is for if this router is the only node; with more nodes it does not
come to an end, and leaves the nodes. -/
theorem sorts_by_distance_iff {nodeNum : Nat} (positive : 1 ≤ nodeNum) (fits : nodeNum ≤ MAX_NUM)
    (dist : Nat → UInt32) : SortsByDistance nodeNum dist ↔ nodeNum = 1 := by
  constructor
  · rintro ⟨ranking, -, inside, -⟩
    by_contra notOne
    have behind := inside nodeNum (nodeNum_mem_rankIndices (by omega) fits dist)
    exact Nat.lt_irrefl nodeNum behind
  · rintro rfl
    refine ⟨startRanking 1 dist, rankNodes_one dist, by simp [rankIndices], ?_, ?_, ?_⟩
    · intro i j le below
      obtain rfl : i = j := by omega
      exact UInt32.le_refl _
    · exact List.Perm.refl _
    · simp [startRanking]

theorem sorts_by_distance_alone : SortsByDistance 1 (fun _ => 0) :=
  (sorts_by_distance_iff (by decide) (by decide) fun _ => 0).mpr rfl

/-- Two nodes, with the distances 0 and 1 already in order. -/
theorem two_nodes_never_sorted :
    rankNodes 2 (fun i => UInt32.ofNat i) = none ∧
      ¬ SortsByDistance 2 fun i => UInt32.ofNat i := by
  have endless : rankNodes 2 (fun i => UInt32.ofNat i) = none := by decide
  refine ⟨endless, ?_⟩
  intro sorts
  obtain ⟨ranking, success, -⟩ := sorts
  rw [endless] at success
  cases success

end NetworkLab.Mospf
