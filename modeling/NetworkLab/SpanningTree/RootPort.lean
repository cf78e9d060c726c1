import NetworkLab.SpanningTree.Roles

/-!
# Selecting the root port

What `stp_handle_config_packet` selects.  Only alternate ports are candidates, and the previous
root port is not one of them: the selection is right as long as an alternate port is as good as
every port that is not designated, and its cost and path cost add up to an `int`.
-/
set_option autoImplicit false

namespace NetworkLab.SpanningTree

open Lib.Run

variable {n : Nat}

def LeastUndesignated (stp : Stp n) (r : Fin n) : Prop :=
  stpPortIsDesignated stp (stp.ports r) = false ∧
    ∀ j, stpPortIsDesignated stp (stp.ports j) = false →
      portVector (stp.ports r) ≤ portVector (stp.ports j)

instance (stp : Stp n) (r : Fin n) : Decidable (LeastUndesignated stp r) :=
  inferInstanceAs (Decidable (_ ∧ _))

/-- Root and cost as they follow from a root port; the sum is that of the numbers. -/
def viaPort (stp : Stp n) (r : Fin n) : Nat × Int :=
  ((stp.ports r).designatedRoot, (stp.ports r).designatedCost + (stp.ports r).pathCost)

def Stp.stated (stp : Stp n) : Nat × Int := (stp.designatedRoot, stp.rootPathCost)

/-- The root port that should be selected once the received vector is stored. -/
def Reselects (stp : Stp n) : TimedEvent n → Stp n → Prop
  | .config i received, next =>
    configPrior received (stp.ports i) = true →
      (∀ j, stpPortIsDesignated (storeConfig stp i received)
          ((storeConfig stp i received).ports j) = true) ∧
        next.rootPort = none ∧ next.stated = (next.switchId, 0) ∨
      ∃ r, next.rootPort = some r ∧ LeastUndesignated (storeConfig stp i received) r ∧
        next.stated = viaPort (storeConfig stp i received) r
  | .timerRunOnce _ _, _ => True

instance (stp : Stp n) (event : TimedEvent n) (next : Stp n) :
    Decidable (Reselects stp event next) :=
  match event with
  | .config _ _ => inferInstanceAs (Decidable (_ → _))
  | .timerRunOnce _ _ => isTrue trivial

/-- The root path cost through the port is an `int`. -/
def SumFits (stp : Stp n) (r : Fin n) : Prop :=
  (stp.ports r).designatedCost + (stp.ports r).pathCost < 2147483648

/-- Root and cost when there is no alternate port. -/
def unselected (stp : Stp n) : Nat × Int := if n = 1 then stp.stated else (stp.switchId, 0)

/-- An alternate port is as good as every port that is not designated, and its sum fits; or there is no port to
select and none to forget; or there is none but the previous root port, and its vector says
what the switch takes without one. -/
def SelectsRight (stp : Stp n) : TimedEvent n → Prop
  | .config i received =>
    configPrior received (stp.ports i) = true →
      (∃ r, isAlternate (storeConfig stp i received) r = true ∧
        LeastUndesignated (storeConfig stp i received) r ∧
        SumFits (storeConfig stp i received) r) ∨
      (∀ j, stpPortIsDesignated (storeConfig stp i received)
        ((storeConfig stp i received).ports j) = true) ∧ stp.rootPort = none ∨
      (∀ j, isAlternate (storeConfig stp i received) j = false) ∧
        ∃ r, stp.rootPort = some r ∧ LeastUndesignated (storeConfig stp i received) r ∧
          unselected stp = viaPort (storeConfig stp i received) r
  | .timerRunOnce _ _ => True

/-- Without a root port the switch states itself as the root. -/
def StatesItself (stp : Stp n) : Prop := stp.rootPort = none → stp.stated = (stp.switchId, 0)

structure CostsLow (stp : Stp n) : Prop where
  pathCost : ∀ i, (stp.ports i).pathCost = 1
  switch : -2147483648 ≤ stp.rootPathCost
  port : ∀ i, -2147483648 ≤ (stp.ports i).designatedCost

theorem viaPort_wrapped_iff {stp : Stp n} (low : CostsLow stp) (r : Fin n) :
    ((stp.ports r).designatedRoot,
        addInt (stp.ports r).designatedCost (stp.ports r).pathCost) = viaPort stp r ↔
      SumFits stp r := by
  have costLow := low.port r
  have unit := low.pathCost r
  rw [viaPort, Prod.mk.injEq, SumFits]
  constructor
  · rintro ⟨-, exactSum⟩
    rw [← exactSum]
    exact (addInt_range _ _).2
  · intro fits
    exact ⟨rfl, addInt_eq (by omega) fits⟩

/-! ## One config -/

section OneConfig

variable {stp : Stp n} {i : Fin n} {received : StpConfig}

theorem adoptConfig_unselected (noPort : findRootPort (storeConfig stp i received) = none) :
    (adoptConfig stp i received).rootPort = stp.rootPort ∧
      (adoptConfig stp i received).stated = unselected stp := by
  unfold Stp.stated unselected
  by_cases onePort : n = 1
  · constructor <;> simp [adoptConfig, noPort, relabelPorts, updateSwitch, onePort, Stp.stated]
  · constructor <;> simp [adoptConfig, noPort, relabelPorts, updateSwitch, onePort]

theorem adoptConfig_selected {r : Fin n}
    (found : findRootPort (storeConfig stp i received) = some r) :
    (adoptConfig stp i received).rootPort = some r ∧
      (adoptConfig stp i received).stated =
        (((storeConfig stp i received).ports r).designatedRoot,
          addInt ((storeConfig stp i received).ports r).designatedCost
            ((storeConfig stp i received).ports r).pathCost) := by
  unfold Stp.stated
  constructor <;> simp [adoptConfig, found, relabelPorts, updateSwitch]

theorem storeConfig_costsLow (low : CostsLow stp) : CostsLow (storeConfig stp i received) where
  pathCost j := by
    rw [storeConfig_pathCost]
    exact low.pathCost j
  switch := low.switch
  port j := by
    by_cases same : j = i
    · subst same
      rw [storeConfig_port_self]
      simp only [toI32]
      split_ifs <;> omega
    · rw [storeConfig_port_other stp received same]
      exact low.port j

theorem adoptConfig_costsLow (low : CostsLow stp) : CostsLow (adoptConfig stp i received) := by
  have switch : -2147483648 ≤ (adoptConfig stp i received).rootPathCost := by
    rcases adoptConfig_switch stp i received with
      ⟨r, -, -, -, cost⟩ | ⟨-, -, ⟨-, cost⟩ | ⟨-, cost⟩⟩
    · rw [cost]
      exact (addInt_range _ _).1
    · rw [cost]
      exact low.switch
    · rw [cost]
      decide
  refine ⟨?_, switch, ?_⟩
  · intro j
    rw [adoptConfig_pathCost]
    exact low.pathCost j
  · intro j
    rcases adoptConfig_port_cases stp i j received with ⟨-, cost, -⟩ | ⟨kept, -⟩
    · rw [cost]
      exact switch
    · rw [kept]
      exact (storeConfig_costsLow low).port j

theorem SumFits.of_vector_eq {r best : Fin n} (low : CostsLow stp)
    (same : portVector (stp.ports r) = portVector (stp.ports best)) (fits : SumFits stp best) :
    SumFits stp r := by
  simp only [portVector, vector, EmbeddingLike.apply_eq_iff_eq, Prod.mk.injEq] at same
  obtain ⟨-, cost, -⟩ := same
  rw [SumFits, low.pathCost best] at fits
  rw [SumFits, low.pathCost r, cost]
  exact fits

theorem StatesItself.unselected (itself : StatesItself stp) (noRootPort : stp.rootPort = none) :
    unselected stp = (stp.switchId, 0) := by
  rw [SpanningTree.unselected]
  split_ifs
  · exact itself noRootPort
  · rfl

theorem adoptConfig_statesItself (itself : StatesItself stp) :
    StatesItself (adoptConfig stp i received) := by
  intro noRootPort
  cases found : findRootPort (storeConfig stp i received) with
  | none =>
    obtain ⟨kept, stated⟩ := adoptConfig_unselected found
    rw [kept] at noRootPort
    rw [stated, itself.unselected noRootPort, adoptConfig_switchId]
  | some r =>
    rw [(adoptConfig_selected found).1] at noRootPort
    cases noRootPort

theorem adoptConfig_reselects_iff (itself : StatesItself stp) (low : CostsLow stp)
    (superior : configPrior received (stp.ports i) = true) :
    Reselects stp (.config i received) (adoptConfig stp i received) ↔
      SelectsRight stp (.config i received) := by
  have storedLow : CostsLow (storeConfig stp i received) := storeConfig_costsLow low
  rw [Reselects, SelectsRight, forall_prop_of_true superior, forall_prop_of_true superior]
  cases found : findRootPort (storeConfig stp i received) with
  | some r =>
    obtain ⟨rootPort, stated⟩ := adoptConfig_selected found
    have alternate := findRootPort_alternate found
    have undesignated := isAlternate_not_designated alternate
    rw [rootPort, stated]
    constructor
    · intro reselects
      cases reselects with
      | inl alone => cases alone.2.1
      | inr selected =>
        obtain ⟨other, same, least, exactSum⟩ := selected
        cases same
        exact .inl ⟨r, alternate, least, (viaPort_wrapped_iff storedLow r).mp exactSum⟩
    · intro right
      rcases right with ⟨best, bestAlternate, least, fits⟩ | ⟨designated, -⟩ | ⟨noneAlternate, -⟩
      · have below := findRootPort_least found bestAlternate
        have same := le_antisymm below (least.2 r undesignated)
        refine .inr ⟨r, rfl, ⟨undesignated, ?_⟩, ?_⟩
        · intro j notDesignated
          exact below.trans (least.2 j notDesignated)
        · exact (viaPort_wrapped_iff storedLow r).mpr (fits.of_vector_eq storedLow same)
      · rw [designated r] at undesignated
        cases undesignated
      · rw [noneAlternate r] at alternate
        cases alternate
  | none =>
    obtain ⟨rootPort, stated⟩ := adoptConfig_unselected found
    have noneAlternate := findRootPort_none found
    rw [rootPort, stated, adoptConfig_switchId]
    constructor
    · intro reselects
      cases reselects with
      | inl alone => exact .inr (.inl ⟨alone.1, alone.2.1⟩)
      | inr kept => exact .inr (.inr ⟨noneAlternate, kept⟩)
    · intro right
      rcases right with ⟨best, bestAlternate, -⟩ | ⟨designated, noRootPort⟩ | ⟨-, kept⟩
      · rw [noneAlternate best] at bestAlternate
        cases bestAlternate
      · exact .inl ⟨designated, noRootPort, itself.unselected noRootPort⟩
      · exact .inr kept

end OneConfig

/-! ## Every run -/

theorem timedStep_statesItself {stp next : Stp n} {event : TimedEvent n}
    (itself : StatesItself stp) (taken : timedStep stp event = some next) :
    StatesItself next := by
  cases event with
  | config i received =>
    cases Option.some.inj taken
    simp only [stpHandleConfigPacket]
    split_ifs with superior
    · exact adoptConfig_statesItself itself
    · exact itself
  | timerRunOnce now tick =>
    cases Option.some.inj taken
    obtain ⟨id, root, rootPort, -⟩ := stpTimerRunOnce_kept stp now tick
    have cost : (stpTimerRunOnce stp now tick).1.rootPathCost = stp.rootPathCost := by
      simp only [stpTimerRunOnce]
      split_ifs <;> rfl
    intro noRootPort
    rw [rootPort] at noRootPort
    rw [Stp.stated, root, cost, id]
    exact itself noRootPort

theorem timedStep_costsLow {stp next : Stp n} {event : TimedEvent n} (low : CostsLow stp)
    (taken : timedStep stp event = some next) : CostsLow next := by
  cases event with
  | config i received =>
    cases Option.some.inj taken
    simp only [stpHandleConfigPacket]
    split_ifs with superior
    · exact adoptConfig_costsLow low
    · exact low
  | timerRunOnce now tick =>
    cases Option.some.inj taken
    simp only [stpTimerRunOnce]
    split_ifs <;> exact ⟨low.pathCost, low.switch, low.port⟩

/-- Every config that is adopted leaves the root port that it should, if and only if every one
comes where the selection is right. -/
theorem root_port_reselected (mac : Mac) (now : Int) (events : List (TimedEvent n)) :
    EachStep timedStep Reselects (stpInit mac n now) events ↔
      Guarded timedStep SelectsRight (stpInit mac n now) events := by
  have starts : StatesItself (stpInit mac n now) ∧ CostsLow (stpInit mac n now) :=
    ⟨fun _ => rfl, fun _ => rfl, by simp [stpInit], by simp [stpInit, stpPortInit]⟩
  have preserved : ∀ (stp : Stp n) event next, StatesItself stp ∧ CostsLow stp →
      SelectsRight stp event → timedStep stp event = some next →
      StatesItself next ∧ CostsLow next := by
    rintro stp event next ⟨itself, low⟩ _ taken
    exact ⟨timedStep_statesItself itself taken, timedStep_costsLow low taken⟩
  refine eachStep_iff_guarded timedStep preserved ?_ ?_ events starts
  · rintro stp event next ⟨itself, low⟩ taken
    cases event with
    | config i received =>
      cases Option.some.inj taken
      simp only [stpHandleConfigPacket]
      split_ifs with superior
      · exact adoptConfig_reselects_iff itself low superior
      · simp [Reselects, SelectsRight, superior]
    | timerRunOnce now tick => exact Iff.rfl
  · intro stp event _ stuck
    cases event <;> cases stuck

/-- `b2` has its root port towards `b1`, and takes a dearer way to `b1` on its other port. -/
theorem dearer_root_port :
    ¬ ∀ events, EachStep timedStep Reselects (stpInit (lineMac 1) 2 0) events := by
  intro always
  have worse : ∃ stp ∈ run timedStep (stpInit (lineMac 1) 2 0)
      [.config 0 ⟨stpSwitchId (lineMac 0), 0, stpSwitchId (lineMac 0), 32769⟩],
      ∃ next ∈ timedStep stp
        (.config 1 ⟨stpSwitchId (lineMac 0), 1, stpSwitchId (lineMac 0), 32770⟩),
        ¬ Reselects stp
          (.config 1 ⟨stpSwitchId (lineMac 0), 1, stpSwitchId (lineMac 0), 32770⟩) next := by
    decide
  obtain ⟨stp, success, next, taken, misses⟩ := worse
  exact misses (eachStep_last timedStep _ (always _) success taken)

end NetworkLab.SpanningTree
