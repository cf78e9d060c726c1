import NetworkLab.SpanningTree.Soundness

/-!
# Where the selection of the root port agrees with the priority order

`stp_handle_config_packet` looks for the new root port among the alternate ports
only, so the previous root port is never a candidate, and it takes a segment over
by comparing costs alone.  `HandlesWell` says of a switch and a config that
neither matters: some alternate port is at least as near to the best known root
as every non-designated port, and no non-designated port keeps a vector that the
switch's own vector would beat.  Under it a switch keeps `Settled`.
-/
set_option autoImplicit false

namespace NetworkLab.SpanningTree

open Lib Lib.Run

/-! ## Root and cost alone -/

/-- A root and the cost of a path to it, smaller roots first. -/
abbrev Claim := Nat ×ₗ Int

def claim (r : Nat) (c : Int) : Claim := toLex (r, c)

theorem claim_le_iff {r1 r2 : Nat} {c1 c2 : Int} :
    claim r1 c1 ≤ claim r2 c2 ↔ r1 < r2 ∨ r1 = r2 ∧ c1 ≤ c2 := by
  simp only [claim, Prod.Lex.toLex_le_toLex]

theorem claim_le_of_vector_le {r1 r2 : Nat} {c1 c2 : Int} {s1 s2 : Nat} {p1 p2 : Int}
    (le : vector r1 c1 s1 p1 ≤ vector r2 c2 s2 p2) : claim r1 c1 ≤ claim r2 c2 := by
  rw [vector_le_iff] at le
  rw [claim_le_iff]
  omega

theorem claim_succ_le {r1 r2 : Nat} {c1 c2 : Int} (le : claim r1 c1 ≤ claim r2 c2) :
    claim r1 (c1 + 1) ≤ claim r2 (c2 + 1) := by
  rw [claim_le_iff] at le ⊢
  omega

theorem claim_le_succ (r : Nat) (c : Int) : claim r c ≤ claim r (c + 1) := by
  rw [claim_le_iff]
  omega

/-! ## The condition on a switch and a config -/

section
variable {n : Nat}

def HandlesWell (stp : Stp n) (i : Fin n) (config : StpConfig) : Prop :=
  configPrior config (stp.ports i) = true →
    config.switchId ≠ stp.switchId ∧ config.rootPathCost + 1 < 2147483648 ∧
    ∃ r, isAlternate (storeConfig stp i config) r = true ∧
      ∀ j, stpPortIsDesignated (storeConfig stp i config) ((storeConfig stp i config).ports j) =
          false →
        claim ((storeConfig stp i config).ports r).designatedRoot
            ((storeConfig stp i config).ports r).designatedCost ≤
          claim ((storeConfig stp i config).ports j).designatedRoot
            ((storeConfig stp i config).ports j).designatedCost ∧
        (vector ((storeConfig stp i config).ports r).designatedRoot
            (((storeConfig stp i config).ports r).designatedCost + 1) stp.switchId
            (stp.ports j).portId < portVector ((storeConfig stp i config).ports j) →
          ((storeConfig stp i config).ports r).designatedCost + 1 <
            ((storeConfig stp i config).ports j).designatedCost)

/-- The root port selected under `HandlesWell` is alternate and at least as near
to the root as every non-designated port, the previous root port included. -/
theorem HandlesWell.selected {stp : Stp n} {i : Fin n} {config : StpConfig}
    (well : HandlesWell stp i config) (superior : configPrior config (stp.ports i) = true) :
    ∃ r, findRootPort (storeConfig stp i config) = some r ∧
      isAlternate (storeConfig stp i config) r = true ∧
      ∀ j, stpPortIsDesignated (storeConfig stp i config) ((storeConfig stp i config).ports j) =
          false →
        claim ((storeConfig stp i config).ports r).designatedRoot
            ((storeConfig stp i config).ports r).designatedCost ≤
          claim ((storeConfig stp i config).ports j).designatedRoot
            ((storeConfig stp i config).ports j).designatedCost ∧
        (((storeConfig stp i config).ports j).designatedCost ≤
            ((storeConfig stp i config).ports r).designatedCost + 1 →
          portVector ((storeConfig stp i config).ports j) ≤
            vector ((storeConfig stp i config).ports r).designatedRoot
              (((storeConfig stp i config).ports r).designatedCost + 1) stp.switchId
              (stp.ports j).portId) := by
  obtain ⟨-, -, best, bestAlternate, bestLeast⟩ := well superior
  cases found : findRootPort (storeConfig stp i config) with
  | none =>
      have notAlternate := findRootPort_none found best
      rw [bestAlternate] at notAlternate
      cases notAlternate
  | some r =>
      have alternate := findRootPort_alternate found
      have below := claim_le_of_vector_le (findRootPort_least found bestAlternate)
      have above := (bestLeast r (isAlternate_not_designated alternate)).1
      -- both ports have the same root and cost, so the condition speaks of `r` too
      have same := le_antisymm below above
      simp only [claim, EmbeddingLike.apply_eq_iff_eq, Prod.mk.injEq] at same
      refine ⟨r, rfl, alternate, ?_⟩
      intro j notDesignated
      obtain ⟨least, takeover⟩ := bestLeast j notDesignated
      refine ⟨le_trans below least, ?_⟩
      intro cheap
      rw [same.1, same.2] at *
      by_contra beaten
      have cheaper := takeover (lt_of_not_ge beaten)
      omega

end

/-! ## The invariant of one switch -/

variable {ι : Type} {T : Topology ι}

structure Settled (T : Topology ι) (s : ι) (stp : Stp (T.nports s)) : Prop where
  self_le : claim stp.designatedRoot stp.rootPathCost ≤ claim (T.switchId s) 0
  nonneg : 0 ≤ stp.rootPathCost
  below : stp.rootPathCost < 2147483648
  portBelow : ∀ i, stpPortIsDesignated stp (stp.ports i) = false →
    (stp.ports i).designatedCost + 1 < 2147483648
  own : ∀ i, stpPortIsDesignated stp (stp.ports i) = true →
    (stp.ports i).designatedRoot = stp.designatedRoot ∧
      (stp.ports i).designatedCost = stp.rootPathCost
  noRootPort : stp.rootPort = none →
    stp.designatedRoot = T.switchId s ∧ stp.rootPathCost = 0 ∧
      ∀ i, stpPortIsDesignated stp (stp.ports i) = true
  hasRootPort : ∀ r, stp.rootPort = some r →
    stpPortIsDesignated stp (stp.ports r) = false ∧
      stp.designatedRoot = (stp.ports r).designatedRoot ∧
      stp.rootPathCost = (stp.ports r).designatedCost + 1
  nearest : ∀ i, stpPortIsDesignated stp (stp.ports i) = false →
    claim stp.designatedRoot stp.rootPathCost ≤
      claim (stp.ports i).designatedRoot ((stp.ports i).designatedCost + 1)
  beaten : ∀ i, stpPortIsDesignated stp (stp.ports i) = false →
    portVector (stp.ports i) ≤
      vector stp.designatedRoot stp.rootPathCost stp.switchId (stp.ports i).portId

theorem stpInit_settled (T : Topology ι) (s : ι) (now : Int) :
    Settled T s (stpInit (T.mac s) (T.nports s) now) := by
  have designated : ∀ i, stpPortIsDesignated (stpInit (T.mac s) (T.nports s) now)
      ((stpInit (T.mac s) (T.nports s) now).ports i) = true :=
    fun i => (stpPortIsDesignated_iff _ _).mpr ⟨rfl, rfl⟩
  refine ⟨le_refl _, le_refl 0, by simp [stpInit], ?_, fun _ _ => ⟨rfl, rfl⟩,
    fun _ => ⟨rfl, rfl, designated⟩, ?_, ?_, ?_⟩
  · intro i notDesignated
    rw [designated i] at notDesignated
    cases notDesignated
  · intro r isRoot
    cases isRoot
  · intro i notDesignated
    rw [designated i] at notDesignated
    cases notDesignated
  · intro i notDesignated
    rw [designated i] at notDesignated
    cases notDesignated

theorem stpPortId_injective : ∀ i j : Fin STP_MAX_PORTS,
    stpPortId i = stpPortId j → i = j := by decide

theorem toU16_stpPortId : ∀ i : Fin STP_MAX_PORTS, (toU16 (stpPortId i) : Int) = stpPortId i := by
  decide

theorem SwitchSound.port_eq {s : ι} {stp : Stp (T.nports s)} (sound : SwitchSound T s stp)
    {i j : Fin (T.nports s)} (same : (stp.ports i).portId = (stp.ports j).portId) : i = j := by
  rw [(sound.port i).portId, (sound.port j).portId] at same
  have sameIndex := stpPortId_injective (Fin.castLE (T.nports_le s) i)
    (Fin.castLE (T.nports_le s) j) same
  exact Fin.castLE_injective (T.nports_le s) sameIndex

/-- A port is designated after `storeConfig` iff it was and did not take the config. -/
theorem storeConfig_designated {s : ι} {stp : Stp (T.nports s)} {i : Fin (T.nports s)}
    {config : StpConfig} (foreign : config.switchId ≠ stp.switchId) (j : Fin (T.nports s)) :
    stpPortIsDesignated (storeConfig stp i config) ((storeConfig stp i config).ports j) =
      (decide (j ≠ i) && stpPortIsDesignated stp (stp.ports j)) := by
  by_cases same : j = i
  · subst same
    rw [storeConfig_port_self]
    simp [stpPortIsDesignated, foreign]
  · rw [storeConfig_port_other stp config same]
    simp [same, stpPortIsDesignated]

/-- The config that was stored is of another switch, whose cost is small too. -/
theorem Settled.stored_fits {s : ι} {stp : Stp (T.nports s)} {m : Message T}
    {i : Fin (T.nports s)} (sound : SwitchSound T s stp) (settled : Settled T s stp)
    (message : MessageSound T m) (here : m.dst = ⟨s, i⟩)
    (superior : configPrior m.config (stp.ports i) = true)
    (foreign : m.config.switchId ≠ stp.switchId)
    (costBelow : m.config.rootPathCost + 1 < 2147483648) (j : Fin (T.nports s))
    (notDesignated : stpPortIsDesignated (storeConfig stp i m.config)
      ((storeConfig stp i m.config).ports j) = false) :
    0 ≤ ((storeConfig stp i m.config).ports j).designatedCost ∧
      ((storeConfig stp i m.config).ports j).designatedCost + 1 < 2147483648 := by
  obtain ⟨w, -, walk, -⟩ := (storeConfig_sound sound message here superior j).walk
  refine ⟨walk.nonneg, ?_⟩
  by_cases same : j = i
  · subst same
    rw [storeConfig_port_self]
    simp only [toI32, message.below, if_true]
    omega
  · rw [storeConfig_designated foreign] at notDesignated
    rw [storeConfig_port_other stp m.config same]
    exact settled.portBelow j (by simpa [same] using notDesignated)

theorem adoptConfig_claim_le {s : ι} {stp : Stp (T.nports s)} {m : Message T}
    {i r : Fin (T.nports s)} (sound : SwitchSound T s stp) (settled : Settled T s stp)
    (message : MessageSound T m) (foreign : m.config.switchId ≠ stp.switchId)
    (superior : configPrior m.config (stp.ports i) = true)
    (least : ∀ j, stpPortIsDesignated (storeConfig stp i m.config)
        ((storeConfig stp i m.config).ports j) = false →
      claim ((storeConfig stp i m.config).ports r).designatedRoot
          ((storeConfig stp i m.config).ports r).designatedCost ≤
        claim ((storeConfig stp i m.config).ports j).designatedRoot
          ((storeConfig stp i m.config).ports j).designatedCost) :
    claim ((storeConfig stp i m.config).ports r).designatedRoot
        (((storeConfig stp i m.config).ports r).designatedCost + 1) ≤
      claim stp.designatedRoot stp.rootPathCost := by
  have cost : toI32 m.config.rootPathCost = m.config.rootPathCost := by
    simp [toI32, message.below]
  have portCostNonneg := sound.cost_nonneg i
  have portCostBelow := (sound.port i).below
  rw [configPrior, prior_eq_lt, decide_eq_true_iff, toU32_cast portCostNonneg portCostBelow,
    vector_lt_iff] at superior
  -- the port that took the config bounds the selected one
  have bound := least i (by rw [storeConfig_designated foreign]; simp)
  rw [storeConfig_port_self] at bound
  simp only [cost] at bound
  cases isRoot : stp.rootPort with
  | none =>
      obtain ⟨root, rootCost, allDesignated⟩ := settled.noRootPort isRoot
      obtain ⟨portRoot, portCost⟩ := settled.own i (allDesignated i)
      have onSwitch := ((stpPortIsDesignated_iff stp _).mp (allDesignated i)).1
      rw [claim_le_iff] at bound ⊢
      rw [portRoot, portCost, root, rootCost, onSwitch] at superior
      have nonneg := message.walk.nonneg
      by_cases sameRoot : m.config.rootId = T.switchId s
      · -- only this switch is at distance zero from itself
        exfalso
        have zeroCost : (m.config.rootPathCost : Int) = 0 := by omega
        obtain ⟨t, onRoot, k, length, walk⟩ := message.walk
        have zeroLength : k = 0 := by omega
        subst zeroLength
        have senderIsRoot : m.src.1 = t := walk
        apply foreign
        rw [message.sender, senderIsRoot, onRoot, sameRoot, sound.switchId]
      · rw [root, rootCost]
        omega
  | some R =>
      obtain ⟨notDesignated, root, rootCost⟩ := settled.hasRootPort R isRoot
      rw [root, rootCost]
      refine claim_succ_le ?_
      by_cases same : R = i
      · subst same
        refine le_trans bound ?_
        rw [claim_le_iff]
        omega
      · have atRoot := least R (by rw [storeConfig_designated foreign]; simp [notDesignated])
        rwa [storeConfig_port_other stp m.config same] at atRoot

/-- A port that is not designated after `adoptConfig` is as `storeConfig` left it
and was not designated there. -/
theorem adoptConfig_kept {n : Nat} {stp : Stp n} {i j : Fin n} {config : StpConfig}
    (notDesignated : stpPortIsDesignated (adoptConfig stp i config)
      ((adoptConfig stp i config).ports j) = false) :
    (adoptConfig stp i config).ports j = (storeConfig stp i config).ports j ∧
      stpPortIsDesignated (storeConfig stp i config) ((storeConfig stp i config).ports j) = false ∧
      (stpPortState (adoptConfig stp i config) ((storeConfig stp i config).ports j) = .alternate →
        ((storeConfig stp i config).ports j).designatedCost ≤
          (adoptConfig stp i config).rootPathCost) := by
  rcases adoptConfig_port_cases stp i j config with ⟨-, -, onSwitch, onPort, -⟩ | kept
  · have designated := (stpPortIsDesignated_iff (adoptConfig stp i config)
      ((adoptConfig stp i config).ports j)).mpr (by simp [onSwitch, onPort])
    rw [designated] at notDesignated
    cases notDesignated
  · exact kept

/-- A port designated after `adoptConfig` carries the switch's own vector. -/
theorem adoptConfig_own {n : Nat} {stp : Stp n} {i j : Fin n} {config : StpConfig}
    (designated : stpPortIsDesignated (adoptConfig stp i config)
      ((adoptConfig stp i config).ports j) = true) :
    ((adoptConfig stp i config).ports j).designatedRoot =
        (adoptConfig stp i config).designatedRoot ∧
      ((adoptConfig stp i config).ports j).designatedCost =
        (adoptConfig stp i config).rootPathCost := by
  rcases adoptConfig_port_cases stp i j config with ⟨root, cost, -⟩ | ⟨kept, notDesignated, -⟩
  · exact ⟨root, cost⟩
  · rw [kept] at designated
    simp only [stpPortIsDesignated, adoptConfig_switchId, storeConfig_switchId]
      at designated notDesignated
    rw [designated] at notDesignated
    cases notDesignated

theorem adoptConfig_rootPort_kept {n : Nat} {stp : Stp n} {i r : Fin n} {config : StpConfig}
    (isRoot : (adoptConfig stp i config).rootPort = some r)
    (alternate : isAlternate (storeConfig stp i config) r = true) :
    (adoptConfig stp i config).ports r = (storeConfig stp i config).ports r ∧
      stpPortIsDesignated (adoptConfig stp i config) ((adoptConfig stp i config).ports r) =
        false := by
  have notDesignated := isAlternate_not_designated alternate
  rcases adoptConfig_port_cases stp i r config with
    ⟨-, -, -, -, designated | ⟨stillAlternate, -⟩⟩ | ⟨kept, -⟩
  · rw [designated] at notDesignated
    cases notDesignated
  · simp [stpPortState, isRoot] at stillAlternate
  · refine ⟨kept, ?_⟩
    rw [kept]
    simpa [stpPortIsDesignated] using notDesignated

/-- A port that is neither designated nor alternate has the id of the root port. -/
theorem stpPortState_not_alternate {n : Nat} {stp : Stp n} {r : Fin n} {p : StpPort}
    (isRoot : stp.rootPort = some r) (notDesignated : stpPortIsDesignated stp p = false)
    (notAlternate : stpPortState stp p ≠ .alternate) : p.portId = (stp.ports r).portId := by
  simp only [stpPortIsDesignated] at notDesignated
  simp only [stpPortState, isRoot, notDesignated, Option.any_some] at notAlternate
  by_contra other
  simp [other] at notAlternate

/-- Under `HandlesWell` the switch takes root and cost from a port that is at
least as near to the root as every non-designated port. -/
theorem HandlesWell.adopted {n : Nat} {stp : Stp n} {i : Fin n} {config : StpConfig}
    (well : HandlesWell stp i config) (superior : configPrior config (stp.ports i) = true)
    (unit : ∀ j, (stp.ports j).pathCost = 1)
    (fits : ∀ j, stpPortIsDesignated (storeConfig stp i config)
        ((storeConfig stp i config).ports j) = false →
      0 ≤ ((storeConfig stp i config).ports j).designatedCost ∧
        ((storeConfig stp i config).ports j).designatedCost + 1 < 2147483648) :
    ∃ r, (adoptConfig stp i config).rootPort = some r ∧
      isAlternate (storeConfig stp i config) r = true ∧
      (adoptConfig stp i config).designatedRoot =
        ((storeConfig stp i config).ports r).designatedRoot ∧
      (adoptConfig stp i config).rootPathCost =
        ((storeConfig stp i config).ports r).designatedCost + 1 ∧
      ∀ j, stpPortIsDesignated (storeConfig stp i config) ((storeConfig stp i config).ports j) =
          false →
        claim (adoptConfig stp i config).designatedRoot (adoptConfig stp i config).rootPathCost ≤
          claim ((storeConfig stp i config).ports j).designatedRoot
            (((storeConfig stp i config).ports j).designatedCost + 1) ∧
        (((storeConfig stp i config).ports j).designatedCost ≤
            (adoptConfig stp i config).rootPathCost →
          portVector ((storeConfig stp i config).ports j) ≤
            vector (adoptConfig stp i config).designatedRoot
              (adoptConfig stp i config).rootPathCost stp.switchId (stp.ports j).portId) := by
  obtain ⟨r, found, alternate, best⟩ := well.selected superior
  rcases adoptConfig_switch stp i config with ⟨r', found', isRoot, root, cost⟩ | ⟨none, -⟩
  · rw [found] at found'
    cases found'
    obtain ⟨nonneg, below⟩ := fits r (isAlternate_not_designated alternate)
    rw [unit r, addInt_eq (by omega) below] at cost
    refine ⟨r, isRoot, alternate, root, cost, ?_⟩
    intro j notDesignated
    rw [root, cost]
    exact ⟨claim_succ_le (best j notDesignated).1, (best j notDesignated).2⟩
  · rw [found] at none
    cases none

theorem adoptConfig_settled {s : ι} {stp : Stp (T.nports s)} {m : Message T}
    {i : Fin (T.nports s)} (sound : SwitchSound T s stp) (settled : Settled T s stp)
    (message : MessageSound T m) (here : m.dst = ⟨s, i⟩)
    (superior : configPrior m.config (stp.ports i) = true)
    (well : HandlesWell stp i m.config) :
    Settled T s (adoptConfig stp i m.config) ∧
      claim (adoptConfig stp i m.config).designatedRoot
          (adoptConfig stp i m.config).rootPathCost ≤
        claim stp.designatedRoot stp.rootPathCost := by
  obtain ⟨foreign, costBelow, -⟩ := well superior
  have fits := settled.stored_fits sound message here superior foreign costBelow
  obtain ⟨r, isRoot, alternate, root, cost, best⟩ :=
    well.adopted superior (fun j => (sound.port j).pathCost) fits
  have better : claim (adoptConfig stp i m.config).designatedRoot
      (adoptConfig stp i m.config).rootPathCost ≤
        claim stp.designatedRoot stp.rootPathCost := by
    rw [root, cost]
    refine adoptConfig_claim_le sound settled message foreign superior ?_
    intro j notDesignated
    have nearer := (best j notDesignated).1
    rw [root, cost, claim_le_iff] at nearer
    rw [claim_le_iff]
    omega
  refine ⟨?_, better⟩
  exact {
    self_le := le_trans better settled.self_le
    nonneg := by
      have nonneg := (fits r (isAlternate_not_designated alternate)).1
      omega
    below := by
      rw [cost]
      exact (fits r (isAlternate_not_designated alternate)).2
    portBelow := by
      intro j notDesignated
      obtain ⟨kept, notStored, -⟩ := adoptConfig_kept notDesignated
      rw [kept]
      exact (fits j notStored).2
    own := fun j designated => adoptConfig_own designated
    noRootPort := by
      intro none
      rw [isRoot] at none
      cases none
    hasRootPort := by
      intro r' isRoot'
      rw [isRoot] at isRoot'
      cases isRoot'
      obtain ⟨kept, notDesignated⟩ := adoptConfig_rootPort_kept isRoot alternate
      exact ⟨notDesignated, by rw [kept, root], by rw [kept, cost]⟩
    nearest := by
      intro j notDesignated
      obtain ⟨kept, notStored, -⟩ := adoptConfig_kept notDesignated
      rw [kept]
      exact (best j notStored).1
    beaten := by
      intro j notDesignated
      obtain ⟨kept, notStored, dearest⟩ := adoptConfig_kept notDesignated
      rw [adoptConfig_portId, kept, adoptConfig_switchId]
      by_cases alternateNow : stpPortState (adoptConfig stp i m.config)
          ((storeConfig stp i m.config).ports j) = .alternate
      · exact (best j notStored).2 (dearest alternateNow)
      · -- the port is the root port itself, one nearer than the switch
        have sameId := stpPortState_not_alternate isRoot
          (by simpa [stpPortIsDesignated] using notStored) alternateNow
        simp only [storeConfig_portId, adoptConfig_portId] at sameId
        have same := sound.port_eq sameId
        subst same
        refine (best j notStored).2 ?_
        rw [cost]
        omega }

end NetworkLab.SpanningTree
