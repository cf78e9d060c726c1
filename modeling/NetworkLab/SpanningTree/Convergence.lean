import Mathlib.Algebra.GroupWithZero.Nat
import Mathlib.Data.Finite.Prod
import Mathlib.Data.Finite.Sigma
import NetworkLab.Lib.EndlessRun
import NetworkLab.Lib.InFlight
import NetworkLab.SpanningTree.AtRest

/-!
# Convergence

A run that never ends, in which no config is lost and each one is handled well,
comes to a shortest-path tree and stays there.  Roots and costs only fall, so
they come to rest; from then on what a designated port has to say is on its way
or known across its link.
-/
set_option autoImplicit false

namespace NetworkLab.SpanningTree

open Lib Lib.Run

variable {ι : Type} {T : Topology ι}

/-! ## The vectors of the ports only fall -/

/-- Comparing a config with a port is comparing what the port would store. -/
theorem configPrior_iff {n : Nat} {stp : Stp n} {i : Fin n} {config : StpConfig}
    (below : config.rootPathCost < 2147483648) (nonneg : 0 ≤ (stp.ports i).designatedCost)
    (portBelow : (stp.ports i).designatedCost < 2147483648) :
    configPrior config (stp.ports i) = true ↔
      portVector ((storeConfig stp i config).ports i) < portVector (stp.ports i) := by
  have cost : toI32 config.rootPathCost = config.rootPathCost := by simp [toI32, below]
  rw [configPrior, prior_eq_lt, decide_eq_true_iff, toU32_cast nonneg portBelow,
    storeConfig_port_self, portVector, portVector]
  simp only [cost]

section Switch

variable {s : ι} {stp : Stp (T.nports s)} {m : Message T} {i : Fin (T.nports s)}

theorem adoptConfig_vector_le (sound : SwitchSound T s stp) (settled : Settled T s stp)
    (message : MessageSound T m) (here : m.dst = ⟨s, i⟩)
    (superior : configPrior m.config (stp.ports i) = true)
    (well : HandlesWell stp i m.config) (j : Fin (T.nports s)) :
    portVector ((adoptConfig stp i m.config).ports j) ≤
      portVector ((storeConfig stp i m.config).ports j) := by
  obtain ⟨foreign, costBelow, -⟩ := well superior
  obtain ⟨r, -, -, -, -, best⟩ := well.adopted superior (fun j => (sound.port j).pathCost)
    (settled.stored_fits sound message here superior foreign costBelow)
  have better := (adoptConfig_settled sound settled message here superior well).2
  rcases adoptConfig_port_cases stp i j m.config with
    ⟨root, cost, onSwitch, onPort, reason⟩ | ⟨kept, -⟩
  · rw [portVector, root, cost, onSwitch, onPort]
    cases designated : stpPortIsDesignated (storeConfig stp i m.config)
        ((storeConfig stp i m.config).ports j) with
    | true =>
        -- the port had the vector of its switch before
        rw [storeConfig_designated foreign, Bool.and_eq_true, decide_eq_true_iff] at designated
        obtain ⟨other, before⟩ := designated
        obtain ⟨onSwitch, onPort⟩ := (stpPortIsDesignated_iff _ _).mp before
        obtain ⟨root, cost⟩ := settled.own j before
        rw [storeConfig_port_other stp m.config other, portVector, onSwitch, onPort, root, cost]
        rw [claim_le_iff] at better
        rw [vector_le_iff]
        omega
    | false =>
        -- the switch takes the link over, at a smaller cost
        have cheaper := (reason.resolve_left (by simp [designated])).2
        have nearer := (best j designated).1
        rw [claim_le_iff] at nearer
        rw [portVector, vector_le_iff]
        omega
  · rw [kept]

/-- No port's vector rises when a config is handled, and the port that takes it
in knows at least what the config says. -/
theorem stpHandleConfigPacket_vector_le (sound : SwitchSound T s stp) (settled : Settled T s stp)
    (message : MessageSound T m) (here : m.dst = ⟨s, i⟩) (well : HandlesWell stp i m.config) :
    (∀ j, portVector ((stpHandleConfigPacket stp i m.config).1.ports j) ≤
      portVector (stp.ports j)) ∧
    portVector ((stpHandleConfigPacket stp i m.config).1.ports i) ≤
      portVector ((storeConfig stp i m.config).ports i) := by
  have prior := configPrior_iff (i := i) message.below (sound.cost_nonneg i)
    (sound.port i).below
  simp only [stpHandleConfigPacket]
  split_ifs with superior
  · have falls := adoptConfig_vector_le sound settled message here superior well
    refine ⟨?_, falls i⟩
    intro j
    apply le_trans (falls j)
    by_cases same : j = i
    · rw [same]
      exact le_of_lt (prior.mp superior)
    · rw [storeConfig_port_other stp m.config same]
  · exact ⟨fun j => le_refl _, le_of_not_gt fun smaller => superior (prior.mpr smaller)⟩

end Switch

/-! ## What a designated port says, and what is known of it -/

def ownVector (net : Network T) (p : T.Port) : PriorityVector :=
  vector (net.stp p.1).designatedRoot (net.stp p.1).rootPathCost (T.switchId p.1) (stpPortId p.2)

def Heard (net : Network T) (p q : T.Port) : Prop :=
  portVector ((net.stp q.1).ports q.2) ≤ ownVector net p

def Underway (net : Network T) (p q : T.Port) : Prop :=
  ∃ m ∈ net.flight, m.src = p ∧ m.dst = q ∧
    stpPortSendConfig (net.stp p.1) ((net.stp p.1).ports p.2) = some m.config

/-- Only switches in `silent` have not said what they have to say. -/
def Announced (net : Network T) (silent : ι → Prop) : Prop :=
  ∀ p q, T.link p = some q → isDesignated net p = true →
    Heard net p q ∨ Underway net p q ∨ silent p.1

theorem Heard.not_prior {net : Network T} {p q : T.Port} {config : StpConfig}
    (heard : Heard net p q) (consistent : Consistent net)
    (sent : stpPortSendConfig (net.stp p.1) ((net.stp p.1).ports p.2) = some config) :
    ¬ configPrior config ((net.stp q.1).ports q.2) = true := by
  have switch := consistent.sound.switches p.1
  have small := (consistent.settled p.1).below
  have below : config.rootPathCost < 2147483648 := by
    have cost := toU32_cast switch.walk.nonneg small
    rw [stpPortSendConfig_some sent]
    dsimp only
    omega
  rw [configPrior_iff below ((consistent.sound.switches q.1).cost_nonneg q.2)
    ((consistent.sound.switches q.1).port q.2).below, consistent.stored_vector sent]
  exact not_lt_of_ge heard

/-- The tree can be read off as soon as everything is heard, with repetitions of
it still in flight. -/
theorem Consistent.shortestPathTree {net : Network T} (consistent : Consistent net)
    (heard : ∀ p q, T.link p = some q → isDesignated net p = true → Heard net p q)
    (connected : ∀ u v, ∃ n, Walk T.Adj n u v) : ShortestPathTree net := by
  let quiet : Network T := { net with flight := [] }
  have quietConsistent : Consistent quiet :=
    { sound := ⟨consistent.sound.switches, fun m member => nomatch member⟩
      settled := consistent.settled
      peer := consistent.peer
      message := fun m member => nomatch member }
  have rest : AtRest quiet := by
    refine ⟨rfl, ?_⟩
    intro p designated config sent q joined
    have notPrior := (heard p q joined designated).not_prior consistent sent
    simp only [stpHandleConfigPacket]
    exact congrArg Prod.fst (if_neg notPrior)
  have tree := rest.shortestPathTree quietConsistent connected
  exact ⟨tree.root, tree.rootPort, tree.designated⟩

section Steps
variable [DecidableEq ι]

theorem mem_stpSendConfig {n : Nat} {stp : Stp n} {i : Fin n} {config : StpConfig}
    (designated : stpPortIsDesignated stp (stp.ports i) = true)
    (sent : stpPortSendConfig stp (stp.ports i) = some config) :
    (i, config) ∈ stpSendConfig stp := by
  rw [stpSendConfig, List.mem_filterMap]
  exact ⟨i, List.mem_finRange i, by rw [if_pos designated, sent]; rfl⟩

theorem act_underway {before : Network T} {s : ι}
    {result : Stp (T.nports s) × List (Fin (T.nports s) × StpConfig)}
    (consistent : Consistent (act before s result)) (sends : result.2 = stpSendConfig result.1)
    {p q : T.Port} (here : p.1 = s) (joined : T.link p = some q)
    (designated : isDesignated (act before s result) p = true) :
    Underway (act before s result) p q := by
  obtain ⟨config, sent⟩ := consistent.sends p
  obtain ⟨s', i⟩ := p
  dsimp only at here
  subst here
  refine ⟨⟨⟨s', i⟩, q, config⟩, List.mem_append_right _ ?_, rfl, rfl, sent⟩
  rw [isDesignated, act_stp_self] at designated
  rw [act_stp_self] at sent
  rw [emit, sends, List.mem_filterMap]
  exact ⟨(i, config), mem_stpSendConfig designated sent, by rw [joined]; rfl⟩

/-- One switch acts.  It says what it has to say, or it stays as it is; a config that
is no longer in flight has been handled. -/
theorem act_announced {net before : Network T} {s : ι} {silent stillSilent : ι → Prop}
    {result : Stp (T.nports s) × List (Fin (T.nports s) × StpConfig)}
    (consistent : Consistent net) (consistentNext : Consistent (act before s result))
    (sameStp : before.stp = net.stp)
    (speaks : result.1 = net.stp s ∨ result.2 = stpSendConfig result.1)
    (falls : ∀ q : T.Port, portVector (((act before s result).stp q.1).ports q.2) ≤
      portVector ((net.stp q.1).ports q.2))
    (taken : ∀ m ∈ net.flight, m ∈ before.flight ∨
      portVector (((act before s result).stp m.dst.1).ports m.dst.2) ≤
        portVector ((storeConfig (net.stp m.dst.1) m.dst.2 m.config).ports m.dst.2))
    (quiet : ∀ t, silent t → (act before s result).stp t = net.stp t →
      ¬ (t = s ∧ result.2 = stpSendConfig result.1) → stillSilent t)
    (announced : Announced net silent) : Announced (act before s result) stillSilent := by
  intro p q joined designated
  by_cases speaker : p.1 = s ∧ result.2 = stpSendConfig result.1
  · exact .inr (.inl (act_underway consistentNext speaker.2 speaker.1 joined designated))
  have same : (act before s result).stp p.1 = net.stp p.1 := by
    by_cases here : p.1 = s
    · have stays := speaks.resolve_right fun sends => speaker ⟨here, sends⟩
      rw [here, act_stp_self, stays]
    · rw [act_stp_other before result here, sameStp]
  have own : ownVector (act before s result) p = ownVector net p := by
    simp only [ownVector, same]
  simp only [isDesignated, same] at designated
  rcases announced p q joined designated with heard | ⟨m, inFlight, src, dst, sent⟩ | silent
  · left
    rw [Heard, own]
    exact le_trans (falls q) heard
  · rcases taken m inFlight with still | stored
    · refine .inr (.inl ⟨m, List.mem_append_left _ still, src, dst, ?_⟩)
      rw [same]
      exact sent
    · left
      rw [consistent.stored_vector sent, dst] at stored
      rw [Heard, own]
      exact stored
  · exact .inr (.inr (quiet p.1 silent same speaker))

theorem stpHandleConfigPacket_speaks {n : Nat} (stp : Stp n) (i : Fin n) (config : StpConfig) :
    (stpHandleConfigPacket stp i config).1 = stp ∨
      (stpHandleConfigPacket stp i config).2 =
        stpSendConfig (stpHandleConfigPacket stp i config).1 := by
  simp only [stpHandleConfigPacket]
  split_ifs
  · exact .inr rfl
  · exact .inl rfl

theorem deliver_vector_le {net : Network T} {k : Nat} {m : Message T}
    (consistent : Consistent net) (found : net.flight[k]? = some m)
    (well : HandlesWell (net.stp m.dst.1) m.dst.2 m.config) (before : Network T)
    (sameStp : before.stp = net.stp) :
    (∀ q : T.Port, portVector (((act before m.dst.1
        (stpHandleConfigPacket (net.stp m.dst.1) m.dst.2 m.config)).stp q.1).ports q.2) ≤
      portVector ((net.stp q.1).ports q.2)) ∧
    portVector (((act before m.dst.1
        (stpHandleConfigPacket (net.stp m.dst.1) m.dst.2 m.config)).stp m.dst.1).ports m.dst.2) ≤
      portVector ((storeConfig (net.stp m.dst.1) m.dst.2 m.config).ports m.dst.2) := by
  have handled := stpHandleConfigPacket_vector_le (consistent.sound.switches m.dst.1)
    (consistent.settled m.dst.1) (consistent.sound.messages m (List.mem_of_getElem? found)) rfl
    well
  constructor
  · rintro ⟨t, j⟩
    by_cases same : t = m.dst.1
    · subst same
      rw [act_stp_self]
      exact handled.1 j
    · dsimp only
      rw [act_stp_other before _ same, sameStp]
  · rw [act_stp_self]
    exact handled.2

theorem step_announced {net next : Network T} {event : Event ι} {silent stillSilent : ι → Prop}
    (consistent : Consistent net) (well : DeliversWell net event)
    (lossless : ∀ k, event ≠ .lose k)
    (quiet : ∀ t, silent t → (∀ now, event ≠ .helloTimeout t now) → next.stp t = net.stp t →
      stillSilent t)
    (announced : Announced net silent) (taken : step net event = some next) :
    Announced next stillSilent := by
  have consistentNext := step_consistent consistent well taken
  cases event with
  | helloTimeout s now =>
      cases Option.some.inj taken
      have sends : (stpHandleHelloTimeout (net.stp s) now).2 =
        stpSendConfig (stpHandleHelloTimeout (net.stp s) now).1 := rfl
      refine act_announced consistent consistentNext rfl (.inr sends) ?_
        (fun m inFlight => .inl inFlight) ?_ announced
      · rintro ⟨t, j⟩
        by_cases same : t = s
        · subst same
          rw [act_stp_self]
          exact le_refl _
        · dsimp only
          rw [act_stp_other net _ same]
      · intro t silent same speaker
        refine quiet t silent ?_ same
        intro later isHello
        cases isHello
        exact speaker ⟨rfl, sends⟩
  | deliver k =>
      obtain ⟨m, found, rfl⟩ := Option.map_eq_some_iff.mp taken
      obtain ⟨falls, stored⟩ := deliver_vector_le consistent found (well m found)
        { net with flight := net.flight.eraseIdx k } rfl
      refine act_announced consistent consistentNext rfl (stpHandleConfigPacket_speaks ..) falls
        ?_ (fun t silent same _ => quiet t silent (fun now => nofun) same) announced
      intro other inFlight
      rcases mem_eraseIdx_append found inFlight with still | rfl
      · exact .inl still
      · exact .inr stored
  | lose k => exact absurd rfl (lossless k)
  | duplicate k =>
      obtain ⟨m, found, rfl⟩ := Option.map_eq_some_iff.mp taken
      intro p q joined designated
      rcases announced p q joined designated with heard | ⟨m', inFlight, rest⟩ | silent
      · exact .inl heard
      · exact .inr (.inl ⟨m', List.mem_append_left _ inFlight, rest⟩)
      · exact .inr (.inr (quiet p.1 silent (fun now => nofun) rfl))

/-- Neither handling a config nor a hello timeout makes a switch state more. -/
theorem step_claim_le {net next : Network T} {event : Event ι} (consistent : Consistent net)
    (well : DeliversWell net event) (taken : step net event = some next) (s : ι) :
    claim (next.stp s).designatedRoot (next.stp s).rootPathCost ≤
      claim (net.stp s).designatedRoot (net.stp s).rootPathCost := by
  have acted : ∀ {before : Network T} {t : ι}
      {result : Stp (T.nports t) × List (Fin (T.nports t) × StpConfig)},
      before.stp = net.stp →
      claim result.1.designatedRoot result.1.rootPathCost ≤
        claim (net.stp t).designatedRoot (net.stp t).rootPathCost →
      claim ((act before t result).stp s).designatedRoot
          ((act before t result).stp s).rootPathCost ≤
        claim (net.stp s).designatedRoot (net.stp s).rootPathCost := by
    intro before t result sameStp better
    by_cases same : s = t
    · subst same
      rw [act_stp_self]
      exact better
    · rw [act_stp_other before result same, sameStp]
  rcases step_cases taken with ⟨sameStp, -⟩ | ⟨t, now, -, rfl⟩ | ⟨k, m, rfl, found, rfl⟩
  · rw [sameStp]
  · exact acted rfl (le_refl _)
  · refine acted rfl ?_
    exact (stpHandleConfigPacket_settled (consistent.sound.switches m.dst.1)
      (consistent.settled m.dst.1) (consistent.sound.messages m (List.mem_of_getElem? found))
      rfl (well m found)).2

theorem step_vector_le {net next : Network T} {event : Event ι} (consistent : Consistent net)
    (well : DeliversWell net event) (taken : step net event = some next) (q : T.Port) :
    portVector ((next.stp q.1).ports q.2) ≤ portVector ((net.stp q.1).ports q.2) := by
  rcases step_cases taken with ⟨sameStp, -⟩ | ⟨s, now, -, rfl⟩ | ⟨k, m, rfl, found, rfl⟩
  · rw [sameStp]
  · by_cases same : q.1 = s
    · obtain ⟨t, j⟩ := q
      dsimp only at same
      subst same
      rw [act_stp_self]
      exact le_refl _
    · rw [act_stp_other net _ same]
  · exact (deliver_vector_le consistent found (well m found) _ rfl).1 q

end Steps

/-! ## Runs that never end -/

/-- No config is lost, each one in flight is delivered some time, and each switch has a hello
timeout some time, or does not stay its own root. -/
structure Fair (net : Nat → Network T) (event : Nat → Event ι) : Prop where
  lossless : ∀ n k, event n ≠ .lose k
  delivers : ∀ n, ∀ m ∈ (net n).flight,
    ∃ later k, n ≤ later ∧ event later = .deliver k ∧ (net later).flight[k]? = some m
  speaks : ∀ s, ∃ n, (∃ now, event n = .helloTimeout s now) ∨
    stpIsRootSwitch ((net n).stp s) = false

/-- The switch has been its own root without a hello timeout. -/
def Silent (net : Nat → Network T) (event : Nat → Event ι) (n : Nat) (s : ι) : Prop :=
  (∀ k < n, ∀ now, event k ≠ .helloTimeout s now) ∧ stpIsRootSwitch ((net n).stp s) = true

section Endless
variable [DecidableEq ι] {now : ι → Int} {net : Nat → Network T} {event : Nat → Event ι}
  (endless : EndlessRun step (initial T now) net event)
  (well : ∀ n, DeliversWell (net n) (event n))

include endless well

theorem endless_consistent (n : Nat) : Consistent (net n) :=
  endless.invariant (fun _ _ _ holds condition taken => step_consistent holds condition taken)
    (initial_consistent T now) well n

theorem endless_announced (fair : Fair net event) (n : Nat) :
    Announced (net n) (Silent net event n) := by
  induction n with
  | zero =>
      intro p q _ _
      refine .inr (.inr ⟨fun k early => (nomatch early), ?_⟩)
      rw [endless.start]
      simp [initial, stpInit, stpIsRootSwitch]
  | succ n ih =>
      refine step_announced (endless_consistent endless well n) (well n) (fair.lossless n) ?_ ih
        (endless.next n)
      rintro t ⟨noHello, isRoot⟩ notHello same
      refine ⟨?_, by rw [same]; exact isRoot⟩
      intro k early
      rcases Nat.lt_succ_iff_lt_or_eq.mp early with earlier | rfl
      · exact noHello k earlier
      · exact notHello

/-- From `n` on no switch changes its root and its cost. -/
def ClaimsRest (net : Nat → Network T) (n : Nat) : Prop :=
  ∀ later, n ≤ later → ∀ s, ((net later).stp s).designatedRoot = ((net n).stp s).designatedRoot ∧
    ((net later).stp s).rootPathCost = ((net n).stp s).rootPathCost

theorem exists_claimsRest [Finite ι] : ∃ N, ∀ n, N ≤ n → ClaimsRest net n := by
  let rank : ι → Nat → Nat ×ₗ Nat := fun s n =>
    toLex (((net n).stp s).designatedRoot, ((net n).stp s).rootPathCost.toNat)
  have falls : ∀ s n, rank s (n + 1) ≤ rank s n := by
    intro s n
    have better := step_claim_le (endless_consistent endless well n) (well n) (endless.next n) s
    rw [claim_le_iff] at better
    simp only [rank, Prod.Lex.toLex_le_toLex]
    omega
  obtain ⟨N, rest⟩ := exists_together fun s => exists_at_rest (falls s)
  refine ⟨N, ?_⟩
  intro n late later after s
  have same := rest n late s later after
  have nonneg := fun n => ((endless_consistent endless well n).sound.switches s).walk.nonneg
  have before := nonneg n
  have since := nonneg later
  simp only [rank, EmbeddingLike.apply_eq_iff_eq, Prod.mk.injEq] at same
  omega

omit [DecidableEq ι] endless well in
theorem ClaimsRest.ownVector_eq {n later : Nat} (rest : ClaimsRest net n) (after : n ≤ later)
    (p : T.Port) : ownVector (net later) p = ownVector (net n) p := by
  obtain ⟨root, cost⟩ := rest later after p.1
  rw [ownVector, ownVector, root, cost]

theorem ClaimsRest.heard {n later : Nat} (rest : ClaimsRest net n) (after : n ≤ later)
    {p q : T.Port} (heard : Heard (net n) p q) : Heard (net later) p q := by
  rw [Heard, rest.ownVector_eq after]
  refine le_trans ?_ heard
  induction later, after using Nat.le_induction with
  | base => exact le_refl _
  | succ later _ ih =>
      exact le_trans (step_vector_le (endless_consistent endless well later) (well later)
        (endless.next later) q) ih

theorem root_le_of_later {n later : Nat} (after : n ≤ later) (s : ι) :
    ((net later).stp s).designatedRoot ≤ ((net n).stp s).designatedRoot := by
  induction later, after using Nat.le_induction with
  | base => exact le_refl _
  | succ later _ ih =>
      have better := step_claim_le (endless_consistent endless well later) (well later)
        (endless.next later) s
      rw [claim_le_iff] at better
      omega

theorem exists_notSilent (fair : Fair net event) (s : ι) :
    ∃ N, ∀ n, N ≤ n → ¬ Silent net event n s := by
  obtain ⟨first, ⟨time, hello⟩ | notRoot⟩ := fair.speaks s
  · refine ⟨first + 1, ?_⟩
    rintro n late ⟨noHello, -⟩
    exact noHello first (by omega) time hello
  · refine ⟨first, ?_⟩
    rintro n late ⟨-, isRoot⟩
    have falls := root_le_of_later endless well late s
    have switch := fun n => (endless_consistent endless well n).sound.switches s
    have bound := (switch first).root_le
    rw [stpIsRootSwitch, (switch n).switchId, beq_iff_eq] at isRoot
    rw [stpIsRootSwitch, (switch first).switchId, beq_eq_false_iff_ne] at notRoot
    omega

/-- What a config says that was underway when the claims came to rest is heard when it is
delivered. -/
theorem ClaimsRest.delivered {n : Nat} (rest : ClaimsRest net n) (fair : Fair net event)
    {p q : T.Port} (underway : Underway (net n) p q) :
    ∃ later, n ≤ later ∧ Heard (net later) p q := by
  obtain ⟨m, inFlight, src, rfl, sent⟩ := underway
  obtain ⟨later, k, after, isDeliver, found⟩ := fair.delivers n m inFlight
  have taken := endless.next later
  have wellHere := well later
  rw [isDeliver] at taken wellHere
  obtain ⟨m', found', next⟩ := Option.map_eq_some_iff.mp taken
  cases Option.some.inj (found.symm.trans found')
  have stored := (deliver_vector_le (endless_consistent endless well later) found
    (wellHere m found) { net later with flight := (net later).flight.eraseIdx k } rfl).2
  rw [(endless_consistent endless well n).stored_vector sent] at stored
  refine ⟨later + 1, by omega, ?_⟩
  rw [Heard, rest.ownVector_eq (by omega), ← next]
  exact stored

theorem exists_heard [Finite ι] (fair : Fair net event) (p q : T.Port)
    (joined : T.link p = some q) :
    ∃ N, ∀ n, N ≤ n → isDesignated (net n) p = true → Heard (net n) p q := by
  obtain ⟨N, rest⟩ := exists_claimsRest endless well
  obtain ⟨M, notSilent⟩ := exists_notSilent endless well fair p.1
  by_cases ever : ∃ n, N ≤ n ∧ M ≤ n ∧ isDesignated (net n) p = true
  · obtain ⟨n, atRest, late, designated⟩ := ever
    have restHere := rest n atRest
    have heard : ∃ later, n ≤ later ∧ Heard (net later) p q := by
      rcases endless_announced endless well fair n p q joined designated with
        heard | underway | silent
      · exact ⟨n, le_refl _, heard⟩
      · exact restHere.delivered endless well fair underway
      · exact absurd silent (notSilent n late)
    obtain ⟨since, after, heard⟩ := heard
    refine ⟨since, ?_⟩
    intro n' late' _
    exact (rest since (by omega)).heard endless well late' heard
  · refine ⟨max N M, ?_⟩
    intro n late designated
    exact absurd ⟨n, le_of_max_le_left late, le_of_max_le_right late, designated⟩ ever

end Endless

/-- Every fair run that never ends, in which every config is handled well, comes to a
shortest-path tree towards the smallest switch id and stays there. -/
theorem spanning_tree_converges [DecidableEq ι] [Finite ι] (T : Topology ι)
    (connected : ∀ u v, ∃ n, Walk T.Adj n u v) (now : ι → Int) (net : Nat → Network T)
    (event : Nat → Event ι) (endless : EndlessRun step (initial T now) net event)
    (fair : Fair net event) (well : ∀ n, DeliversWell (net n) (event n)) :
    ∃ N, ∀ n, N ≤ n → ShortestPathTree (net n) := by
  have pairs : ∀ pair : T.Port × T.Port, ∃ N, ∀ n, N ≤ n → T.link pair.1 = some pair.2 →
      isDesignated (net n) pair.1 = true → Heard (net n) pair.1 pair.2 := by
    rintro ⟨p, q⟩
    by_cases joined : T.link p = some q
    · obtain ⟨N, heard⟩ := exists_heard endless well fair p q joined
      exact ⟨N, fun n late _ => heard n late⟩
    · exact ⟨0, fun n _ joined' => absurd joined' joined⟩
  have finitePorts : Finite T.Port := inferInstanceAs (Finite (Σ s, Fin (T.nports s)))
  obtain ⟨N, heard⟩ := exists_together pairs
  refine ⟨N, ?_⟩
  intro n late
  exact (endless_consistent endless well n).shortestPathTree
    (fun p q joined designated => heard n late (p, q) joined designated) connected

/-! ## An endless run on the line -/

/-- All that is in flight is one config, which says nothing new, and its receiver answers. -/
structure Echoing (net : Network T) : Prop where
  heard : ∀ p, ∀ config ∈ stpPortSendConfig (net.stp p.1) ((net.stp p.1).ports p.2),
    ∀ q ∈ T.link p, configPrior config ((net.stp q.1).ports q.2) = false
  answers : ∀ p : T.Port, (stpPortSendConfig (net.stp p.1) ((net.stp p.1).ports p.2)).isSome
  single : net.flight.length = 1
  sent : ∀ m ∈ net.flight, T.link m.src = some m.dst ∧
    stpPortSendConfig (net.stp m.src.1) ((net.stp m.src.1).ports m.src.2) = some m.config

theorem Echoing.flight {net : Network T} (echoing : Echoing net) :
    ∃ m, net.flight = [m] ∧ T.link m.src = some m.dst ∧
      configPrior m.config ((net.stp m.dst.1).ports m.dst.2) = false := by
  obtain ⟨m, flight⟩ := List.length_eq_one_iff.mp echoing.single
  obtain ⟨joined, sent⟩ := echoing.sent m (by simp [flight])
  exact ⟨m, flight, joined, echoing.heard m.src m.config sent m.dst joined⟩

theorem Echoing.next [DecidableEq ι] {net : Network T} (echoing : Echoing net) :
    ∃ next, step net (.deliver 0) = some next ∧ Echoing next := by
  obtain ⟨m, flight, joined, notPrior⟩ := echoing.flight
  obtain ⟨config, sent⟩ := Option.isSome_iff_exists.mp (echoing.answers m.dst)
  have back := T.link_symm _ _ joined
  have handled : stpHandleConfigPacket (net.stp m.dst.1) m.dst.2 m.config =
      (net.stp m.dst.1, [(m.dst.2, config)]) := by
    simp [stpHandleConfigPacket, notPrior, sent]
  have taken : step net (.deliver 0) =
      some { stp := net.stp, flight := [⟨m.dst, m.src, config⟩] } := by
    simp [step, flight, handled, act, emit, back]
  exact ⟨_, taken, {
    heard := echoing.heard
    answers := echoing.answers
    single := rfl
    sent := fun m' member => by
      cases List.mem_singleton.mp member
      exact ⟨back, sent⟩ }⟩

/-- The numbers of three switches. -/
local instance threeNumbers : NeZero 3 := ⟨by decide⟩

def lineEvent (n : Nat) : Event (Fin 3) := if n = 0 ∨ n = 3 then .helloTimeout 0 0 else .deliver 0

/-- `b1` has a hello timeout, and another one when `b2` and `b3` know of it.  From then on `b1`
and `b2` answer each other. -/
def lineNet : Nat → Network line
  | 0 => initial line fun _ => 0
  | n + 1 => (step (lineNet n) (lineEvent n)).getD (lineNet n)

theorem lineNet_echoing (n : Nat) : Echoing (lineNet (n + 4)) := by
  induction n with
  | zero => exact ⟨by decide, by decide, by decide, by decide⟩
  | succ n ih =>
      obtain ⟨next, taken, echoing⟩ := ih.next
      have isDeliver : lineEvent (n + 4) = .deliver 0 := if_neg (by omega)
      have isNext : lineNet (n + 4 + 1) = next := by
        rw [lineNet, isDeliver, taken, Option.getD_some]
      rw [show n + 1 + 4 = n + 4 + 1 by omega, isNext]
      exact echoing

theorem lineNet_cases (n : Nat) : n < 4 ∨ Echoing (lineNet n) ∧ lineEvent n = .deliver 0 := by
  by_cases early : n < 4
  · exact .inl early
  · obtain ⟨k, rfl⟩ : ∃ k, n = k + 4 := ⟨n - 4, by omega⟩
    exact .inr ⟨lineNet_echoing k, if_neg (by omega)⟩

theorem lineNet_endless : EndlessRun step (initial line fun _ => 0) lineNet lineEvent := by
  refine ⟨rfl, ?_⟩
  intro n
  have taken : (step (lineNet n) (lineEvent n)).isSome := by
    rcases lineNet_cases n with early | ⟨echoing, isDeliver⟩
    · revert n
      decide
    · obtain ⟨next, taken, -⟩ := echoing.next
      rw [isDeliver, taken]
      rfl
  obtain ⟨next, taken⟩ := Option.isSome_iff_exists.mp taken
  rw [lineNet, taken, Option.getD_some]

theorem lineNet_fair : Fair lineNet lineEvent := by
  refine ⟨?_, ?_, ?_⟩
  · intro n k
    rw [lineEvent]
    split_ifs <;> simp
  · intro n m inFlight
    have first : lineEvent n = .deliver 0 ∧ (lineNet n).flight.length = 1 := by
      rcases lineNet_cases n with early | ⟨echoing, isDeliver⟩
      · have sizes : ∀ n < 4, (lineNet n).flight.length = if n = 0 ∨ n = 3 then 0 else 1 := by
          decide
        have size := sizes n early
        split_ifs at size with empty
        · rw [List.length_eq_zero_iff] at size
          rw [size] at inFlight
          cases inFlight
        · exact ⟨if_neg empty, size⟩
      · exact ⟨isDeliver, echoing.single⟩
    obtain ⟨isDeliver, single⟩ := first
    obtain ⟨only, flight⟩ := List.length_eq_one_iff.mp single
    rw [flight, List.mem_singleton] at inFlight
    exact ⟨n, 0, le_refl _, isDeliver, by rw [flight, inFlight]; rfl⟩
  · intro s
    by_cases isFirst : s = 0
    · exact ⟨0, .inl ⟨0, by rw [isFirst]; rfl⟩⟩
    · refine ⟨4, .inr ?_⟩
      revert s
      decide

theorem spanning_tree_converges_line : ∃ N, ∀ n, N ≤ n → ShortestPathTree (lineNet n) := by
  refine spanning_tree_converges line line_connected (fun _ => 0) lineNet lineEvent
    lineNet_endless lineNet_fair ?_
  intro n
  rcases lineNet_cases n with early | ⟨echoing, isDeliver⟩
  · revert n
    decide
  · rw [isDeliver]
    intro m found superior
    obtain ⟨m', flight, -, notPrior⟩ := echoing.flight
    rw [flight] at found
    cases Option.some.inj found
    rw [notPrior] at superior
    cases superior

end NetworkLab.SpanningTree
