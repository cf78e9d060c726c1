import Mathlib.Order.WellFounded
import NetworkLab.SpanningTree.Selection

/-!
# The tree at rest

A network is at rest when nothing is in flight and no config that a designated
port would send changes a switch.  If every config handled on the way was handled
well in the sense of `HandlesWell`, the network at rest is a shortest-path tree
towards the switch with the smallest id.
-/
set_option autoImplicit false

namespace NetworkLab.SpanningTree

open Lib Lib.Run

variable {ι : Type} {T : Topology ι}

def isDesignated (net : Network T) (p : T.Port) : Bool :=
  stpPortIsDesignated (net.stp p.1) ((net.stp p.1).ports p.2)

/-- Nothing is in flight, and delivering the config that a designated port would
send leaves the receiving switch as it is. -/
def AtRest (net : Network T) : Prop :=
  net.flight = [] ∧
    ∀ p, isDesignated net p = true →
      ∀ config, stpPortSendConfig (net.stp p.1) ((net.stp p.1).ports p.2) = some config →
        ∀ q, T.link p = some q →
          (stpHandleConfigPacket (net.stp q.1) q.2 config).1 = net.stp q.1

/-- Every switch knows the switch with the smallest id and its hop distance to
it, through its root port; every link has exactly one designated port. -/
structure ShortestPathTree (net : Network T) : Prop where
  root : ∀ s, ∃ r, (∀ t, T.switchId r ≤ T.switchId t) ∧
    (net.stp s).designatedRoot = T.switchId r ∧
    ∃ d : Nat, (net.stp s).rootPathCost = d ∧ IsDistance T.Adj d s r
  rootPort : ∀ s, (∃ t, T.switchId t < T.switchId s) →
    ∃ r, (net.stp s).rootPort = some r ∧
      ((net.stp s).ports r).designatedCost + ((net.stp s).ports r).pathCost =
        (net.stp s).rootPathCost
  designated : ∀ p q, T.link p = some q → isDesignated net p ≠ isDesignated net q

/-- The condition on a step: a config delivered is handled well. -/
def DeliversWell (net : Network T) : Event ι → Prop
  | .deliver k => ∀ m, net.flight[k]? = some m →
      HandlesWell (net.stp m.dst.1) m.dst.2 m.config
  | _ => True

/-- What a stored vector or a message says of another switch is never better
than what that switch says of itself now. -/
structure Consistent (net : Network T) : Prop where
  sound : NetworkSound net
  settled : ∀ s, Settled T s (net.stp s)
  peer : ∀ p, isDesignated net p = false → ∃ q, T.link p = some q ∧
    ((net.stp p.1).ports p.2).designatedSwitch = T.switchId q.1 ∧
    ((net.stp p.1).ports p.2).designatedPort = stpPortId q.2 ∧
    claim (net.stp q.1).designatedRoot (net.stp q.1).rootPathCost ≤
      claim ((net.stp p.1).ports p.2).designatedRoot ((net.stp p.1).ports p.2).designatedCost
  message : ∀ m ∈ net.flight, (m.config.portId : Int) = stpPortId m.src.2 ∧
    claim (net.stp m.src.1).designatedRoot (net.stp m.src.1).rootPathCost ≤
      claim m.config.rootId m.config.rootPathCost

theorem initial_consistent (T : Topology ι) (now : ι → Int) : Consistent (initial T now) where
  sound := initial_sound T now
  settled := fun s => stpInit_settled T s (now s)
  peer := by
    intro p notDesignated
    have designated : isDesignated (initial T now) p = true :=
      (stpPortIsDesignated_iff _ _).mpr ⟨rfl, rfl⟩
    rw [designated] at notDesignated
    cases notDesignated
  message := fun m member => by cases member

theorem stpHandleHelloTimeout_settled {s : ι} {stp : Stp (T.nports s)} (now : Int)
    (settled : Settled T s stp) : Settled T s (stpHandleHelloTimeout stp now).1 :=
  ⟨settled.self_le, settled.nonneg, settled.below, settled.portBelow, settled.own,
    settled.noRootPort, settled.hasRootPort, settled.nearest, settled.beaten⟩

theorem stpHandleConfigPacket_settled {s : ι} {stp : Stp (T.nports s)} {m : Message T}
    {i : Fin (T.nports s)} (sound : SwitchSound T s stp) (settled : Settled T s stp)
    (message : MessageSound T m) (here : m.dst = ⟨s, i⟩) (well : HandlesWell stp i m.config) :
    Settled T s (stpHandleConfigPacket stp i m.config).1 ∧
      claim (stpHandleConfigPacket stp i m.config).1.designatedRoot
          (stpHandleConfigPacket stp i m.config).1.rootPathCost ≤
        claim stp.designatedRoot stp.rootPathCost := by
  simp only [stpHandleConfigPacket]
  split_ifs with superior
  · exact adoptConfig_settled sound settled message here superior well
  · exact ⟨settled, le_refl _⟩

/-- A port not designated after a config was handled has the vector it had
before, or the vector of the config. -/
theorem stpHandleConfigPacket_port {n : Nat} {stp : Stp n} {i j : Fin n} {config : StpConfig}
    (well : HandlesWell stp i config)
    (notDesignated : stpPortIsDesignated (stpHandleConfigPacket stp i config).1
      ((stpHandleConfigPacket stp i config).1.ports j) = false) :
    (stpPortIsDesignated stp (stp.ports j) = false ∧
      (stpHandleConfigPacket stp i config).1.ports j = stp.ports j) ∨
    (j = i ∧ (stpHandleConfigPacket stp i config).1.ports j =
      (storeConfig stp i config).ports i) := by
  simp only [stpHandleConfigPacket] at notDesignated ⊢
  split_ifs at notDesignated ⊢ with superior
  · obtain ⟨kept, notStored, -⟩ := adoptConfig_kept notDesignated
    by_cases same : j = i
    · subst same
      exact Or.inr ⟨rfl, kept⟩
    · left
      rw [storeConfig_port_other stp config same] at kept notStored
      exact ⟨by simpa [stpPortIsDesignated] using notStored, kept⟩
  · exact Or.inl ⟨notDesignated, rfl⟩

section Steps
variable [DecidableEq ι]

theorem act_consistent {net before : Network T} {s : ι}
    {result : Stp (T.nports s) × List (Fin (T.nports s) × StpConfig)}
    (consistent : Consistent net) (sameStp : before.stp = net.stp)
    (fewer : ∀ m ∈ before.flight, m ∈ net.flight)
    (sound : NetworkSound (act before s result)) (settled : Settled T s result.1)
    (better : claim result.1.designatedRoot result.1.rootPathCost ≤
      claim (net.stp s).designatedRoot (net.stp s).rootPathCost)
    (port : ∀ i, stpPortIsDesignated result.1 (result.1.ports i) = false →
      ∃ q, T.link ⟨s, i⟩ = some q ∧ (result.1.ports i).designatedSwitch = T.switchId q.1 ∧
        (result.1.ports i).designatedPort = stpPortId q.2 ∧
        claim (net.stp q.1).designatedRoot (net.stp q.1).rootPathCost ≤
          claim (result.1.ports i).designatedRoot (result.1.ports i).designatedCost)
    (sent : ∀ i config, (i, config) ∈ result.2 →
      stpPortSendConfig result.1 (result.1.ports i) = some config) :
    Consistent (act before s result) := by
  have improves : ∀ t, claim ((act before s result).stp t).designatedRoot
      ((act before s result).stp t).rootPathCost ≤
        claim (net.stp t).designatedRoot (net.stp t).rootPathCost := by
    intro t
    by_cases same : t = s
    · subst same
      rw [act_stp_self]
      exact better
    · rw [act_stp_other before result same, sameStp]
  refine ⟨sound, ?_, ?_, ?_⟩
  · intro t
    by_cases same : t = s
    · subst same
      rw [act_stp_self]
      exact settled
    · rw [act_stp_other before result same, sameStp]
      exact consistent.settled t
  · rintro ⟨t, i⟩ notDesignated
    by_cases same : t = s
    · subst same
      simp only [isDesignated, act_stp_self] at notDesignated ⊢
      obtain ⟨q, joined, onSwitch, onPort, le⟩ := port i notDesignated
      exact ⟨q, joined, onSwitch, onPort, le_trans (improves q.1) le⟩
    · have sameState : (act before s result).stp t = net.stp t := by
        rw [act_stp_other before result same, sameStp]
      simp only [isDesignated, sameState] at notDesignated ⊢
      obtain ⟨q, joined, onSwitch, onPort, le⟩ := consistent.peer ⟨t, i⟩ notDesignated
      exact ⟨q, joined, onSwitch, onPort, le_trans (improves q.1) le⟩
  · intro m member
    rcases act_flight member with old | new
    · obtain ⟨portId, le⟩ := consistent.message m (fewer m old)
      exact ⟨portId, le_trans (improves m.src.1) le⟩
    · obtain ⟨i, inResult, src, -⟩ := emit_mem new
      have configEq := stpPortSendConfig_some (sent i m.config inResult)
      have switch := sound.switches s
      rw [act_stp_self] at switch
      have costEq := toU32_cast switch.walk.nonneg settled.below
      rw [src, act_stp_self, configEq]
      refine ⟨?_, ?_⟩
      · simp only
        rw [(switch.port i).portId]
        exact toU16_stpPortId (Fin.castLE (T.nports_le s) i)
      · simp only [costEq]
        exact le_refl _

theorem step_consistent {net next : Network T} {event : Event ι} (consistent : Consistent net)
    (well : DeliversWell net event) (taken : step net event = some next) : Consistent next := by
  have nonneg : ∀ {before : Network T} {s : ι}
      {result : Stp (T.nports s) × List (Fin (T.nports s) × StpConfig)},
      before.stp = net.stp → Settled T s result.1 →
      ∀ t, 0 ≤ ((act before s result).stp t).rootPathCost := by
    intro before s result sameStp settled t
    by_cases same : t = s
    · subst same
      rw [act_stp_self]
      exact settled.nonneg
    · rw [act_stp_other before result same, sameStp]
      exact (consistent.settled t).nonneg
  have taken' := taken
  rcases step_cases taken with ⟨sameStp, fewer⟩ | ⟨s, now, -, rfl⟩ | ⟨k, m, rfl, found, rfl⟩
  · have costs : ∀ t, 0 ≤ (next.stp t).rootPathCost := by
      intro t
      rw [sameStp]
      exact (consistent.settled t).nonneg
    refine ⟨step_sound consistent.sound costs taken, ?_, ?_, ?_⟩
    · rw [sameStp]
      exact consistent.settled
    · simp only [isDesignated, sameStp]
      exact consistent.peer
    · intro m member
      rw [sameStp]
      exact consistent.message m (fewer m member)
  · have settled := stpHandleHelloTimeout_settled now (consistent.settled s)
    refine act_consistent consistent rfl (fun _ member => member)
      (step_sound consistent.sound (nonneg rfl settled) taken') settled (le_refl _) ?_ ?_
    · intro i notDesignated
      exact consistent.peer ⟨s, i⟩ notDesignated
    · intro i config sent
      exact (stpSendConfig_mem sent).2
  · have inFlight : m ∈ net.flight := List.mem_of_getElem? found
    have wellHere := well m found
    have message := consistent.sound.messages m inFlight
    obtain ⟨portId, le⟩ := consistent.message m inFlight
    have handled := stpHandleConfigPacket_settled (consistent.sound.switches m.dst.1)
      (consistent.settled m.dst.1) message rfl wellHere
    refine act_consistent consistent rfl (fun _ member => List.mem_of_mem_eraseIdx member)
      (step_sound consistent.sound (nonneg rfl handled.1) taken') handled.1 handled.2 ?_ ?_
    · intro i notDesignated
      rcases stpHandleConfigPacket_port wellHere notDesignated with ⟨before, same⟩ | ⟨rfl, stored⟩
      · rw [same]
        exact consistent.peer ⟨m.dst.1, i⟩ before
      · refine ⟨m.src, T.link_symm _ _ message.joined, ?_⟩
        rw [stored, storeConfig_port_self]
        simp only [toI32, message.below, if_true]
        exact ⟨message.sender, portId, le⟩
    · intro i config sent
      exact stpHandleConfigPacket_sent sent

theorem run_consistent {net final : Network T} (events : List (Event ι))
    (consistent : Consistent net) (well : Guarded step DeliversWell net events)
    (success : run step net events = some final) : Consistent final :=
  invariant_guarded_run step (fun _ _ _ holds condition taken => step_consistent holds condition taken)
    events consistent well success

end Steps

/-! ## Reading the tree off a network at rest -/

section Rest
variable {net : Network T}

theorem Consistent.sends (consistent : Consistent net) (p : T.Port) : ∃ config,
    stpPortSendConfig (net.stp p.1) ((net.stp p.1).ports p.2) = some config := by
  simp only [stpPortSendConfig]
  split_ifs with silent
  · -- a switch without a root port is its own root
    rw [Bool.and_eq_true, Option.isNone_iff_eq_none] at silent
    have isRoot := ((consistent.settled p.1).noRootPort silent.2).1
    simp [stpIsRootSwitch, isRoot, (consistent.sound.switches p.1).switchId] at silent
  · exact ⟨_, rfl⟩

section Sent

variable {p q : T.Port} {config : StpConfig}
  (sent : stpPortSendConfig (net.stp p.1) ((net.stp p.1).ports p.2) = some config)

include sent

theorem Consistent.sent_portId (consistent : Consistent net) :
    (config.portId : Int) = stpPortId p.2 := by
  rw [stpPortSendConfig_some sent]
  simp only
  rw [((consistent.sound.switches p.1).port p.2).portId]
  exact toU16_stpPortId (Fin.castLE (T.nports_le p.1) p.2)

theorem Consistent.stored_vector (consistent : Consistent net) {n : Nat} (stp : Stp n)
    (i : Fin n) : portVector ((storeConfig stp i config).ports i) =
      vector (net.stp p.1).designatedRoot (net.stp p.1).rootPathCost (T.switchId p.1)
        (stpPortId p.2) := by
  have switch := consistent.sound.switches p.1
  have configEq := stpPortSendConfig_some sent
  have cost32 : toI32 config.rootPathCost = (net.stp p.1).rootPathCost := by
    rw [configEq]
    exact toI32_toU32 switch.walk.nonneg (consistent.settled p.1).below
  rw [storeConfig_port_self, portVector]
  simp only [cost32, consistent.sent_portId sent]
  rw [configEq]
  simp only [switch.switchId]

/-- The port across the link is not designated once it has stored the config. -/
theorem Consistent.stored_not_designated (consistent : Consistent net)
    (joined : T.link p = some q) : stpPortIsDesignated (storeConfig (net.stp q.1) q.2 config)
      ((storeConfig (net.stp q.1) q.2 config).ports q.2) = false := by
  have switch := consistent.sound.switches p.1
  rw [Bool.eq_false_iff, ne_eq, stpPortIsDesignated_iff, storeConfig_port_self]
  simp only [storeConfig_switchId]
  rintro ⟨sameSwitch, samePort⟩
  rw [stpPortSendConfig_some sent, (consistent.sound.switches q.1).switchId] at sameSwitch
  simp only [switch.switchId] at sameSwitch
  have sameIndex := T.switchId_inj sameSwitch
  rw [consistent.sent_portId sent] at samePort
  obtain ⟨s, i⟩ := p
  obtain ⟨t, j⟩ := q
  dsimp only at sameIndex
  subst sameIndex
  rw [← (switch.port i).portId] at samePort
  have same := switch.port_eq samePort
  subst same
  exact T.link_ne _ joined

end Sent

/-- At rest the vector of the port across a link is no worse than what the
designated port of the link would send. -/
theorem AtRest.vector_le (rest : AtRest net) (consistent : Consistent net) {p q : T.Port}
    (designated : isDesignated net p = true) (joined : T.link p = some q) :
    portVector ((net.stp q.1).ports q.2) ≤
      vector (net.stp p.1).designatedRoot (net.stp p.1).rootPathCost (T.switchId p.1)
        (stpPortId p.2) := by
  have switch := consistent.sound.switches p.1
  obtain ⟨config, sent⟩ := consistent.sends p
  have costEq := toU32_cast switch.walk.nonneg (consistent.settled p.1).below
  by_contra worse
  have superior := lt_of_not_ge worse
  have notPrior : configPrior config ((net.stp q.1).ports q.2) = false := by
    by_contra prior
    rw [Bool.not_eq_false] at prior
    have unchanged := rest.2 p designated config sent q joined
    simp only [stpHandleConfigPacket, prior, if_true] at unchanged
    exact adoptConfig_ne (consistent.stored_not_designated sent joined)
      (by rw [consistent.stored_vector sent]; exact superior) unchanged
  obtain ⟨w, -, peerWalk, -⟩ := ((consistent.sound.switches q.1).port q.2).walk
  have peerBelow := ((consistent.sound.switches q.1).port q.2).below
  rw [configPrior, prior_eq_lt, decide_eq_false_iff_not,
    toU32_cast peerWalk.nonneg peerBelow, consistent.sent_portId sent] at notPrior
  apply notPrior
  rw [stpPortSendConfig_some sent]
  simp only [costEq, switch.switchId]
  exact superior

theorem Consistent.own_vector (consistent : Consistent net) {p : T.Port}
    (designated : isDesignated net p = true) :
    portVector ((net.stp p.1).ports p.2) =
      vector (net.stp p.1).designatedRoot (net.stp p.1).rootPathCost (T.switchId p.1)
        (stpPortId p.2) := by
  obtain ⟨onSwitch, onPort⟩ := (stpPortIsDesignated_iff _ _).mp designated
  obtain ⟨root, cost⟩ := (consistent.settled p.1).own p.2 designated
  rw [portVector, root, cost, onSwitch, onPort, (consistent.sound.switches p.1).switchId,
    ((consistent.sound.switches p.1).port p.2).portId]

theorem port_eq_of_vector {r1 r2 : Nat} {c1 c2 : Int} {p q : T.Port}
    (same : vector r1 c1 (T.switchId p.1) (stpPortId p.2) =
      vector r2 c2 (T.switchId q.1) (stpPortId q.2)) : p = q := by
  simp only [vector, EmbeddingLike.apply_eq_iff_eq, Prod.mk.injEq] at same
  obtain ⟨s, i⟩ := p
  obtain ⟨t, j⟩ := q
  have sameSwitch := T.switchId_inj same.2.2.1
  dsimp only at sameSwitch
  subst sameSwitch
  have sameIndex := stpPortId_injective (Fin.castLE (T.nports_le s) i)
    (Fin.castLE (T.nports_le s) j) same.2.2.2
  rw [Fin.castLE_injective (T.nports_le s) sameIndex]

theorem AtRest.not_both_designated (rest : AtRest net) (consistent : Consistent net)
    {p q : T.Port} (joined : T.link p = some q) (onP : isDesignated net p = true) :
    isDesignated net q = false := by
  by_contra notFalse
  rw [Bool.not_eq_false] at notFalse
  have forth := rest.vector_le consistent onP joined
  have back := rest.vector_le consistent notFalse (T.link_symm _ _ joined)
  rw [consistent.own_vector notFalse] at forth
  rw [consistent.own_vector onP] at back
  have same := port_eq_of_vector (le_antisymm back forth)
  subst same
  exact T.link_ne _ joined

/-- What a non-designated port stores is the vector of the port across its link,
as that port's switch stated it once. -/
theorem Consistent.peer_vector (consistent : Consistent net) {p q : T.Port}
    (joined : T.link p = some q) (notDesignated : isDesignated net p = false) :
    vector (net.stp q.1).designatedRoot (net.stp q.1).rootPathCost (T.switchId q.1)
        (stpPortId q.2) ≤ portVector ((net.stp p.1).ports p.2) ∧
      claim (net.stp q.1).designatedRoot (net.stp q.1).rootPathCost ≤
        claim ((net.stp p.1).ports p.2).designatedRoot
          ((net.stp p.1).ports p.2).designatedCost := by
  obtain ⟨q', joined', onSwitch, onPort, le⟩ := consistent.peer p notDesignated
  rw [joined] at joined'
  cases joined'
  refine ⟨?_, le⟩
  rw [portVector, onSwitch, onPort]
  rw [claim_le_iff] at le
  rw [vector_le_iff]
  omega

theorem Consistent.one_designated (consistent : Consistent net) {p q : T.Port}
    (joined : T.link p = some q) (onP : isDesignated net p = false) :
    isDesignated net q = true := by
  by_contra notTrue
  rw [Bool.not_eq_true] at notTrue
  have pSwitch := consistent.sound.switches p.1
  have qSwitch := consistent.sound.switches q.1
  have pBeaten := (consistent.settled p.1).beaten p.2 onP
  have qBeaten := (consistent.settled q.1).beaten q.2 notTrue
  rw [pSwitch.switchId, (pSwitch.port p.2).portId] at pBeaten
  rw [qSwitch.switchId, (qSwitch.port q.2).portId] at qBeaten
  have pPeer := (consistent.peer_vector joined onP).1
  have qPeer := (consistent.peer_vector (T.link_symm _ _ joined) notTrue).1
  -- own p ≤ stored q ≤ own q ≤ stored p ≤ own p
  have same := le_antisymm (le_trans qPeer qBeaten) (le_trans pPeer pBeaten)
  have samePort := port_eq_of_vector same
  subst samePort
  exact T.link_ne _ joined

theorem AtRest.claim_adj (rest : AtRest net) (consistent : Consistent net) {u v : ι}
    (adjacent : T.Adj u v) :
    claim (net.stp v).designatedRoot (net.stp v).rootPathCost ≤
      claim (net.stp u).designatedRoot ((net.stp u).rootPathCost + 1) := by
  obtain ⟨i, j, joined⟩ := adjacent
  cases designated : isDesignated net ⟨u, i⟩ with
  | true =>
      have forth := rest.vector_le consistent designated joined
      have notOther := rest.not_both_designated consistent joined designated
      have stored := (consistent.settled v).nearest j notOther
      exact le_trans stored (claim_succ_le (claim_le_of_vector_le forth))
  | false =>
      have back := (consistent.peer_vector joined designated).2
      have beaten := claim_le_of_vector_le ((consistent.settled u).beaten i designated)
      exact le_trans (le_trans back beaten) (claim_le_succ _ _)

theorem Consistent.distance_le (consistent : Consistent net) {r s : ι}
    (smallest : ∀ t, T.switchId r ≤ T.switchId t) {d : Nat} (distance : IsDistance T.Adj d s r) :
    claim (T.switchId r) d ≤ claim (net.stp s).designatedRoot (net.stp s).rootPathCost := by
  obtain ⟨t, onRoot, n, length, walk⟩ := (consistent.sound.switches s).walk
  rw [claim_le_iff, ← onRoot, length]
  by_cases same : T.switchId r = T.switchId t
  · have sameSwitch := T.switchId_inj same
    subst sameSwitch
    have least := distance.2 n walk
    omega
  · have bound := smallest t
    omega

theorem AtRest.claim_eq (rest : AtRest net) (consistent : Consistent net) {r : ι}
    (smallest : ∀ t, T.switchId r ≤ T.switchId t) (d : Nat) :
    ∀ s, IsDistance T.Adj d s r →
      claim (net.stp s).designatedRoot (net.stp s).rootPathCost = claim (T.switchId r) d := by
  induction d with
  | zero =>
      intro s distance
      have same := IsDistance.zero_iff.mp distance
      subst same
      exact le_antisymm (consistent.settled s).self_le (consistent.distance_le smallest distance)
  | succ d ih =>
      intro s distance
      obtain ⟨w, adjacent, nearer⟩ := distance.step
      refine le_antisymm ?_ (consistent.distance_le smallest distance)
      have bound := rest.claim_adj consistent adjacent.symm
      have atW := ih w nearer
      simp only [claim, EmbeddingLike.apply_eq_iff_eq, Prod.mk.injEq] at atW
      rw [atW.1, atW.2] at bound
      exact_mod_cast bound

theorem AtRest.shortestPathTree (rest : AtRest net) (consistent : Consistent net)
    (connected : ∀ u v, ∃ n, Walk T.Adj n u v) : ShortestPathTree net := by
  have smallestExists : ∀ s : ι, ∃ r, ∀ t, T.switchId r ≤ T.switchId t := by
    intro s
    obtain ⟨-, ⟨r, rfl⟩, least⟩ := Nat.lt_wfRel.wf.has_min (Set.range T.switchId) ⟨_, s, rfl⟩
    exact ⟨r, fun t => Nat.le_of_not_lt (least _ ⟨t, rfl⟩)⟩
  have known : ∀ s r, (∀ t, T.switchId r ≤ T.switchId t) → ∃ d : Nat, IsDistance T.Adj d s r ∧
      (net.stp s).designatedRoot = T.switchId r ∧ (net.stp s).rootPathCost = d := by
    intro s r smallest
    obtain ⟨n, walk⟩ := connected s r
    obtain ⟨d, distance⟩ := exists_distance walk
    have exact := rest.claim_eq consistent smallest d s distance
    simp only [claim, EmbeddingLike.apply_eq_iff_eq, Prod.mk.injEq] at exact
    exact ⟨d, distance, exact⟩
  refine ⟨?_, ?_, ?_⟩
  · intro s
    obtain ⟨r, smallest⟩ := smallestExists s
    obtain ⟨d, distance, root, cost⟩ := known s r smallest
    exact ⟨r, smallest, root, d, cost, distance⟩
  · rintro s ⟨t, smaller⟩
    obtain ⟨r, smallest⟩ := smallestExists s
    obtain ⟨d, -, root, -⟩ := known s r smallest
    cases isRoot : (net.stp s).rootPort with
    | none =>
        have selfRoot := ((consistent.settled s).noRootPort isRoot).1
        have bound := smallest t
        omega
    | some p =>
        obtain ⟨-, -, cost⟩ := (consistent.settled s).hasRootPort p isRoot
        refine ⟨p, rfl, ?_⟩
        rw [((consistent.sound.switches s).port p).pathCost, cost]
  · intro p q joined
    cases onP : isDesignated net p with
    | true =>
        rw [rest.not_both_designated consistent joined onP]
        decide
    | false =>
        rw [consistent.one_designated joined onP]
        decide

end Rest

variable [DecidableEq ι]

/-- In every run that delivers configs in any order, with loss and duplication,
and in which every config is handled well, the network at rest is a shortest-path
tree towards the smallest switch id. -/
theorem spanning_tree_at_rest (T : Topology ι) (connected : ∀ u v, ∃ n, Walk T.Adj n u v)
    (now : ι → Int) (events : List (Event ι)) (net : Network T)
    (well : Guarded step DeliversWell (initial T now) events)
    (success : run step (initial T now) events = some net) (rest : AtRest net) :
    ShortestPathTree net :=
  rest.shortestPathTree (run_consistent events (initial_consistent T now) well success) connected

/-! ## Runs on the line -/

instance {n : Nat} (stp : Stp n) (i : Fin n) (config : StpConfig) :
    Decidable (HandlesWell stp i config) := by
  unfold HandlesWell
  infer_instance

instance : ∀ (net : Network T) (event : Event ι), Decidable (DeliversWell net event)
  | net, .deliver k => inferInstanceAs (Decidable (∀ m ∈ net.flight[k]?,
      HandlesWell (net.stp m.dst.1) m.dst.2 m.config))
  | _, .helloTimeout _ _ => isTrue trivial
  | _, .lose _ => isTrue trivial
  | _, .duplicate _ => isTrue trivial

omit [DecidableEq ι] in
/-- A network is at rest when no config of a designated port is prior to the
vector of the port it would reach. -/
theorem atRest_of_not_prior {net : Network T} (empty : net.flight = [])
    (quiet : ∀ p, isDesignated net p = true →
      ∀ config ∈ stpPortSendConfig (net.stp p.1) ((net.stp p.1).ports p.2),
        ∀ q ∈ T.link p, configPrior config ((net.stp q.1).ports q.2) = false) : AtRest net := by
  refine ⟨empty, ?_⟩
  intro p designated config sent q joined
  simp [stpHandleConfigPacket, quiet p designated config sent q joined]

/-- `b1` speaks first and every config is handled well. -/
theorem spanning_tree_at_rest_line :
    ∃ net, run step (initial line fun _ => 0) [.helloTimeout 0 0, .deliver 0, .deliver 0] =
        some net ∧ (net.stp 2).rootPathCost = 2 ∧ ShortestPathTree net := by
  refine ⟨_, (Option.some_get (by decide)).symm, by decide, ?_⟩
  refine spanning_tree_at_rest line line_connected (fun _ => 0) _ _ (by decide)
    (Option.some_get (by decide)).symm ?_
  exact atRest_of_not_prior (List.eq_nil_of_length_eq_zero (by decide)) (by decide)

/-- `b2` speaks first: `b3` takes `b2` for the root, and the better config that
`b2` sends later arrives on the root port of `b3`, which is no candidate for the
new root port.  Nothing is lost or duplicated on the way to this rest. -/
theorem line_stranded_at_rest :
    ∃ net, run step (initial line fun _ => 0)
        [.helloTimeout 1 0, .deliver 1, .deliver 0, .deliver 0, .deliver 0] = some net ∧
      (∀ u v, ∃ n, Walk line.Adj n u v) ∧ AtRest net ∧ ¬ ShortestPathTree net := by
  refine ⟨_, (Option.some_get (by decide)).symm, line_connected, ?_, ?_⟩
  · exact atRest_of_not_prior (List.eq_nil_of_length_eq_zero (by decide)) (by decide)
  · intro tree
    obtain ⟨r, smallest, root, -⟩ := tree.root 2
    have toSecond : ∀ r : Fin 3, line.switchId r = line.switchId 1 → r = 1 :=
      fun r same => line.switchId_inj same
    have isSecond := toSecond r (root.symm.trans (by decide))
    subst isSecond
    exact absurd (smallest 0) (by decide)

end NetworkLab.SpanningTree
