import NetworkLab.SpanningTree.Network

/-!
# Every stated cost is the length of a walk

In every reachable network state the root and cost that a switch, a port or a
message in flight states belong to a walk of exactly that many links, from the
switch that states it to a switch of the network.
-/
set_option autoImplicit false

namespace NetworkLab.SpanningTree

open Lib Lib.Run

variable {ι : Type} {T : Topology ι}

/-- `root` is the id of a switch that a walk of exactly `cost` links reaches. -/
def StatesWalk (T : Topology ι) (start : ι) (root : Nat) (cost : Int) : Prop :=
  ∃ t, T.switchId t = root ∧ ∃ n : Nat, cost = n ∧ Walk T.Adj n start t

theorem StatesWalk.self (T : Topology ι) (s : ι) : StatesWalk T s (T.switchId s) 0 :=
  ⟨s, rfl, 0, rfl, rfl⟩

theorem StatesWalk.nonneg {s : ι} {root : Nat} {cost : Int} (stated : StatesWalk T s root cost) :
    0 ≤ cost := by
  obtain ⟨-, -, n, rfl, -⟩ := stated
  exact Int.natCast_nonneg n

theorem StatesWalk.cons {s w : ι} {root : Nat} {cost : Int} (adjacent : T.Adj s w)
    (stated : StatesWalk T w root cost) : StatesWalk T s root (cost + 1) := by
  obtain ⟨t, onRoot, n, rfl, walk⟩ := stated
  exact ⟨t, onRoot, n + 1, by push_cast; rfl, walk.cons adjacent⟩

/-- The vector of a port states a walk from its `designated_switch`, which is
this switch or one at the other end of a link. -/
structure PortSound (T : Topology ι) (p : T.Port) (port : StpPort) : Prop where
  portId : port.portId = stpPortId p.2
  pathCost : port.pathCost = 1
  root_le : port.designatedRoot ≤ T.switchId p.1
  below : port.designatedCost < 2147483648
  walk : ∃ w, T.switchId w = port.designatedSwitch ∧
    StatesWalk T w port.designatedRoot port.designatedCost ∧
    (w = p.1 ∧ port.designatedPort = port.portId ∨ T.Adj p.1 w)

structure SwitchSound (T : Topology ι) (s : ι) (stp : Stp (T.nports s)) : Prop where
  switchId : stp.switchId = T.switchId s
  root_le : stp.designatedRoot ≤ T.switchId s
  below : stp.rootPathCost < 2147483648
  walk : StatesWalk T s stp.designatedRoot stp.rootPathCost
  port : ∀ i, PortSound T ⟨s, i⟩ (stp.ports i)

theorem SwitchSound.cost_nonneg {s : ι} {stp : Stp (T.nports s)} (sound : SwitchSound T s stp)
    (j : Fin (T.nports s)) : 0 ≤ (stp.ports j).designatedCost := by
  obtain ⟨w, -, walk, -⟩ := (sound.port j).walk
  exact walk.nonneg

structure MessageSound (T : Topology ι) (m : Message T) : Prop where
  joined : T.link m.src = some m.dst
  sender : m.config.switchId = T.switchId m.src.1
  below : m.config.rootPathCost < 2147483648
  walk : StatesWalk T m.src.1 m.config.rootId m.config.rootPathCost

theorem stpInit_sound (T : Topology ι) (s : ι) (now : Int) :
    SwitchSound T s (stpInit (T.mac s) (T.nports s) now) where
  switchId := rfl
  root_le := le_refl _
  below := by simp [stpInit]
  walk := StatesWalk.self T s
  port := fun _ => ⟨rfl, rfl, le_refl _, by simp [stpInit, stpPortInit], s, rfl, StatesWalk.self T s, Or.inl ⟨rfl, rfl⟩⟩

/-- A config prior to the vector of a port names a root that is no greater. -/
theorem configPrior_root_le {config : StpConfig} {p : StpPort}
    (superior : configPrior config p = true) : config.rootId ≤ p.designatedRoot := by
  rw [configPrior, prior_eq_lt, decide_eq_true_iff, vector_lt_iff] at superior
  omega

theorem storeConfig_sound {s : ι} {stp : Stp (T.nports s)} {m : Message T} {i : Fin (T.nports s)}
    (sound : SwitchSound T s stp) (message : MessageSound T m) (here : m.dst = ⟨s, i⟩)
    (superior : configPrior m.config (stp.ports i) = true) (j : Fin (T.nports s)) :
    PortSound T ⟨s, j⟩ ((storeConfig stp i m.config).ports j) := by
  by_cases same : j = i
  · subst same
    have adjacent : T.Adj s m.src.1 := by
      have toSender := T.link_adj (T.link_symm _ _ message.joined)
      rwa [here] at toSender
    have cost : toI32 m.config.rootPathCost = m.config.rootPathCost := by
      simp [toI32, message.below]
    rw [storeConfig_port_self]
    exact {
      portId := (sound.port j).portId
      pathCost := (sound.port j).pathCost
      root_le := le_trans (configPrior_root_le superior) (sound.port j).root_le
      below := by
        have below := message.below
        simp only [cost]
        omega
      walk := ⟨m.src.1, message.sender.symm, by rw [cost]; exact message.walk, Or.inr adjacent⟩ }
  · rw [storeConfig_port_other stp m.config same]
    exact sound.port j

theorem adoptConfig_sound {s : ι} {stp : Stp (T.nports s)} {m : Message T} {i : Fin (T.nports s)}
    (sound : SwitchSound T s stp) (message : MessageSound T m) (here : m.dst = ⟨s, i⟩)
    (superior : configPrior m.config (stp.ports i) = true)
    (nonneg : 0 ≤ (adoptConfig stp i m.config).rootPathCost) :
    SwitchSound T s (adoptConfig stp i m.config) := by
  have stored := storeConfig_sound sound message here superior
  have switch : (adoptConfig stp i m.config).designatedRoot ≤ T.switchId s ∧
      (adoptConfig stp i m.config).rootPathCost < 2147483648 ∧ StatesWalk T s (adoptConfig stp i m.config).designatedRoot
        (adoptConfig stp i m.config).rootPathCost := by
    rcases adoptConfig_switch stp i m.config with
      ⟨r, found, -, root, cost⟩ | ⟨-, -, ⟨root, cost⟩ | ⟨root, cost⟩⟩
    · obtain ⟨w, onSwitch, walk, own | adjacent⟩ := (stored r).walk
      · -- an alternate port does not carry the switch's own vector
        have notDesignated := isAlternate_not_designated (findRootPort_alternate found)
        have designated : stpPortIsDesignated (storeConfig stp i m.config)
            ((storeConfig stp i m.config).ports r) = true := by
          rw [stpPortIsDesignated_iff, ← onSwitch, own.1, storeConfig_switchId, sound.switchId]
          exact ⟨rfl, own.2⟩
        rw [designated] at notDesignated
        cases notDesignated
      · rw [(sound.port r).pathCost] at cost
        rw [root, cost]
        rw [cost] at nonneg
        refine ⟨(stored r).root_le, (addInt_range _ _).2, ?_⟩
        rw [addInt_of_nonneg walk.nonneg (stored r).below nonneg]
        exact walk.cons adjacent
    · rw [root, cost]
      exact ⟨sound.root_le, sound.below, sound.walk⟩
    · rw [root, cost, sound.switchId]
      exact ⟨le_refl _, by decide, StatesWalk.self T s⟩
  obtain ⟨rootLe, below, walk⟩ := switch
  refine ⟨by rw [adoptConfig_switchId, sound.switchId], rootLe, below, walk, ?_⟩
  intro j
  rcases adoptConfig_port_cases stp i j m.config with ⟨root, cost, onSwitch, onPort, -⟩ | kept
  · refine ⟨?_, ?_, ?_, ?_, ?_⟩
    · rw [adoptConfig_portId]
      exact (sound.port j).portId
    · rw [adoptConfig_pathCost]
      exact (sound.port j).pathCost
    · rw [root]
      exact rootLe
    · rw [cost]
      exact below
    · refine ⟨s, ?_, ?_, Or.inl ⟨rfl, ?_⟩⟩
      · rw [onSwitch, sound.switchId]
      · rw [root, cost]
        exact walk
      · rw [onPort, adoptConfig_portId]
  · rw [kept.1]
    exact stored j

theorem stpPortSendConfig_sound {s : ι} {stp : Stp (T.nports s)} {p : StpPort} {m : Message T}
    (sound : SwitchSound T s stp) (sent : stpPortSendConfig stp p = some m.config)
    (sender : m.src.1 = s) (joined : T.link m.src = some m.dst) : MessageSound T m := by
  have costEq := toU32_cast sound.walk.nonneg sound.below
  have configEq := stpPortSendConfig_some sent
  refine ⟨joined, ?_, ?_, ?_⟩
  · rw [configEq, sound.switchId, sender]
  · have below := sound.below
    rw [configEq]
    simp only
    omega
  · rw [configEq, sender]
    simp only [costEq]
    exact sound.walk

theorem emit_sound {s : ι} {stp : Stp (T.nports s)}
    {packets : List (Fin (T.nports s) × StpConfig)} (sound : SwitchSound T s stp)
    (sentBy : ∀ i config, (i, config) ∈ packets →
      stpPortSendConfig stp (stp.ports i) = some config) :
    ∀ m ∈ emit T s packets, MessageSound T m := by
  intro m member
  obtain ⟨i, sent, src, joined⟩ := emit_mem member
  exact stpPortSendConfig_sound sound (sentBy i m.config sent) (by rw [src]) joined

theorem stpHandleConfigPacket_sound {s : ι} {stp : Stp (T.nports s)} {m : Message T}
    {i : Fin (T.nports s)} (sound : SwitchSound T s stp) (message : MessageSound T m)
    (here : m.dst = ⟨s, i⟩)
    (nonneg : 0 ≤ (stpHandleConfigPacket stp i m.config).1.rootPathCost) :
    SwitchSound T s (stpHandleConfigPacket stp i m.config).1 := by
  simp only [stpHandleConfigPacket] at nonneg ⊢
  split_ifs at nonneg ⊢ with superior
  · exact adoptConfig_sound sound message here superior nonneg
  · exact sound

theorem stpHandleHelloTimeout_sound {s : ι} {stp : Stp (T.nports s)} (now : Int)
    (sound : SwitchSound T s stp) : SwitchSound T s (stpHandleHelloTimeout stp now).1 :=
  ⟨sound.switchId, sound.root_le, sound.below, sound.walk, sound.port⟩

structure NetworkSound (net : Network T) : Prop where
  switches : ∀ s, SwitchSound T s (net.stp s)
  messages : ∀ m ∈ net.flight, MessageSound T m

theorem initial_sound (T : Topology ι) (now : ι → Int) : NetworkSound (initial T now) where
  switches := fun s => stpInit_sound T s (now s)
  messages := fun m member => by cases member

variable [DecidableEq ι]

theorem step_sound {net next : Network T} {event : Event ι} (sound : NetworkSound net)
    (nonneg : ∀ s, 0 ≤ (next.stp s).rootPathCost) (taken : step net event = some next) :
    NetworkSound next := by
  have kept := step_preserves (fun s stp => SwitchSound T s stp)
    (fun _ stp => 0 ≤ stp.rootPathCost) (MessageSound T)
    sound.switches sound.messages nonneg
    (fun s now switch _ =>
      ⟨stpHandleHelloTimeout_sound now switch,
        emit_sound (stpHandleHelloTimeout_sound now switch)
          fun i config sent => (stpSendConfig_mem sent).2⟩)
    (fun m member message switch nonnegHere =>
      ⟨stpHandleConfigPacket_sound switch message rfl nonnegHere,
        emit_sound (stpHandleConfigPacket_sound switch message rfl nonnegHere)
          fun i config sent => stpHandleConfigPacket_sent sent⟩)
    taken
  exact ⟨kept.1, kept.2⟩

theorem run_sound {net final : Network T} (events : List (Event ι)) (sound : NetworkSound net)
    (below : Always step CostsBelow net events) (success : run step net events = some final) :
    NetworkSound final := by
  induction events generalizing net with
  | nil =>
      cases Option.some.inj success
      exact sound
  | cons event rest ih =>
      obtain ⟨next, taken, later⟩ := run_cons_some step success
      have belowNext := below.2 next taken
      have nonneg := fun s => (always_first step belowNext s).1.1
      exact ih (step_sound sound nonneg taken) belowNext later

/-- In every state of a run with all costs below 2^31, every root and cost stated
by a switch, by one of its ports or by a config in flight is the id of a switch of
the network and the length of a walk to it from the switch that states it. -/
theorem spanning_tree_soundness (T : Topology ι) (now : ι → Int) (events : List (Event ι))
    (net : Network T) (below : Always step CostsBelow (initial T now) events)
    (success : run step (initial T now) events = some net) :
    (∀ s, (net.stp s).designatedRoot ≤ T.switchId s ∧
      StatesWalk T s (net.stp s).designatedRoot (net.stp s).rootPathCost) ∧
    (∀ s i, ∃ w, T.switchId w = ((net.stp s).ports i).designatedSwitch ∧
      StatesWalk T w ((net.stp s).ports i).designatedRoot
        ((net.stp s).ports i).designatedCost) ∧
    (∀ m ∈ net.flight, m.config.switchId = T.switchId m.src.1 ∧
      StatesWalk T m.src.1 m.config.rootId m.config.rootPathCost) := by
  have sound := run_sound events (initial_sound T now) below success
  refine ⟨?_, ?_, ?_⟩
  · intro s
    exact ⟨(sound.switches s).root_le, (sound.switches s).walk⟩
  · intro s i
    obtain ⟨w, onSwitch, walk, -⟩ := ((sound.switches s).port i).walk
    exact ⟨w, onSwitch, walk⟩
  · intro m member
    exact ⟨(sound.messages m member).sender, (sound.messages m member).walk⟩

theorem spanning_tree_soundness_line :
    ∃ net, run step (initial line fun _ => 0)
        [.helloTimeout 0 0, .duplicate 0, .deliver 0, .lose 0, .deliver 0] = some net ∧
      (net.stp 2).rootPathCost = 2 ∧
      ∀ s, StatesWalk line s (net.stp s).designatedRoot (net.stp s).rootPathCost := by
  refine ⟨_, Option.some_get (by decide) |>.symm, by decide, ?_⟩
  intro s
  exact ((spanning_tree_soundness line (fun _ => 0) _ _ (by decide)
    (Option.some_get (by decide)).symm).1 s).2

end NetworkLab.SpanningTree
