import NetworkLab.AddressTranslation.Ports

/-!
# The return path of a translated flow

While the mapping of a flow stays in the table, inbound packets find it by its
external address and outbound packets by its internal one.  The first lookup relies
on distinct external ports, the second on the invariant that a bucket never holds
two mappings of one internal address.
-/
set_option autoImplicit false

namespace NetworkLab.AddressTranslation

open Lib Lib.Run Lib.Buckets

def NatMapping.flow (m : NatMapping) : (UInt32 × UInt16) × (UInt32 × UInt16) :=
  (m.internal, m.external)

def DistinctPorts (nat : NatTable) : Prop :=
  DistinctKeys NatMapping.externalPort nat.natMappingList

def InternalUnique (nat : NatTable) : Prop :=
  ∀ b, ((nat.natMappingList b).map NatMapping.internal).Nodup

/-- A mapping for traffic with `remote` joins the two ends of `flow`. -/
def Maps (nat : NatTable) (remote : UInt32)
    (flow : (UInt32 × UInt16) × (UInt32 × UInt16)) : Prop :=
  flow ∈ (nat.natMappingList (hash8 remote)).map NatMapping.flow

/-- The event is not a sweep that deletes the mapping of `internal` for `remote`. -/
def Unswept (remote : UInt32) (internal : UInt32 × UInt16) (nat : NatTable) : Event → Prop
  | .translate _ _ _ => True
  | .sweep now => ∀ m ∈ nat.natMappingList (hash8 remote), m.internal = internal →
      ¬ Finished now m

instance (remote : UInt32) (internal : UInt32 × UInt16) (nat : NatTable) (event : Event) :
    Decidable (Unswept remote internal nat event) :=
  match event with
  | .translate _ _ _ => isTrue trivial
  | .sweep now => inferInstanceAs (Decidable
      (∀ m ∈ nat.natMappingList (hash8 remote), m.internal = internal → ¬ Finished now m))

section Steps

variable {longestPrefixMatch : UInt32 → Option RtEntry} {nat next : NatTable} {event : Event}
  {packet : Packet}

theorem natTimeout_internalUnique (now : Int) (unique : InternalUnique nat) :
    InternalUnique (natTimeout nat now) :=
  fun b => (unique b).sublist (List.filter_sublist.map _)

theorem touchFirst_internalUnique (b : UInt8) (p : NatMapping → Bool) (now : Int)
    (unique : InternalUnique nat) : InternalUnique (nat.touchFirst b p now) := by
  intro c
  rw [touchFirst_map _ _ b p now fun _ => rfl]
  exact unique c

theorem grow_internalUnique {rtEntry : RtEntry} (unmapped : Unmapped nat packet)
    (unique : InternalUnique nat) : InternalUnique (nat.grow packet rtEntry) := by
  intro b
  by_cases here : b = hash8 packet.daddr
  · subst here
    rw [grow_natMappingList, append_same, List.map_append]
    refine List.Nodup.append (unique _) (List.nodup_singleton _) ?_
    intro internal old new
    obtain rfl := List.mem_singleton.mp new
    exact unmapped_iff.mp unmapped old
  · rw [grow_natMappingList, append_of_ne _ _ here]
    exact unique b

theorem step_internalUnique (unique : InternalUnique nat)
    (taken : step longestPrefixMatch nat event = some next) : InternalUnique next := by
  rcases step_cases taken with ⟨packet, dir, now, actions, rfl, translated⟩ | ⟨now, rfl, rfl⟩
  · rcases doTranslation_cases translated with
      ⟨-, rfl | ⟨b, p, rfl⟩⟩ | ⟨-, unmapped, rtEntry, -, rfl⟩
    · exact unique
    · exact touchFirst_internalUnique b p now unique
    · exact touchFirst_internalUnique _ _ now (grow_internalUnique unmapped unique)
  · exact natTimeout_internalUnique now unique

theorem reachable_internalUnique
    (reached : Reachable (step longestPrefixMatch) natTableInit nat) : InternalUnique nat := by
  obtain ⟨events, success⟩ := reached
  have initially : InternalUnique natTableInit := fun _ => List.nodup_nil
  exact invariant_run _ (fun _ _ _ => step_internalUnique) events initially success

theorem touchFirst_maps {remote : UInt32} {flow : (UInt32 × UInt16) × (UInt32 × UInt16)}
    (b : UInt8) (p : NatMapping → Bool) (now : Int) :
    Maps (nat.touchFirst b p now) remote flow ↔ Maps nat remote flow := by
  unfold Maps
  rw [touchFirst_map _ _ b p now fun _ => rfl]

theorem grow_maps {rtEntry : RtEntry} {remote : UInt32}
    {flow : (UInt32 × UInt16) × (UInt32 × UInt16)} (maps : Maps nat remote flow) :
    Maps (nat.grow packet rtEntry) remote flow :=
  ((sublist_append _ _ _ _).map _).subset maps

theorem natTimeout_maps {remote : UInt32} {flow : (UInt32 × UInt16) × (UInt32 × UInt16)}
    {now : Int} (unswept : Unswept remote flow.1 nat (.sweep now)) (maps : Maps nat remote flow) :
    Maps (natTimeout nat now) remote flow := by
  obtain ⟨m, member, rfl⟩ := List.mem_map.mp maps
  refine List.mem_map_of_mem (List.mem_filter.mpr ⟨member, ?_⟩)
  simpa using unswept m member rfl

theorem step_maps {remote : UInt32} {flow : (UInt32 × UInt16) × (UInt32 × UInt16)}
    (maps : Maps nat remote flow) (unswept : Unswept remote flow.1 nat event)
    (taken : step longestPrefixMatch nat event = some next) : Maps next remote flow := by
  rcases step_cases taken with ⟨packet, dir, now, actions, rfl, translated⟩ | ⟨now, rfl, rfl⟩
  · rcases doTranslation_cases translated with
      ⟨-, rfl | ⟨b, p, rfl⟩⟩ | ⟨-, -, rtEntry, -, rfl⟩
    · exact maps
    · exact (touchFirst_maps b p now).mpr maps
    · exact (touchFirst_maps _ _ now).mpr (grow_maps maps)
  · exact natTimeout_maps unswept maps

/-- An outbound packet leaves a mapping from its source to the source it is given. -/
theorem doTranslation_outbound {now : Int} {actions : List Action}
    (taken : doTranslation longestPrefixMatch nat packet .dirOut now = some (next, actions)) :
    ∃ e x, actions = [.ipSendPacket { packet with saddr := e, sport := x }] ∧
      Maps next packet.daddr ((packet.saddr, packet.sport), (e, x)) := by
  cases found : (nat.natMappingList (hash8 packet.daddr)).find?
      (matchesInternal packet.saddr packet.sport) with
  | none =>
      cases route : longestPrefixMatch packet.daddr with
      | none => simp [doTranslation, found, insertNatEntry, route] at taken
      | some rtEntry =>
          rw [doTranslation_unmapped now dirOut_ne_dirIn found route] at taken
          obtain ⟨rfl, rfl⟩ := Prod.mk.inj (Option.some.inj taken)
          refine ⟨_, _, rfl, (touchFirst_maps _ _ now).mpr ?_⟩
          exact List.mem_map.mpr ⟨newMapping nat packet rtEntry,
            mem_append.mpr (Or.inr ⟨rfl, rfl⟩), rfl⟩
  | some m =>
      simp only [doTranslation, found, reduceCtorEq, if_false] at taken
      obtain ⟨rfl, rfl⟩ := Prod.mk.inj (Option.some.inj taken)
      refine ⟨_, _, rfl, (touchFirst_maps _ _ now).mpr ?_⟩
      have internal := matchesInternal_iff.mp (List.find?_some found)
      exact List.mem_map.mpr ⟨m, List.mem_of_find?_eq_some found, by
        rw [NatMapping.flow, internal]
        rfl⟩

theorem inbound_of_maps {internal : UInt32 × UInt16} (distinct : DistinctPorts nat)
    (maps : Maps nat packet.saddr (internal, (packet.daddr, packet.dport))) (now : Int) :
    ∃ after, doTranslation longestPrefixMatch nat packet .dirIn now =
      some (after,
        [.ipSendPacket { packet with daddr := internal.1, dport := internal.2 }]) := by
  obtain ⟨m, member, flow⟩ := List.mem_map.mp maps
  obtain ⟨rfl, external⟩ := Prod.mk.inj flow
  have found := find?_of_nodup (p := matchesExternal packet.daddr packet.dport)
    (distinct.within _) member (matchesExternal_iff.mpr external) (by
      intro other _ matched
      have same := (matchesExternal_iff.mp matched).trans external.symm
      exact congrArg Prod.snd same)
  exact ⟨_, by simp only [doTranslation, found]; rfl⟩

theorem outbound_of_maps {external : UInt32 × UInt16} (unique : InternalUnique nat)
    (maps : Maps nat packet.daddr ((packet.saddr, packet.sport), external)) (now : Int) :
    ∃ after, doTranslation longestPrefixMatch nat packet .dirOut now =
      some (after,
        [.ipSendPacket { packet with saddr := external.1, sport := external.2 }]) := by
  obtain ⟨m, member, flow⟩ := List.mem_map.mp maps
  obtain ⟨internal, rfl⟩ := Prod.mk.inj flow
  have found := find?_of_nodup (p := matchesInternal packet.saddr packet.sport)
    (unique _) member (matchesInternal_iff.mpr internal) (by
      intro other _ matched
      exact (matchesInternal_iff.mp matched).trans internal.symm)
  exact ⟨_, by simp only [doTranslation, found]; rfl⟩

end Steps

/-- After an outbound packet was given a source, and until its mapping is swept,
packets of the remote host to that source go back to the sender, and further packets
of the sender to that host get the same source. -/
theorem nat_round_trip (longestPrefixMatch : UInt32 → Option RtEntry) {nat mapped later : NatTable}
    {packet sent : Packet} {now : Int} {actions : List Action} (events : List Event)
    (reached : Reachable (step longestPrefixMatch) natTableInit nat)
    (outbound : doTranslation longestPrefixMatch nat packet .dirOut now = some (mapped, actions))
    (rewritten : .ipSendPacket sent ∈ actions)
    (success : run (step longestPrefixMatch) mapped events = some later)
    (distinct : Always (step longestPrefixMatch) DistinctPorts mapped events)
    (unswept : Guarded (step longestPrefixMatch)
      (Unswept packet.daddr (packet.saddr, packet.sport)) mapped events) :
    (∀ reply time, reply.saddr = packet.daddr → reply.daddr = sent.saddr →
      reply.dport = sent.sport →
        ∃ after, doTranslation longestPrefixMatch later reply .dirIn time =
          some (after,
            [.ipSendPacket { reply with daddr := packet.saddr, dport := packet.sport }])) ∧
    (∀ again time, again.saddr = packet.saddr → again.sport = packet.sport →
      again.daddr = packet.daddr →
        ∃ after, doTranslation longestPrefixMatch later again .dirOut time =
          some (after,
            [.ipSendPacket { again with saddr := sent.saddr, sport := sent.sport }])) := by
  obtain ⟨e, x, rfl, mapsFirst⟩ := doTranslation_outbound outbound
  obtain rfl := Action.ipSendPacket.inj (List.mem_singleton.mp rewritten)
  have maps : Maps later packet.daddr ((packet.saddr, packet.sport), (e, x)) :=
    invariant_guarded_run _ (fun _ _ _ => step_maps) events mapsFirst unswept success
  have unique : InternalUnique later := by
    have first : step longestPrefixMatch nat (.translate packet .dirOut now) = some mapped := by
      simp [step, outbound]
    exact invariant_run _ (fun _ _ _ => step_internalUnique) events
      (step_internalUnique (reachable_internalUnique reached) first) success
  constructor
  · intro reply time fromRemote toE toX
    have distinctLater : DistinctPorts later := always_last _ events distinct success
    have mapsReply : Maps later reply.saddr
        ((packet.saddr, packet.sport), (reply.daddr, reply.dport)) := by
      rw [fromRemote, toE, toX]
      exact maps
    exact inbound_of_maps distinctLater mapsReply time
  · intro again time fromA fromP toRemote
    have mapsAgain : Maps later again.daddr ((again.saddr, again.sport), (e, x)) := by
      rw [fromA, fromP, toRemote]
      exact maps
    exact outbound_of_maps unique mapsAgain time

def firstTable : NatTable :=
  (natTableInit.grow (flowPacket 0) externalEntry).touchFirst (hash8 (flowPacket 0).daddr)
    (matchesInternal (flowPacket 0).saddr (flowPacket 0).sport) 0

theorem firstTable_distinctPorts : DistinctPorts firstTable := by
  have grown : DistinctPorts (natTableInit.grow (flowPacket 0) externalEntry) := by
    refine distinctKeys_append_iff.mpr ⟨distinctKeys_empty _, ?_⟩
    rintro m ⟨b, member⟩
    cases member
  refine grown.of_sublist fun b => ?_
  rw [firstTable, touchFirst_map _ _ _ _ _ fun _ => rfl]

theorem nat_round_trip_first : ∃ later after,
    run (step oneInterface) firstTable [.sweep 30] = some later ∧
    doTranslation oneInterface later
      { saddr := 0x9fe22702, daddr := externalEntry.iface.ip, sport := 80, dport := 12345 }
      .dirIn 31 =
    some (after, [.ipSendPacket
      { saddr := 0x9fe22702, daddr := 0x0a150001, sport := 80, dport := 0 }]) := by
  have route : oneInterface (flowPacket 0).daddr = some externalEntry := rfl
  have unmapped : Unmapped natTableInit (flowPacket 0) := rfl
  have outbound := doTranslation_unmapped 0 dirOut_ne_dirIn unmapped route
  have swept : DistinctPorts (natTimeout firstTable 30) :=
    firstTable_distinctPorts.of_sublist fun b => (natTimeout_sublist firstTable 30 b).map _
  have kept : Unswept (flowPacket 0).daddr ((flowPacket 0).saddr, (flowPacket 0).sport)
      firstTable (.sweep 30) := by decide
  have distinct : Always (step oneInterface) DistinctPorts firstTable [.sweep 30] := by
    refine ⟨firstTable_distinctPorts, fun next taken => ?_⟩
    obtain rfl := Option.some.inj taken
    exact swept
  obtain ⟨after, translated⟩ := (nat_round_trip oneInterface [.sweep 30]
    (reachable_initial _ _) outbound (List.mem_singleton_self _) rfl distinct
    ⟨kept, fun _ _ => trivial⟩).1
    { saddr := 0x9fe22702, daddr := externalEntry.iface.ip, sport := 80, dport := 12345 } 31
    rfl rfl rfl
  exact ⟨_, after, rfl, translated⟩

end NetworkLab.AddressTranslation
