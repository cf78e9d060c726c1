import Mathlib.Data.List.Nodup
import NetworkLab.AddressTranslation.Table

/-!
# Uniqueness of external addresses

Two live mappings may share an external address and port only through
`NAT_PORT_MAX`, the value that `getport` returns when the pool is exhausted.  The
pool is never refilled, since `nat_timeout` deletes mappings without clearing their
`assigned_ports`.
-/
set_option autoImplicit false

namespace NetworkLab.AddressTranslation

open Lib Lib.Run Lib.Buckets

def UniqueExternal (nat : NatTable) : Prop :=
  DistinctKeys NatMapping.external nat.natMappingList

def Exhausted (assigned : Nat → Bool) : Prop := ∀ i ∈ portPool, assigned i = true

/-- A packet that needs a new mapping while the pool is exhausted finds no live
mapping that already uses `NAT_PORT_MAX` with the same address. -/
def PortAvailable (longestPrefixMatch : UInt32 → Option RtEntry) (nat : NatTable) : Event → Prop
  | .translate packet dir _ => dir ≠ .dirIn → Unmapped nat packet →
      Exhausted nat.assignedPorts → ∀ rtEntry, longestPrefixMatch packet.daddr = some rtEntry →
        ∀ m, nat.natMappingList.Member m →
          m.external ≠ (rtEntry.iface.ip, UInt16.ofNat NAT_PORT_MAX)
  | .sweep _ => True

theorem mem_portPool {i : Nat} : i ∈ portPool ↔ NAT_PORT_MIN ≤ i ∧ i < NAT_PORT_MAX := by
  simp only [portPool, List.mem_range'_1, NAT_PORT_MIN, NAT_PORT_MAX]

theorem portPool_ofNat_inj {i j : Nat} (iPort : i ≤ NAT_PORT_MAX) (jPort : j ≤ NAT_PORT_MAX)
    (same : UInt16.ofNat i = UInt16.ofNat j) : i = j := by
  have small : NAT_PORT_MAX < UInt16.size := by decide
  have := congrArg UInt16.toNat same
  rwa [UInt16.toNat_ofNat_of_lt' (by omega), UInt16.toNat_ofNat_of_lt' (by omega)] at this

theorem getport_exhausted {assigned : Nat → Bool} (exhausted : Exhausted assigned) :
    getport assigned = (NAT_PORT_MAX, assigned) := by
  have none : portPool.find? (fun i => !assigned i) = none := by
    simpa [Exhausted, List.find?_eq_none] using exhausted
  simp [getport, none]

theorem getport_free {assigned : Nat → Bool} (free : ¬ Exhausted assigned) :
    ∃ i ∈ portPool, assigned i = false ∧
      getport assigned = (i, fun j => if j = i then true else assigned j) := by
  cases found : portPool.find? fun i => !assigned i with
  | none =>
      have taken := List.find?_eq_none.mp found
      exact absurd (fun i member => by simpa using taken i member) free
  | some i =>
      have unassigned : assigned i = false := by simpa using List.find?_some found
      exact ⟨i, List.mem_of_find?_eq_some found, unassigned, by simp [getport, found]⟩

def Allocated (nat : NatTable) : Prop :=
  ∀ m, nat.natMappingList.Member m → m.externalPort = UInt16.ofNat NAT_PORT_MAX ∨
    ∃ i ∈ portPool, nat.assignedPorts i = true ∧ m.externalPort = UInt16.ofNat i

section Steps

variable {nat : NatTable} {packet : Packet} {rtEntry : RtEntry}

theorem natTimeout_sublist (nat : NatTable) (now : Int) (b : UInt8) :
    ((natTimeout nat now).natMappingList b).Sublist (nat.natMappingList b) :=
  List.filter_sublist

theorem touchFirst_external (b : UInt8) (p : NatMapping → Bool) (now : Int) :
    UniqueExternal (nat.touchFirst b p now) ↔ UniqueExternal nat := by
  have keys := touchFirst_map nat NatMapping.external b p now fun _ => rfl
  constructor
  · intro unique
    exact unique.of_sublist fun c => (keys c).symm ▸ List.Sublist.refl _
  · intro unique
    exact unique.of_sublist fun c => (keys c) ▸ List.Sublist.refl _

theorem natTimeout_external (now : Int) (unique : UniqueExternal nat) :
    UniqueExternal (natTimeout nat now) :=
  unique.of_sublist fun b => (natTimeout_sublist nat now b).map _

theorem natTimeout_allocated (now : Int) (allocated : Allocated nat) :
    Allocated (natTimeout nat now) := by
  rintro m ⟨b, member⟩
  exact allocated m ⟨b, (natTimeout_sublist nat now b).subset member⟩

theorem touchFirst_allocated (b : UInt8) (p : NatMapping → Bool) (now : Int)
    (allocated : Allocated nat) : Allocated (nat.touchFirst b p now) := by
  rintro m ⟨c, member⟩
  have ports := touchFirst_map nat NatMapping.externalPort b p now (fun _ => rfl) c
  have kept : m.externalPort ∈ (nat.natMappingList c).map NatMapping.externalPort := by
    rw [← ports]
    exact List.mem_map_of_mem member
  obtain ⟨old, oldMember, same⟩ := List.mem_map.mp kept
  rw [← same]
  exact allocated old ⟨c, oldMember⟩

theorem grow_allocated (allocated : Allocated nat) : Allocated (nat.grow packet rtEntry) := by
  have marked : ∀ i, nat.assignedPorts i = true → (getport nat.assignedPorts).2 i = true := by
    intro i assigned
    by_cases exhausted : Exhausted nat.assignedPorts
    · rwa [getport_exhausted exhausted]
    · obtain ⟨j, -, -, port⟩ := getport_free exhausted
      rw [port]
      by_cases same : i = j <;> simp [same, assigned]
  rintro m ⟨b, member⟩
  rcases mem_append.mp member with old | ⟨-, rfl⟩
  · rcases allocated m ⟨b, old⟩ with last | ⟨i, inPool, assigned, port⟩
    · exact Or.inl last
    · exact Or.inr ⟨i, inPool, marked i assigned, port⟩
  · by_cases exhausted : Exhausted nat.assignedPorts
    · left
      simp [newMapping, getport_exhausted exhausted]
    · obtain ⟨i, inPool, -, port⟩ := getport_free exhausted
      exact Or.inr ⟨i, inPool, by simp [NatTable.grow, port], by simp [newMapping, port]⟩

/-- A new mapping takes a free port unless the pool is exhausted. -/
theorem grow_external_iff (allocated : Allocated nat) (unique : UniqueExternal nat) :
    UniqueExternal (nat.grow packet rtEntry) ↔
      (Exhausted nat.assignedPorts → ∀ m, nat.natMappingList.Member m →
        m.external ≠ (rtEntry.iface.ip, UInt16.ofNat NAT_PORT_MAX)) := by
  have fresh : UniqueExternal (nat.grow packet rtEntry) ↔
      ∀ m, nat.natMappingList.Member m →
        m.external ≠ (newMapping nat packet rtEntry).external :=
    distinctKeys_append_iff.trans (and_iff_right unique)
  rw [fresh]
  by_cases exhausted : Exhausted nat.assignedPorts
  · simp [exhausted, newMapping, NatMapping.external, getport_exhausted exhausted]
  · obtain ⟨i, inPool, unassigned, port⟩ := getport_free exhausted
    have iPort := mem_portPool.mp inPool
    refine iff_of_true ?_ fun contrary => absurd contrary exhausted
    intro m member same
    have samePort : m.externalPort = UInt16.ofNat i := by
      have := congrArg Prod.snd same
      rwa [newMapping, port] at this
    rcases allocated m member with last | ⟨j, jInPool, assigned, jPort⟩
    · have := portPool_ofNat_inj le_rfl iPort.2.le (last.symm.trans samePort)
      omega
    · have jBound := mem_portPool.mp jInPool
      obtain rfl := portPool_ofNat_inj jBound.2.le iPort.2.le (jPort.symm.trans samePort)
      simp [unassigned] at assigned

end Steps

section Runs

variable {longestPrefixMatch : UInt32 → Option RtEntry} {nat next : NatTable} {event : Event}

theorem step_allocated (allocated : Allocated nat)
    (taken : step longestPrefixMatch nat event = some next) : Allocated next := by
  rcases step_cases taken with ⟨packet, dir, now, actions, rfl, translated⟩ | ⟨now, rfl, rfl⟩
  · rcases doTranslation_cases translated with
      ⟨-, rfl | ⟨b, p, rfl⟩⟩ | ⟨-, -, rtEntry, -, rfl⟩
    · exact allocated
    · exact touchFirst_allocated b p now allocated
    · exact touchFirst_allocated _ _ now (grow_allocated allocated)
  · exact natTimeout_allocated now allocated

theorem step_external_iff (allocated : Allocated nat) (unique : UniqueExternal nat)
    (taken : step longestPrefixMatch nat event = some next) :
    UniqueExternal next ↔ PortAvailable longestPrefixMatch nat event := by
  rcases step_cases taken with ⟨packet, dir, now, actions, rfl, translated⟩ | ⟨now, rfl, rfl⟩
  · rcases doTranslation_cases translated with
      ⟨mapped, kept⟩ | ⟨outbound, unmapped, rtEntry, route, rfl⟩
    · have nextUnique : UniqueExternal next := by
        rcases kept with rfl | ⟨b, p, rfl⟩
        · exact unique
        · exact (touchFirst_external b p now).mpr unique
      refine iff_of_true nextUnique fun outbound unmapped => ?_
      rcases mapped with inbound | mapped
      · exact absurd inbound outbound
      · exact absurd unmapped mapped
    · rw [touchFirst_external, grow_external_iff allocated unique]
      simp [PortAvailable, outbound, unmapped, route]
  · exact iff_of_true (natTimeout_external now unique) trivial

theorem portAvailable_of_stuck (stuck : step longestPrefixMatch nat event = none) :
    PortAvailable longestPrefixMatch nat event := by
  cases event with
  | translate packet dir now =>
      intro outbound unmapped _ rtEntry route
      simp [step, doTranslation_unmapped now outbound unmapped route] at stuck
  | sweep now => trivial

end Runs

/-- External addresses are unique in every state of a run exactly when no step of
it takes `NAT_PORT_MAX` while a live mapping holds it. -/
theorem nat_external_unique (longestPrefixMatch : UInt32 → Option RtEntry) (events : List Event) :
    Always (step longestPrefixMatch) UniqueExternal natTableInit events ↔
      Guarded (step longestPrefixMatch) (PortAvailable longestPrefixMatch) natTableInit events := by
  have allocated : Allocated natTableInit := by
    rintro m ⟨b, member⟩
    cases member
  exact always_iff_guarded (step longestPrefixMatch)
    (fun _ _ _ => step_allocated) (fun _ _ _ => step_external_iff)
    (fun _ _ _ => portAvailable_of_stuck) events allocated (distinctKeys_empty _)

section Leak

def externalEntry : RtEntry := { iface := { index := 1, ip := 0x9fe2277b } }

def oneInterface (_ : UInt32) : Option RtEntry := some externalEntry

def flowPacket (k : Nat) : Packet :=
  { saddr := 0x0a150001, daddr := 0x9fe22702, sport := UInt16.ofNat k, dport := 80 }

def flowMapping (k : Nat) : NatMapping :=
  { internalIp := 0x0a150001, externalIp := externalEntry.iface.ip, internalPort := UInt16.ofNat k,
    externalPort := UInt16.ofNat (NAT_PORT_MIN + k), updateTime := 0, conn := noConnection }

/-- The pool after `n` ports were given out. -/
def drained (n : Nat) (i : Nat) : Bool := decide (NAT_PORT_MIN ≤ i ∧ i < NAT_PORT_MIN + n)

def flowTable (n : Nat) : NatTable :=
  { natMappingList := fun b =>
      if b = hash8 (flowPacket 0).daddr then (List.range n).map flowMapping else [],
    assignedPorts := drained n }

theorem getport_drained {n : Nat} (free : n < NAT_PORT_MAX - NAT_PORT_MIN) :
    getport (drained n) = (NAT_PORT_MIN + n, drained (n + 1)) := by
  have found : portPool.find? (fun i => !drained n i) = some (NAT_PORT_MIN + n) := by
    rw [portPool, List.find?_range'_eq_some]
    refine ⟨by simp [drained], ?_, ?_⟩
    · simp only [List.mem_range'_1]
      omega
    · intro j low high
      simp [drained, low, high]
  have marked : (fun j => if j = NAT_PORT_MIN + n then true else drained n j) = drained (n + 1) := by
    funext j
    by_cases same : j = NAT_PORT_MIN + n
    · simp [drained, same]
    · have : j < NAT_PORT_MIN + (n + 1) ↔ j < NAT_PORT_MIN + n := by omega
      simp [drained, same, this]
  rw [getport, found, ← marked]

theorem flowTable_unmapped {n : Nat} (free : n < NAT_PORT_MAX - NAT_PORT_MIN) :
    Unmapped (flowTable n) (flowPacket n) := by
  have here : hash8 (flowPacket n).daddr = hash8 (flowPacket 0).daddr := rfl
  simp only [Unmapped, flowTable, here, if_true, List.find?_eq_none, List.mem_map, List.mem_range]
  rintro m ⟨k, earlier, rfl⟩ matched
  have same := congrArg Prod.snd (matchesInternal_iff.mp matched)
  have := portPool_ofNat_inj (by omega) (by omega) same
  omega

theorem flowTable_grow {n : Nat} (free : n < NAT_PORT_MAX - NAT_PORT_MIN) {rtEntry : RtEntry}
    (route : oneInterface (flowPacket n).daddr = some rtEntry) :
    (flowTable n).grow (flowPacket n) rtEntry = flowTable (n + 1) := by
  cases Option.some.inj route
  have port := getport_drained free
  simp only [NatTable.grow, newMapping, flowTable, port, NatTable.mk.injEq, and_true]
  have bucket : hash8 (flowPacket n).daddr = hash8 (flowPacket 0).daddr := rfl
  rw [bucket]
  funext b
  by_cases here : b = hash8 (flowPacket 0).daddr
  · subst here
    rw [append_same, if_pos rfl, if_pos rfl, List.range_succ, List.map_append]
    rfl
  · rw [append_of_ne _ _ here, if_neg here, if_neg here]

theorem flowTable_touchFirst (n : Nat) (b : UInt8) (p : NatMapping → Bool) :
    (flowTable n).touchFirst b p 0 = flowTable n := by
  have bucket : ∀ m ∈ (flowTable n).natMappingList b, m.touch 0 = m := by
    intro m member
    simp only [flowTable] at member
    split_ifs at member
    · obtain ⟨k, -, rfl⟩ := List.mem_map.mp member
      rfl
    · cases member
  simp only [NatTable.touchFirst, updateFirst_eq_self bucket, Function.update_eq_self]

theorem flowTable_step {n : Nat} (free : n < NAT_PORT_MAX - NAT_PORT_MIN) :
    step oneInterface (flowTable n) (.translate (flowPacket n) .dirOut 0) =
      some (flowTable (n + 1)) := by
  have route : oneInterface (flowPacket n).daddr = some externalEntry := rfl
  have translated := doTranslation_unmapped 0 dirOut_ne_dirIn (flowTable_unmapped free) route
  simp only [step, translated, flowTable_grow free route, flowTable_touchFirst, Option.map_some]

theorem flowTable_run {n : Nat} (free : n ≤ NAT_PORT_MAX - NAT_PORT_MIN) :
    run (step oneInterface) natTableInit
      ((List.range n).map fun k => .translate (flowPacket k) .dirOut 0) = some (flowTable n) := by
  induction n with
  | zero =>
      have lists : (flowTable 0).natMappingList = fun _ => [] := by
        funext b
        simp [flowTable]
      have ports : (flowTable 0).assignedPorts = fun _ => false := by
        funext i
        simp [flowTable, drained]
      change some natTableInit = some (flowTable 0)
      rw [natTableInit, ← lists, ← ports]
  | succ n ih =>
      rw [List.range_succ, List.map_append, run_append, ih (by omega)]
      simp [flowTable_step (n := n) (by omega)]

/-- The table after the sweep of the `n` flows: empty, with their ports still assigned. -/
def sweptTable (n : Nat) : NatTable :=
  { natMappingList := fun _ => [], assignedPorts := drained n }

theorem flowTable_swept (n : Nat) : natTimeout (flowTable n) 61 = sweptTable n := by
  have lists : (natTimeout (flowTable n) 61).natMappingList = fun _ => [] := by
    funext b
    refine List.filter_eq_nil_iff.mpr fun m member => ?_
    simp only [flowTable] at member
    split_ifs at member
    · obtain ⟨k, -, rfl⟩ := List.mem_map.mp member
      simp [Finished, flowMapping, TCP_ESTABLISHED_TIMEOUT]
    · cases member
  change NatTable.mk (natTimeout (flowTable n) 61).natMappingList (drained n) = _
  rw [lists]
  rfl

theorem exhausted_step {nat : NatTable} (packet : Packet) (now : Int)
    (exhausted : Exhausted nat.assignedPorts) (unmapped : Unmapped nat packet) :
    ∃ next, step oneInterface nat (.translate packet .dirOut now) = some next ∧
      next.assignedPorts = nat.assignedPorts ∧
      (∀ b, (next.natMappingList b).map NatMapping.internal =
        (nat.natMappingList.append (hash8 packet.daddr)
          (newMapping nat packet externalEntry) b).map
            NatMapping.internal) ∧
      (externalEntry.iface.ip, UInt16.ofNat NAT_PORT_MAX) ∈
        (next.natMappingList (hash8 packet.daddr)).map NatMapping.external ∧
      (UniqueExternal next → ∀ b, (externalEntry.iface.ip, UInt16.ofNat NAT_PORT_MAX) ∉
        (nat.natMappingList b).map NatMapping.external) := by
  have given : (newMapping nat packet externalEntry).external =
      (externalEntry.iface.ip, UInt16.ofNat NAT_PORT_MAX) := by
    simp [newMapping, NatMapping.external, getport_exhausted exhausted]
  have route : oneInterface packet.daddr = some externalEntry := rfl
  have translated := doTranslation_unmapped now dirOut_ne_dirIn unmapped route
  refine ⟨_, by rw [step, translated]; rfl, ?_, ?_, ?_, ?_⟩
  · simp [NatTable.grow, getport_exhausted exhausted]
  · intro b
    exact touchFirst_map (nat.grow packet _) _ _ _ now (fun _ => rfl) b
  · rw [touchFirst_map (nat.grow packet _) _ _ _ now fun _ => rfl]
    simp [NatTable.grow, given]
  · intro unique b mapped
    obtain ⟨m, member, same⟩ := List.mem_map.mp mapped
    have fresh := (distinctKeys_append_iff.mp ((touchFirst_external ..).mp unique)).2
    exact fresh m ⟨b, member⟩ (same.trans given.symm)

/-- 11111 flows use up the pool; a sweep deletes them all; the next two flows are
both given `NAT_PORT_MAX`. -/
theorem swept_ports_stay_assigned :
    ∃ nat, run (step oneInterface) natTableInit
        (((List.range (NAT_PORT_MAX - NAT_PORT_MIN)).map fun k =>
            .translate (flowPacket k) .dirOut 0) ++
          [.sweep 61, .translate (flowPacket 0) .dirOut 61,
            .translate (flowPacket 1) .dirOut 61]) = some nat ∧
      ¬ UniqueExternal nat := by
  let swept := sweptTable (NAT_PORT_MAX - NAT_PORT_MIN)
  have exhausted : Exhausted swept.assignedPorts := by
    intro i member
    have bounds := mem_portPool.mp member
    simp only [swept, sweptTable, drained, decide_eq_true_eq]
    omega
  obtain ⟨first, firstStep, firstPorts, firstInternal, firstMapped, -⟩ :=
    exhausted_step (flowPacket 0) 61 exhausted rfl
  have unmapped : Unmapped first (flowPacket 1) := by
    have bucket : hash8 (flowPacket 1).daddr = hash8 (flowPacket 0).daddr := rfl
    rw [unmapped_iff, firstInternal, bucket, append_same]
    decide
  obtain ⟨second, secondStep, -, -, -, fresh⟩ :=
    exhausted_step (flowPacket 1) 61 (firstPorts ▸ exhausted) unmapped
  refine ⟨second, ?_, fun unique => fresh unique _ firstMapped⟩
  have sweep : step oneInterface (flowTable (NAT_PORT_MAX - NAT_PORT_MIN)) (.sweep 61) =
      some swept := congrArg some (flowTable_swept _)
  rw [run_append, flowTable_run le_rfl, Option.bind_some, run_cons, sweep, Option.bind_some,
    run_cons, firstStep, Option.bind_some, run_cons, secondStep]
  rfl

end Leak

end NetworkLab.AddressTranslation
