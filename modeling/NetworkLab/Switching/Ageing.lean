import NetworkLab.Switching.LearningSwitch
import NetworkLab.Lib.Run
import Mathlib.Data.Set.Card

/-!
# The ageing of the port table

`lookup_port`, `insert_mac_port` and `sweep_aged_mac_port_entry` of `05-switching` on the
chains of `hash_table`, with the nodes at their addresses.  `none` stands for an access to a
node that is not allocated.  The loops along a chain take a bound on their turns, and are
`none` when it is used up.
-/
set_option autoImplicit false

namespace NetworkLab.Switching

open Lib.Run

def MAC_PORT_TIMEOUT : Int := 30

def HASH_8BITS : Nat := 256

abbrev Address := Nat

structure Node where
  entry : MacPortEntry
  next : Option Address

structure MacPortMap where
  hashTable : UInt8 → Option Address
  memory : Address → Option Node

def initMacHashTable : MacPortMap := { hashTable := fun _ => none, memory := fun _ => none }

def MacPortMap.write (address : Address) (node : Node) (map : MacPortMap) : MacPortMap :=
  { map with memory := Function.update map.memory address (some node) }

def MacPortMap.free (address : Address) (map : MacPortMap) : MacPortMap :=
  { map with memory := Function.update map.memory address none }

@[simp] theorem MacPortMap.write_memory (address : Address) (node : Node) (map : MacPortMap) :
    (map.write address node).memory = Function.update map.memory address (some node) := rfl

@[simp] theorem MacPortMap.write_hashTable (address : Address) (node : Node) (map : MacPortMap) :
    (map.write address node).hashTable = map.hashTable := rfl

@[simp] theorem MacPortMap.free_memory (address : Address) (map : MacPortMap) :
    (map.free address).memory = Function.update map.memory address none := rfl

@[simp] theorem MacPortMap.free_hashTable (address : Address) (map : MacPortMap) :
    (map.free address).hashTable = map.hashTable := rfl

def Node.visit (now : Int) (node : Node) : Node :=
  { node with entry := { node.entry with visited := now } }

def lookupNode (mac : Mac) (searchDes : Bool) (now : Int) (map : MacPortMap) :
    Option (Option IfaceInfo × MacPortMap) :=
  match map.hashTable (hash8 mac) with
  | none => some (none, map)
  | some address => do
    let node ← map.memory address
    let node := if searchDes then node.visit now else node
    some (some node.entry.iface, map.write address node)

def lastOf (memory : Address → Option Node) :
    Nat → Option Address → Option Address → Option (Option Address)
  | _, pre, none => some pre
  | 0, _, some _ => none
  | turns + 1, _, some tmp => do
    let node ← memory tmp
    lastOf memory turns (some tmp) node.next

/-- The bucket with the node that `malloc` gives for an empty one. -/
def mallocNode (mac : Mac) (iface : IfaceInfo) (now : Int) (malloc : Address) (map : MacPortMap) :
    Address × MacPortMap :=
  match map.hashTable (hash8 mac) with
  | some address => (address, map)
  | none =>
    (malloc,
      { hashTable := Function.update map.hashTable (hash8 mac) (some malloc),
        memory := Function.update map.memory malloc
          (some { entry := { mac := mac, iface := iface, visited := now }, next := none }) })

def insertNode (turns : Nat) (mac : Mac) (iface : IfaceInfo) (now : Int) (malloc : Address)
    (map : MacPortMap) : Option MacPortMap := do
  let (address, map) := mallocNode mac iface now malloc map
  let node ← map.memory address
  let map := map.write address (node.visit now)
  let pre ← lastOf map.memory turns none node.next
  match pre with
  | none => some map
  | some pre =>
    -- the first node is linked behind the last one as well, and loses the others
    let last ← map.memory pre
    let map := map.write pre { last with next := some address }
    let first ← map.memory address
    some (map.write address { first with next := none })

def freeRest (address : Address) : Nat → MacPortMap → Option MacPortMap
  | 0, map => do
    let node ← map.memory address
    if node.next.isNone then some map else none
  | turns + 1, map => do
    let node ← map.memory address
    match node.next with
    | none => some map
    | some tmp =>
      let rest ← map.memory tmp
      freeRest address turns ((map.write address { node with next := rest.next }).free tmp)

def sweepBucket (turns : Nat) (now : Int) (swept : MacPortMap × Nat) (key : UInt8) :
    Option (MacPortMap × Nat) :=
  match swept.1.hashTable key with
  | none => some swept
  | some address => do
    let node ← swept.1.memory address
    if node.entry.visited - now > MAC_PORT_TIMEOUT then
      let map ← freeRest address turns swept.1
      -- the bucket keeps its pointer
      some (map.free address, swept.2 + 1)
    else some swept

def keys : List UInt8 := (List.range HASH_8BITS).map UInt8.ofNat

def sweepAgedMacPortEntry (turns : Nat) (now : Int) (map : MacPortMap) :
    Option (MacPortMap × Nat) :=
  keys.foldlM (sweepBucket turns now) (map, 0)

inductive Event
  | lookup (mac : Mac) (searchDes : Bool) (now : Int)
  | insert (mac : Mac) (iface : IfaceInfo) (now : Int) (malloc : Address)
  | sweep (now : Int)

/-- A call on the table; `malloc` gives an address at which nothing is allocated. -/
def call (turns : Nat) (map : MacPortMap) : Event → Option MacPortMap
  | .lookup mac searchDes now => (lookupNode mac searchDes now map).map Prod.snd
  | .insert mac iface now malloc =>
    match map.memory malloc with
    | some _ => none
    | none => insertNode turns mac iface now malloc map
  | .sweep now => (sweepAgedMacPortEntry turns now map).map Prod.fst

section Specification

inductive OnChain (memory : Address → Option Node) : Option Address → Address → Prop
  | here (address : Address) : OnChain memory (some address) address
  | later {first : Address} {node : Node} {address : Address} (read : memory first = some node)
      (rest : OnChain memory node.next address) : OnChain memory (some first) address

def MacPortMap.Holds (map : MacPortMap) (key : UInt8) (address : Address) : Prop :=
  OnChain map.memory (map.hashTable key) address

def Aged (now : Int) (entry : MacPortEntry) : Prop := now - entry.visited > MAC_PORT_TIMEOUT

def MacPortMap.aged (now : Int) (map : MacPortMap) : Set Address :=
  {address | ∃ key node, map.Holds key address ∧ map.memory address = some node ∧
    Aged now node.entry}

/-- The time is not earlier than any visit. -/
def NotEarlier (now : Int) (map : MacPortMap) : Prop :=
  ∀ key address node, map.Holds key address → map.memory address = some node →
    node.entry.visited ≤ now

/-- The sweep removes exactly the aged entries. -/
structure SweepsExactly (turns : Nat) (now : Int) (map after : MacPortMap) (n : Nat) : Prop where
  returned : sweepAgedMacPortEntry turns now map = some (after, n)
  counted : n = (map.aged now).ncard
  removed : ∀ address ∈ map.aged now,
    after.memory address = none ∧ ∀ key, ¬ after.Holds key address
  kept : ∀ key address node, map.Holds key address → map.memory address = some node →
    ¬ Aged now node.entry → after.Holds key address ∧
      ∃ left, after.memory address = some left ∧ left.entry = node.entry
  noDangling : ∀ key address, after.Holds key address → after.memory address ≠ none
  notFound : ∀ address ∈ map.aged now, ∀ node, map.memory address = some node →
    ∀ searchDes time, ∃ looked, lookupNode node.entry.mac searchDes time after = some (none, looked)

def Sweeps (turns : Nat) (now : Int) (map : MacPortMap) : Prop :=
  ∃ after n, SweepsExactly turns now map after n

/-- Every bucket leads to allocated entries, none of which is aged. -/
def NoneAged (now : Int) (map : MacPortMap) : Prop :=
  ∀ key address, map.Holds key address →
    ∃ node, map.memory address = some node ∧ ¬ Aged now node.entry

end Specification

/-! ## Chains of one node -/

def Flat (map : MacPortMap) : Prop :=
  ∀ address node, map.memory address = some node → node.next = none

section Chains

variable {map : MacPortMap} {now : Int} (turns : Nat)

theorem flat_initMacHashTable : Flat initMacHashTable := by
  intro address node read
  cases read

theorem Flat.write (flat : Flat map) (address : Address) {node : Node} (last : node.next = none) :
    Flat (map.write address node) := by
  intro other written read
  rw [MacPortMap.write_memory] at read
  by_cases same : other = address
  · rw [same, Function.update_self] at read
    rw [← Option.some.inj read]
    exact last
  · rw [Function.update_of_ne same] at read
    exact flat other written read

theorem Flat.free (flat : Flat map) (address : Address) : Flat (map.free address) := by
  intro other written read
  rw [MacPortMap.free_memory] at read
  by_cases same : other = address
  · rw [same, Function.update_self] at read
    cases read
  · rw [Function.update_of_ne same] at read
    exact flat other written read

theorem Flat.holds_iff (flat : Flat map) (key : UInt8) (address : Address) :
    map.Holds key address ↔ map.hashTable key = some address := by
  constructor
  · intro holds
    unfold MacPortMap.Holds at holds
    generalize bucket : map.hashTable key = first at holds ⊢
    cases holds with
    | here => rfl
    | later read rest =>
      rw [flat _ _ read] at rest
      cases rest
  · intro bucket
    unfold MacPortMap.Holds
    rw [bucket]
    exact OnChain.here address

theorem Flat.mallocNode (flat : Flat map) (mac : Mac) (iface : IfaceInfo) (now : Int)
    (malloc : Address) : Flat (mallocNode mac iface now malloc map).2 := by
  unfold Switching.mallocNode
  cases map.hashTable (hash8 mac) with
  | some address => exact flat
  | none => exact flat.write malloc rfl

theorem insertNode_eq (flat : Flat map) (mac : Mac) (iface : IfaceInfo) (now : Int)
    (malloc : Address) :
    insertNode turns mac iface now malloc map =
      let (address, map) := mallocNode mac iface now malloc map
      (map.memory address).map fun node => map.write address (node.visit now) := by
  have made := flat.mallocNode mac iface now malloc
  unfold insertNode
  cases place : mallocNode mac iface now malloc map with
  | mk address after =>
    rw [place] at made
    cases read : after.memory address with
    | none => simp [read]
    | some node =>
      have last := made address node read
      simp [read, last, lastOf]

theorem freeRest_eq (flat : Flat map) {address : Address} {node : Node}
    (read : map.memory address = some node) : freeRest address turns map = some map := by
  have last := flat address node read
  cases turns with
  | zero => simp [freeRest, read, last]
  | succ turns => simp [freeRest, read, last]

theorem sweepBucket_eq (flat : Flat map) (n : Nat) (key : UInt8) :
    sweepBucket turns now (map, n) key =
      match map.hashTable key with
      | none => some (map, n)
      | some address => (map.memory address).map fun node =>
        if node.entry.visited - now > MAC_PORT_TIMEOUT then (map.free address, n + 1)
        else (map, n) := by
  unfold sweepBucket
  cases bucket : map.hashTable key with
  | none => rfl
  | some address =>
    cases read : map.memory address with
    | none => simp [read]
    | some node =>
      simp only [read, Option.bind_eq_bind, Option.bind_some, Option.map_some,
        freeRest_eq turns flat read]
      split <;> rfl

theorem Flat.sweepBucket (flat : Flat map) {n : Nat} {key : UInt8} {after : MacPortMap × Nat}
    (swept : sweepBucket turns now (map, n) key = some after) : Flat after.1 := by
  rw [sweepBucket_eq turns flat] at swept
  cases bucket : map.hashTable key with
  | none =>
    simp only [bucket] at swept
    cases swept
    exact flat
  | some address =>
    simp only [bucket] at swept
    cases Option.map_eq_some_iff.mp swept with
    | intro node found =>
      rw [← found.2]
      split
      · exact flat.free address
      · exact flat

theorem Flat.sweepKeys (keys : List UInt8) (flat : Flat map) {n : Nat} {after : MacPortMap × Nat}
    (swept : keys.foldlM (Switching.sweepBucket turns now) (map, n) = some after) :
    Flat after.1 := by
  induction keys generalizing map n with
  | nil =>
    cases swept
    exact flat
  | cons key rest ih =>
    rw [List.foldlM_cons] at swept
    cases first : Switching.sweepBucket turns now (map, n) key with
    | none =>
      rw [first] at swept
      cases swept
    | some middle =>
      rw [first] at swept
      exact ih (flat.sweepBucket turns first) swept

theorem Flat.call {next : MacPortMap} (flat : Flat map) (event : Event)
    (taken : call turns map event = some next) : Flat next := by
  cases event with
  | lookup mac searchDes now =>
    unfold Switching.call lookupNode at taken
    cases bucket : map.hashTable (hash8 mac) with
    | none =>
      simp only [bucket, Option.map_some, Option.some.injEq] at taken
      rw [← taken]
      exact flat
    | some address =>
      simp only [bucket] at taken
      cases read : map.memory address with
      | none => simp [read] at taken
      | some node =>
        have last := flat address node read
        simp only [read, Option.bind_eq_bind, Option.bind_some, Option.map_some,
          Option.some.injEq] at taken
        rw [← taken]
        apply flat.write address
        split
        · exact last
        · exact last
  | insert mac iface now malloc =>
    unfold Switching.call at taken
    cases fresh : map.memory malloc with
    | some node => simp [fresh] at taken
    | none =>
      have made := flat.mallocNode mac iface now malloc
      simp only [fresh, insertNode_eq turns flat] at taken
      cases Option.map_eq_some_iff.mp taken with
      | intro node written =>
        rw [← written.2]
        have last : node.next = none := made _ node written.1
        exact made.write _ last
  | sweep now =>
    cases Option.map_eq_some_iff.mp taken with
    | intro after swept =>
      rw [← swept.2]
      exact flat.sweepKeys turns keys swept.1

end Chains

/-! ## A sweep that is not early -/

section Sweep

variable {map after : MacPortMap} {now : Int} {n : Nat} (turns : Nat)

theorem mem_keys (key : UInt8) : key ∈ keys := by
  unfold keys HASH_8BITS
  rw [List.mem_map]
  exact ⟨key.toNat, List.mem_range.mpr key.toNat_lt, UInt8.ofNat_toNat⟩

/-- `visited - now` is not positive, so the sweep passes over every entry. -/
theorem sweepBucket_late (flat : Flat map) (late : NotEarlier now map) (n : Nat) (key : UInt8) :
    sweepBucket turns now (map, n) key =
      match map.hashTable key with
      | none => some (map, n)
      | some address => (map.memory address).map fun _ => (map, n) := by
  rw [sweepBucket_eq turns flat]
  cases bucket : map.hashTable key with
  | none => rfl
  | some address =>
    cases read : map.memory address with
    | none => simp [read]
    | some node =>
      have visited := late key address node ((flat.holds_iff key address).mpr bucket) read
      have young : ¬ node.entry.visited - now > MAC_PORT_TIMEOUT := by
        unfold MAC_PORT_TIMEOUT
        omega
      simp [read, young]

theorem sweepKeys_late (flat : Flat map) (late : NotEarlier now map) (keys : List UInt8) (n : Nat)
    (allocated : ∀ key ∈ keys, ∀ address, map.hashTable key = some address →
      map.memory address ≠ none) :
    keys.foldlM (sweepBucket turns now) (map, n) = some (map, n) := by
  induction keys with
  | nil => rfl
  | cons key rest ih =>
    have first : sweepBucket turns now (map, n) key = some (map, n) := by
      rw [sweepBucket_late turns flat late]
      cases bucket : map.hashTable key with
      | none => rfl
      | some address =>
        cases read : map.memory address with
        | none => exact absurd read (allocated key List.mem_cons_self address bucket)
        | some node => simp [read]
    rw [List.foldlM_cons, first, Option.bind_eq_bind, Option.bind_some]
    exact ih fun key member => allocated key (List.mem_cons_of_mem _ member)

theorem allocated_of_sweepKeys (flat : Flat map) (late : NotEarlier now map) (keys : List UInt8)
    {n : Nat} {result : MacPortMap × Nat}
    (swept : keys.foldlM (sweepBucket turns now) (map, n) = some result) :
    ∀ key ∈ keys, ∀ address, map.hashTable key = some address → map.memory address ≠ none := by
  induction keys with
  | nil =>
    intro key member
    cases member
  | cons key rest ih =>
    rw [List.foldlM_cons, sweepBucket_late turns flat late] at swept
    intro other member address bucket free
    cases List.mem_cons.mp member with
    | inl same =>
      rw [← same] at swept
      simp [bucket, free] at swept
    | inr later =>
      cases here : map.hashTable key with
      | none =>
        simp only [here, Option.bind_eq_bind, Option.bind_some] at swept
        exact ih swept other later address bucket free
      | some first =>
        cases read : map.memory first with
        | none => simp [here, read] at swept
        | some node =>
          simp only [here, read, Option.map_some, Option.bind_eq_bind, Option.bind_some] at swept
          exact ih swept other later address bucket free

theorem sweep_late (flat : Flat map) (late : NotEarlier now map)
    (allocated : ∀ key address, map.Holds key address → map.memory address ≠ none) :
    sweepAgedMacPortEntry turns now map = some (map, 0) := by
  apply sweepKeys_late turns flat late
  intro key _ address bucket
  exact allocated key address ((flat.holds_iff key address).mpr bucket)

theorem sweep_late_returned (flat : Flat map) (late : NotEarlier now map)
    (returned : sweepAgedMacPortEntry turns now map = some (after, n)) :
    after = map ∧ n = 0 ∧ ∀ key address, map.Holds key address → map.memory address ≠ none := by
  have allocated : ∀ key address, map.Holds key address → map.memory address ≠ none := by
    intro key address holds
    exact allocated_of_sweepKeys turns flat late keys returned key (mem_keys key) address
      ((flat.holds_iff key address).mp holds)
  rw [sweep_late turns flat late allocated] at returned
  cases returned
  exact ⟨rfl, rfl, allocated⟩

theorem sweeps_iff (flat : Flat map) (late : NotEarlier now map) :
    Sweeps turns now map ↔ NoneAged now map := by
  constructor
  · intro sweeps key address holds
    obtain ⟨after, n, exactly⟩ := sweeps
    have unchanged := sweep_late_returned turns flat late exactly.returned
    cases read : map.memory address with
    | none => exact absurd read (unchanged.2.2 key address holds)
    | some node =>
      refine ⟨node, rfl, ?_⟩
      intro aged
      have removed := (exactly.removed address ⟨key, node, holds, read, aged⟩).1
      rw [unchanged.1, read] at removed
      cases removed
  · intro noneAged
    have empty : map.aged now = ∅ := by
      apply Set.eq_empty_of_forall_notMem
      intro address member
      obtain ⟨key, node, holds, read, aged⟩ := member
      obtain ⟨other, again, young⟩ := noneAged key address holds
      rw [read] at again
      cases again
      exact young aged
    have allocated : ∀ key address, map.Holds key address → map.memory address ≠ none := by
      intro key address holds
      obtain ⟨node, read, young⟩ := noneAged key address holds
      rw [read]
      exact Option.some_ne_none node
    refine ⟨map, 0, sweep_late turns flat late allocated, ?_, ?_, ?_, allocated, ?_⟩
    · rw [empty, Set.ncard_empty]
    · intro address member
      rw [empty] at member
      exact absurd member (Set.notMem_empty address)
    · intro key address node holds read _
      exact ⟨holds, node, read, rfl⟩
    · intro address member
      rw [empty] at member
      exact absurd member (Set.notMem_empty address)

end Sweep

/-- A property of the sweeps of a run that are not early. -/
def AtSweeps (property : Int → MacPortMap → Prop) (map : MacPortMap) (event : Event) : Prop :=
  ∀ now, event = .sweep now → NotEarlier now map → property now map

/-- In every run of the table its sweeps remove exactly the aged entries as long as there are
none of them, and no longer. -/
theorem ageing_iff (turns : Nat) (events : List Event) :
    Guarded (call turns) (AtSweeps (Sweeps turns)) initMacHashTable events ↔
      Guarded (call turns) (AtSweeps NoneAged) initMacHashTable events := by
  have preserved : ∀ map event next, Flat map → call turns map event = some next → Flat next :=
    fun map event next flat taken => flat.call turns event taken
  apply guarded_congr (call turns) preserved
  · intro map event flat
    unfold AtSweeps
    constructor
    · intro sweeps now isSweep late
      exact (sweeps_iff turns flat late).mp (sweeps now isSweep late)
    · intro noneAged now isSweep late
      exact (sweeps_iff turns flat late).mpr (noneAged now isSweep late)
  · exact flat_initMacHashTable

def oneEntry : MacPortMap :=
  { hashTable := Function.update (fun _ => none) (hash8 (macOf 1 0)) (some 7),
    memory := Function.update (fun _ => none) 7
      (some { entry := { mac := macOf 1 0, iface := ⟨3, "s1-eth0"⟩, visited := 0 },
              next := none }) }

theorem call_oneEntry (turns : Nat) :
    call turns initMacHashTable (.insert (macOf 1 0) ⟨3, "s1-eth0"⟩ 0 7) = some oneEntry := by
  have inserted := insertNode_eq turns flat_initMacHashTable (macOf 1 0) ⟨3, "s1-eth0"⟩ 0 7
  simp only [call, initMacHashTable] at inserted ⊢
  rw [inserted]
  simp [mallocNode, MacPortMap.write, Node.visit, oneEntry]

/-- An entry that was visited 31 seconds ago stays. -/
theorem old_entry_stays :
    ¬ ∀ (turns : Nat) (events : List Event),
      Guarded (call turns) (AtSweeps (Sweeps turns)) initMacHashTable events := by
  intro swept
  have guarded := swept 0 [.insert (macOf 1 0) ⟨3, "s1-eth0"⟩ 0 7, .sweep 31]
  have sweeps := (guarded.2 oneEntry (call_oneEntry 0)).1 31 rfl
  have flat := flat_initMacHashTable.call 0 _ (call_oneEntry 0)
  have bucket : oneEntry.hashTable (hash8 (macOf 1 0)) = some 7 := by simp [oneEntry]
  have read : oneEntry.memory 7 =
      some { entry := { mac := macOf 1 0, iface := ⟨3, "s1-eth0"⟩, visited := 0 }, next := none } := by
    simp [oneEntry]
  have late : NotEarlier 31 oneEntry := by
    intro key address node _ allocated
    by_cases here : address = 7
    · rw [here, read] at allocated
      cases allocated
      decide
    · simp [oneEntry, here] at allocated
  have noneAged := (sweeps_iff 0 flat late).mp (sweeps late)
  cases noneAged _ 7 ((flat.holds_iff _ _).mpr bucket) with
  | intro node young =>
    have again := young.1
    rw [read] at again
    cases again
    exact young.2 (by decide : (31 : Int) - 0 > MAC_PORT_TIMEOUT)

/-! ## A sweep with the clock set back -/

section EarlySweep

variable {map : MacPortMap} {now : Int} (turns : Nat)

theorem sweepBucket_cases (flat : Flat map) {n : Nat} {key : UInt8} {after : MacPortMap × Nat}
    (swept : sweepBucket turns now (map, n) key = some after) :
    after.1 = map ∨ ∃ address, after.1 = map.free address := by
  rw [sweepBucket_eq turns flat] at swept
  cases bucket : map.hashTable key with
  | none =>
    simp only [bucket, Option.some.injEq] at swept
    exact Or.inl (congrArg Prod.fst swept).symm
  | some address =>
    simp only [bucket] at swept
    cases Option.map_eq_some_iff.mp swept with
    | intro node found =>
      rw [← found.2]
      split
      · exact Or.inr ⟨address, rfl⟩
      · exact Or.inl rfl

theorem sweepBucket_early (flat : Flat map) {n : Nat} {key : UInt8} {address : Address}
    {node : Node} (bucket : map.hashTable key = some address)
    (read : map.memory address = some node)
    (early : node.entry.visited - now > MAC_PORT_TIMEOUT) :
    sweepBucket turns now (map, n) key = some (map.free address, n + 1) := by
  rw [sweepBucket_eq turns flat]
  simp only [bucket, read, Option.map_some, if_pos early]

theorem sweepKeys_frees (flat : Flat map) (keys : List UInt8) {n : Nat}
    {after : MacPortMap × Nat}
    (swept : keys.foldlM (sweepBucket turns now) (map, n) = some after) :
    after.1.hashTable = map.hashTable ∧
      ∀ address, map.memory address = none → after.1.memory address = none := by
  induction keys generalizing map n with
  | nil =>
    cases swept
    exact ⟨rfl, fun _ free => free⟩
  | cons key rest ih =>
    rw [List.foldlM_cons] at swept
    cases Option.bind_eq_some_iff.mp swept with
    | intro middle steps =>
      have later := ih (flat.sweepBucket turns steps.1) steps.2
      cases sweepBucket_cases turns flat steps.1 with
      | inl same =>
        rw [same] at later
        exact later
      | inr freed =>
        cases freed with
        | intro first equal =>
          rw [equal] at later
          refine ⟨later.1, ?_⟩
          intro address free
          apply later.2
          rw [MacPortMap.free_memory]
          by_cases same : address = first
          · rw [same, Function.update_self]
          · rw [Function.update_of_ne same]
            exact free

/-- The sweep frees an entry whose visit lies more than 30 seconds in the future. -/
theorem sweepKeys_early (flat : Flat map) (keys : List UInt8) {n : Nat}
    {after : MacPortMap × Nat}
    (swept : keys.foldlM (sweepBucket turns now) (map, n) = some after)
    {key : UInt8} {address : Address} {node : Node} (member : key ∈ keys)
    (bucket : map.hashTable key = some address) (read : map.memory address = some node)
    (early : node.entry.visited - now > MAC_PORT_TIMEOUT) : after.1.memory address = none := by
  induction keys generalizing map n with
  | nil => cases member
  | cons first rest ih =>
    rw [List.foldlM_cons] at swept
    cases Option.bind_eq_some_iff.mp swept with
    | intro middle steps =>
      have still := flat.sweepBucket turns steps.1
      have later := sweepKeys_frees turns still rest steps.2
      cases List.mem_cons.mp member with
      | inl here =>
        rw [← here, sweepBucket_early turns flat bucket read early] at steps
        apply later.2
        rw [← Option.some.inj steps.1, MacPortMap.free_memory, Function.update_self]
      | inr inRest =>
        cases sweepBucket_cases turns flat steps.1 with
        | inl same =>
          apply ih still steps.2 inRest
          · rw [same]
            exact bucket
          · rw [same]
            exact read
        | inr freed =>
          cases freed with
          | intro other equal =>
            by_cases twice : address = other
            · apply later.2
              rw [equal, MacPortMap.free_memory, twice, Function.update_self]
            · apply ih still steps.2 inRest
              · rw [equal]
                exact bucket
              · rw [equal, MacPortMap.free_memory, Function.update_of_ne twice]
                exact read

/-- Such an entry is freed under its bucket: the next lookup of the address reads freed
memory. -/
theorem early_sweep_dangles (flat : Flat map) {after : MacPortMap} {n : Nat}
    (returned : sweepAgedMacPortEntry turns now map = some (after, n)) {mac : Mac}
    {address : Address} {node : Node} (bucket : map.hashTable (hash8 mac) = some address)
    (read : map.memory address = some node)
    (early : node.entry.visited - now > MAC_PORT_TIMEOUT) (searchDes : Bool) (time : Int) :
    lookupNode mac searchDes time after = none := by
  have freed := sweepKeys_early turns flat keys returned (mem_keys _) bucket read early
  have buckets := (sweepKeys_frees turns flat keys returned).1
  have pointer : after.hashTable (hash8 mac) = some address := (congrFun buckets _).trans bucket
  have gone : after.memory address = none := freed
  simp [lookupNode, pointer, gone]

end EarlySweep

/-! ## The lists of the learning switch -/

/-- The nodes hold the entries of the lists, and each bucket has its own. -/
structure Represents (map : MacPortMap) (table : HashTable) : Prop where
  flat : Flat map
  allocated : ∀ key address, map.hashTable key = some address → map.memory address ≠ none
  apart : ∀ key other address, map.hashTable key = some address →
    map.hashTable other = some address → key = other
  entries : ∀ key, table key = (((map.hashTable key).bind map.memory).map Node.entry).toList

def tableCall (table : HashTable) : Event → HashTable
  | .lookup mac searchDes now => (lookupPort mac searchDes now table).2
  | .insert mac iface now _ => insertMacPort mac iface now table
  | .sweep _ => table

section Lists

variable {map : MacPortMap} {table : HashTable}

theorem represents_init : Represents initMacHashTable fun _ => [] := by
  refine ⟨flat_initMacHashTable, ?_, ?_, fun _ => rfl⟩
  · intro key address bucket
    cases bucket
  · intro key other address bucket
    cases bucket

theorem Represents.write (represents : Represents map table) {key : UInt8} {address : Address}
    (bucket : map.hashTable key = some address) {node : Node} (last : node.next = none) :
    Represents (map.write address node) (Function.update table key [node.entry]) := by
  refine ⟨represents.flat.write address last, ?_, represents.apart, ?_⟩
  · intro other place there
    rw [MacPortMap.write_memory]
    by_cases same : place = address
    · rw [same, Function.update_self]
      exact Option.some_ne_none node
    · rw [Function.update_of_ne same]
      exact represents.allocated other place there
  · intro other
    by_cases same : other = key
    · rw [same, Function.update_self, MacPortMap.write_hashTable, bucket, Option.bind_some,
        MacPortMap.write_memory, Function.update_self]
      rfl
    · rw [Function.update_of_ne same, represents.entries other, MacPortMap.write_hashTable]
      cases there : map.hashTable other with
      | none => rfl
      | some place =>
        have different : place ≠ address := by
          intro equal
          rw [equal] at there
          exact same (represents.apart other key address there bucket)
        rw [Option.bind_some, Option.bind_some, MacPortMap.write_memory,
          Function.update_of_ne different]

theorem Represents.malloc (represents : Represents map table) (key : UInt8) {malloc : Address}
    (fresh : map.memory malloc = none) {node : Node} (last : node.next = none) :
    Represents { hashTable := Function.update map.hashTable key (some malloc),
                 memory := Function.update map.memory malloc (some node) }
      (Function.update table key [node.entry]) := by
  have elsewhere : ∀ other address, map.hashTable other = some address → address ≠ malloc := by
    intro other address there equal
    rw [equal] at there
    exact represents.allocated other malloc there fresh
  refine ⟨represents.flat.write malloc last, ?_, ?_, ?_⟩
  · intro other address there
    change Function.update map.memory malloc (some node) address ≠ none
    by_cases same : address = malloc
    · rw [same, Function.update_self]
      exact Option.some_ne_none node
    · rw [Function.update_of_ne same]
      by_cases here : other = key
      · simp only [here, Function.update_self, Option.some.injEq] at there
        exact absurd there.symm same
      · simp only [Function.update_of_ne here] at there
        exact represents.allocated other address there
  · intro first second address one two
    by_cases here : first = key
    · by_cases too : second = key
      · rw [here, too]
      · simp only [here, Function.update_self, Option.some.injEq] at one
        simp only [Function.update_of_ne too] at two
        exact absurd one.symm (elsewhere second address two)
    · simp only [Function.update_of_ne here] at one
      by_cases too : second = key
      · simp only [too, Function.update_self, Option.some.injEq] at two
        exact absurd two.symm (elsewhere first address one)
      · simp only [Function.update_of_ne too] at two
        exact represents.apart first second address one two
  · intro other
    by_cases same : other = key
    · simp [same]
    · rw [Function.update_of_ne same, represents.entries other]
      simp only [Function.update_of_ne same]
      cases there : map.hashTable other with
      | none => rfl
      | some address =>
        rw [Option.bind_some, Option.bind_some,
          Function.update_of_ne (elsewhere other address there)]

theorem Represents.bucket (represents : Represents map table) {key : UInt8} {address : Address}
    (bucket : map.hashTable key = some address) :
    ∃ node, map.memory address = some node ∧ table key = [node.entry] := by
  cases read : map.memory address with
  | none => exact absurd read (represents.allocated key address bucket)
  | some node =>
    refine ⟨node, rfl, ?_⟩
    rw [represents.entries key, bucket, Option.bind_some, read]
    rfl

theorem Represents.empty (represents : Represents map table) {key : UInt8}
    (bucket : map.hashTable key = none) : table key = [] := by
  rw [represents.entries key, bucket]
  rfl

theorem Represents.lookup (represents : Represents map table) (mac : Mac) (searchDes : Bool)
    (now : Int) :
    ∃ after, lookupNode mac searchDes now map =
        some ((lookupPort mac searchDes now table).1, after) ∧
      Represents after (lookupPort mac searchDes now table).2 := by
  unfold lookupNode lookupPort
  cases bucket : map.hashTable (hash8 mac) with
  | none =>
    rw [represents.empty bucket]
    exact ⟨map, rfl, represents⟩
  | some address =>
    cases represents.bucket bucket with
    | intro node found =>
      have last := represents.flat address node found.1
      rw [found.2]
      refine ⟨map.write address (if searchDes then node.visit now else node), ?_, ?_⟩
      · simp only [found.1, Option.bind_eq_bind, Option.bind_some]
        cases searchDes with
        | false => rfl
        | true => rfl
      · cases searchDes with
        | false => exact represents.write bucket last
        | true =>
          have visited : (node.visit now).next = none := last
          exact represents.write bucket visited

theorem Represents.insert (represents : Represents map table) (turns : Nat) (mac : Mac)
    (iface : IfaceInfo) (now : Int) {malloc : Address} (fresh : map.memory malloc = none) :
    ∃ after, insertNode turns mac iface now malloc map = some after ∧
      Represents after (insertMacPort mac iface now table) := by
  rw [insertNode_eq turns represents.flat]
  unfold insertMacPort mallocNode
  cases bucket : map.hashTable (hash8 mac) with
  | none =>
    have last : ({ entry := { mac := mac, iface := iface, visited := now }, next := none } :
      Node).next = none := rfl
    have made := represents.malloc (hash8 mac) fresh last
    rw [represents.empty bucket]
    refine ⟨_, ?_, made⟩
    simp [MacPortMap.write, Node.visit]
  | some address =>
    cases represents.bucket bucket with
    | intro node found =>
      have last := represents.flat address node found.1
      rw [found.2]
      refine ⟨map.write address (node.visit now), ?_, ?_⟩
      · simp only [found.1, Option.map_some]
      · have visited : (node.visit now).next = none := last
        exact represents.write bucket visited

/-- A call that is possible on the nodes does to them what it does to the lists. -/
theorem Represents.call (represents : Represents map table) (turns : Nat) (event : Event)
    (late : ∀ now, event = .sweep now → NotEarlier now map) {next : MacPortMap}
    (taken : Switching.call turns map event = some next) :
    Represents next (tableCall table event) := by
  cases event with
  | lookup mac searchDes now =>
    cases represents.lookup mac searchDes now with
    | intro after looked =>
      change Option.map Prod.snd (lookupNode mac searchDes now map) = some next at taken
      rw [looked.1] at taken
      cases taken
      exact looked.2
  | insert mac iface now malloc =>
    unfold Switching.call at taken
    cases fresh : map.memory malloc with
    | some node => simp [fresh] at taken
    | none =>
      cases represents.insert turns mac iface now fresh with
      | intro after inserted =>
        simp only [fresh, inserted.1, Option.some.injEq] at taken
        rw [← taken]
        exact inserted.2
  | sweep now =>
    have unchanged : sweepAgedMacPortEntry turns now map = some (map, 0) := by
      apply sweep_late turns represents.flat (late now rfl)
      intro key address holds
      exact represents.allocated key address ((represents.flat.holds_iff key address).mp holds)
    change Option.map Prod.fst (sweepAgedMacPortEntry turns now map) = some next at taken
    rw [unchanged] at taken
    cases taken
    exact represents

/-- Through every run whose sweeps are not early the nodes hold the lists of the switch as they
are between two rounds of ageing. -/
theorem represents_run (turns : Nat) (events : List Event) (represents : Represents map table)
    (late : Guarded (call turns) (fun map event => ∀ now, event = .sweep now → NotEarlier now map)
      map events) {final : MacPortMap} (taken : run (call turns) map events = some final) :
    Represents final (events.foldl tableCall table) := by
  induction events generalizing map table with
  | nil =>
    cases taken
    exact represents
  | cons event rest ih =>
    cases run_cons_some (call turns) taken with
    | intro next steps =>
      exact ih (represents.call turns event late.1 steps.1) (late.2 next steps.1) steps.2

end Lists

end NetworkLab.Switching
