import NetworkLab.Lib.FirstMax
import NetworkLab.Lib.PrefixMask
import NetworkLab.Lib.Run
import NetworkLab.Mospf.Packets

/-!
# The routing table

`rtable.c` under additions and removals, and the match that is found in the table: of the longest
ones that which was added first.
-/
set_option autoImplicit false

namespace NetworkLab.Mospf

open Lib Lib.Run

/-- `serial` stands for the address of the entry: it counts the additions before it. -/
structure TableEntry where
  serial : Nat
  entry : RtEntry

structure RoutingTable where
  rtable : List TableEntry
  added : Nat

inductive TableCall where
  | addRtEntry (entry : RtEntry)
  | removeRtEntry (serial : Nat)

/-- A removal is of an entry in the table. -/
def RoutingTable.next (table : RoutingTable) : TableCall → Option RoutingTable
  | .addRtEntry entry =>
    some
      { rtable := table.rtable ++ [{ serial := table.added, entry := entry }],
        added := table.added + 1 }
  | .removeRtEntry serial =>
    if table.rtable.any fun pos => pos.serial = serial then
      some { table with rtable := table.rtable.eraseP fun pos => pos.serial = serial }
    else none

def emptyTable : RoutingTable := { rtable := [], added := 0 }

def TableEntry.Matches (dst : UInt32) (pos : TableEntry) : Prop :=
  dst &&& pos.entry.mask = pos.entry.dest &&& pos.entry.mask

instance (dst : UInt32) (pos : TableEntry) : Decidable (pos.Matches dst) :=
  inferInstanceAs (Decidable (_ = _))

/-- The round of `longest_prefix_match` on the entries of the table. -/
def selectEntry (dst : UInt32) (selected : Option TableEntry) (pos : TableEntry) :
    Option TableEntry :=
  if pos.Matches dst then
    match selected with
    | none => some pos
    | some best => if best.entry.mask < pos.entry.mask then some pos else selected
  else selected

def RoutingTable.longestPrefixMatch (table : RoutingTable) (dst : UInt32) : Option TableEntry :=
  table.rtable.foldl (selectEntry dst) none

theorem longestPrefixMatch_entries (table : RoutingTable) (dst : UInt32) :
    (table.longestPrefixMatch dst).map TableEntry.entry =
      longestPrefixMatch (table.rtable.map TableEntry.entry) dst := by
  suffices folded : ∀ selected, (table.rtable.foldl (selectEntry dst) selected).map
      TableEntry.entry = (table.rtable.map TableEntry.entry).foldl (betterRoute dst)
        (selected.map TableEntry.entry) from folded none
  induction table.rtable with
  | nil => exact fun selected => rfl
  | cons pos rest ih =>
      intro selected
      rw [List.foldl_cons, ih, List.map_cons, List.foldl_cons]
      congr 1
      by_cases passes : dst &&& pos.entry.mask = pos.entry.dest &&& pos.entry.mask
      · cases selected with
        | none => simp [selectEntry, betterRoute, TableEntry.Matches, passes]
        | some best =>
            by_cases greater : best.entry.mask < pos.entry.mask <;>
              simp [selectEntry, betterRoute, TableEntry.Matches, passes, greater]
      · simp [selectEntry, betterRoute, TableEntry.Matches, passes]

section Table

variable {table : RoutingTable} {dst : UInt32}

def TableEntry.rank (pos : TableEntry) : Nat := pos.entry.mask.toNat

theorem selectEntry_eq (selected : Option TableEntry) (pos : TableEntry) :
    selectEntry dst selected pos =
      if pos.Matches dst then keepGreater TableEntry.rank selected pos else selected := by
  cases selected with
  | none => rfl
  | some best =>
      have same : best.rank < pos.rank ↔ best.entry.mask < pos.entry.mask :=
        UInt32.lt_iff_toNat_lt.symm
      simp [selectEntry, keepGreater, same]

theorem longestPrefixMatch_eq (table : RoutingTable) (dst : UInt32) :
    table.longestPrefixMatch dst =
      firstMax TableEntry.rank (table.rtable.filter fun pos => pos.Matches dst) := by
  rw [firstMax, List.foldl_filter, RoutingTable.longestPrefixMatch]
  simp only [decide_eq_true_eq]
  exact congrArg (fun step => table.rtable.foldl step none)
    (funext fun selected => funext fun pos => selectEntry_eq selected pos)

/-- The entries stand in the order of their additions, and their masks are prefixes. -/
structure Ordered (table : RoutingTable) : Prop where
  ascending : table.rtable.Pairwise fun first second => first.serial < second.serial
  bounded : ∀ pos ∈ table.rtable, pos.serial < table.added
  prefixes : ∀ pos ∈ table.rtable, IsPrefixMask pos.entry.mask

def AddsPrefix : TableCall → Prop
  | .addRtEntry entry => IsPrefixMask entry.mask
  | .removeRtEntry _ => True

theorem ordered_empty : Ordered emptyTable := ⟨List.Pairwise.nil, nofun, nofun⟩

theorem Ordered.next (ordered : Ordered table) {call : TableCall} (adds : AddsPrefix call)
    {after : RoutingTable} (taken : table.next call = some after) : Ordered after := by
  cases call with
  | addRtEntry entry =>
      cases taken
      constructor
      · rw [List.pairwise_append]
        refine ⟨ordered.ascending, List.pairwise_singleton .., fun pos member new isNew => ?_⟩
        rw [List.mem_singleton.mp isNew]
        exact ordered.bounded pos member
      · have later (pos : TableEntry) (old : pos ∈ table.rtable) : pos.serial < table.added + 1 :=
          Nat.lt_succ_of_lt (ordered.bounded pos old)
        exact List.forall_mem_append.mpr ⟨later, List.forall_mem_singleton.mpr (Nat.lt_succ_self _)⟩
      · exact List.forall_mem_append.mpr ⟨ordered.prefixes, List.forall_mem_singleton.mpr adds⟩
  | removeRtEntry serial =>
      rw [RoutingTable.next] at taken
      split_ifs at taken
      cases taken
      have left : List.Sublist (table.rtable.eraseP fun pos => pos.serial = serial)
          table.rtable := List.eraseP_sublist
      constructor
      · exact ordered.ascending.sublist left
      · exact fun pos member => ordered.bounded pos (left.subset member)
      · exact fun pos member => ordered.prefixes pos (left.subset member)

theorem ordered_run {calls : List TableCall} (adds : ∀ call ∈ calls, AddsPrefix call)
    (built : run RoutingTable.next emptyTable calls = some table) : Ordered table :=
  @invariant_guarded_run _ _ RoutingTable.next (fun _ call => AddsPrefix call) Ordered
    (fun _ _ _ ordered adds taken => ordered.next adds taken) emptyTable table calls ordered_empty
    (guarded_of_forall RoutingTable.next calls adds) built

end Table

/-- The search in a table after any calls: nothing only if nothing matches, or else the entry
that was added first among the longest matches. -/
theorem first_added_longest_match {calls : List TableCall} {table : RoutingTable}
    (adds : ∀ call ∈ calls, AddsPrefix call)
    (built : run RoutingTable.next emptyTable calls = some table) (dst : UInt32) :
    (table.longestPrefixMatch dst = none ↔ ∀ pos ∈ table.rtable, ¬ pos.Matches dst) ∧
    ∀ pos, table.longestPrefixMatch dst = some pos → pos ∈ table.rtable ∧ pos.Matches dst ∧
      ∀ other ∈ table.rtable, other.Matches dst →
        maskLength other.entry.mask ≤ maskLength pos.entry.mask ∧
          (maskLength other.entry.mask = maskLength pos.entry.mask → pos.serial ≤ other.serial) := by
  have ordered := ordered_run adds built
  rw [longestPrefixMatch_eq]
  constructor
  · simp [firstMax_eq_none, List.filter_eq_nil_iff]
  · intro pos found
    have greatest := isFirstMax_of_firstMax found
    obtain ⟨member, passes⟩ := List.mem_filter.mp greatest.mem
    refine ⟨member, by simpa using passes, fun other memberOther passesOther => ?_⟩
    have candidate : other ∈ table.rtable.filter fun pos => pos.Matches dst :=
      List.mem_filter.mpr ⟨memberOther, by simpa using passesOther⟩
    have isPrefix := ordered.prefixes pos member
    have isPrefixOther := ordered.prefixes other memberOther
    constructor
    · rw [← isPrefixOther.le_iff isPrefix]
      exact UInt32.le_iff_toNat_le.mpr (greatest.le candidate)
    · intro sameLength
      have sameRank : other.rank = pos.rank :=
        congrArg UInt32.toNat (isPrefixOther.eq_of_length isPrefix sameLength)
      have ascending := ordered.ascending.sublist
        (List.filter_sublist (p := fun pos => pos.Matches dst))
      cases greatest.first ascending candidate sameRank with
      | inl same => rw [same]
      | inr later => exact later.le

def defaultEntry : RtEntry :=
  { dest := 0, mask := prefixMask 0, gw := 0x0A000101, ifName := "r-eth0", iface := 0 }

def localEntry (iface : Nat) : RtEntry :=
  { dest := 0x0A000100, mask := prefixMask 24, gw := 0, ifName := "r-eth1", iface := iface }

def replaced : List TableCall :=
  [.addRtEntry (localEntry 1), .addRtEntry defaultEntry, .addRtEntry (localEntry 2),
    .removeRtEntry 0, .addRtEntry (localEntry 1)]

theorem adds_replaced : ∀ call ∈ replaced, AddsPrefix call := by
  have zero : IsPrefixMask (prefixMask 0) := ⟨0, by decide, rfl⟩
  have long : IsPrefixMask (prefixMask 24) := ⟨24, by decide, rfl⟩
  simp [replaced, AddsPrefix, localEntry, defaultEntry, zero, long]

def replacedTable : RoutingTable :=
  { rtable := [{ serial := 1, entry := defaultEntry }, { serial := 2, entry := localEntry 2 },
      { serial := 3, entry := localEntry 1 }],
    added  := 4 }

theorem older_route_found :
    replacedTable.longestPrefixMatch 0x0A000163 ≠ none ∧
      replacedTable.longestPrefixMatch 0x0A000163 ≠ some { serial := 3, entry := localEntry 1 } := by
  have built : run RoutingTable.next emptyTable replaced = some replacedTable := rfl
  have matched : TableEntry.Matches 0x0A000163 { serial := 2, entry := localEntry 2 } := by decide
  have found := first_added_longest_match adds_replaced built 0x0A000163
  constructor
  · intro nothing
    exact found.1.mp nothing { serial := 2, entry := localEntry 2 } (by simp [replacedTable]) matched
  · intro newer
    have older := (found.2 _ newer).2.2 { serial := 2, entry := localEntry 2 }
      (by simp [replacedTable]) matched
    exact absurd (older.2 rfl) (by decide)

end NetworkLab.Mospf
