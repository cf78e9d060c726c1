import Mathlib.Data.List.Nodup
import Mathlib.Tactic.Linarith
import NetworkLab.Lib.Run
import NetworkLab.Mospf.Daemon

/-!
# Freshness of the link-state database

What the database holds after any sequence of LSUs from other routers.  An entry
keeps the `seq` and `nadv` of the first LSU received from its originator, since the
update branch of `handle_mospf_lsu` writes neither.
-/
set_option autoImplicit false

namespace NetworkLab.Mospf

open Lib.Run

structure Arrival where
  index : Nat
  lsu : MospfLsu
  now : Int

def step (router : Router) (arrival : Arrival) : Option Router :=
  (handleMospfLsu router arrival.index arrival.lsu arrival.now).map Prod.fst

def started (routerId : UInt32) (ifaceList : List IfaceInfo) : Router :=
  { routerId := routerId, ifaceList := ifaceList, mospfDb := [], mospfLock := false }

/-- One entry for each originator seen, with its largest sequence number and the
LSAs of an LSU that carried it. -/
structure Fresh (received : List MospfLsu) (db : List MospfDbEntry) : Prop where
  distinct : (db.map MospfDbEntry.rid).Nodup
  seen : ∀ rid, (∃ entry ∈ db, entry.rid = rid) ↔ ∃ lsu ∈ received, lsu.rid = rid
  largest : ∀ entry ∈ db, ∀ lsu ∈ received, lsu.rid = entry.rid → lsu.seq ≤ entry.seq
  carried : ∀ entry ∈ db, ∃ lsu ∈ received, lsu.rid = entry.rid ∧ lsu.seq = entry.seq ∧
    entry.nadv = lsu.nadvInt ∧ entry.array = lsu.lsas
  counted : ∀ entry ∈ db, entry.nadv = entry.array.length

def firstFrom (received : List MospfLsu) (rid : UInt32) : Option MospfLsu :=
  received.find? fun lsu => lsu.rid == rid

/-- No originator is heard with a larger sequence number than the first time. -/
def FirstIsNewest (received : List MospfLsu) : Prop :=
  ∀ lsu ∈ received, ∀ first ∈ firstFrom received lsu.rid, lsu.seq ≤ first.seq

instance (received : List MospfLsu) : Decidable (FirstIsNewest received) :=
  inferInstanceAs (Decidable
    (∀ lsu ∈ received, ∀ first ∈ firstFrom received lsu.rid, lsu.seq ≤ first.seq))

theorem firstFrom_mem {received : List MospfLsu} {rid : UInt32} {first : MospfLsu}
    (found : firstFrom received rid = some first) : first ∈ received ∧ first.rid = rid :=
  ⟨List.mem_of_find?_eq_some found, by simpa using List.find?_some found⟩

theorem firstFrom_append {received : List MospfLsu} {rid : UInt32} {first : MospfLsu}
    (found : firstFrom received rid = some first) (later : List MospfLsu) :
    firstFrom (received ++ later) rid = some first := by
  have found' : received.find? (fun lsu => lsu.rid == rid) = some first := found
  simp [firstFrom, List.find?_append, found']

theorem firstFrom_new {received : List MospfLsu} {lsu : MospfLsu}
    (unseen : ∀ old ∈ received, old.rid ≠ lsu.rid) :
    firstFrom (received ++ [lsu]) lsu.rid = some lsu := by
  have absent : received.find? (fun old => old.rid == lsu.rid) = none := by
    simpa using unseen
  simp [firstFrom, List.find?_append, absent]

/-- The invariant of every run: entries are made by the first LSU of their
originator, and their LSAs are those of that LSU until a newer one comes. -/
structure Recorded (received : List MospfLsu) (db : List MospfDbEntry) : Prop where
  distinct : (db.map MospfDbEntry.rid).Nodup
  seen : ∀ lsu ∈ received, ∃ entry ∈ db, entry.rid = lsu.rid
  first : ∀ entry ∈ db, ∃ first, firstFrom received entry.rid = some first ∧
    entry.seq = first.seq ∧ entry.nadv = first.nadvInt ∧
    ((∀ lsu ∈ received, lsu.rid = entry.rid → lsu.seq ≤ first.seq) → entry.array = first.lsas)

theorem recorded_empty : Recorded [] [] where
  distinct := List.nodup_nil
  seen := fun lsu member => by cases member
  first := fun entry member => by cases member

section GrownDb

variable {received : List MospfLsu} {db : List MospfDbEntry} {lsu : MospfLsu}

theorem recorded_refreshed (recorded : Recorded received db) (lsu : MospfLsu) (now : Int) :
    ∀ entry ∈ db.map (refreshed lsu now), ∃ first,
      firstFrom (received ++ [lsu]) entry.rid = some first ∧
      entry.seq = first.seq ∧ entry.nadv = first.nadvInt ∧
      ((∀ old ∈ received ++ [lsu], old.rid = entry.rid → old.seq ≤ first.seq) →
        entry.array = first.lsas) := by
  intro entry member
  obtain ⟨old, oldMember, rfl⟩ := List.mem_map.mp member
  obtain ⟨first, found, seqEq, nadvEq, arrayEq⟩ := recorded.first old oldMember
  refine ⟨first, ?_, ?_, ?_, ?_⟩
  · rw [refreshed_rid]
    exact firstFrom_append found [lsu]
  · rw [refreshed_seq, seqEq]
  · rw [refreshed_nadv, nadvEq]
  · intro newest
    simp only [refreshed_rid, List.mem_append, List.mem_singleton] at newest
    have notNewer : lsu.rid = old.rid → lsu.seq ≤ old.seq := by
      intro same
      rw [seqEq]
      exact newest lsu (Or.inr rfl) same
    rw [refreshed_array_of_not_newer now notNewer]
    exact arrayEq fun earlier earlierMember => newest earlier (Or.inl earlierMember)

theorem recorded_grownDb (recorded : Recorded received db) (now : Int) :
    Recorded (received ++ [lsu]) (grownDb lsu now db) := by
  have rids : (db.map (refreshed lsu now)).map MospfDbEntry.rid = db.map MospfDbEntry.rid := by
    simp
  have kept : ∀ entry ∈ db, ∃ next ∈ db.map (refreshed lsu now), next.rid = entry.rid :=
    fun entry member => ⟨_, List.mem_map_of_mem member, refreshed_rid lsu now entry⟩
  have entries := recorded_refreshed recorded lsu now
  unfold grownDb
  split_ifs with known
  · obtain ⟨entry, member, same⟩ := List.any_eq_true.mp known
    refine ⟨?_, ?_, entries⟩
    · rw [rids]
      exact recorded.distinct
    · intro heard heardMember
      rcases List.mem_append.mp heardMember with earlier | last
      · obtain ⟨old, oldMember, oldRid⟩ := recorded.seen heard earlier
        rw [← oldRid]
        exact kept old oldMember
      · obtain rfl : heard = lsu := List.mem_singleton.mp last
        rw [eq_of_beq same]
        exact kept entry member
  · have unknown : ∀ entry ∈ db, entry.rid ≠ lsu.rid := by
      intro entry member same
      exact known (List.any_eq_true.mpr ⟨entry, member, by simp [same]⟩)
    refine ⟨?_, ?_, ?_⟩
    · rw [List.map_append, rids]
      refine List.Nodup.append recorded.distinct (List.nodup_singleton _) ?_
      simpa using unknown
    · intro heard heardMember
      rcases List.mem_append.mp heardMember with earlier | last
      · obtain ⟨old, oldMember, oldRid⟩ := recorded.seen heard earlier
        obtain ⟨next, nextMember, nextRid⟩ := kept old oldMember
        exact ⟨next, List.mem_append_left _ nextMember, nextRid.trans oldRid⟩
      · obtain rfl : heard = lsu := List.mem_singleton.mp last
        exact ⟨_, List.mem_append_right _ (List.mem_singleton_self _), rfl⟩
    · intro entry member
      rcases List.mem_append.mp member with old | new
      · exact entries entry old
      · obtain rfl := List.mem_singleton.mp new
        have unseen : ∀ earlier ∈ received, earlier.rid ≠ lsu.rid := by
          intro earlier earlierMember
          obtain ⟨entry, entryMember, entryRid⟩ := recorded.seen earlier earlierMember
          rw [← entryRid]
          exact unknown entry entryMember
        exact ⟨lsu, firstFrom_new unseen, rfl, rfl, fun _ => rfl⟩

end GrownDb

section Runs

variable {router : Router} {received : List MospfLsu} {arrival : Arrival}

/-- A packet that the handler does not answer with its early return. -/
def Foreign (routerId : UInt32) (lsu : MospfLsu) : Prop := lsu.WellFormed ∧ lsu.rid ≠ routerId

instance (routerId : UInt32) (lsu : MospfLsu) : Decidable (Foreign routerId lsu) :=
  inferInstanceAs (Decidable (lsu.WellFormed ∧ lsu.rid ≠ routerId))

def Router.learn (router : Router) (arrival : Arrival) : Router :=
  { router with mospfDb := grownDb arrival.lsu arrival.now router.mospfDb }

theorem step_foreign (free : router.mospfLock = false)
    (foreign : Foreign router.routerId arrival.lsu) :
    step router arrival =
      if Printable (router.learn arrival).mospfDb then some (router.learn arrival) else none := by
  rw [step, handleMospfLsu_foreign free fun same => foreign.2 same.symm,
    updateDb_wellFormed foreign.1]
  unfold Router.learn
  split_ifs <;> rfl

theorem run_recorded (arrivals : List Arrival) {final : Router} (free : router.mospfLock = false)
    (recorded : Recorded received router.mospfDb)
    (foreign : ∀ arrival ∈ arrivals, Foreign router.routerId arrival.lsu)
    (success : run step router arrivals = some final) :
    Recorded (received ++ arrivals.map Arrival.lsu) final.mospfDb := by
  induction arrivals generalizing router received with
  | nil =>
      cases Option.some.inj success
      simpa using recorded
  | cons arrival rest ih =>
      obtain ⟨next, taken, later⟩ := run_cons_some step success
      rw [step_foreign free (foreign arrival List.mem_cons_self)] at taken
      split_ifs at taken with printable
      cases Option.some.inj taken
      have grown : Recorded (received ++ [arrival.lsu]) (router.learn arrival).mospfDb :=
        recorded_grownDb recorded arrival.now
      have freeNext : (router.learn arrival).mospfLock = false := free
      have afterwards := ih freeNext grown
        (fun other member => foreign other (List.mem_cons_of_mem _ member)) later
      simpa using afterwards

theorem fresh_of_recorded {db : List MospfDbEntry} (recorded : Recorded received db)
    (wellFormed : ∀ lsu ∈ received, lsu.WellFormed) (newest : FirstIsNewest received) :
    Fresh received db := by
  have first : ∀ entry ∈ db, ∃ first ∈ received, first.rid = entry.rid ∧
      first.seq = entry.seq ∧ entry.nadv = first.nadvInt ∧ entry.array = first.lsas ∧
      ∀ lsu ∈ received, lsu.rid = entry.rid → lsu.seq ≤ entry.seq := by
    intro entry member
    obtain ⟨first, found, seqEq, nadvEq, arrayEq⟩ := recorded.first entry member
    have largest : ∀ lsu ∈ received, lsu.rid = entry.rid → lsu.seq ≤ first.seq := by
      intro lsu heard same
      exact newest lsu heard first (same ▸ found)
    obtain ⟨heard, same⟩ := firstFrom_mem found
    exact ⟨first, heard, same, seqEq.symm, nadvEq, arrayEq largest, seqEq ▸ largest⟩
  refine ⟨recorded.distinct, ?_, ?_, ?_, ?_⟩
  · intro rid
    constructor
    · rintro ⟨entry, member, rfl⟩
      obtain ⟨lsu, heard, same, -⟩ := first entry member
      exact ⟨lsu, heard, same⟩
    · rintro ⟨lsu, heard, rfl⟩
      exact recorded.seen lsu heard
  · intro entry member
    obtain ⟨-, -, -, -, -, -, largest⟩ := first entry member
    exact largest
  · intro entry member
    obtain ⟨lsu, heard, same, seqEq, nadvEq, arrayEq, -⟩ := first entry member
    exact ⟨lsu, heard, same, seqEq, nadvEq, arrayEq⟩
  · intro entry member
    obtain ⟨lsu, heard, -, -, nadvEq, arrayEq, -⟩ := first entry member
    rw [nadvEq, arrayEq]
    exact wellFormed lsu heard

theorem firstIsNewest_of_fresh {db : List MospfDbEntry} (recorded : Recorded received db)
    (fresh : Fresh received db) : FirstIsNewest received := by
  intro lsu heard first found
  obtain ⟨entry, member, same⟩ := recorded.seen lsu heard
  obtain ⟨first', found', seqEq, -⟩ := recorded.first entry member
  rw [same] at found'
  obtain rfl : first' = first := Option.some.inj (found'.symm.trans found)
  rw [← seqEq]
  exact fresh.largest entry member lsu heard same.symm

theorem FirstIsNewest.of_append {later : List MospfLsu}
    (newest : FirstIsNewest (received ++ later)) : FirstIsNewest received := by
  intro lsu heard first found
  exact newest lsu (List.mem_append_left _ heard) first (firstFrom_append found later)

theorem Fresh.printable {db : List MospfDbEntry} (fresh : Fresh received db) : Printable db :=
  fun entry member => (fresh.counted entry member).le

theorem run_defined (arrivals : List Arrival) (free : router.mospfLock = false)
    (recorded : Recorded received router.mospfDb)
    (wellFormed : ∀ lsu ∈ received, lsu.WellFormed)
    (foreign : ∀ arrival ∈ arrivals, Foreign router.routerId arrival.lsu)
    (newest : FirstIsNewest (received ++ arrivals.map Arrival.lsu)) :
    ∃ final, run step router arrivals = some final := by
  induction arrivals generalizing router received with
  | nil => exact ⟨router, rfl⟩
  | cons arrival rest ih =>
      have here := foreign arrival List.mem_cons_self
      have heard : received ++ (arrival :: rest).map Arrival.lsu =
          received ++ [arrival.lsu] ++ rest.map Arrival.lsu := by simp
      rw [heard] at newest
      have grown : Recorded (received ++ [arrival.lsu]) (router.learn arrival).mospfDb :=
        recorded_grownDb recorded arrival.now
      have wellFormedNow : ∀ lsu ∈ received ++ [arrival.lsu], lsu.WellFormed := by
        intro lsu member
        rcases List.mem_append.mp member with earlier | last
        · exact wellFormed lsu earlier
        · rw [List.mem_singleton.mp last]
          exact here.1
      have printable := (fresh_of_recorded grown wellFormedNow newest.of_append).printable
      have freeNext : (router.learn arrival).mospfLock = false := free
      obtain ⟨final, success⟩ := ih freeNext grown
        wellFormedNow (fun other member => foreign other (List.mem_cons_of_mem _ member)) newest
      refine ⟨final, ?_⟩
      rw [run_cons, step_foreign free here, if_pos printable]
      exact success

end Runs

/-- After any sequence of well-formed LSUs of other routers the database is fresh
exactly when no originator was heard with a larger sequence number than the first
time. -/
theorem link_state_freshness (routerId : UInt32) (ifaceList : List IfaceInfo)
    (arrivals : List Arrival) (foreign : ∀ arrival ∈ arrivals, Foreign routerId arrival.lsu) :
    (∃ router, run step (started routerId ifaceList) arrivals = some router ∧
      Fresh (arrivals.map Arrival.lsu) router.mospfDb) ↔
    FirstIsNewest (arrivals.map Arrival.lsu) := by
  have wellFormed : ∀ lsu ∈ arrivals.map Arrival.lsu, lsu.WellFormed := by
    intro lsu member
    obtain ⟨arrival, arrivalMember, rfl⟩ := List.mem_map.mp member
    exact (foreign arrival arrivalMember).1
  constructor
  · rintro ⟨router, success, fresh⟩
    have recorded := run_recorded arrivals rfl recorded_empty foreign success
    exact firstIsNewest_of_fresh recorded fresh
  · intro newest
    have free : (started routerId ifaceList).mospfLock = false := rfl
    obtain ⟨router, success⟩ := run_defined arrivals free recorded_empty
      (fun lsu member => by cases member) foreign newest
    have recorded := run_recorded arrivals rfl recorded_empty foreign success
    exact ⟨router, success, fresh_of_recorded recorded wellFormed newest⟩

def lsuOfTwo (seq : UInt16) (subnet : UInt32) : MospfLsu :=
  { rid := 2, seq := seq, ttl := 255, nadv := 1,
    lsas := [{ subnet := subnet, mask := 0xffffff00, rid := 0 }] }

theorem link_state_freshness_repeated :
    ∃ router, run step (started 1 [])
        [⟨0, lsuOfTwo 5 0x0a000100, 0⟩, ⟨0, lsuOfTwo 4 0x0a000200, 30⟩,
          ⟨0, lsuOfTwo 5 0x0a000100, 60⟩] = some router ∧
      Fresh [lsuOfTwo 5 0x0a000100, lsuOfTwo 4 0x0a000200, lsuOfTwo 5 0x0a000100]
        router.mospfDb := by
  exact (link_state_freshness 1 [] _ (by decide)).mpr (by decide)

theorem updated_entry_keeps_seq :
    (∀ lsu ∈ [lsuOfTwo 0 0x0a000100, lsuOfTwo 1 0x0a000200], Foreign 1 lsu) ∧
    ∃ router, run step (started 1 [])
        [⟨0, lsuOfTwo 0 0x0a000100, 0⟩, ⟨0, lsuOfTwo 1 0x0a000200, 30⟩] = some router ∧
      ¬ Fresh [lsuOfTwo 0 0x0a000100, lsuOfTwo 1 0x0a000200] router.mospfDb := by
  refine ⟨by decide, _, rfl, ?_⟩
  intro fresh
  have largest := fresh.largest _ List.mem_cons_self (lsuOfTwo 1 0x0a000200) (by decide) rfl
  revert largest
  decide

end NetworkLab.Mospf
