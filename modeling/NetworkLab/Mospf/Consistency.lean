import NetworkLab.Mospf.Threads

/-!
# What every run of the daemon keeps

Each interface counts its neighbours, the database has one entry for each router, never
one for this router, and `nadv` stays within `array`.
-/
set_option autoImplicit false

namespace NetworkLab.Mospf

open Lib.Run

section Rounds

variable {α β : Type} {f : α → Option β}

theorem mapM_isSome (list : List α) : (list.mapM f).isSome ↔ ∀ a ∈ list, (f a).isSome := by
  induction list with
  | nil => simp
  | cons a rest ih =>
      rw [List.mapM_cons, List.forall_mem_cons, ← ih]
      cases f a with
      | none => simp
      | some b => cases rest.mapM f <;> simp

theorem map_of_mapM {γ : Type} {g : α → γ} {h : β → γ} (same : ∀ a b, f a = some b → h b = g a)
    {list : List α} {done : List β} (success : list.mapM f = some done) :
    done.map h = list.map g := by
  induction list generalizing done with
  | nil =>
      rw [List.mapM_nil] at success
      obtain rfl := Option.some.inj success
      rfl
  | cons a rest ih =>
      rw [List.mapM_cons] at success
      obtain ⟨b, here, success⟩ := Option.bind_eq_some_iff.mp success
      obtain ⟨others, later, success⟩ := Option.bind_eq_some_iff.mp success
      obtain rfl := Option.some.inj success
      rw [List.map_cons, List.map_cons, same a b here, ih later]

theorem forall_of_mapM {P : β → Prop} {Q : α → Prop} {list : List α} {done : List β}
    (each : ∀ a ∈ list, ∀ b, f a = some b → (P b ↔ Q a)) (success : list.mapM f = some done) :
    (∀ b ∈ done, P b) ↔ ∀ a ∈ list, Q a := by
  induction list generalizing done with
  | nil =>
      rw [List.mapM_nil] at success
      obtain rfl := Option.some.inj success
      simp
  | cons a rest ih =>
      rw [List.mapM_cons] at success
      obtain ⟨b, here, success⟩ := Option.bind_eq_some_iff.mp success
      obtain ⟨others, later, success⟩ := Option.bind_eq_some_iff.mp success
      obtain rfl := Option.some.inj success
      rw [List.forall_mem_cons, List.forall_mem_cons, each a List.mem_cons_self b here,
        ih (fun c member => each c (List.mem_cons_of_mem _ member)) later]

end Rounds

section Lsu

variable {lsu : MospfLsu} {now : Int} {db grown : List MospfDbEntry}

theorem readLsas_length {lsas : List MospfLsa} (read : readLsas lsu = some lsas) :
    lsas.length = lsu.nadvInt.toNat := by
  unfold readLsas at read
  split_ifs at read with enough
  obtain rfl := Option.some.inj read
  rw [List.length_take, Nat.min_eq_left enough]

theorem updateDbEntry_some {entry next : MospfDbEntry}
    (success : updateDbEntry lsu now entry = some next) :
    next.rid = entry.rid ∧ next.nadv = entry.nadv := by
  unfold updateDbEntry at success
  split_ifs at success
  · obtain rfl := Option.some.inj success
    exact ⟨rfl, rfl⟩
  · obtain ⟨array, -, rfl⟩ := Option.map_eq_some_iff.mp success
    exact ⟨rfl, rfl⟩
  · obtain rfl := Option.some.inj success
    exact ⟨rfl, rfl⟩

theorem recordLsu_eq (lsu : MospfLsu) (now : Int) (db : List MospfDbEntry) :
    recordLsu lsu now db = (db.mapM (updateDbEntry lsu now)).bind fun updated =>
      if db.any fun entry => lsu.rid == entry.rid then some updated
      else (newDbEntry lsu now).map fun entry => updated ++ [entry] := rfl

/-- Entries keep their `rid` and `nadv`; a new originator gets an entry at the end. -/
theorem updateDb_some (success : updateDb lsu now db = some grown) :
    Printable grown ∧ ∃ updated, db.mapM (updateDbEntry lsu now) = some updated ∧
      updated.map MospfDbEntry.rid = db.map MospfDbEntry.rid ∧
      updated.map MospfDbEntry.nadv = db.map MospfDbEntry.nadv ∧
      (grown = updated ∨ (∀ entry ∈ db, lsu.rid ≠ entry.rid) ∧
        ∃ entry, newDbEntry lsu now = some entry ∧ grown = updated ++ [entry]) := by
  rw [updateDb_eq] at success
  obtain ⟨all, recorded, success⟩ := Option.bind_eq_some_iff.mp success
  rw [recordLsu_eq] at recorded
  obtain ⟨updated, isUpdated, isAll⟩ := Option.bind_eq_some_iff.mp recorded
  split_ifs at success with printable
  obtain rfl := Option.some.inj success
  refine ⟨printable, updated, isUpdated, ?_, ?_, ?_⟩
  · exact map_of_mapM (fun entry next round => (updateDbEntry_some round).1) isUpdated
  · exact map_of_mapM (fun entry next round => (updateDbEntry_some round).2) isUpdated
  · split_ifs at isAll with known
    · exact .inl (Option.some.inj isAll).symm
    · obtain ⟨entry, isNew, rfl⟩ := Option.map_eq_some_iff.mp isAll
      exact .inr ⟨by simpa using known, entry, isNew, rfl⟩

/-- The handler copies the LSAs of the packet. -/
def Takes (lsu : MospfLsu) (db : List MospfDbEntry) : Prop :=
  (∀ entry ∈ db, lsu.rid ≠ entry.rid) ∨ ∃ entry ∈ db, lsu.rid = entry.rid ∧ entry.seq < lsu.seq

/-- The packet has the LSAs that are copied, and an entry that gets them, which keeps its
`nadv`, does not count more than they are. -/
def Readable (lsu : MospfLsu) (db : List MospfDbEntry) : Prop :=
  (Takes lsu db → lsu.nadvInt.toNat ≤ lsu.lsas.length) ∧
    ∀ entry ∈ db, lsu.rid = entry.rid → entry.seq < lsu.seq → entry.nadv ≤ lsu.nadvInt.toNat

instance (lsu : MospfLsu) (db : List MospfDbEntry) : Decidable (Takes lsu db) :=
  inferInstanceAs (Decidable (_ ∨ _))

instance (lsu : MospfLsu) (db : List MospfDbEntry) : Decidable (Readable lsu db) :=
  inferInstanceAs (Decidable (_ ∧ _))

theorem updateDbEntry_isSome (entry : MospfDbEntry) :
    (updateDbEntry lsu now entry).isSome ↔
      (lsu.rid = entry.rid ∧ entry.seq < lsu.seq → lsu.nadvInt.toNat ≤ lsu.lsas.length) := by
  unfold updateDbEntry
  split_ifs with older newer
  · have notNewer : ¬ entry.seq < lsu.seq := UInt16.not_lt.mpr older.2
    simp [notNewer]
  · simp [newer, readLsas]
  · simp [newer]

theorem mapM_updateDbEntry_isSome :
    (db.mapM (updateDbEntry lsu now)).isSome ↔
      ∀ entry ∈ db, lsu.rid = entry.rid ∧ entry.seq < lsu.seq →
        lsu.nadvInt.toNat ≤ lsu.lsas.length := by
  rw [mapM_isSome]
  exact forall₂_congr fun entry _ => updateDbEntry_isSome entry

theorem recordLsu_isSome_iff :
    (recordLsu lsu now db).isSome ↔ (Takes lsu db → lsu.nadvInt.toNat ≤ lsu.lsas.length) := by
  have copies := @mapM_updateDbEntry_isSome lsu now db
  rw [recordLsu_eq]
  cases isUpdated : db.mapM (updateDbEntry lsu now) with
  | none =>
      rw [isUpdated] at copies
      simp only [Option.bind_none, Option.isSome_none, Bool.false_eq_true, false_iff] at copies ⊢
      intro enough
      exact copies fun entry member newer => enough (.inr ⟨entry, member, newer⟩)
  | some updated =>
      have copied := copies.mp (by rw [isUpdated]; rfl)
      rw [Option.bind_some]
      split_ifs with known
      · obtain ⟨old, isOld, same⟩ := List.any_eq_true.mp known
        apply iff_of_true rfl
        rintro (unknown | ⟨entry, member, newer⟩)
        · exact absurd (eq_of_beq same) (unknown old isOld)
        · exact copied entry member newer
      · have unknown : ∀ entry ∈ db, lsu.rid ≠ entry.rid := by simpa using known
        have takes : Takes lsu db := .inl unknown
        rw [forall_prop_of_true takes]
        simp [newDbEntry, readLsas]

theorem updateDbEntry_printable {entry next : MospfDbEntry}
    (printable : entry.nadv ≤ entry.array.length)
    (success : updateDbEntry lsu now entry = some next) :
    next.nadv ≤ next.array.length ↔
      (lsu.rid = entry.rid → entry.seq < lsu.seq → entry.nadv ≤ lsu.nadvInt.toNat) := by
  unfold updateDbEntry at success
  split_ifs at success with older newer
  · obtain rfl := Option.some.inj success
    have notNewer : ¬ entry.seq < lsu.seq := UInt16.not_lt.mpr older.2
    simp [printable, notNewer]
  · obtain ⟨array, read, rfl⟩ := Option.map_eq_some_iff.mp success
    simp [newer, readLsas_length read]
  · obtain rfl := Option.some.inj success
    simp only [printable, true_iff]
    exact fun same less => absurd ⟨same, less⟩ newer

theorem newDbEntry_printable {entry : MospfDbEntry} (success : newDbEntry lsu now = some entry) :
    entry.nadv ≤ entry.array.length := by
  obtain ⟨array, read, rfl⟩ := Option.map_eq_some_iff.mp success
  simp only [readLsas_length read]
  omega

theorem updateDb_isSome_iff (printable : Printable db) :
    (updateDb lsu now db).isSome ↔ Readable lsu db := by
  have copies := @mapM_updateDbEntry_isSome lsu now db
  rw [updateDb_eq, recordLsu_eq, Option.bind_assoc]
  cases isUpdated : db.mapM (updateDbEntry lsu now) with
  | none =>
      rw [isUpdated] at copies
      simp only [Option.bind_none, Option.isSome_none, Bool.false_eq_true, false_iff] at copies ⊢
      rintro ⟨enough, -⟩
      exact copies fun entry member newer => enough (.inr ⟨entry, member, newer⟩)
  | some updated =>
      have copied := copies.mp (by rw [isUpdated]; rfl)
      have prints : Printable updated ↔ ∀ entry ∈ db, lsu.rid = entry.rid →
          entry.seq < lsu.seq → entry.nadv ≤ lsu.nadvInt.toNat :=
        forall_of_mapM (fun entry member next round =>
          updateDbEntry_printable (printable entry member) round) isUpdated
      rw [Option.bind_some]
      split_ifs with known
      · obtain ⟨old, isOld, same⟩ := List.any_eq_true.mp known
        have enough : Takes lsu db → lsu.nadvInt.toNat ≤ lsu.lsas.length := by
          rintro (unknown | ⟨entry, member, newer⟩)
          · exact absurd (eq_of_beq same) (unknown old isOld)
          · exact copied entry member newer
        rw [Option.bind_some, Option.isSome_ite, Readable, ← prints]
        exact ⟨fun printed => ⟨enough, printed⟩, And.right⟩
      · have unknown : ∀ entry ∈ db, lsu.rid ≠ entry.rid := by simpa using known
        cases isNew : newDbEntry lsu now with
        | none =>
            have short : ¬ lsu.nadvInt.toNat ≤ lsu.lsas.length := by
              simpa [newDbEntry, readLsas] using isNew
            simp only [Option.map_none, Option.bind_none, Option.isSome_none, Bool.false_eq_true,
              false_iff]
            exact fun readable => short (readable.1 (.inl unknown))
        | some new =>
            have enough : lsu.nadvInt.toNat ≤ lsu.lsas.length := by
              by_contra short
              simp [newDbEntry, readLsas, short] at isNew
            have printed : Printable (updated ++ [new]) ↔ Printable updated := by
              rw [Printable, List.forall_mem_append, List.forall_mem_singleton]
              exact and_iff_left (newDbEntry_printable isNew)
            rw [Option.map_some, Option.bind_some, Option.isSome_ite, Readable, ← prints, printed]
            exact ⟨fun printed => ⟨fun _ => enough, printed⟩, And.right⟩

theorem updateDb_rids (success : updateDb lsu now db = some grown) :
    grown.map MospfDbEntry.rid = db.map MospfDbEntry.rid ∨
      lsu.rid ∉ db.map MospfDbEntry.rid ∧
        grown.map MospfDbEntry.rid = db.map MospfDbEntry.rid ++ [lsu.rid] := by
  obtain ⟨-, updated, -, sameRids, -, rfl | ⟨unknown, entry, isNew, rfl⟩⟩ := updateDb_some success
  · exact .inl sameRids
  · obtain ⟨array, -, rfl⟩ := Option.map_eq_some_iff.mp isNew
    refine .inr ⟨?_, ?_⟩
    · rintro member
      obtain ⟨entry, inDb, same⟩ := List.mem_map.mp member
      exact unknown entry inDb same.symm
    · rw [List.map_append, sameRids]
      rfl

end Lsu

section Bodies

variable {iface : Interface}

theorem heardHello_counted (hello : MospfHello) (counted : iface.numNbr = iface.nbrList.length) :
    (heardHello hello iface).numNbr = (heardHello hello iface).nbrList.length := by
  unfold heardHello
  split_ifs
  · simpa using counted
  · simp [counted]

theorem agedNbrs_counted (counted : iface.numNbr = iface.nbrList.length) :
    (agedNbrs iface).numNbr = (agedNbrs iface).nbrList.length := by
  have parts := List.length_eq_length_filter_add
    (fun nbr : MospfNbr => decide (3 * MOSPF_DEFAULT_HELLOINT < nbr.alive)) (l := iface.nbrList)
  have others : (iface.nbrList.filter fun nbr => ¬ 3 * MOSPF_DEFAULT_HELLOINT < nbr.alive) =
      iface.nbrList.filter fun nbr => !decide (3 * MOSPF_DEFAULT_HELLOINT < nbr.alive) := by
    simp only [decide_not]
  simp only [agedNbrs, counted, List.length_map, others, parts]
  omega

theorem advertisedLsas_length (counted : iface.numNbr = iface.nbrList.length) :
    ((advertisedLsas iface).length : Int) = if iface.numNbr = 0 then 1 else iface.numNbr := by
  unfold advertisedLsas
  split_ifs with none
  · rfl
  · rw [List.length_map, counted]

theorem lsas_length {ifaceList : List Interface}
    (counted : ∀ iface ∈ ifaceList, iface.numNbr = iface.nbrList.length) :
    ((ifaceList.flatMap advertisedLsas).length : Int) = numAdv ifaceList := by
  induction ifaceList with
  | nil => rfl
  | cons iface rest ih =>
      have here := advertisedLsas_length (counted iface List.mem_cons_self)
      have later := ih fun other member => counted other (List.mem_cons_of_mem _ member)
      unfold numAdv at later ⊢
      rw [List.flatMap_cons, List.length_append, List.map_cons, List.sum_cons, ← here, ← later]
      exact Int.natCast_add _ _

theorem checkDbEntries (now : Int) (db : List MospfDbEntry) (daemon : Daemon) :
    ∃ rtable, db.foldl (checkDbEntry now) daemon =
      { daemon with
        mospfDb := daemon.mospfDb ++ db.filter fun entry => ¬ 35 ≤ now - entry.addTime,
        rtable := rtable } := by
  induction db generalizing daemon with
  | nil => exact ⟨daemon.rtable, by simp⟩
  | cons entry rest ih =>
      obtain ⟨rtable, later⟩ := ih (checkDbEntry now daemon entry)
      refine ⟨rtable, ?_⟩
      rw [List.foldl_cons, later]
      by_cases expired : 35 ≤ now - entry.addTime
      · simp [checkDbEntry, expired]
      · have fresh : now - entry.addTime < 35 := by omega
        simp [checkDbEntry, expired, fresh]

theorem checkingDatabase_eq (now : Int) (daemon : Daemon) :
    ∃ rtable, checkingDatabase now daemon =
      { daemon with
        mospfDb := daemon.mospfDb.filter fun entry => ¬ 35 ≤ now - entry.addTime,
        rtable := rtable } := by
  obtain ⟨rtable, done⟩ := checkDbEntries now daemon.mospfDb { daemon with mospfDb := [] }
  exact ⟨rtable, done⟩

theorem sendingMospfLsu_eq {daemon : Daemon}
    (counted : ∀ iface ∈ daemon.ifaceList, iface.numNbr = iface.nbrList.length) :
    ∃ sent, sendingMospfLsu daemon =
      some ({ daemon with sequenceNum := daemon.sequenceNum + 1 }, sent) := by
  refine ⟨_, if_pos ?_⟩
  exact lsas_length counted

theorem caculateRtable_some {gw : UInt32} {daemon done : Daemon}
    (success : caculateRtable gw daemon = some done) :
    ∃ globals rtable, done = { daemon with globals := globals, rtable := rtable } := by
  obtain ⟨paths, -, success⟩ := Option.bind_eq_some_iff.mp success
  obtain ⟨ranking, -, success⟩ := Option.bind_eq_some_iff.mp success
  obtain ⟨routing, -, success⟩ := Option.bind_eq_some_iff.mp success
  exact ⟨_, _, (Option.some.inj success).symm⟩

end Bodies

structure Consistent (daemon : Daemon) : Prop where
  counted : ∀ iface ∈ daemon.ifaceList, iface.numNbr = iface.nbrList.length
  distinct : (rids daemon.routerId daemon.mospfDb).Nodup
  printable : Printable daemon.mospfDb

section Steps

variable {daemon next : Daemon}

theorem consistent_of_booted (booted : Booted daemon) : Consistent daemon where
  counted := by
    intro iface member
    obtain ⟨alone, none⟩ := booted.alone iface member
    rw [alone, none]
    rfl
  distinct := by simp [rids, booted.empty]
  printable := by simp [Printable, booted.empty]

/-- What a step under the lock does, when it returns. -/
theorem locked_some {activity : Activity} {body : Daemon → Option (Daemon × List Sent)}
    (acts : daemon.act activity = daemon.locked body) (success : daemon.next activity = some next) :
    daemon.mospfLock = false ∧ ∃ done sent, body { daemon with mospfLock := true } = some (done, sent) ∧
      next = { done with mospfLock := false } := by
  rw [Daemon.next, acts, Daemon.locked] at success
  split_ifs at success with held
  · cases success
  · rw [Option.map_map] at success
    obtain ⟨⟨done, sent⟩, isDone, rfl⟩ := Option.map_eq_some_iff.mp success
    exact ⟨by simpa using held, done, sent, isDone, rfl⟩

theorem handleLsu_some {arrival : Arrival} (success : daemon.next (.lsu arrival) = some next) :
    daemon.mospfLock = false ∧
      (daemon.routerId = arrival.lsu.rid ∧ next = { daemon with mospfLock := true } ∨
        daemon.routerId ≠ arrival.lsu.rid ∧
          ∃ db, updateDb arrival.lsu arrival.now daemon.mospfDb = some db ∧
            next = { daemon with mospfDb := db }) := by
  rw [Daemon.next, Daemon.act, Daemon.handleLsu, handleMospfLsu, Option.map_map] at success
  obtain ⟨done, isDone, rfl⟩ := Option.map_eq_some_iff.mp success
  have sameLock : daemon.router.mospfLock = daemon.mospfLock := rfl
  have sameId : daemon.router.routerId = daemon.routerId := rfl
  have sameDb : daemon.router.mospfDb = daemon.mospfDb := rfl
  rw [sameLock, sameId, sameDb] at isDone
  split_ifs at isDone with held own
  · obtain rfl := Option.some.inj isDone
    exact ⟨by simpa using held, .inl ⟨own, rfl⟩⟩
  · obtain ⟨db, isDb, rfl⟩ := Option.map_eq_some_iff.mp isDone
    have free : daemon.mospfLock = false := by simpa using held
    exact ⟨free, .inr ⟨own, db, isDb, rfl⟩⟩

/-- All that a step can do to the neighbour counts and to the database. -/
theorem next_some (activity : Activity)
    (counted : ∀ iface ∈ daemon.ifaceList, iface.numNbr = iface.nbrList.length)
    (success : daemon.next activity = some next) :
    next.routerId = daemon.routerId ∧
      (∀ iface ∈ next.ifaceList, iface.numNbr = iface.nbrList.length) ∧
      (next.mospfDb.Sublist daemon.mospfDb ∨ ∃ arrival, activity = .lsu arrival ∧
        daemon.routerId ≠ arrival.lsu.rid ∧
        updateDb arrival.lsu arrival.now daemon.mospfDb = some next.mospfDb) := by
  cases activity with
  | sendHello =>
      obtain ⟨-, done, sent, isDone, rfl⟩ := locked_some (by rw [Daemon.act]) success
      obtain ⟨rfl, -⟩ := Prod.mk.inj (Option.some.inj isDone)
      exact ⟨rfl, counted, .inl (.refl _)⟩
  | hello index packet =>
      obtain ⟨-, done, sent, isDone, rfl⟩ := locked_some (by rw [Daemon.act]) success
      obtain ⟨rfl, -⟩ := Prod.mk.inj (Option.some.inj isDone)
      refine ⟨rfl, ?_, .inl (.refl _)⟩
      intro iface member
      obtain ⟨old, isOld, rfl⟩ := List.mem_map.mp member
      split_ifs
      · exact heardHello_counted packet (counted old isOld)
      · exact counted old isOld
  | checkNbr =>
      obtain ⟨-, done, sent, isDone, rfl⟩ := locked_some (by rw [Daemon.act]) success
      obtain ⟨rfl, -⟩ := Prod.mk.inj (Option.some.inj isDone)
      refine ⟨rfl, ?_, .inl (.refl _)⟩
      intro iface member
      obtain ⟨old, isOld, rfl⟩ := List.mem_map.mp member
      exact agedNbrs_counted (counted old isOld)
  | checkDatabase now =>
      obtain ⟨-, done, sent, isDone, rfl⟩ := locked_some (by rw [Daemon.act]) success
      obtain ⟨rfl, -⟩ := Prod.mk.inj (Option.some.inj isDone)
      obtain ⟨rtable, same⟩ := checkingDatabase_eq now { daemon with mospfLock := true }
      rw [same]
      exact ⟨rfl, counted, .inl List.filter_sublist⟩
  | sendLsu =>
      obtain ⟨-, done, sent, isDone, rfl⟩ := locked_some (by rw [Daemon.act]) success
      obtain ⟨copies, same⟩ := @sendingMospfLsu_eq { daemon with mospfLock := true } counted
      obtain ⟨rfl, -⟩ := Prod.mk.inj (Option.some.inj (same.symm.trans isDone))
      exact ⟨rfl, counted, .inl (.refl _)⟩
  | lsu arrival =>
      obtain ⟨-, ⟨-, rfl⟩ | ⟨foreign, db, isDb, rfl⟩⟩ := handleLsu_some success
      · exact ⟨rfl, counted, .inl (.refl _)⟩
      · exact ⟨rfl, counted, .inr ⟨arrival, rfl, foreign, isDb⟩⟩
  | caculateRtable gw =>
      obtain ⟨-, done, sent, isDone, rfl⟩ := locked_some (by rw [Daemon.act]) success
      obtain ⟨routed, isRouted, same⟩ := Option.map_eq_some_iff.mp isDone
      obtain ⟨rfl, -⟩ := Prod.mk.inj same
      obtain ⟨globals, rtable, rfl⟩ := caculateRtable_some isRouted
      exact ⟨rfl, counted, .inl (.refl _)⟩

theorem consistent_next (activity : Activity) (consistent : Consistent daemon)
    (success : daemon.next activity = some next) : Consistent next := by
  obtain ⟨sameId, counted, kept | ⟨arrival, -, foreign, isDb⟩⟩ :=
    next_some activity consistent.counted success
  · refine ⟨counted, ?_, fun entry member => consistent.printable entry (kept.subset member)⟩
    rw [sameId]
    exact consistent.distinct.sublist (List.Sublist.cons_cons _ (kept.map _))
  · refine ⟨counted, ?_, (updateDb_some isDb).1⟩
    have distinct := consistent.distinct
    unfold rids at distinct ⊢
    rw [sameId]
    rcases updateDb_rids isDb with same | ⟨new, same⟩
    · rwa [same]
    · rw [same, ← List.cons_append]
      refine distinct.append (List.nodup_singleton _) ?_
      rw [List.disjoint_singleton, List.mem_cons, not_or]
      exact ⟨foreign.symm, new⟩

end Steps

end NetworkLab.Mospf
