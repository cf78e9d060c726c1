import NetworkLab.Lib.Run
import NetworkLab.Mospf.Flooding

/-!
# Where the handling of an LSU reads

`handle_mospf_packet` and `handle_mospf_lsu` on a frame with the memory behind it.  The
checks see whatever lies there; the frame itself ends with the bytes received.  The length
of the mOSPF header, the count of the LSU and the length of the frame are independent, and
an entry keeps its count when it gets another array.
-/
set_option autoImplicit false

namespace NetworkLab.Mospf

open Lib.Bytes Lib.Run

def headerOffset (memory : List UInt8) : Option Nat :=
  (read8 memory ETHER_HDR_SIZE).map fun ihl => ETHER_HDR_SIZE + ihl.toNat % 16 * 4

/-- The header at the offset passes the checks, whatever is read for that. -/
def Passes (memory : List UInt8) (mospf : Nat) : Prop :=
  headerOffset memory = some mospf ∧ passesChecks mospf memory = some true

instance (memory : List UInt8) (mospf : Nat) : Decidable (Passes memory mospf) :=
  inferInstanceAs (Decidable (_ ∧ _))

/-- `malloc(nadv * MOSPF_LSA_SIZE)`: the elements that there is space for.  From a negative
count comes a size for which there is no memory. -/
def mallocLsas (nadv : Int) : Option Nat := if 0 ≤ nadv then some nadv.toNat else none

/-- A frame that `handle_mospf_packet` is called with, a round of `checking_database_thread`,
and a change of anything but the database. -/
inductive Event
  | frame (mac : Mac) (rand : Nat → UInt16) (index : Nat) (packet behind : List UInt8) (now : Int)
  | checkDatabase (now : Int)
  | other (next : Daemon)

/-- The daemon after an event; `none` for an access outside a buffer or an array, and for a
thread that blocks. -/
def receive (daemon : Daemon) : Event → Option Daemon
  | .frame mac rand index packet behind now =>
    match headerOffset (packet ++ behind) with
    | none => some daemon
    | some mospf =>
      if Passes (packet ++ behind) mospf ∧
          read8 (packet ++ behind) (mospf + 1) = some MOSPF_TYPE_LSU then
        (handleLsuPacket mac rand daemon index packet now).map Prod.fst
      else some daemon
  | .checkDatabase now =>
    (daemon.locked fun held => some (checkingDatabase now held, [])).map Prod.fst
  | .other next => if next.mospfDb = daemon.mospfDb then some next else none

section Specification

/-- The loops over the array of an entry, to `i < nadv` and to `i != nadv`, stay in it. -/
def ReadersInside (db : List MospfDbEntry) : Prop :=
  Printable db ∧ ∀ entry ∈ db, entry.lsas.isSome

structure LsuInside (mac : Mac) (rand : Nat → UInt16) (daemon : Daemon) (index : Nat)
    (packet : List UInt8) (now : Int) : Prop where
  handled : ∃ next sent, handleLsuPacket mac rand daemon index packet now = some (next, sent) ∧
    ReadersInside next.mospfDb
  filled : ∀ lsu, readLsu packet = some lsu → lsu.rid ≠ daemon.routerId →
    Takes lsu daemon.mospfDb →
      mallocLsas lsu.nadvInt = some lsu.lsas.length ∧ readLsas lsu = some lsu.lsas

/-- What is demanded of a frame that passes the checks. -/
def StaysInside (daemon : Daemon) : Event → Prop
  | .frame mac rand index packet behind now => ∀ mospf, Passes (packet ++ behind) mospf →
    (∃ sum, mospfChecksum mospf packet = some sum) ∧
      (read8 (packet ++ behind) (mospf + 1) = some MOSPF_TYPE_LSU → daemon.mospfLock = false →
        LsuInside mac rand daemon index packet now)
  | _ => True

/-- The length in the mOSPF header is not beyond the end of the packet. -/
def LengthFits (mospf : Nat) (packet : List UInt8) : Prop :=
  mospf + 14 ≤ packet.length ∧
    ∀ len, read16 packet (mospf + 2) = some len → mospf + len.toNat ≤ packet.length

/-- There is a neighbour on an interface other than the one of the packet. -/
def HasOther (daemon : Daemon) (index : Nat) : Prop :=
  ∃ iface ∈ daemon.ifaceList, iface.index ≠ index ∧ iface.nbrList ≠ []

structure LsuFits (daemon : Daemon) (index : Nat) (packet : List UInt8) : Prop where
  header : MOSPF_OFFSET + 8 ≤ packet.length
  foreign : read32 packet (MOSPF_OFFSET + 4) ≠ some daemon.routerId → LSA_OFFSET ≤ packet.length
  counted : ∀ lsu, readLsu packet = some lsu → lsu.rid ≠ daemon.routerId →
    Takes lsu daemon.mospfDb → lsu.nadvInt = lsu.lsas.length
  kept : ∀ lsu, readLsu packet = some lsu → lsu.rid ≠ daemon.routerId →
    ∀ entry ∈ daemon.mospfDb, lsu.rid = entry.rid → entry.seq < lsu.seq →
      entry.nadv ≤ lsu.lsas.length
  copied : ∀ lsu, readLsu packet = some lsu → lsu.rid ≠ daemon.routerId → lsu.ttl ≠ 1 →
    HasOther daemon index → LengthFits MOSPF_OFFSET packet

/-- The lengths and counts of a frame that passes the checks. -/
def Fits (daemon : Daemon) : Event → Prop
  | .frame _ _ index packet behind _ => ∀ mospf, Passes (packet ++ behind) mospf →
    LengthFits mospf packet ∧
      (read8 (packet ++ behind) (mospf + 1) = some MOSPF_TYPE_LSU → daemon.mospfLock = false →
        LsuFits daemon index packet)
  | _ => True

end Specification

section Reading

theorem exists_mospfChecksum_fits (mospf : Nat) (packet : List UInt8) :
    (∃ sum, mospfChecksum mospf packet = some sum) ↔ LengthFits mospf packet := by
  rw [exists_mospfChecksum_iff]
  constructor
  · intro inside
    obtain ⟨len, read, fits, bound⟩ := inside
    refine ⟨fits, ?_⟩
    intro other again
    rw [read] at again
    cases again
    cases bound with
    | inl zero => omega
    | inr within => exact within
  · intro fits
    cases (exists_read16_iff packet (mospf + 2)).mpr (by have := fits.1; omega) with
    | intro len read => exact ⟨len, read, fits.1, Or.inr (fits.2 len read)⟩

theorem stable_mospfChecksum (mospf : Nat) : Stable (mospfChecksum mospf) := by
  apply (stable_read16 (mospf + 2)).bind
  intro len
  exact (stable_checksum mospf len.toNat 0).after_write (mospf + 12) (bytes16 0)

theorem stable_passesChecks (mospf : Nat) : Stable (passesChecks mospf) := by
  apply (stable_read8 mospf).bind
  intro version
  by_cases other : version ≠ MOSPF_VERSION
  · simp only [if_pos other]
    exact stable_some false
  · simp only [if_neg other]
    apply (stable_read16Little (mospf + 12)).bind
    intro stored
    apply (stable_mospfChecksum mospf).bind
    intro sum
    by_cases wrong : stored ≠ sum
    · simp only [if_pos wrong]
      exact stable_some false
    · simp only [if_neg wrong]
      apply (stable_read32 (mospf + 8)).bind
      intro aid
      exact stable_some _

theorem exists_passesChecks {mospf : Nat} {packet : List UInt8} (fits : LengthFits mospf packet) :
    ∃ passed, passesChecks mospf packet = some passed := by
  have header := fits.1
  unfold passesChecks
  cases (exists_read8_iff packet mospf).mpr (by omega) with
  | intro version isVersion =>
    rw [isVersion, Option.bind_eq_bind, Option.bind_some]
    split_ifs
    · exact ⟨false, rfl⟩
    · cases (exists_read16Little_iff packet (mospf + 12)).mpr (by omega) with
      | intro stored isStored =>
        cases (exists_mospfChecksum_fits mospf packet).mpr fits with
        | intro sum summed =>
          simp only [isStored, summed, Option.bind_eq_bind, Option.bind_some]
          split_ifs
          · exact ⟨false, rfl⟩
          · cases (exists_read32_iff packet (mospf + 8)).mpr (by omega) with
            | intro aid isAid =>
              rw [isAid, Option.bind_some]
              exact ⟨_, rfl⟩

/-- Where the length fits, the checks do not see the memory behind the packet. -/
theorem acceptedLsu_of_passes {mospf : Nat} {packet behind : List UInt8}
    (passes : Passes (packet ++ behind) mospf) (fits : LengthFits mospf packet)
    (isLsu : read8 (packet ++ behind) (mospf + 1) = some MOSPF_TYPE_LSU) : AcceptedLsu packet := by
  have header := fits.1
  obtain ⟨ihl, isIhl, place⟩ := Option.map_eq_some_iff.mp passes.1
  cases (exists_read8_iff packet ETHER_HDR_SIZE).mpr (by omega) with
  | intro first isFirst =>
    have same : first = ihl := (stable_read8 ETHER_HDR_SIZE).eq isFirst isIhl
    cases exists_passesChecks fits with
    | intro passed isPassed =>
      have accepted : passed = true := (stable_passesChecks mospf).eq isPassed passes.2
      cases (exists_read8_iff packet (mospf + 1)).mpr (by omega) with
      | intro type isType =>
        have lsu : type = MOSPF_TYPE_LSU := (stable_read8 (mospf + 1)).eq isType isLsu
        refine ⟨ihl, same ▸ isFirst, ?_, ?_⟩
        · rw [place, isPassed, accepted]
        · rw [place, isType, lsu]

/-- There the event is a call of `handle_mospf_packet` on the packet alone. -/
theorem receive_handles (mac : Mac) (rand : Nat → UInt16) (daemon : Daemon) (index : Nat)
    (now : Int) {mospf : Nat} {packet behind : List UInt8}
    (passes : Passes (packet ++ behind) mospf) (fits : LengthFits mospf packet)
    (isLsu : read8 (packet ++ behind) (mospf + 1) = some MOSPF_TYPE_LSU) :
    receive daemon (.frame mac rand index packet behind now) =
      (handleMospfPacket mac rand daemon index packet now).map Prod.fst := by
  have accepted := acceptedLsu_of_passes passes fits isLsu
  rw [handleMospfPacket_accepted accepted]
  unfold receive
  simp only [passes.1, if_pos (And.intro passes isLsu)]

end Reading

section Flooding

variable {mac : Mac} {rand : Nat → UInt16} {daemon : Daemon} {index : Nat} {packet : List UInt8}

theorem mem_others {round : Interface × MospfNbr} :
    round ∈ neighbours (daemon.ifaceList.filter fun iface => iface.index != index) ↔
      (round.1 ∈ daemon.ifaceList ∧ round.1.index ≠ index) ∧ round.2 ∈ round.1.nbrList := by
  rw [mem_neighbours, List.mem_filter, bne_iff_ne]

/-- Copies are made without a read outside the packet when the length fits, or when there is
no one to send them to. -/
theorem exists_forwardLsu_iff (fits : LSU_OFFSET ≤ packet.length) :
    (∃ sent, forwardLsu mac rand daemon index packet = some sent) ↔
      (HasOther daemon index → ∃ sum, mospfChecksum MOSPF_OFFSET packet = some sum) := by
  constructor
  · intro made others
    cases made with
    | intro sent done =>
      obtain ⟨iface, member, different, some_nbr⟩ := others
      obtain ⟨nbr, isNbr⟩ := List.exists_mem_of_ne_nil _ some_nbr
      obtain ⟨lists, rounds, -⟩ := Option.map_eq_some_iff.mp done
      have pair : (iface, nbr) ∈ neighbours (daemon.ifaceList.filter fun iface =>
          iface.index != index) := mem_others.mpr ⟨⟨member, different⟩, isNbr⟩
      rw [← List.zipIdx_map_fst 0 (neighbours _)] at pair
      obtain ⟨round, isRound, -⟩ := List.mem_map.mp pair
      have each := (mapM_isSome _).mp (Option.isSome_of_eq_some rounds) round isRound
      cases forwardRound_cases mac rand daemon.rtable round fits with
      | inl inside => exact inside.1
      | inr outside =>
        rw [outside.2] at each
        cases each
  · intro summed
    by_cases others : HasOther daemon index
    · exact exists_forwardLsu (summed others) fits
    · have none : neighbours (daemon.ifaceList.filter fun iface => iface.index != index) = [] := by
        apply List.eq_nil_iff_forall_not_mem.mpr
        intro round member
        have found := mem_others.mp member
        exact others ⟨round.1, found.1.1, found.1.2, List.ne_nil_of_mem found.2⟩
      refine ⟨[], ?_⟩
      change Option.map List.flatten ((neighbours _).zipIdx.mapM _) = some []
      rw [none]
      rfl

theorem exists_floodPacket_iff (ttl : UInt8) (fits : LSA_OFFSET ≤ packet.length) :
    (∃ sent, floodPacket mac rand daemon index ttl packet = some sent) ↔
      (ttl ≠ 1 → HasOther daemon index → LengthFits MOSPF_OFFSET packet) := by
  have room : LSU_OFFSET + 3 ≤ packet.length :=
    Nat.le_trans (by decide : LSU_OFFSET + 3 ≤ LSA_OFFSET) fits
  cases (exists_write_iff packet (LSU_OFFSET + 2) [ttl - 1]).mpr room with
  | intro next written =>
    have same := exists_mospfChecksum_write (Nat.le_add_right LSU_OFFSET 2) written
    have size : LSU_OFFSET ≤ next.length := by
      rw [length_write written]
      omega
    unfold floodPacket
    rw [written, Option.bind_eq_bind, Option.bind_some, ← exists_mospfChecksum_fits, ← same]
    by_cases expired : ttl = 1
    · have stop : ¬ 0 < ttl - 1 := fun left => ttl_sub_one_pos_iff.mp left expired
      rw [if_neg stop]
      exact ⟨fun _ alive => absurd expired alive, fun _ => ⟨[], rfl⟩⟩
    · rw [if_pos (ttl_sub_one_pos_iff.mpr expired), exists_forwardLsu_iff size]
      exact ⟨fun summed _ => summed, fun summed => summed expired⟩

end Flooding

section OneFrame

variable {mac : Mac} {rand : Nat → UInt16} {daemon : Daemon} {index : Nat} {packet : List UInt8}
  {now : Int}

theorem lsas_isSome_iff (entry : MospfDbEntry) :
    entry.lsas.isSome ↔ 0 ≤ entry.nadv ∧ entry.nadv ≤ entry.array.length := by
  unfold MospfDbEntry.lsas
  split_ifs with inside
  · exact iff_of_true rfl inside
  · exact iff_of_false Bool.false_ne_true inside

theorem mallocLsas_eq_iff (nadv : Int) (count : Nat) :
    mallocLsas nadv = some count ↔ nadv = count := by
  unfold mallocLsas
  by_cases sign : 0 ≤ nadv
  · rw [if_pos sign, Option.some.injEq]
    omega
  · have negative : nadv ≠ count := by omega
    rw [if_neg sign]
    exact iff_of_false (Option.some_ne_none count).symm negative

/-- Entries that are updated keep their counts; a new one has that of the LSU. -/
theorem nadv_of_updateDb {lsu : MospfLsu} {db grown : List MospfDbEntry}
    (success : updateDb lsu now db = some grown) {entry : MospfDbEntry} (member : entry ∈ grown) :
    (∃ old ∈ db, old.nadv = entry.nadv) ∨ Takes lsu db ∧ entry.nadv = lsu.nadvInt := by
  obtain ⟨-, updated, -, -, counts, shape⟩ := updateDb_some success
  have kept : ∀ next ∈ updated, ∃ old ∈ db, old.nadv = next.nadv := by
    intro next inUpdated
    have inCounts : next.nadv ∈ updated.map MospfDbEntry.nadv := List.mem_map_of_mem inUpdated
    rw [counts] at inCounts
    exact List.mem_map.mp inCounts
  cases shape with
  | inl same => exact Or.inl (kept entry (same ▸ member))
  | inr grows =>
    obtain ⟨unknown, new, isNew, isGrown⟩ := grows
    rw [isGrown] at member
    cases List.mem_append.mp member with
    | inl inUpdated => exact Or.inl (kept entry inUpdated)
    | inr isLast =>
      rw [List.mem_singleton.mp isLast]
      obtain ⟨array, -, made⟩ := Option.map_eq_some_iff.mp isNew
      exact Or.inr ⟨Or.inl unknown, made ▸ rfl⟩

/-- The record of an LSU keeps the readers inside their arrays when its counts fit. -/
theorem exists_recordLsu_iff {lsu : MospfLsu} {db : List MospfDbEntry} (readers : ReadersInside db)
    (counted : Takes lsu db → lsu.nadvInt = lsu.lsas.length) :
    (∃ grown, recordLsu lsu now db = some grown ∧ ReadersInside grown) ↔
      ∀ entry ∈ db, lsu.rid = entry.rid → entry.seq < lsu.seq →
        entry.nadv ≤ lsu.lsas.length := by
  have readable : Readable lsu db ↔ ∀ entry ∈ db, lsu.rid = entry.rid → entry.seq < lsu.seq →
      entry.nadv ≤ lsu.lsas.length := by
    constructor
    · intro reads entry member same newer
      have count := counted (Or.inr ⟨entry, member, same, newer⟩)
      have bound := reads.2 entry member same newer
      omega
    · intro kept
      constructor
      · intro takes
        have count := counted takes
        omega
      · intro entry member same newer
        have count := counted (Or.inr ⟨entry, member, same, newer⟩)
        have bound := kept entry member same newer
        omega
  rw [← readable, ← updateDb_isSome_iff readers.1]
  constructor
  · intro recorded
    obtain ⟨grown, isGrown, inside⟩ := recorded
    rw [updateDb_eq, isGrown, Option.bind_some, if_pos inside.1]
    rfl
  · intro updated
    cases Option.isSome_iff_exists.mp updated with
    | intro grown success =>
      have recorded := success
      rw [updateDb_eq] at recorded
      obtain ⟨all, isAll, kept⟩ := Option.bind_eq_some_iff.mp recorded
      split_ifs at kept with printable
      have same : all = grown := Option.some.inj kept
      rw [same] at isAll printable
      refine ⟨grown, isAll, printable, ?_⟩
      intro entry member
      rw [lsas_isSome_iff]
      refine ⟨?_, printable entry member⟩
      cases nadv_of_updateDb success member with
      | inl old =>
        obtain ⟨before, inDb, equal⟩ := old
        rw [← equal]
        exact ((lsas_isSome_iff before).mp (readers.2 before inDb)).1
      | inr new =>
        rw [new.2, counted new.1]
        exact Int.natCast_nonneg _

theorem handleLsuPacket_own (free : daemon.mospfLock = false)
    (own : read32 packet (MOSPF_OFFSET + 4) = some daemon.routerId) :
    handleLsuPacket mac rand daemon index packet now =
      some ({ daemon with mospfLock := true }, []) := by
  simp [handleLsuPacket, free, own]

theorem handleLsuPacket_foreign {rid : UInt32} (free : daemon.mospfLock = false)
    (isRid : read32 packet (MOSPF_OFFSET + 4) = some rid) (foreign : rid ≠ daemon.routerId) :
    handleLsuPacket mac rand daemon index packet now = (readLsu packet).bind fun lsu =>
      (recordLsu lsu now daemon.mospfDb).bind fun db =>
        (floodPacket mac rand daemon index lsu.ttl packet).map fun sent =>
          ({ daemon with mospfDb := db }, sent) := by
  have unlocked : ¬ daemon.mospfLock = true := by
    rw [free]
    exact Bool.false_ne_true
  unfold handleLsuPacket
  rw [if_neg unlocked, isRid, Option.bind_eq_bind, Option.bind_some, if_neg foreign.symm]
  cases readLsu packet with
  | none => rfl
  | some lsu =>
    simp only [Option.bind_eq_bind, Option.bind_some]
    cases recordLsu lsu now daemon.mospfDb with
    | none => rfl
    | some db =>
      rw [Option.bind_some, Option.bind_some]
      cases floodPacket mac rand daemon index lsu.ttl packet with
      | none => rfl
      | some sent => rfl

theorem lsuInside_foreign {lsu : MospfLsu} (free : daemon.mospfLock = false)
    (read : readLsu packet = some lsu) (foreign : lsu.rid ≠ daemon.routerId) :
    LsuInside mac rand daemon index packet now ↔
      (∃ grown, recordLsu lsu now daemon.mospfDb = some grown ∧ ReadersInside grown) ∧
        (∃ sent, floodPacket mac rand daemon index lsu.ttl packet = some sent) ∧
        (Takes lsu daemon.mospfDb → lsu.nadvInt = lsu.lsas.length) := by
  have handled : handleLsuPacket mac rand daemon index packet now = _ :=
    handleLsuPacket_foreign free (readLsu_fields read).1 foreign
  rw [read, Option.bind_some] at handled
  constructor
  · intro inside
    obtain ⟨next, sent, success, readers⟩ := inside.handled
    rw [handled] at success
    obtain ⟨grown, isGrown, rest⟩ := Option.bind_eq_some_iff.mp success
    obtain ⟨copies, flooded, result⟩ := Option.map_eq_some_iff.mp rest
    have database : next.mospfDb = grown :=
      (congrArg (fun pair => pair.1.mospfDb) result).symm
    refine ⟨⟨grown, isGrown, database ▸ readers⟩, ⟨copies, flooded⟩, ?_⟩
    intro takes
    exact (mallocLsas_eq_iff _ _).mp (inside.filled lsu read foreign takes).1
  · intro parts
    obtain ⟨⟨grown, isGrown, readers⟩, ⟨sent, flooded⟩, counted⟩ := parts
    refine ⟨⟨{ daemon with mospfDb := grown }, sent, ?_, readers⟩, ?_⟩
    · rw [handled, isGrown, Option.bind_some, flooded, Option.map_some]
    · intro other again _ takes
      rw [read] at again
      cases again
      exact ⟨(mallocLsas_eq_iff _ _).mpr (counted takes), readLsas_wellFormed (counted takes)⟩

theorem lsuFits_foreign {lsu : MospfLsu} (read : readLsu packet = some lsu)
    (foreign : lsu.rid ≠ daemon.routerId) :
    LsuFits daemon index packet ↔
      (∀ entry ∈ daemon.mospfDb, lsu.rid = entry.rid → entry.seq < lsu.seq →
          entry.nadv ≤ lsu.lsas.length) ∧
        (lsu.ttl ≠ 1 → HasOther daemon index → LengthFits MOSPF_OFFSET packet) ∧
        (Takes lsu daemon.mospfDb → lsu.nadvInt = lsu.lsas.length) := by
  have size := (exists_readLsu_iff packet).mp ⟨lsu, read⟩
  constructor
  · intro fits
    exact ⟨fits.kept lsu read foreign, fits.copied lsu read foreign, fits.counted lsu read foreign⟩
  · intro parts
    refine ⟨Nat.le_trans (by decide) size, fun _ => size, ?_, ?_, ?_⟩
    · intro other again _
      rw [read] at again
      cases again
      exact parts.2.2
    · intro other again _
      rw [read] at again
      cases again
      exact parts.1
    · intro other again _
      rw [read] at again
      cases again
      exact parts.2.1

theorem rid_of_readLsu {rid : UInt32} (isRid : read32 packet (MOSPF_OFFSET + 4) = some rid)
    {lsu : MospfLsu} (read : readLsu packet = some lsu) : lsu.rid = rid :=
  Option.some.inj ((readLsu_fields read).1.symm.trans isRid)

theorem lsuInside_own (free : daemon.mospfLock = false) (readers : ReadersInside daemon.mospfDb)
    (own : read32 packet (MOSPF_OFFSET + 4) = some daemon.routerId) :
    LsuInside mac rand daemon index packet now ↔ LsuFits daemon index packet := by
  have vacuous : ∀ lsu, readLsu packet = some lsu → ¬ lsu.rid ≠ daemon.routerId :=
    fun lsu read foreign => foreign (rid_of_readLsu own read)
  apply iff_of_true
  · refine ⟨⟨_, [], handleLsuPacket_own free own, readers⟩, ?_⟩
    exact fun lsu read foreign => absurd foreign (vacuous lsu read)
  · exact ⟨(exists_read32_iff packet _).mp ⟨_, own⟩, fun foreign => absurd own foreign,
      fun lsu read foreign => absurd foreign (vacuous lsu read),
      fun lsu read foreign => absurd foreign (vacuous lsu read),
      fun lsu read foreign => absurd foreign (vacuous lsu read)⟩

theorem lsuInside_unreadable {rid : UInt32} (free : daemon.mospfLock = false)
    (isRid : read32 packet (MOSPF_OFFSET + 4) = some rid) (foreign : rid ≠ daemon.routerId)
    (unreadable : readLsu packet = none) :
    LsuInside mac rand daemon index packet now ↔ LsuFits daemon index packet := by
  apply iff_of_false
  · intro inside
    obtain ⟨next, sent, success, -⟩ := inside.handled
    rw [handleLsuPacket_foreign free isRid foreign, unreadable] at success
    cases success
  · intro fits
    have different : read32 packet (MOSPF_OFFSET + 4) ≠ some daemon.routerId := by
      rw [isRid]
      exact fun same => foreign (Option.some.inj same)
    cases (exists_readLsu_iff packet).mpr (fits.foreign different) with
    | intro lsu found =>
      rw [unreadable] at found
      cases found

theorem lsuInside_iff (free : daemon.mospfLock = false) (readers : ReadersInside daemon.mospfDb) :
    LsuInside mac rand daemon index packet now ↔ LsuFits daemon index packet := by
  cases isRid : read32 packet (MOSPF_OFFSET + 4) with
  | none =>
    apply iff_of_false
    · intro inside
      obtain ⟨next, sent, success, -⟩ := inside.handled
      simp [handleLsuPacket, free, isRid] at success
    · intro fits
      cases (exists_read32_iff packet (MOSPF_OFFSET + 4)).mpr fits.header with
      | intro rid found =>
        rw [isRid] at found
        cases found
  | some rid =>
    by_cases own : rid = daemon.routerId
    · rw [own] at isRid
      exact lsuInside_own free readers isRid
    · cases read : readLsu packet with
      | none => exact lsuInside_unreadable free isRid own read
      | some lsu =>
        have foreign : lsu.rid ≠ daemon.routerId := by
          rw [rid_of_readLsu isRid read]
          exact own
        have size := (exists_readLsu_iff packet).mp ⟨lsu, read⟩
        rw [lsuInside_foreign free read foreign, lsuFits_foreign read foreign,
          exists_floodPacket_iff lsu.ttl size]
        constructor
        · intro parts
          exact ⟨(exists_recordLsu_iff readers parts.2.2).mp parts.1, parts.2⟩
        · intro parts
          exact ⟨(exists_recordLsu_iff readers parts.2.2).mpr parts.1, parts.2⟩

/-- For a frame that passes the checks the handling stays inside exactly when its lengths and
counts fit. -/
theorem staysInside_iff (daemon : Daemon) (event : Event) (readers : ReadersInside daemon.mospfDb) :
    StaysInside daemon event ↔ Fits daemon event := by
  cases event with
  | checkDatabase now => exact Iff.rfl
  | other next => exact Iff.rfl
  | frame mac rand index packet behind now =>
    apply forall_congr'
    intro mospf
    apply imp_congr_right
    intro passes
    apply and_congr (exists_mospfChecksum_fits mospf packet)
    apply imp_congr_right
    intro isLsu
    apply imp_congr_right
    intro free
    exact lsuInside_iff free readers

theorem readersInside_checkDatabase {next : Daemon} (readers : ReadersInside daemon.mospfDb)
    (taken : receive daemon (.checkDatabase now) = some next) : ReadersInside next.mospfDb := by
  obtain ⟨done, checked, rfl⟩ := Option.map_eq_some_iff.mp taken
  unfold Daemon.locked at checked
  split_ifs at checked with held
  obtain ⟨rtable, same⟩ := checkingDatabase_eq now { daemon with mospfLock := true }
  simp only [same, Option.map_some, Option.some.injEq] at checked
  rw [← checked]
  constructor
  · exact fun entry member => readers.1 entry (List.mem_of_mem_filter member)
  · exact fun entry member => readers.2 entry (List.mem_of_mem_filter member)

/-- What is demanded of an event keeps the readers inside the arrays. -/
theorem readersInside_receive {event : Event} {next : Daemon}
    (readers : ReadersInside daemon.mospfDb) (inside : StaysInside daemon event)
    (taken : receive daemon event = some next) : ReadersInside next.mospfDb := by
  cases event with
  | checkDatabase now => exact readersInside_checkDatabase readers taken
  | other changed =>
    change (if changed.mospfDb = daemon.mospfDb then some changed else none) = some next at taken
    split_ifs at taken with same
    rw [← Option.some.inj taken, same]
    exact readers
  | frame mac rand index packet behind now =>
    unfold receive at taken
    cases header : headerOffset (packet ++ behind) with
    | none =>
      simp only [header, Option.some.injEq] at taken
      rw [← taken]
      exact readers
    | some mospf =>
      simp only [header] at taken
      split_ifs at taken with accepted
      · obtain ⟨result, handled, isNext⟩ := Option.map_eq_some_iff.mp taken
        cases lock : daemon.mospfLock with
        | true => simp [handleLsuPacket, lock] at handled
        | false =>
          obtain ⟨after, sent, again, kept⟩ :=
            ((inside mospf accepted.1).2 accepted.2 lock).handled
          rw [again] at handled
          rw [← isNext, ← Option.some.inj handled]
          exact kept
      · rw [← Option.some.inj taken]
        exact readers

end OneFrame

/-- In every run from an empty database the handling of LSUs stays inside the packets and the
arrays as long as the lengths and counts of the frames fit, and no longer. -/
theorem lsu_handling_inside_iff (daemon : Daemon) (events : List Event) :
    Guarded receive StaysInside { daemon with mospfDb := [] } events ↔
      Guarded receive Fits { daemon with mospfDb := [] } events := by
  have kept : ∀ daemon event next, ReadersInside (Daemon.mospfDb daemon) →
      StaysInside daemon event → receive daemon event = some next →
        ReadersInside next.mospfDb :=
    fun daemon event next readers inside taken => readersInside_receive readers inside taken
  apply guarded_congr_kept receive kept staysInside_iff events
  constructor
  · intro entry member
    cases member
  · intro entry member
    cases member

def shortLsu : List UInt8 :=
  List.replicate 14 0 ++ (0x45 :: List.replicate 19 0) ++
    [2, 4, 0, 24, 10, 0, 3, 3, 0, 0, 0, 0, 0xee, 0xde, 0, 0] ++ [0, 1, 2, 0, 0, 0, 0, 1]

def lonelyRouter : Daemon :=
  { routerId := 0x0a000101, sequenceNum := 0, ifaceList := [], mospfDb := [], rtable := [],
    globals := zeroGlobals, mospfLock := false }

/-- The LSA is read from behind the packet. -/
theorem short_lsu_leaves_packet :
    ¬ ∀ (daemon : Daemon) (events : List Event),
      Guarded receive StaysInside { daemon with mospfDb := [] } events := by
  intro inside
  have guarded := inside lonelyRouter
    [.frame (fun _ => Vector.replicate 6 0) (fun _ => 0) 0 shortLsu [] 0]
  have readers : ReadersInside lonelyRouter.mospfDb := by
    constructor
    · intro entry member
      cases member
    · intro entry member
      cases member
  have fits := (staysInside_iff lonelyRouter _ readers).mp guarded.1
  have passes : Passes (shortLsu ++ []) MOSPF_OFFSET := by decide
  have lsuFits := (fits MOSPF_OFFSET passes).2 (by decide) rfl
  have counted := lsuFits.counted { rid := 0x0a000303, seq := 1, ttl := 2, nadv := 1, lsas := [] }
    (by decide) (by decide) (by decide)
  revert counted
  decide

end NetworkLab.Mospf
