import NetworkLab.Mospf.LsuRoundTrip
import NetworkLab.Mospf.Neighbours

/-!
# Sequence numbers

One router originates LSUs, another receives every one of them, with LSUs of further routers
in between.  `handle_mospf_lsu` writes `seq` and `nadv` only into a new entry, so the entry
keeps those of the first LSU, whose `seq` is zero.
-/
set_option autoImplicit false

namespace NetworkLab.Mospf

open Lib.Run

/-- `handle_mospf_lsu` up to the copies that it forwards. -/
def receiveLsu (daemon : Daemon) (lsu : MospfLsu) (now : Int) : Option Daemon :=
  if daemon.mospfLock then none
  else if daemon.routerId = lsu.rid then some { daemon with mospfLock := true }
  else (recordLsu lsu now daemon.mospfDb).map fun db => { daemon with mospfDb := db }

theorem receiveLsu_of_packet {mac : Mac} {rand : Nat → UInt16} {daemon next : Daemon}
    {index : Nat} {packet : List UInt8} {lsu : MospfLsu} {now : Int} {sent : List IpSent}
    (read : readLsu packet = some lsu)
    (handled : handleLsuPacket mac rand daemon index packet now = some (next, sent)) :
    receiveLsu daemon lsu now = some next := by
  unfold handleLsuPacket at handled
  split_ifs at handled with held
  obtain ⟨isRid, -, -⟩ := readLsu_fields read
  rw [isRid, read, Option.bind_eq_bind, Option.bind_some] at handled
  rw [receiveLsu, if_neg held]
  split_ifs at handled ⊢ with own
  · obtain ⟨rfl, -⟩ := Prod.mk.inj (Option.some.inj handled)
    rfl
  · rw [Option.bind_eq_bind, Option.bind_some] at handled
    obtain ⟨db, recorded, handled⟩ := Option.bind_eq_some_iff.mp handled
    obtain ⟨copies, -, handled⟩ := Option.bind_eq_some_iff.mp handled
    obtain ⟨rfl, -⟩ := Prod.mk.inj (Option.some.inj handled)
    rw [recorded]
    rfl

/-- The interfaces when an LSU is originated: the counters are right, as after every run from
`mospf_init`, and an `int` holds the number of LSAs. -/
structure Originated where
  ifaceList : List Interface
  counted : ∀ iface ∈ ifaceList, iface.numNbr = iface.nbrList.length
  few : (ifaceList.flatMap advertisedLsas).length < 2147483648

def Originated.lsas (originated : Originated) : List MospfLsa :=
  originated.ifaceList.flatMap advertisedLsas

structure Pair where
  originator : Daemon
  receiver : Daemon
  sent : List (List MospfLsa)

inductive PairEvent where
  | originate (originated : Originated) (ttl : UInt8) (now : Int)
  | other (lsu : MospfLsu) (now : Int)

def Pair.lsu (pair : Pair) (originated : Originated) (ttl : UInt8) : MospfLsu :=
  { originatedLsu { pair.originator with ifaceList := originated.ifaceList } with ttl := ttl }

def pairStep (pair : Pair) : PairEvent → Option Pair
  | .originate originated ttl now =>
    (receiveLsu pair.receiver (pair.lsu originated ttl) now).map fun receiver =>
      { originator :=
          { pair.originator with
            ifaceList := originated.ifaceList,
            sequenceNum := pair.originator.sequenceNum + 1 },
        receiver := receiver, sent := originated.lsas :: pair.sent }
  | .other lsu now =>
    if lsu.rid = pair.originator.routerId then none
    else (receiveLsu pair.receiver lsu now).map fun receiver => { pair with receiver := receiver }

/-- There is an entry for a router, and every such entry meets `condition`. -/
def EntryFor (db : List MospfDbEntry) (rid : UInt32) (condition : MospfDbEntry → Prop) : Prop :=
  (∃ entry ∈ db, entry.rid = rid) ∧ ∀ entry ∈ db, entry.rid = rid → condition entry

theorem EntryFor.mono {db : List MospfDbEntry} {rid : UInt32} {C D : MospfDbEntry → Prop}
    (entry : EntryFor db rid C) (implied : ∀ entry, C entry → D entry) : EntryFor db rid D :=
  ⟨entry.1, fun entry' member same => implied entry' (entry.2 entry' member same)⟩

def HasNewest (pair : Pair) : Prop :=
  ∀ lsas ∈ pair.sent.head?, EntryFor pair.receiver.mospfDb pair.originator.routerId fun entry =>
    entry.array = lsas

/-- The receiver has the LSAs of the newest LSU, and counts them right. -/
def HasNewestCounted (pair : Pair) : Prop :=
  ∀ lsas ∈ pair.sent.head?, EntryFor pair.receiver.mospfDb pair.originator.routerId fun entry =>
    entry.array = lsas ∧ entry.nadv = lsas.length

/-- The LSAs that the receiver holds: an LSU after the first whose number is a multiple of
65536 is taken for an old one. -/
def heldLsas : List (List MospfLsa) → List MospfLsa
  | [] => []
  | lsas :: earlier =>
    if earlier ≠ [] ∧ earlier.length % 65536 = 0 then heldLsas earlier else lsas

structure Numbered (pair : Pair) : Prop where
  number : pair.originator.sequenceNum = UInt16.ofNat pair.sent.length
  foreign : pair.receiver.routerId ≠ pair.originator.routerId
  unheard : pair.sent = [] →
    ∀ entry ∈ pair.receiver.mospfDb, entry.rid ≠ pair.originator.routerId
  heard : ∀ first ∈ pair.sent.getLast?,
    EntryFor pair.receiver.mospfDb pair.originator.routerId fun entry =>
      entry.seq = 0 ∧ entry.nadv = first.length ∧ entry.array = heldLsas pair.sent

section Receiving

variable {lsu : MospfLsu} {now : Int} {db grown : List MospfDbEntry} {rid : UInt32}

theorem forall_recordLsu_other {C : MospfDbEntry → Prop} (other : lsu.rid ≠ rid)
    (recorded : recordLsu lsu now db = some grown) :
    (∀ entry ∈ grown, entry.rid = rid → C entry) ↔ ∀ entry ∈ db, entry.rid = rid → C entry := by
  rw [recordLsu_eq] at recorded
  obtain ⟨updated, rounds, recorded⟩ := Option.bind_eq_some_iff.mp recorded
  have old : (∀ entry ∈ updated, entry.rid = rid → C entry) ↔
      ∀ entry ∈ db, entry.rid = rid → C entry := by
    apply forall_of_mapM _ rounds
    intro entry _ next round
    by_cases same : lsu.rid = entry.rid
    · have kept := (updateDbEntry_some round).1
      have foreign : entry.rid ≠ rid := same ▸ other
      exact iff_of_true (fun isRid => absurd (kept ▸ isRid) foreign)
        fun isRid => absurd isRid foreign
    · rw [updateDbEntry, if_neg fun both => same both.1, if_neg fun both => same both.1] at round
      rw [Option.some.inj round]
  split_ifs at recorded
  · rw [← Option.some.inj recorded]
    exact old
  · obtain ⟨new, isNew, rfl⟩ := Option.map_eq_some_iff.mp recorded
    obtain ⟨array, -, rfl⟩ := Option.map_eq_some_iff.mp isNew
    rw [List.forall_mem_append, old, List.forall_mem_singleton]
    exact and_iff_left fun isRid => absurd isRid other

theorem entryFor_recordLsu_other {C : MospfDbEntry → Prop} (other : lsu.rid ≠ rid)
    (recorded : recordLsu lsu now db = some grown) (entry : EntryFor db rid C) :
    EntryFor grown rid C := by
  refine ⟨?_, (forall_recordLsu_other other recorded).mpr entry.2⟩
  by_contra none
  have absent : ∀ entry ∈ grown, entry.rid = rid → False := by simpa using none
  obtain ⟨old, member, isRid⟩ := entry.1
  exact (forall_recordLsu_other other recorded).mp absent old member isRid

theorem entryFor_grownDb_new (now : Int) (new : ∀ entry ∈ db, entry.rid ≠ lsu.rid) :
    EntryFor (grownDb lsu now db) lsu.rid fun entry =>
      entry.seq = lsu.seq ∧ entry.nadv = lsu.nadvInt ∧ entry.array = lsu.lsas := by
  rw [grownDb_new lsu new]
  refine ⟨⟨_, List.mem_append_right _ (List.mem_singleton_self _), rfl⟩, ?_⟩
  rw [List.forall_mem_append, List.forall_mem_singleton]
  refine ⟨fun entry member same => absurd same (new entry member), fun _ => ⟨rfl, rfl, rfl⟩⟩

theorem entryFor_grownDb_old (lsu : MospfLsu) {C : MospfDbEntry → Prop} (now : Int)
    (entry : EntryFor db lsu.rid C) :
    EntryFor (grownDb lsu now db) lsu.rid fun entry => ∃ old, C old ∧
      entry.seq = old.seq ∧ entry.nadv = old.nadv ∧
      entry.array = if old.seq < lsu.seq then lsu.lsas else old.array := by
  obtain ⟨⟨old, member, isRid⟩, all⟩ := entry
  have known : db.any fun entry => lsu.rid == entry.rid :=
    List.any_eq_true.mpr ⟨old, member, by simp [isRid]⟩
  rw [grownDb, if_pos known]
  refine ⟨⟨refreshed lsu now old, List.mem_map_of_mem member, ?_⟩, ?_⟩
  · rw [refreshed_rid, isRid]
  · rw [List.forall_mem_map]
    intro before beforeMember same
    rw [refreshed_rid] at same
    refine ⟨before, all before beforeMember same, refreshed_seq .., refreshed_nadv .., ?_⟩
    unfold refreshed
    by_cases newer : before.seq < lsu.seq
    · rw [if_pos ⟨same.symm, newer⟩, if_pos newer]
    · rw [if_neg fun both => newer both.2, if_neg newer]

end Receiving

section Steps

variable {pair next : Pair}

theorem seq_pos_iff (n : Nat) : (0 : UInt16) < UInt16.ofNat n ↔ n % 65536 ≠ 0 := by
  rw [UInt16.lt_iff_toNat_lt, UInt16.toNat_ofNat', UInt16.toNat_zero]
  omega

theorem lsu_wellFormed (pair : Pair) (originated : Originated) (ttl : UInt8) :
    (pair.lsu originated ttl).WellFormed :=
  originatedLsu_wellFormed originated.counted originated.few

theorem pairStep_originate (numbered : Numbered pair) (originated : Originated) (ttl : UInt8)
    (now : Int) :
    pairStep pair (.originate originated ttl now) = if pair.receiver.mospfLock then none else
      some
        { originator :=
            { pair.originator with
              ifaceList := originated.ifaceList,
              sequenceNum := pair.originator.sequenceNum + 1 },
          receiver :=
            { pair.receiver with
              mospfDb := grownDb (pair.lsu originated ttl) now pair.receiver.mospfDb },
          sent := originated.lsas :: pair.sent } := by
  have foreign : pair.receiver.routerId ≠ (pair.lsu originated ttl).rid := numbered.foreign
  rw [pairStep, receiveLsu, recordLsu_wellFormed (lsu_wellFormed pair originated ttl)]
  simp only [if_neg foreign]
  split_ifs <;> rfl

theorem heldLsas_cons (lsas newest : List MospfLsa) (earlier : List (List MospfLsa)) :
    heldLsas (lsas :: newest :: earlier) =
      if (0 : UInt16) < UInt16.ofNat (newest :: earlier).length then lsas
      else heldLsas (newest :: earlier) := by
  rw [heldLsas]
  by_cases multiple : (newest :: earlier).length % 65536 = 0
  · rw [if_pos ⟨List.cons_ne_nil _ _, multiple⟩,
      if_neg fun positive => (seq_pos_iff _).mp positive multiple]
  · rw [if_neg fun both => multiple both.2, if_pos ((seq_pos_iff _).mpr multiple)]

theorem Numbered.originate (numbered : Numbered pair) {originated : Originated} {ttl : UInt8}
    {now : Int} (taken : pairStep pair (.originate originated ttl now) = some next) :
    Numbered next ∧ next.sent = originated.lsas :: pair.sent := by
  rw [pairStep_originate numbered] at taken
  split_ifs at taken
  rw [← Option.some.inj taken]
  have nadv : (pair.lsu originated ttl).nadvInt = originated.lsas.length :=
    lsu_wellFormed pair originated ttl
  have seq : (pair.lsu originated ttl).seq = UInt16.ofNat pair.sent.length := numbered.number
  refine ⟨⟨?_, numbered.foreign, fun none => absurd none (List.cons_ne_nil _ _), ?_⟩, rfl⟩
  · show pair.originator.sequenceNum + 1 = UInt16.ofNat (pair.sent.length + 1)
    rw [numbered.number, UInt16.ofNat_add]
    rfl
  · show ∀ first ∈ (originated.lsas :: pair.sent).getLast?, EntryFor
      (grownDb (pair.lsu originated ttl) now pair.receiver.mospfDb) pair.originator.routerId
      fun entry => entry.seq = 0 ∧ entry.nadv = first.length ∧
        entry.array = heldLsas (originated.lsas :: pair.sent)
    intro first isFirst
    cases earlier : pair.sent with
    | nil =>
      rw [earlier] at isFirst seq
      have only : originated.lsas = first := by simpa using isFirst
      apply (entryFor_grownDb_new now (numbered.unheard earlier)).mono
      rintro entry ⟨isSeq, isNadv, isArray⟩
      rw [isSeq, isNadv, isArray, seq, nadv, ← only]
      exact ⟨rfl, rfl, rfl⟩
    | cons newest others =>
      rw [earlier] at isFirst seq
      rw [List.getLast?_cons_cons] at isFirst
      have heard := numbered.heard first (by rw [earlier]; exact isFirst)
      apply (entryFor_grownDb_old (pair.lsu originated ttl) now heard).mono
      rintro entry ⟨old, ⟨oldSeq, oldNadv, oldArray⟩, isSeq, isNadv, isArray⟩
      rw [isSeq, isNadv, isArray, oldSeq, oldNadv, oldArray, seq, earlier, heldLsas_cons]
      exact ⟨rfl, rfl, rfl⟩

theorem Numbered.other (numbered : Numbered pair) {lsu : MospfLsu} {now : Int}
    (taken : pairStep pair (.other lsu now) = some next) :
    Numbered next ∧ next.sent = pair.sent := by
  rw [pairStep] at taken
  split_ifs at taken with foreign
  obtain ⟨receiver, received, rfl⟩ := Option.map_eq_some_iff.mp taken
  refine ⟨?_, rfl⟩
  unfold receiveLsu at received
  split_ifs at received
  · rw [← Option.some.inj received]
    exact ⟨numbered.number, numbered.foreign, numbered.unheard, numbered.heard⟩
  · obtain ⟨db, recorded, rfl⟩ := Option.map_eq_some_iff.mp received
    refine ⟨numbered.number, numbered.foreign, ?_, ?_⟩
    · intro none entry member same
      have unheard := (forall_recordLsu_other (C := fun _ => False) foreign recorded).mpr
        (numbered.unheard none)
      exact unheard entry member same
    · intro first isFirst
      exact entryFor_recordLsu_other foreign recorded (numbered.heard first isFirst)

theorem Numbered.step (numbered : Numbered pair) {event : PairEvent}
    (taken : pairStep pair event = some next) : Numbered next := by
  cases event with
  | originate originated ttl now => exact (numbered.originate taken).1
  | other lsu now => exact (numbered.other taken).1

/-- What the entry says about the newest LSU, as a fact about the LSUs alone. -/
theorem entryFor_iff (numbered : Numbered pair) {C : MospfDbEntry → Prop} {first : List MospfLsa}
    {D : Prop} (isFirst : pair.sent.getLast? = some first)
    (same : ∀ entry : MospfDbEntry, entry.seq = 0 ∧ entry.nadv = first.length ∧
      entry.array = heldLsas pair.sent → (C entry ↔ D)) :
    EntryFor pair.receiver.mospfDb pair.originator.routerId C ↔ D := by
  have heard := numbered.heard first isFirst
  constructor
  · intro entry
    obtain ⟨old, member, isRid⟩ := heard.1
    exact (same old (heard.2 old member isRid)).mp (entry.2 old member isRid)
  · intro holds
    exact heard.mono fun entry facts => (same entry facts).mpr holds

theorem forall_mem_some {α : Type} {a : α} {P : α → Prop} : (∀ x ∈ some a, P x) ↔ P a := by
  simp

theorem exists_first {newest : List MospfLsa} (isNewest : pair.sent.head? = some newest) :
    ∃ first, pair.sent.getLast? = some first := by
  obtain ⟨earlier, all⟩ := List.head?_eq_some_iff.mp isNewest
  apply Option.isSome_iff_exists.mp
  rw [List.getLast?_isSome, all]
  exact List.cons_ne_nil newest earlier

theorem hasNewest_iff (numbered : Numbered pair) :
    HasNewest pair ↔ ∀ newest ∈ pair.sent.head?, heldLsas pair.sent = newest := by
  apply forall₂_congr
  intro newest isNewest
  obtain ⟨first, isFirst⟩ := exists_first isNewest
  apply entryFor_iff numbered isFirst
  rintro entry ⟨-, -, isArray⟩
  rw [isArray]

theorem hasNewestCounted_iff (numbered : Numbered pair) :
    HasNewestCounted pair ↔ ∀ newest ∈ pair.sent.head?, heldLsas pair.sent = newest ∧
      ∀ first ∈ pair.sent.getLast?, first.length = newest.length := by
  apply forall₂_congr
  intro newest isNewest
  obtain ⟨first, isFirst⟩ := exists_first isNewest
  rw [isFirst, forall_mem_some]
  apply entryFor_iff numbered isFirst
  rintro entry ⟨-, isNadv, isArray⟩
  rw [isArray, isNadv, Int.natCast_inj]

end Steps

section Runs

/-- The LSU whose number is a multiple of 65536, after the first, repeats the one before. -/
def RepeatsAtWrap (pair : Pair) : PairEvent → Prop
  | .originate originated _ _ => pair.receiver.mospfLock = false →
    pair.sent.length % 65536 = 0 → ∀ newest ∈ pair.sent.head?, originated.lsas = newest
  | .other _ _ => True

/-- The LSU has as many LSAs as the first one. -/
def SameCount (pair : Pair) : PairEvent → Prop
  | .originate originated _ _ => pair.receiver.mospfLock = false →
    ∀ first ∈ pair.sent.getLast?, originated.lsas.length = first.length
  | .other _ _ => True

variable {pair next : Pair} {event : PairEvent}

/-- A step that is not taken is one of a receiver that waits for its lock, or no step. -/
theorem stuck_conditions (numbered : Numbered pair) (stuck : pairStep pair event = none) :
    RepeatsAtWrap pair event ∧ SameCount pair event := by
  cases event with
  | other lsu now => exact ⟨trivial, trivial⟩
  | originate originated ttl now =>
    rw [pairStep_originate numbered] at stuck
    split_ifs at stuck with held
    exact ⟨fun free => absurd held (by simp [free]), fun free => absurd held (by simp [free])⟩

theorem originate_free (numbered : Numbered pair) {originated : Originated} {ttl : UInt8}
    {now : Int} (taken : pairStep pair (.originate originated ttl now) = some next) :
    pair.receiver.mospfLock = false := by
  rw [pairStep_originate numbered] at taken
  split_ifs at taken with held
  exact Bool.not_eq_true _ ▸ held

theorem heldLsas_newest_iff {sent : List (List MospfLsa)} {lsas : List MospfLsa}
    (has : ∀ newest ∈ sent.head?, heldLsas sent = newest) :
    heldLsas (lsas :: sent) = lsas ↔
      (sent.length % 65536 = 0 → ∀ newest ∈ sent.head?, lsas = newest) := by
  cases sent with
  | nil => exact iff_of_true rfl fun _ newest none => absurd none (by simp)
  | cons newest earlier =>
    have held : heldLsas (newest :: earlier) = newest := has newest rfl
    rw [heldLsas, List.head?_cons, forall_mem_some]
    by_cases multiple : (newest :: earlier).length % 65536 = 0
    · rw [if_pos ⟨List.cons_ne_nil _ _, multiple⟩, held]
      exact ⟨fun same _ => same.symm, fun same => (same multiple).symm⟩
    · rw [if_neg fun both => multiple both.2]
      exact iff_of_true rfl fun wraps => absurd wraps multiple

theorem hasNewest_next_iff (numbered : Numbered pair) (has : HasNewest pair)
    (taken : pairStep pair event = some next) : HasNewest next ↔ RepeatsAtWrap pair event := by
  cases event with
  | other lsu now =>
    obtain ⟨later, same⟩ := numbered.other taken
    rw [hasNewest_iff numbered] at has
    rw [hasNewest_iff later, same]
    exact iff_of_true has trivial
  | originate originated ttl now =>
    have free := originate_free numbered taken
    obtain ⟨later, more⟩ := numbered.originate taken
    rw [hasNewest_iff numbered] at has
    rw [hasNewest_iff later, more, List.head?_cons, forall_mem_some]
    exact (heldLsas_newest_iff has).trans (by simp [RepeatsAtWrap, free])

theorem hasNewestCounted_next_iff (numbered : Numbered pair) (has : HasNewestCounted pair)
    (taken : pairStep pair event = some next) :
    HasNewestCounted next ↔ RepeatsAtWrap pair event ∧ SameCount pair event := by
  cases event with
  | other lsu now =>
    obtain ⟨later, same⟩ := numbered.other taken
    rw [hasNewestCounted_iff numbered] at has
    rw [hasNewestCounted_iff later, same]
    exact iff_of_true has ⟨trivial, trivial⟩
  | originate originated ttl now =>
    have free := originate_free numbered taken
    obtain ⟨later, more⟩ := numbered.originate taken
    rw [hasNewestCounted_iff numbered] at has
    rw [hasNewestCounted_iff later, more, List.head?_cons, forall_mem_some]
    apply and_congr
    · exact (heldLsas_newest_iff fun newest isNewest => (has newest isNewest).1).trans
        (by simp [RepeatsAtWrap, free])
    · rw [SameCount, imp_iff_right free]
      cases pair.sent with
      | nil => simp
      | cons newest earlier =>
        rw [List.getLast?_cons_cons]
        exact forall₂_congr fun first _ => eq_comm

/-- The routers after `mospf_init` of the originator. -/
def startPair (first : FoundIface) (rest : List FoundIface) (rtable : List RtEntry)
    (globals : Globals) (receiver : Daemon) : Pair :=
  { originator := mospfInit first rest rtable globals, receiver := receiver, sent := [] }

theorem numbered_startPair (first : FoundIface) (rest : List FoundIface) (rtable : List RtEntry)
    (globals : Globals) {receiver : Daemon} (empty : receiver.mospfDb = [])
    (different : receiver.routerId ≠ first.ip) :
    Numbered (startPair first rest rtable globals receiver) where
  number := rfl
  foreign := different
  unheard := fun _ entry member => by simp [startPair, empty] at member
  heard := fun _ none => absurd none (by simp [startPair])

/-- From `mospf_init` on, the receiver has the newest LSAs as long as every 65536th LSU
repeats the one before, and counts them right as long as their number never changes. -/
theorem sequence_wrap (first : FoundIface) (rest : List FoundIface) (rtable : List RtEntry)
    (globals : Globals) (receiver : Daemon) (empty : receiver.mospfDb = [])
    (different : receiver.routerId ≠ first.ip) (events : List PairEvent) :
    (Always pairStep HasNewest (startPair first rest rtable globals receiver) events ↔
      Guarded pairStep RepeatsAtWrap (startPair first rest rtable globals receiver) events) ∧
    (Always pairStep HasNewestCounted (startPair first rest rtable globals receiver) events ↔
      Guarded pairStep (fun pair event => RepeatsAtWrap pair event ∧ SameCount pair event)
        (startPair first rest rtable globals receiver) events) := by
  have numbered := numbered_startPair first rest rtable globals empty different
  have preserved : ∀ pair event next, Numbered pair → pairStep pair event = some next →
      Numbered next := fun pair event next numbered taken => numbered.step taken
  constructor
  · have kept : ∀ pair event next, Numbered pair → HasNewest pair →
        pairStep pair event = some next → (HasNewest next ↔ RepeatsAtWrap pair event) :=
      fun pair event next numbered has taken => hasNewest_next_iff numbered has taken
    apply always_iff_guarded pairStep preserved kept _ events numbered
    · exact fun newest none => absurd none (by simp [startPair])
    · exact fun pair event numbered stuck => (stuck_conditions numbered stuck).1
  · have kept : ∀ pair event next, Numbered pair → HasNewestCounted pair →
        pairStep pair event = some next →
        (HasNewestCounted next ↔ RepeatsAtWrap pair event ∧ SameCount pair event) :=
      fun pair event next numbered has taken => hasNewestCounted_next_iff numbered has taken
    apply always_iff_guarded pairStep preserved kept _ events numbered
    · exact fun newest none => absurd none (by simp [startPair])
    · exact fun pair event numbered stuck => stuck_conditions numbered stuck

theorem exists_run_same (numbered : Numbered pair) (free : pair.receiver.mospfLock = false)
    {originated : Originated} (events : List PairEvent)
    (same : ∀ event ∈ events, ∃ ttl now, event = .originate originated ttl now) :
    ∃ final, run pairStep pair events = some final ∧ Numbered final ∧
      final.receiver.mospfLock = false ∧
      final.sent = List.replicate events.length originated.lsas ++ pair.sent := by
  induction events generalizing pair with
  | nil => exact ⟨pair, rfl, numbered, free, rfl⟩
  | cons event rest ih =>
    rw [List.forall_mem_cons] at same
    obtain ⟨⟨ttl, now, rfl⟩, others⟩ := same
    obtain ⟨next, taken, nextFree⟩ : ∃ next,
        pairStep pair (.originate originated ttl now) = some next ∧
          next.receiver.mospfLock = false := by
      rw [pairStep_originate numbered, if_neg (by simp [free])]
      exact ⟨_, rfl, free⟩
    obtain ⟨later, more⟩ := numbered.originate taken
    obtain ⟨final, ran, held, finalFree, all⟩ := ih later nextFree others
    refine ⟨final, ?_, held, finalFree, ?_⟩
    · rw [run_cons, taken]
      exact ran
    · rw [all, more, List.length_cons, List.replicate_succ', List.append_assoc]
      rfl

/-- The 65536th LSU after the same LSAs again and again brings others. -/
theorem not_always_hasNewest (numbered : Numbered pair) (free : pair.receiver.mospfLock = false)
    (none : pair.sent = []) {before after : Originated} (different : before.lsas ≠ after.lsas)
    {events : List PairEvent} (count : events.length = 65536)
    (same : ∀ event ∈ events, ∃ ttl now, event = .originate before ttl now) (ttl : UInt8)
    (now : Int) :
    ¬ Always pairStep HasNewest pair (events ++ [.originate after ttl now]) := by
  obtain ⟨middle, ran, held, middleFree, all⟩ := exists_run_same numbered free events same
  obtain ⟨final, taken⟩ : ∃ final, pairStep middle (.originate after ttl now) = some final := by
    rw [pairStep_originate held, if_neg (by simp [middleFree])]
    exact ⟨_, rfl⟩
  obtain ⟨later, more⟩ := held.originate taken
  rw [all, none, count, List.append_nil] at more
  intro always
  have newest := always_last pairStep _ always (show run pairStep pair _ = some final by
    rw [run_append, ran, Option.bind_some, run_cons, taken]
    rfl)
  rw [hasNewest_iff later, more, List.head?_cons, forall_mem_some,
    show (65536 : Nat) = 65535 + 1 from rfl, List.replicate_succ, heldLsas_cons,
    List.length_cons, List.length_replicate, if_neg (by decide), heldLsas, List.length_replicate,
    if_neg fun both => absurd both.2 (by decide)] at newest
  exact different newest

def neighbour (id : UInt32) : MospfNbr :=
  { nbrId := id, nbrIp := id, nbrMask := 0xffffff00, alive := 0 }

def oneNeighbour : Originated where
  ifaceList := [{ index := 0, ip := 0x0a000101, mask := 0xffffff00, name := "r1-eth0",
                  nbrList := [neighbour 0x0a000102], numNbr := 1 }]
  counted := by decide
  few := by decide

def twoNeighbours : Originated where
  ifaceList := [{ index := 0, ip := 0x0a000101, mask := 0xffffff00, name := "r1-eth0",
                  nbrList := [neighbour 0x0a000102, neighbour 0x0a000103], numNbr := 2 }]
  counted := by decide
  few := by decide

def foundEth0 (ip : UInt32) (name : String) : FoundIface :=
  { index := 0, ip := ip, mask := 0xffffff00, name := name }

def startedRouters : Pair :=
  startPair (foundEth0 0x0a000101 "r1-eth0") [] [] zeroGlobals
    (mospfInit (foundEth0 0x0a000102 "r2-eth0") [] [] zeroGlobals)

theorem numbered_startedRouters : Numbered startedRouters := by
  have different : (mospfInit (foundEth0 0x0a000102 "r2-eth0") [] [] zeroGlobals).routerId ≠
      (foundEth0 0x0a000101 "r1-eth0").ip := by decide
  exact numbered_startPair _ _ _ _ rfl different

/-- The LSU whose `seq` has wrapped to zero is ignored. -/
theorem wrapped_lsu_ignored :
    ¬ Always pairStep HasNewest startedRouters
      ((List.range 65536).map (fun k => .originate oneNeighbour 255 (30 * k)) ++
        [.originate twoNeighbours 255 (30 * 65536)]) := by
  have different : oneNeighbour.lsas ≠ twoNeighbours.lsas := by decide
  have same : ∀ event ∈ (List.range 65536).map fun k : Nat =>
      PairEvent.originate oneNeighbour 255 (30 * k),
      ∃ ttl now, event = .originate oneNeighbour ttl now := by
    intro event member
    obtain ⟨k, -, rfl⟩ := List.mem_map.mp member
    exact ⟨255, 30 * k, rfl⟩
  apply not_always_hasNewest numbered_startedRouters rfl rfl different _ same
  rw [List.length_map, List.length_range]

theorem sequence_wrap_second :
    Always pairStep HasNewest startedRouters
      [.originate oneNeighbour 255 30, .originate twoNeighbours 255 60] := by
  have second : Guarded pairStep RepeatsAtWrap startedRouters
      [.originate oneNeighbour 255 30, .originate twoNeighbours 255 60] := by
    refine ⟨fun _ _ newest none => absurd none (by simp [startedRouters, startPair]), ?_⟩
    intro next taken
    have sent := (numbered_startedRouters.originate taken).2
    refine ⟨fun _ multiple => ?_, fun _ _ => trivial⟩
    rw [sent] at multiple
    exact absurd multiple (by decide)
  exact (sequence_wrap (foundEth0 0x0a000101 "r1-eth0") [] [] zeroGlobals
    (mospfInit (foundEth0 0x0a000102 "r2-eth0") [] [] zeroGlobals) rfl (by decide) _).1.mpr second

end Runs

end NetworkLab.Mospf
