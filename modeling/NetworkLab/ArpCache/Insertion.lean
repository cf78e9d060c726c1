import Mathlib.Data.List.FinRange
import Mathlib.Logic.Function.Basic
import NetworkLab.ArpCache.PendingPackets

/-!
# Insertion into the ARP cache

The table of `arpcache.c` with `arpcache_lookup` and the whole of `arpcache_insert`.  The test
before the random replacement is the wrong way round: a free entry is not used, and a full table
is left on the side of the entry before the first.
-/
set_option autoImplicit false

namespace NetworkLab.ArpCache

abbrev MAX_ARP_SIZE : Nat := 32

structure ArpCacheEntry where
  ip4 : UInt32
  mac : Mac
  added : Int
  valid : Bool
deriving DecidableEq

/-- `arpcache_t`, without its lock and thread. -/
structure Cache where
  entries : Fin MAX_ARP_SIZE → ArpCacheEntry
  reqList : List ArpReq

/-- The locals of `arpcache_insert`; `written` are the indices of the entries written to. -/
structure Scan where
  entries : Fin MAX_ARP_SIZE → ArpCacheEntry
  pos : Int
  found : Bool
  written : List Int

structure Outcome where
  cache : Cache
  sent : List ArpEffect
  written : List Int

def ArpCacheEntry.Maps (ip4 : UInt32) (entry : ArpCacheEntry) : Prop :=
  entry.valid ∧ entry.ip4 = ip4

instance (ip4 : UInt32) (entry : ArpCacheEntry) : Decidable (entry.Maps ip4) :=
  inferInstanceAs (Decidable (_ ∧ _))

def arpcacheLookup (ip4 : UInt32) (cache : Cache) : Option Mac :=
  ((List.finRange MAX_ARP_SIZE).find? fun i => (cache.entries i).Maps ip4).map
    fun i => (cache.entries i).mac

section Insert

variable (now : Int) (ip4 : UInt32) (mac : Mac)

def scanEntry (scan : Scan) (i : Fin MAX_ARP_SIZE) : Scan :=
  let scan :=
    if (scan.entries i).Maps ip4 then
      { scan with
        entries := Function.update scan.entries i
          { scan.entries i with mac := mac, added := now }
        found := true
        written := scan.written ++ [(i.val : Int)] }
    else scan
  if (scan.entries i).valid then scan else { scan with pos := i.val }

/-- The write to `entries[pos]`, which may be outside. -/
def writeEntry (pos : Int) (entry : ArpCacheEntry) (scan : Scan) : Scan :=
  { scan with
    entries := fun i => if pos = (i.val : Int) then entry else scan.entries i
    written := scan.written ++ [pos] }

def scanEntries (entries : Fin MAX_ARP_SIZE → ArpCacheEntry) : Scan :=
  (List.finRange MAX_ARP_SIZE).foldl (scanEntry now ip4 mac)
    { entries := entries, pos := -1, found := false, written := [] }

/-- `rand` is what `rand()` returns. -/
def arpcacheInsert (rand : Nat) (cache : Cache) : Outcome :=
  let scan := scanEntries now ip4 mac cache.entries
  let scan :=
    if scan.found then scan
    else
      let pos := if scan.pos ≠ -1 then ((rand % MAX_ARP_SIZE : Nat) : Int) else scan.pos
      writeEntry pos { ip4 := ip4, mac := mac, added := now, valid := true } scan
  let (reqList, sent) := insertScan ip4 mac cache.reqList
  { cache := { entries := scan.entries, reqList := reqList }, sent := sent,
    written := scan.written }

end Insert

/-! ## What an insertion is for -/

def Cache.Unique (cache : Cache) : Prop :=
  ∀ i j, (cache.entries i).valid → (cache.entries j).Maps (cache.entries i).ip4 → i = j

def Cache.Knows (cache : Cache) (ip4 : UInt32) : Prop := ∃ i, (cache.entries i).Maps ip4

def Cache.HasFree (cache : Cache) : Prop := ∃ i, ¬ (cache.entries i).valid

structure Inserted (ip4 : UInt32) (mac : Mac) (before : Cache) (outcome : Outcome) : Prop where
  inside : ∀ k ∈ outcome.written, 0 ≤ k ∧ k < MAX_ARP_SIZE
  found : arpcacheLookup ip4 outcome.cache = some mac
  unique : outcome.cache.Unique
  /-- Nothing is lost while there is a place. -/
  kept : before.Knows ip4 ∨ before.HasFree →
    ∀ i, (before.entries i).valid → (before.entries i).ip4 ≠ ip4 →
      outcome.cache.entries i = before.entries i
  answered : ∀ req ∈ outcome.cache.reqList, req.ip4 ≠ ip4

def DrawsFree (ip4 : UInt32) (rand : Nat) (cache : Cache) : Prop :=
  cache.Knows ip4 ∨ ∃ i, i.val = rand % MAX_ARP_SIZE ∧ ¬ (cache.entries i).valid

def AskedOnce (ip4 : UInt32) (cache : Cache) : Prop :=
  cache.reqList.countP (fun req => req.ip4 = ip4) ≤ 1

section Requests

variable {ip4 : UInt32}

theorem insertScan_answers (mac : Mac) (reqList : List ArpReq) :
    (∀ req ∈ (insertScan ip4 mac reqList).1, req.ip4 ≠ ip4) ↔
      reqList.countP (fun req => req.ip4 = ip4) ≤ 1 := by
  induction reqList with
  | nil => simp [insertScan]
  | cons first rest ih =>
      rw [insertScan]
      by_cases same : first.ip4 = ip4
      · simp [same, List.countP_eq_zero]
      · simp [same, ih]

end Requests

section Entries

variable {now : Int} {ip4 : UInt32} {mac : Mac}

structure Scanned (now : Int) (ip4 : UInt32) (mac : Mac)
    (old : Fin MAX_ARP_SIZE → ArpCacheEntry) (done : List (Fin MAX_ARP_SIZE))
    (scan : Scan) : Prop where
  entries : ∀ i, scan.entries i =
    if i ∈ done ∧ (old i).Maps ip4 then { old i with mac := mac, added := now } else old i
  found : scan.found = true ↔ ∃ i ∈ done, (old i).Maps ip4
  full : scan.pos = -1 ↔ ∀ i ∈ done, (old i).valid
  inside : ∀ k ∈ scan.written, 0 ≤ k ∧ k < MAX_ARP_SIZE

variable {old : Fin MAX_ARP_SIZE → ArpCacheEntry} {done : List (Fin MAX_ARP_SIZE)} {scan : Scan}

theorem Scanned.next (scanned : Scanned now ip4 mac old done scan) {i : Fin MAX_ARP_SIZE}
    (fresh : i ∉ done) :
    Scanned now ip4 mac old (done ++ [i]) (scanEntry now ip4 mac scan i) := by
  have here : scan.entries i = old i := by simp [scanned.entries, fresh]
  have index : (i.val : Int) ≠ -1 := by omega
  by_cases maps : (old i).Maps ip4
  · have valid := maps.1
    have turn : scanEntry now ip4 mac scan i =
        { scan with
          entries := Function.update scan.entries i { old i with mac := mac, added := now }
          found := true
          written := scan.written ++ [(i.val : Int)] } := by
      simp [scanEntry, here, maps, valid]
    rw [turn]
    refine ⟨fun j => ?_, ?_, ?_, ?_⟩
    · by_cases same : j = i
      · subst same
        simp [maps]
      · simp [same, scanned.entries]
    · simp [maps]
    · simp [scanned.full, or_imp, forall_and, valid]
    · intro k member
      rcases List.mem_append.mp member with earlier | isNew
      · exact scanned.inside k earlier
      · rw [List.mem_singleton.mp isNew]
        exact ⟨by omega, by omega⟩
  · have same (j : Fin MAX_ARP_SIZE) : scan.entries j =
        if j ∈ done ++ [i] ∧ (old j).Maps ip4 then
          { old j with mac := mac, added := now } else old j := by
      by_cases isHere : j = i
      · subst isHere
        simp [here, maps]
      · simp [isHere, scanned.entries]
    have foundSame : scan.found = true ↔ ∃ j ∈ done ++ [i], (old j).Maps ip4 := by
      simp [scanned.found, or_and_right, exists_or, maps]
    by_cases valid : (old i).valid
    · have turn : scanEntry now ip4 mac scan i = scan := by
        simp [scanEntry, here, maps, valid]
      rw [turn]
      refine ⟨same, foundSame, ?_, scanned.inside⟩
      simp [scanned.full, or_imp, forall_and, valid]
    · have turn : scanEntry now ip4 mac scan i = { scan with pos := i.val } := by
        simp [scanEntry, here, maps, valid]
      rw [turn]
      refine ⟨same, foundSame, ?_, scanned.inside⟩
      simp only [index, false_iff]
      exact fun all => valid (all i (by simp))

theorem scanned_all (entries : Fin MAX_ARP_SIZE → ArpCacheEntry) :
    Scanned now ip4 mac entries (List.finRange MAX_ARP_SIZE) (scanEntries now ip4 mac entries) := by
  suffices scanned : ∀ done rest scan, (done ++ rest).Nodup →
      Scanned now ip4 mac entries done scan →
      Scanned now ip4 mac entries (done ++ rest) (rest.foldl (scanEntry now ip4 mac) scan) by
    refine scanned [] _ _ (List.nodup_finRange MAX_ARP_SIZE) ⟨by simp, by simp, by simp, by simp⟩
  intro done rest
  induction rest generalizing done with
  | nil =>
      intro scan _ scanned
      simpa using scanned
  | cons i rest ih =>
      intro scan nodup scanned
      have fresh : i ∉ done := fun member =>
        (List.nodup_append.mp nodup).2.2 i member i (by simp) rfl
      have later := ih (done ++ [i]) (scanEntry now ip4 mac scan i) (by simpa using nodup)
        (scanned.next fresh)
      simpa using later

end Entries

section Outcomes

variable {now : Int} {ip4 : UInt32} {mac : Mac} {rand : Nat} {cache : Cache}

theorem arpcacheLookup_eq (known : cache.Knows ip4)
    (all : ∀ i, (cache.entries i).Maps ip4 → (cache.entries i).mac = mac) :
    arpcacheLookup ip4 cache = some mac := by
  obtain ⟨i, maps⟩ := known
  have isSome : ((List.finRange MAX_ARP_SIZE).find? fun i => (cache.entries i).Maps ip4).isSome :=
    List.find?_isSome.mpr ⟨i, List.mem_finRange i, by simpa using maps⟩
  obtain ⟨first, isFirst⟩ := Option.isSome_iff_exists.mp isSome
  have firstMaps : (cache.entries first).Maps ip4 := by simpa using List.find?_some isFirst
  rw [arpcacheLookup, isFirst, Option.map_some, all first firstMaps]

theorem arpcacheInsert_known (known : cache.Knows ip4) :
    (∀ i, (arpcacheInsert now ip4 mac rand cache).cache.entries i =
      if (cache.entries i).Maps ip4 then { cache.entries i with mac := mac, added := now }
      else cache.entries i) ∧
    ∀ k ∈ (arpcacheInsert now ip4 mac rand cache).written, 0 ≤ k ∧ k < MAX_ARP_SIZE := by
  have scanned := @scanned_all now ip4 mac cache.entries
  have found : (scanEntries now ip4 mac cache.entries).found = true := by
    obtain ⟨i, maps⟩ := known
    exact scanned.found.mpr ⟨i, List.mem_finRange i, maps⟩
  have entries := scanned.entries
  simp only [List.mem_finRange, true_and] at entries
  simp only [arpcacheInsert, found, ↓reduceIte]
  exact ⟨entries, scanned.inside⟩

theorem arpcacheInsert_unknown (unknown : ¬ cache.Knows ip4) :
    ∃ pos : Int, (¬ cache.HasFree → pos = -1) ∧
      (cache.HasFree → pos = (rand % MAX_ARP_SIZE : Nat)) ∧
      (∀ i, (arpcacheInsert now ip4 mac rand cache).cache.entries i =
        if pos = (i.val : Int) then { ip4 := ip4, mac := mac, added := now, valid := true }
        else cache.entries i) ∧
      pos ∈ (arpcacheInsert now ip4 mac rand cache).written ∧
      ∀ k ∈ (arpcacheInsert now ip4 mac rand cache).written,
        k = pos ∨ 0 ≤ k ∧ k < MAX_ARP_SIZE := by
  have scanned := @scanned_all now ip4 mac cache.entries
  have notFound : (scanEntries now ip4 mac cache.entries).found = false := by
    rw [Bool.eq_false_iff, Ne, scanned.found]
    simpa [Cache.Knows] using unknown
  have full : (scanEntries now ip4 mac cache.entries).pos = -1 ↔ ¬ cache.HasFree := by
    simp [scanned.full, Cache.HasFree]
  have same (i : Fin MAX_ARP_SIZE) :
      (scanEntries now ip4 mac cache.entries).entries i = cache.entries i := by
    have other : ¬ (cache.entries i).Maps ip4 := fun maps => unknown ⟨i, maps⟩
    simp [scanned.entries, other]
  simp only [arpcacheInsert, notFound, Bool.false_eq_true, ↓reduceIte, writeEntry, same]
  refine ⟨_, ?_, ?_, fun i => rfl, by simp, ?_⟩
  · intro noFree
    have none := full.mpr noFree
    rw [if_neg (not_not.mpr none), none]
  · intro free
    exact if_pos fun none => full.mp none free
  · intro k member
    rcases List.mem_append.mp member with earlier | isPos
    · exact .inr (scanned.inside k earlier)
    · exact .inl (List.mem_singleton.mp isPos)

theorem answered_iff : (∀ req ∈ (arpcacheInsert now ip4 mac rand cache).cache.reqList,
    req.ip4 ≠ ip4) ↔ AskedOnce ip4 cache :=
  insertScan_answers mac cache.reqList

/-- What holds of the table when the address was known. -/
theorem inserted_known (unique : cache.Unique) (known : cache.Knows ip4)
    (askedOnce : AskedOnce ip4 cache) :
    Inserted ip4 mac cache (arpcacheInsert now ip4 mac rand cache) := by
  obtain ⟨entries, inside⟩ := @arpcacheInsert_known now ip4 mac rand cache known
  generalize outcomeIs : arpcacheInsert now ip4 mac rand cache = outcome at entries inside
  have valid (i : Fin MAX_ARP_SIZE) :
      (outcome.cache.entries i).valid = (cache.entries i).valid := by
    rw [entries]
    split_ifs <;> rfl
  have address (i : Fin MAX_ARP_SIZE) :
      (outcome.cache.entries i).ip4 = (cache.entries i).ip4 := by
    rw [entries]
    split_ifs <;> rfl
  have maps (i : Fin MAX_ARP_SIZE) (ip : UInt32) :
      (outcome.cache.entries i).Maps ip ↔ (cache.entries i).Maps ip := by
    rw [ArpCacheEntry.Maps, valid, address, ArpCacheEntry.Maps]
  refine ⟨inside, arpcacheLookup_eq ?_ ?_, ?_, ?_, ?_⟩
  · obtain ⟨i, here⟩ := known
    exact ⟨i, (maps i ip4).mpr here⟩
  · intro i here
    rw [entries, if_pos ((maps i ip4).mp here)]
  · intro i j isValid same
    rw [address, maps] at same
    exact unique i j (by rwa [valid] at isValid) same
  · intro _ i _ other
    rw [entries, if_neg fun here => other here.2]
  · rw [← outcomeIs]
    exact answered_iff.mpr askedOnce

/-- What holds of it when the address came to a free entry. -/
theorem inserted_free (unique : cache.Unique) (unknown : ¬ cache.Knows ip4)
    {place : Fin MAX_ARP_SIZE} (drawn : place.val = rand % MAX_ARP_SIZE)
    (free : ¬ (cache.entries place).valid) (askedOnce : AskedOnce ip4 cache) :
    Inserted ip4 mac cache (arpcacheInsert now ip4 mac rand cache) := by
  obtain ⟨pos, -, isPos, entries, -, inside⟩ :=
    @arpcacheInsert_unknown now ip4 mac rand cache unknown
  obtain rfl : pos = (place.val : Int) := by rw [isPos ⟨place, free⟩, drawn]
  have other (i : Fin MAX_ARP_SIZE) (apart : i ≠ place) :
      (arpcacheInsert now ip4 mac rand cache).cache.entries i = cache.entries i := by
    rw [entries, if_neg]
    exact fun same => apart (Fin.ext (by omega))
  have here : (arpcacheInsert now ip4 mac rand cache).cache.entries place =
      { ip4 := ip4, mac := mac, added := now, valid := true } := by
    rw [entries, if_pos rfl]
  have isOther {i : Fin MAX_ARP_SIZE} (valid : (cache.entries i).valid) : i ≠ place :=
    fun same => free (same ▸ valid)
  refine ⟨?_, arpcacheLookup_eq ⟨place, ?_⟩ ?_, ?_, ?_, answered_iff.mpr askedOnce⟩
  · intro k member
    rcases inside k member with rfl | within
    · exact ⟨by omega, by omega⟩
    · exact within
  · rw [here]
    exact ⟨rfl, rfl⟩
  · intro i maps
    by_cases same : i = place
    · rw [same, here]
    · rw [other i same] at maps
      exact absurd ⟨i, maps⟩ unknown
  · intro i j valid maps
    by_cases first : i = place
    · by_cases second : j = place
      · rw [first, second]
      · rw [other j second, first, here] at maps
        exact absurd ⟨j, maps⟩ unknown
    · rw [other i first] at valid maps
      by_cases second : j = place
      · rw [second, here] at maps
        exact absurd ⟨i, valid, maps.2.symm⟩ unknown
      · rw [other j second] at maps
        exact unique i j valid maps
  · intro _ i valid _
    exact other i (isOther valid)

end Outcomes

/-- An insertion does what it is for exactly when the address is known already, or the random
entry is free, and when it is asked for on one interface at most. -/
theorem arpcache_insert_iff {cache : Cache} (unique : cache.Unique) (now : Int) (ip4 : UInt32)
    (mac : Mac) (rand : Nat) :
    Inserted ip4 mac cache (arpcacheInsert now ip4 mac rand cache) ↔
      DrawsFree ip4 rand cache ∧ AskedOnce ip4 cache := by
  constructor
  · intro inserted
    refine ⟨?_, answered_iff.mp inserted.answered⟩
    by_cases known : cache.Knows ip4
    · exact .inl known
    obtain ⟨pos, noPos, isPos, entries, written, -⟩ :=
      @arpcacheInsert_unknown now ip4 mac rand cache known
    by_cases free : cache.HasFree
    · let place : Fin MAX_ARP_SIZE := Fin.ofNat MAX_ARP_SIZE rand
      refine .inr ⟨place, rfl, fun valid => ?_⟩
      have other : (cache.entries place).ip4 ≠ ip4 := fun same => known ⟨place, valid, same⟩
      have kept := inserted.kept (.inr free) place valid other
      have drawn : pos = (place.val : Int) := isPos free
      rw [entries, if_pos drawn] at kept
      exact other (congrArg ArpCacheEntry.ip4 kept).symm
    · have inside := inserted.inside pos written
      rw [noPos free] at inside
      omega
  · rintro ⟨known | ⟨place, drawn, free⟩, askedOnce⟩
    · exact inserted_known unique known askedOnce
    · by_cases known : cache.Knows ip4
      · exact inserted_known unique known askedOnce
      · exact inserted_free unique known drawn free askedOnce

def zeroMac : Mac := Vector.replicate 6 0

/-- The table of `arpcache_init`. -/
def freshCache : Cache where
  entries _ := { ip4 := 0, mac := zeroMac, added := 0, valid := false }
  reqList := []

def twoMappings : Cache where
  entries i := { ip4 := if i.val = 0 then 0x0a000001 else 0x0a000002, mac := zeroMac,
                 added := 0, valid := decide (i.val < 2) }
  reqList := [{ number := 0, iface := { index := 0, mac := zeroMac }, ip4 := 0x0a000009,
                sent := 0, retries := 1,
                cachedPackets := [{ serial := 0, request := 0, packet := [7] }] }]

theorem twoMappings_unique : twoMappings.Unique := by
  intro i j validFirst maps
  obtain ⟨validSecond, same⟩ := maps
  have first : i.val < 2 := of_decide_eq_true validFirst
  have second : j.val < 2 := of_decide_eq_true validSecond
  simp only [twoMappings] at same
  split_ifs at same with zeroSecond zeroFirst zeroFirst
  · exact Fin.ext (by omega)
  · exact absurd same (by decide)
  · exact absurd same (by decide)
  · exact Fin.ext (by omega)

theorem arpcache_insert_third : Inserted 0x0a000009 zeroMac twoMappings
    (arpcacheInsert 0 0x0a000009 zeroMac 7 twoMappings) :=
  (arpcache_insert_iff twoMappings_unique 0 0x0a000009 zeroMac 7).mpr
    ⟨.inr ⟨7, rfl, by decide⟩, by simp [AskedOnce, twoMappings]⟩

def oneMapping : Cache where
  entries i := { ip4 := 0x0a000001, mac := zeroMac, added := 0, valid := i.val = 0 }
  reqList := []

theorem oneMapping_unknown : ¬ oneMapping.Knows 0x0a000002 := by
  intro known
  obtain ⟨i, -, same⟩ := known
  have addresses : (0x0a000001 : UInt32) = 0x0a000002 := same
  revert addresses
  decide

/-- 31 entries are free, and the only mapping is overwritten. -/
theorem only_mapping_overwritten : ¬ Inserted 0x0a000002 zeroMac oneMapping
    (arpcacheInsert 0 0x0a000002 zeroMac 0 oneMapping) := by
  intro inserted
  obtain ⟨pos, -, isPos, entries, -, -⟩ :=
    @arpcacheInsert_unknown 0 0x0a000002 zeroMac 0 oneMapping oneMapping_unknown
  have free : oneMapping.HasFree := ⟨1, by decide⟩
  have kept := inserted.kept (.inr free) 0 rfl (by decide)
  have first : pos = ((0 : Fin MAX_ARP_SIZE).val : Int) := isPos free
  rw [entries, if_pos first] at kept
  have addresses : (0x0a000002 : UInt32) = 0x0a000001 := congrArg ArpCacheEntry.ip4 kept
  revert addresses
  decide

theorem full_table_left {cache : Cache} {now : Int} {ip4 : UInt32} {mac : Mac} {rand : Nat}
    (unknown : ¬ cache.Knows ip4) (full : ¬ cache.HasFree) :
    -1 ∈ (arpcacheInsert now ip4 mac rand cache).written := by
  obtain ⟨pos, isPos, -, -, written, -⟩ := @arpcacheInsert_unknown now ip4 mac rand cache unknown
  rwa [isPos full] at written

end NetworkLab.ArpCache
