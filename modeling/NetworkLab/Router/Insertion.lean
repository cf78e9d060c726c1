import NetworkLab.Router.Expiry

/-!
# Insertion into the ARP cache of the router

`arpcache_insert` stops at the first entry that is not valid or has the address.  An entry of
the address behind a free one stays beside the new one, and an address that is found keeps its
old `mac` and its pending packets.
-/
set_option autoImplicit false

namespace NetworkLab.Router

open NetworkLab.ArpCache (Mac)
open Lib.Run

def ArpCacheEntry.Maps (ip4 : UInt32) (entry : ArpCacheEntry) : Prop :=
  entry.valid ∧ entry.ip4 = ip4

instance (ip4 : UInt32) (entry : ArpCacheEntry) : Decidable (entry.Maps ip4) :=
  inferInstanceAs (Decidable (_ ∧ _))

namespace ArpCache

def Awaits (ip4 : UInt32) (cache : ArpCache) : Prop :=
  ∃ n ∈ cache.reqList, ∃ req, cache.reqs n = some req ∧ req.ip4 = ip4 ∧ req.cachedPackets ≠ []

structure Holds (ip4 : UInt32) (mac : Mac) (cache : ArpCache) : Prop where
  found : ∃ after, cache.arpcacheLookup ip4 = .ok (some mac, after)
  single : ∀ i j, (cache.entries i).Maps ip4 → (cache.entries j).Maps ip4 → i = j
  flushed : ¬ cache.Awaits ip4

/-- After an insertion, the cache holds what was inserted. -/
def Inserted (_ : ArpCache) (event : Event) (after : ArpCache) : Prop :=
  match event with
  | .insert _ ip4 mac => after.Holds ip4 mac
  | _ => True

/-- The address is not in the cache, or it is there once with this `mac`, no free entry stands
before it and no packet waits for it. -/
def InsertsAnew (cache : ArpCache) : Event → Prop
  | .insert _ ip4 mac =>
    (∀ i, ¬ (cache.entries i).Maps ip4) ∨
      (∃ i, (cache.entries i).Maps ip4 ∧ (cache.entries i).mac = mac ∧
        (∀ j < i, (cache.entries j).valid) ∧ ∀ j, (cache.entries j).Maps ip4 → j = i) ∧
      ¬ cache.Awaits ip4
  | _ => True

end ArpCache

section Scan

variable {size : Nat} {p : Fin size → Bool}

theorem find?_finRange_some {i : Fin size} (found : (List.finRange size).find? p = some i) :
    p i ∧ ∀ j < i, p j = false := by
  obtain ⟨holds, k, inside, here, before⟩ := List.find?_eq_some_iff_getElem.mp found
  refine ⟨holds, fun j less => ?_⟩
  have isPlace : k = i.val := by simpa using congrArg Fin.val here
  simpa using before j.val (by omega)

theorem find?_finRange_eq_some {i : Fin size} (holds : p i) (before : ∀ j < i, p j = false) :
    (List.finRange size).find? p = some i := by
  refine List.find?_eq_some_iff_getElem.mpr ⟨holds, i.val, by simp, by simp, fun j less => ?_⟩
  simpa using before ⟨j, by omega⟩ less

theorem find?_finRange_none (found : (List.finRange size).find? p = none) (i : Fin size) :
    p i = false := by
  simpa using List.find?_eq_none.mp found i (List.mem_finRange i)

end Scan

namespace ArpCache

section Table

variable {cache : ArpCache} {ip4 : UInt32} {mac : Mac}

theorem arpcacheLookup_first (free : cache.lock = false) {i : Fin MAX_ARP_SIZE}
    (maps : (cache.entries i).Maps ip4) (first : ∀ j < i, ¬ (cache.entries j).Maps ip4) :
    (∃ after, cache.arpcacheLookup ip4 = .ok (some mac, after)) ↔ (cache.entries i).mac = mac := by
  have found : (List.finRange MAX_ARP_SIZE).find? (fun i =>
      (cache.entries i).ip4 == ip4 && (cache.entries i).valid) = some i := by
    refine find?_finRange_eq_some ?_ fun j less => ?_
    · simpa [ArpCacheEntry.Maps, and_comm] using maps
    · rw [Bool.eq_false_iff]
      intro here
      exact first j less (by simpa [ArpCacheEntry.Maps, and_comm] using here)
  simp only [arpcacheLookup, acquire_of_free free, bind, Except.bind, found, Option.map_some,
    Except.ok.injEq, Prod.mk.injEq, Option.some.injEq]
  simp

/-- The scan stops at an entry of the address, and before it are other addresses. -/
theorem insertPlace_valid {i : Fin MAX_ARP_SIZE} (placed : cache.insertPlace ip4 = some i)
    (valid : (cache.entries i).valid) :
    (cache.entries i).Maps ip4 ∧
      ∀ j < i, (cache.entries j).valid ∧ ¬ (cache.entries j).Maps ip4 := by
  obtain ⟨here, before⟩ := find?_finRange_some placed
  refine ⟨⟨valid, by simpa [valid] using here⟩, fun j less => ?_⟩
  have passed := before j less
  simp only [Bool.or_eq_false_iff, Bool.not_eq_false', beq_eq_false_iff_ne] at passed
  exact ⟨passed.1, fun maps => passed.2 maps.2⟩

/-- The scan stops at a free entry, or comes to the end. -/
structure Replaces (cache : ArpCache) (ip4 : UInt32) (i : Fin MAX_ARP_SIZE) : Prop where
  before : ∀ j < i, ¬ (cache.entries j).Maps ip4
  here : ¬ (cache.entries i).Maps ip4
  /-- An entry of the address stands behind a free one. -/
  behind : ∀ j, (cache.entries j).Maps ip4 → ∃ k < j, ¬ (cache.entries k).valid

theorem replaces_free {i : Fin MAX_ARP_SIZE} (placed : cache.insertPlace ip4 = some i)
    (free : ¬ (cache.entries i).valid) : cache.Replaces ip4 i := by
  obtain ⟨-, before⟩ := find?_finRange_some placed
  have passed (j : Fin MAX_ARP_SIZE) (less : j < i) : ¬ (cache.entries j).Maps ip4 := by
    have other := before j less
    simp only [Bool.or_eq_false_iff, beq_eq_false_iff_ne] at other
    exact fun maps => other.2 maps.2
  have here : ¬ (cache.entries i).Maps ip4 := fun maps => free maps.1
  refine ⟨passed, here, fun j maps => ⟨i, ?_, free⟩⟩
  by_contra notBehind
  rcases (not_lt.mp notBehind).eq_or_lt with same | less
  · exact here (same ▸ maps)
  · exact passed j less maps

theorem replaces_full (placed : cache.insertPlace ip4 = none) : cache.Replaces ip4 0 := by
  have other (j : Fin MAX_ARP_SIZE) : ¬ (cache.entries j).Maps ip4 := by
    have passed := find?_finRange_none placed j
    simp only [Bool.or_eq_false_iff, beq_eq_false_iff_ne] at passed
    exact fun maps => passed.2 maps.2
  exact ⟨fun j _ => other j, other 0, fun j maps => absurd maps (other j)⟩

end Table

/-! ## The pending packets -/

section Flush

variable {cache after : ArpCache} {ip4 : UInt32} {mac : Mac}

/-- What the scan of `req_list` does: requests go, and none for the address is left among
those it has come past. -/
structure Flushed (ip4 : UInt32) (done : List Nat) (before after : ArpCache) : Prop where
  entries : after.entries = before.entries
  lock : after.lock = before.lock
  reqList : after.reqList ⊆ before.reqList
  reqs : ∀ n, after.reqs n = before.reqs n ∨ after.reqs n = none
  gone : ∀ n ∈ done, ∀ req, after.reqs n = some req → req.ip4 ≠ ip4

theorem flushReq_flushed {n : Nat} (turn : cache.flushReq ip4 mac n = .ok after) :
    Flushed ip4 [n] cache after := by
  cases found : cache.reqs n with
  | none =>
      simp only [flushReq, readReq, found, bind, Except.bind] at turn
      cases turn
  | some req =>
      simp only [flushReq, readReq_of_live found, bind, Except.bind] at turn
      by_cases same : req.ip4 = ip4
      · rw [if_pos same] at turn
        cases turn
        refine ⟨rfl, rfl, List.erase_subset, fun m => ?_, ?_⟩
        · by_cases here : m = n
          · rw [here]
            exact .inr (Function.update_self ..)
          · exact .inl (Function.update_of_ne here ..)
        · intro m member left present
          rw [List.mem_singleton.mp member] at present
          change Function.update cache.reqs n none n = some left at present
          rw [Function.update_self] at present
          cases present
      · rw [if_neg same] at turn
        cases turn
        refine ⟨rfl, rfl, fun _ member => member, fun _ => .inl rfl, ?_⟩
        intro m member left present
        rw [List.mem_singleton.mp member, found] at present
        cases present
        exact same

theorem Flushed.cons {n : Nat} {rest : List Nat} {before middle : ArpCache}
    (first : Flushed ip4 [n] before middle) (scan : Flushed ip4 rest middle after) :
    Flushed ip4 (n :: rest) before after where
  entries := scan.entries.trans first.entries
  lock := scan.lock.trans first.lock
  reqList := fun m member => first.reqList (scan.reqList member)
  reqs m := by
    cases scan.reqs m with
    | inl same =>
        rw [same]
        exact first.reqs m
    | inr freed => exact .inr freed
  gone m member req present := by
    cases List.mem_cons.mp member with
    | inl here =>
        cases scan.reqs m with
        | inl same => exact first.gone m (by simp [here]) req (same ▸ present)
        | inr freed =>
            rw [freed] at present
            cases present
    | inr behind => exact scan.gone m behind req present

theorem flush_flushed {list : List Nat}
    (scanned : list.foldlM (flushReq ip4 mac) cache = .ok after) :
    Flushed ip4 list cache after := by
  induction list generalizing cache with
  | nil =>
      cases scanned
      exact ⟨rfl, rfl, fun _ member => member, fun _ => .inl rfl, by simp⟩
  | cons n rest ih =>
      rw [List.foldlM_cons] at scanned
      cases turn : cache.flushReq ip4 mac n with
      | error fault =>
          rw [turn] at scanned
          cases scanned
      | ok middle =>
          rw [turn] at scanned
          exact (flushReq_flushed turn).cons (ih scanned)

end Flush

/-! ## What an insertion does -/

section Insert

variable {cache after : ArpCache} {ip4 : UInt32} {mac : Mac} {now : Int}

def Refreshed (now : Int) (ip4 : UInt32) (cache after : ArpCache) : Prop :=
  ∃ i, cache.insertPlace ip4 = some i ∧ (cache.entries i).valid ∧
    after = (cache.writeEntry i { cache.entries i with added := now }).release

structure Stored (now : Int) (ip4 : UInt32) (mac : Mac) (cache after : ArpCache) : Prop where
  place : ∃ i, cache.Replaces ip4 i ∧ after.entries = Function.update cache.entries i
    { ip4 := ip4, mac := mac, added := now, valid := true }
  flushed : ¬ after.Awaits ip4

theorem arpcacheInsert_cases (free : cache.lock = false)
    (success : cache.arpcacheInsert now ip4 mac = .ok after) :
    after.lock = false ∧ (Refreshed now ip4 cache after ∨ Stored now ip4 mac cache after) := by
  have store (i : Fin MAX_ARP_SIZE) (replaces : cache.Replaces ip4 i)
      (scanned : (cache.reqList.foldlM (flushReq ip4 mac)
        (writeEntry i { ip4 := ip4, mac := mac, added := now, valid := true }
          { cache with lock := true }) >>= fun cache => .ok cache.release) = .ok after) :
      after.lock = false ∧ Stored now ip4 mac cache after := by
    cases flush : cache.reqList.foldlM (flushReq ip4 mac)
        (writeEntry i { ip4 := ip4, mac := mac, added := now, valid := true }
          { cache with lock := true }) with
    | error fault =>
        rw [flush] at scanned
        cases scanned
    | ok final =>
        rw [flush] at scanned
        cases scanned
        have flushed := flush_flushed flush
        refine ⟨rfl, ⟨i, replaces, flushed.entries⟩, ?_⟩
        rintro ⟨n, member, req, present, same, -⟩
        exact flushed.gone n (flushed.reqList member) req present same
  cases placed : insertPlace ip4 { cache with lock := true } with
  | none =>
      simp only [arpcacheInsert, acquire_of_free free, bind, Except.bind, placed] at success
      have stored := store 0 (replaces_full placed) success
      exact ⟨stored.1, .inr stored.2⟩
  | some i =>
      simp only [arpcacheInsert, acquire_of_free free, bind, Except.bind, placed] at success
      by_cases valid : (cache.entries i).valid = true
      · rw [if_pos valid] at success
        cases success
        refine ⟨rfl, .inl ⟨i, placed, valid, ?_⟩⟩
        rw [writeEntry, writeEntry, release, release]
      · rw [if_neg valid] at success
        have stored := store i (replaces_free placed valid) success
        exact ⟨stored.1, .inr stored.2⟩

end Insert

section Postcondition

variable {cache after : ArpCache} {ip4 : UInt32} {mac : Mac} {now : Int}

theorem Refreshed.holds_iff (refreshed : Refreshed now ip4 cache after) :
    after.Holds ip4 mac ↔ cache.InsertsAnew (.insert now ip4 mac) := by
  obtain ⟨i, placed, valid, rfl⟩ := refreshed
  obtain ⟨maps, before⟩ := insertPlace_valid placed valid
  generalize isAfter : (cache.writeEntry i { cache.entries i with added := now }).release = after
  have free : after.lock = false := by rw [← isAfter]; rfl
  have entries : after.entries = Function.update cache.entries i
      { cache.entries i with added := now } := by rw [← isAfter]; rfl
  have awaits : after.Awaits ip4 ↔ cache.Awaits ip4 := by rw [← isAfter]; rfl
  have same (j : Fin MAX_ARP_SIZE) :
      ((after.entries j).Maps ip4 ↔ (cache.entries j).Maps ip4) ∧
        (after.entries j).mac = (cache.entries j).mac := by
    rw [entries]
    by_cases here : j = i
    · rw [here, Function.update_self]
      exact ⟨Iff.rfl, rfl⟩
    · rw [Function.update_of_ne here]
      exact ⟨Iff.rfl, rfl⟩
  have lookup := @arpcacheLookup_first after ip4 mac free i ((same i).1.mpr maps)
    fun j less => (same j).1.not.mpr (before j less).2
  rw [(same i).2] at lookup
  constructor
  · intro holds
    refine .inr ⟨⟨i, maps, lookup.mp holds.found, fun j less => (before j less).1, ?_⟩, ?_⟩
    · exact fun j other => holds.single j i ((same j).1.mpr other) ((same i).1.mpr maps)
    · exact fun pending => holds.flushed (awaits.mpr pending)
  · rintro (unknown | ⟨⟨k, -, isMac, -, only⟩, flushed⟩)
    · exact absurd maps (unknown i)
    · have isPlace : i = k := only i maps
      refine ⟨lookup.mpr (isPlace ▸ isMac), fun j l first second => ?_, awaits.not.mpr flushed⟩
      rw [only j ((same j).1.mp first), only l ((same l).1.mp second)]

theorem Stored.holds_iff (stored : Stored now ip4 mac cache after) (free : after.lock = false) :
    after.Holds ip4 mac ↔ cache.InsertsAnew (.insert now ip4 mac) := by
  obtain ⟨⟨i, replaces, entries⟩, flushed⟩ := stored
  have here : (after.entries i).Maps ip4 ∧ (after.entries i).mac = mac := by
    rw [entries, Function.update_self]
    exact ⟨⟨rfl, rfl⟩, rfl⟩
  have other (j : Fin MAX_ARP_SIZE) (apart : j ≠ i) : after.entries j = cache.entries j := by
    rw [entries, Function.update_of_ne apart]
  have found : ∃ result, after.arpcacheLookup ip4 = .ok (some mac, result) := by
    refine (arpcacheLookup_first free here.1 fun j less => ?_).mpr here.2
    rw [other j less.ne]
    exact replaces.before j less
  constructor
  · intro holds
    refine .inl fun j maps => ?_
    have apart : j ≠ i := fun same => replaces.here (same ▸ maps)
    exact apart (holds.single j i (by rwa [other j apart]) here.1)
  · intro anew
    have unknown (j : Fin MAX_ARP_SIZE) : ¬ (cache.entries j).Maps ip4 := by
      cases anew with
      | inl unknown => exact unknown j
      | inr known =>
          obtain ⟨⟨k, maps, -, valid, -⟩, -⟩ := known
          obtain ⟨hole, less, isFree⟩ := replaces.behind k maps
          exact absurd (valid hole less) isFree
    have only (j : Fin MAX_ARP_SIZE) (maps : (after.entries j).Maps ip4) : j = i := by
      by_contra apart
      rw [other j apart] at maps
      exact unknown j maps
    exact ⟨found, fun j k first second => (only j first).trans (only k second).symm, flushed⟩

theorem inserted_iff (free : cache.lock = false) {rtable : List RtEntry} (event : Event)
    (taken : cache.next rtable event = some after) :
    Inserted cache event after ↔ cache.InsertsAnew event := by
  cases event with
  | lookup ip4 => exact Iff.rfl
  | append now iface ip4 packet => exact Iff.rfl
  | sweep now later => exact Iff.rfl
  | insert now ip4 mac =>
      have success : cache.arpcacheInsert now ip4 mac = .ok after := ok_of_next taken
      obtain ⟨freeAfter, refreshed | stored⟩ := arpcacheInsert_cases free success
      · exact refreshed.holds_iff
      · exact stored.holds_iff freeAfter

end Postcondition

end ArpCache

/-- After every insertion of a run the cache holds what was inserted, exactly when every
insertion of it is of an address that is not in the cache, or in it as it is inserted. -/
theorem insertions_hold_iff (rtable : List RtEntry) (events : List Event) :
    EachStep (ArpCache.next rtable) ArpCache.Inserted arpcacheInit events ↔
      Guarded (ArpCache.next rtable) ArpCache.InsertsAnew arpcacheInit events := by
  refine @eachStep_iff_guarded _ _ (ArpCache.next rtable) ArpCache.InsertsAnew Resting
    ArpCache.Inserted (fun cache event after resting _ taken => resting_next event resting taken)
    (fun cache event after resting taken => ArpCache.inserted_iff resting.free event taken) ?_
    arpcacheInit events resting_init
  intro cache event resting stuck
  cases event with
  | lookup ip4 => trivial
  | append now iface ip4 packet => trivial
  | sweep now later => trivial
  | insert now ip4 mac =>
      -- an insertion always returns
      obtain ⟨after, taken, -⟩ := @next_of_noneExpired rtable cache resting (.insert now ip4 mac)
        trivial
      rw [stuck] at taken
      cases taken

section Histories

variable {rtable : List RtEntry} {events : List Event} {now : Int} {ip4 : UInt32} {mac : Mac}
  {cache : ArpCache}

theorem holds_last
    (each : EachStep (ArpCache.next rtable) ArpCache.Inserted arpcacheInit
      (events ++ [.insert now ip4 mac]))
    (success : run (ArpCache.next rtable) arpcacheInit (events ++ [.insert now ip4 mac]) =
      some cache) : cache.Holds ip4 mac := by
  rw [run_append] at success
  obtain ⟨before, earlier, last⟩ := Option.bind_eq_some_iff.mp success
  obtain ⟨after, taken, ends⟩ := run_cons_some _ last
  cases Option.some.inj ends
  exact eachStep_last _ _ each earlier taken

def newMac : Mac := Vector.replicate 6 1

def changedMac : List Event := [.insert 0 0x0A00010B noMac, .insert 1 0x0A00010B newMac]

def behindFree : List Event :=
  [.insert 0 0x0A00010B noMac, .insert 10 0x0A00010C noMac, .sweep 16 16,
    .insert 17 0x0A00010C noMac]

/-- A packet whose lookup came before the insertion is appended after it. -/
def appendedLate : List Event :=
  [.lookup 0x0A00010B, .insert 0 0x0A00010B noMac,
    .append 0 routerIface 0x0A00010B strayPacket, .insert 1 0x0A00010B noMac]

theorem three_insertions_fail :
    ¬ EachStep (ArpCache.next routerRtable) ArpCache.Inserted arpcacheInit changedMac ∧
      ¬ EachStep (ArpCache.next routerRtable) ArpCache.Inserted arpcacheInit behindFree ∧
      ¬ EachStep (ArpCache.next routerRtable) ArpCache.Inserted arpcacheInit appendedLate := by
  refine ⟨fun each => ?_, fun each => ?_, fun each => ?_⟩
  · have lookup : (run (ArpCache.next routerRtable) arpcacheInit changedMac).map
        (fun cache => (cache.arpcacheLookup 0x0A00010B).toOption.map Prod.fst) =
        some (some (some noMac)) := by
      decide
    obtain ⟨cache, success, old⟩ := Option.map_eq_some_iff.mp lookup
    obtain ⟨after, found⟩ := (@holds_last _ [.insert 0 0x0A00010B noMac] _ _ _ _ each success).found
    rw [found] at old
    change some (some newMac) = some (some noMac) at old
    revert old
    decide
  · have twice : (run (ArpCache.next routerRtable) arpcacheInit behindFree).map
        (fun cache => (decide ((cache.entries 0).Maps 0x0A00010C),
          decide ((cache.entries 1).Maps 0x0A00010C))) = some (true, true) := by
      decide
    obtain ⟨cache, success, both⟩ := Option.map_eq_some_iff.mp twice
    obtain ⟨first, second⟩ := Prod.mk.inj both
    have same := (@holds_last _ [.insert 0 0x0A00010B noMac, .insert 10 0x0A00010C noMac,
      .sweep 16 16] _ _ _ _ each success).single 0 1 (of_decide_eq_true first)
      (of_decide_eq_true second)
    revert same
    decide
  · have waits : (run (ArpCache.next routerRtable) arpcacheInit appendedLate).map
        (fun cache => (cache.reqList,
          (cache.reqs 0).map fun req => (req.ip4, req.cachedPackets.length))) =
        some ([0], some (0x0A00010B, 1)) := by
      decide
    obtain ⟨cache, success, state⟩ := Option.map_eq_some_iff.mp waits
    obtain ⟨reqList, pending⟩ := Prod.mk.inj state
    obtain ⟨req, present, fields⟩ := Option.map_eq_some_iff.mp pending
    obtain ⟨address, count⟩ := Prod.mk.inj fields
    refine (@holds_last _ [.lookup 0x0A00010B, .insert 0 0x0A00010B noMac,
      .append 0 routerIface 0x0A00010B strayPacket] _ _ _ _ each success).flushed
      ⟨0, by simp [reqList], req, present, address, fun none => ?_⟩
    rw [none] at count
    cases count

end Histories

end NetworkLab.Router
