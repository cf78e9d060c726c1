import NetworkLab.Lib.LinkedRing

/-!
# Intrusive lists

`list.h`: the operations on `struct list_head`, in the order of their stores.
`none` is a null pointer that is followed.
-/
set_option autoImplicit false

namespace NetworkLab

open Lib.LinkedRing

variable {α : Type*} [DecidableEq α]

def initListHead (heap : Heap α) (list : α) : Heap α :=
  setNext (setPrev heap list (some list)) list (some list)

def listEmpty (heap : Heap α) (list : α) : Bool := (heap list).next == some list

def listInsert (heap : Heap α) (new prev next : α) : Heap α :=
  let heap := setPrev heap next (some new)
  let heap := setNext heap prev (some new)
  let heap := setNext heap new (some next)
  setPrev heap new (some prev)

def listAddHead (heap : Heap α) (new head : α) : Option (Heap α) :=
  (heap head).next.map fun next => listInsert heap new head next

def listAddTail (heap : Heap α) (new head : α) : Option (Heap α) :=
  (heap head).prev.map fun prev => listInsert heap new prev head

def listDeleteEntry (heap : Heap α) (entry : α) : Option (Heap α) := do
  let next ← (heap entry).next
  let heap := setPrev heap next (heap entry).prev
  let prev ← (heap entry).prev
  some (setNext heap prev (heap entry).next)

theorem initListHead_ring (heap : Heap α) (list : α) : Ring (initListHead heap list) list [] where
  linked := by simp [Linked, initListHead]
  nodup := List.nodup_singleton list

theorem listAddTail_ring {heap : Heap α} {head new : α} {members : List α}
    (ring : Ring heap head members) (fresh : new ∉ head :: members) :
    ∃ heap', listAddTail heap new head = some heap' ∧ Ring heap' head (members ++ [new]) := by
  obtain ⟨front, last, split, isLast, -⟩ := ring.exists_last
  have newHead : new ≠ head := fun same => fresh (same ▸ List.mem_cons_self)
  have newLast : new ≠ last := by
    rintro rfl
    exact fresh (split ▸ List.mem_append_right _ (List.mem_singleton_self _))
  refine ⟨listInsert heap new last head, by simp [listAddTail, isLast], ?_⟩
  refine ring.add_last fresh isLast ?_ ?_ ?_ ?_ ?_ ?_
  · simp [listInsert]
  · simp [listInsert]
  · simp [listInsert, newLast.symm]
  · simp [listInsert, newHead.symm]
  · intro y notNew notLast
    simp [listInsert, notNew, notLast]
  · intro y notNew notHead
    simp [listInsert, notNew, notHead]

/-- Deletion of any node whose links are not null, as the two stores that it makes. -/
theorem listDeleteEntry_stores {heap : Heap α} {entry next prev : α}
    (isNext : (heap entry).next = some next) (isPrev : (heap entry).prev = some prev) :
    listDeleteEntry heap entry =
      some (setNext (setPrev heap next (some prev)) prev (some next)) := by
  simp [listDeleteEntry, isNext, isPrev]

theorem listDeleteEntry_ring {heap : Heap α} {head entry : α} {front back : List α}
    (ring : Ring heap head (front ++ entry :: back)) :
    ∃ heap', listDeleteEntry heap entry = some heap' ∧ Ring heap' head (front ++ back) := by
  obtain ⟨next, -, -, isNext⟩ := ring.exists_next
  obtain ⟨prev, -, isPrev⟩ := ring.exists_prev
  refine ⟨_, listDeleteEntry_stores isNext isPrev, ?_⟩
  refine ring.unlink isPrev isNext ?_ ?_ ?_ ?_
  · simp
  · simp
  · intro y notPrev
    simp [notPrev]
  · intro y notNext
    simp [notNext]

/-- Deleting a node again: harmless for a ring whose nodes already have the links that
it stores. -/
theorem listDeleteEntry_stale {heap : Heap α} {head entry next prev : α} {members : List α}
    (ring : Ring heap head members) (isNext : (heap entry).next = some next)
    (isPrev : (heap entry).prev = some prev)
    (nextKept : next ∈ head :: members → (heap next).prev = some prev)
    (prevKept : prev ∈ head :: members → (heap prev).next = some next) :
    ∃ heap', listDeleteEntry heap entry = some heap' ∧ Ring heap' head members := by
  refine ⟨_, listDeleteEntry_stores isNext isPrev, ring.congr fun x member => ⟨?_, ?_⟩⟩
  · by_cases same : x = prev
    · simp [same, prevKept (same ▸ member)]
    · simp [same]
  · by_cases same : x = next
    · simp [same, nextKept (same ▸ member)]
    · simp [same]

/-! ## Several lists in one heap -/

section Rings

variable {heap : Heap α} {lists : α → Option (List α)} {head : α} {members : List α}

theorem listInsert_of_ne (heap : Heap α) {new prev next y : α} (notNew : y ≠ new)
    (notPrev : y ≠ prev) (notNext : y ≠ next) : listInsert heap new prev next y = heap y := by
  simp only [listInsert, setNext, setPrev]
  rw [Function.update_of_ne notNew, Function.update_of_ne notNew, Function.update_of_ne notPrev,
    Function.update_of_ne notNext]

theorem initListHead_of_ne (heap : Heap α) {list y : α} (other : y ≠ list) :
    initListHead heap list y = heap y := by
  simp only [initListHead, setNext, setPrev]
  rw [Function.update_of_ne other, Function.update_of_ne other]

theorem initListHead_idle (rings : Rings heap lists)
    (idle : ∀ other nodes, other ≠ head → lists other = some nodes → head ∉ other :: nodes) :
    Rings (initListHead heap head) (Function.update lists head (some [])) := by
  apply rings.set (initListHead_ring heap head)
  intro other nodes different isOther y inside
  have notHead : y ≠ head := fun same => idle other nodes different isOther (same ▸ inside)
  exact ⟨fun member => notHead (List.mem_singleton.mp member), initListHead_of_ne heap notHead⟩

theorem initListHead_rings (rings : Rings heap lists) (free : ¬ Occurs lists head) :
    Rings (initListHead heap head) (Function.update lists head (some [])) := by
  apply initListHead_idle rings
  intro other nodes _ isOther inside
  exact free ⟨other, nodes, isOther, inside⟩

theorem listAddHead_rings (rings : Rings heap lists) (isList : lists head = some members)
    {new : α} (free : ¬ Occurs lists new) :
    ∃ heap', listAddHead heap new head = some heap' ∧
      Rings heap' (Function.update lists head (some (new :: members))) ∧
      ∀ y, y ≠ new → y ∉ head :: members → heap' y = heap y := by
  have ring := rings.ring head members isList
  have fresh : new ∉ head :: members := fun inside => free ⟨head, members, isList, inside⟩
  obtain ⟨first, rest, split, isFirst⟩ := ring.exists_first
  have firstInside : first ∈ head :: members := by
    have member : first ∈ members ++ [head] := split ▸ List.mem_cons_self
    rcases List.mem_append.mp member with isMember | isHead
    · exact List.mem_cons_of_mem _ isMember
    · exact List.mem_singleton.mp isHead ▸ List.mem_cons_self
  have newHead : new ≠ head := fun same => fresh (same ▸ List.mem_cons_self)
  have newFirst : new ≠ first := fun same => fresh (same ▸ firstInside)
  have added : listAddHead heap new head = some (listInsert heap new head first) := by
    rw [listAddHead, isFirst]
    rfl
  have ring' : Ring (listInsert heap new head first) head (new :: members) := by
    apply ring.add_first fresh isFirst
    · simp [listInsert]
    · simp [listInsert]
    · simp [listInsert, newHead.symm]
    · simp [listInsert, newFirst.symm]
    · intro y notNew notHead
      simp [listInsert, notNew, notHead]
    · intro y notNew notFirst
      simp [listInsert, notNew, notFirst]
  have frame : ∀ y, y ≠ new → y ∉ head :: members →
      listInsert heap new head first y = heap y := fun y notNew outside => by
    apply listInsert_of_ne heap notNew
    · exact fun same => outside (same ▸ List.mem_cons_self)
    · exact fun same => outside (same ▸ firstInside)
  have nodes : ∀ y ∈ new :: members, y = new ∨ y ∈ members :=
    fun y member => List.mem_cons.mp member
  exact ⟨_, added, rings.insert isList free ring' nodes frame, frame⟩

theorem listAddTail_rings (rings : Rings heap lists) (isList : lists head = some members)
    {new : α} (free : ¬ Occurs lists new) :
    ∃ heap', listAddTail heap new head = some heap' ∧
      Rings heap' (Function.update lists head (some (members ++ [new]))) ∧
      ∀ y, y ≠ new → y ∉ head :: members → heap' y = heap y := by
  have ring := rings.ring head members isList
  have fresh : new ∉ head :: members := fun inside => free ⟨head, members, isList, inside⟩
  cases listAddTail_ring ring fresh with
  | intro heap' added =>
    obtain ⟨front, last, split, isLast, -⟩ := ring.exists_last
    have lastInside : last ∈ head :: members :=
      split ▸ List.mem_append_right _ List.mem_cons_self
    have inserted : heap' = listInsert heap new last head := by
      have stored := added.1
      rw [listAddTail, isLast] at stored
      exact (Option.some.inj stored).symm
    have frame : ∀ y, y ≠ new → y ∉ head :: members → heap' y = heap y := by
      intro y notNew outside
      rw [inserted]
      apply listInsert_of_ne heap notNew
      · exact fun same => outside (same ▸ lastInside)
      · exact fun same => outside (same ▸ List.mem_cons_self)
    have nodes : ∀ y ∈ members ++ [new], y = new ∨ y ∈ members := by
      intro y member
      cases List.mem_append.mp member with
      | inl isMember => exact Or.inr isMember
      | inr isNew => exact Or.inl (List.mem_singleton.mp isNew)
    exact ⟨heap', added.1, rings.insert isList free added.2 nodes frame, frame⟩

theorem listDeleteEntry_rings {entry : α} {front back : List α} (rings : Rings heap lists)
    (isList : lists head = some (front ++ entry :: back)) :
    ∃ heap', listDeleteEntry heap entry = some heap' ∧
      Rings heap' (Function.update lists head (some (front ++ back))) ∧
      ∀ y, y ∉ head :: (front ++ entry :: back) → heap' y = heap y := by
  have ring := rings.ring head _ isList
  obtain ⟨heap', deleted, ring'⟩ := listDeleteEntry_ring ring
  obtain ⟨next, rest, split, isNext⟩ := ring.exists_next
  obtain ⟨prev, prevInside, isPrev⟩ := ring.exists_prev
  have nextInside : next ∈ head :: (front ++ entry :: back) := by
    have member : next ∈ back ++ [head] := split ▸ List.mem_cons_self
    rcases List.mem_append.mp member with isMember | isHead
    · exact List.mem_cons_of_mem _ (List.mem_append_right _ (List.mem_cons_of_mem _ isMember))
    · exact List.mem_singleton.mp isHead ▸ List.mem_cons_self
  have frame : ∀ y, y ∉ head :: (front ++ entry :: back) → heap' y = heap y := by
    intro y outside
    have notNext : y ≠ next := fun same => outside (same ▸ nextInside)
    have notPrev : y ≠ prev := by
      intro same
      rcases List.mem_cons.mp prevInside with isHead | isMember
      · exact outside (same ▸ isHead ▸ List.mem_cons_self)
      · exact outside (same ▸ List.mem_cons_of_mem _ (List.mem_append_left _ isMember))
    rw [listDeleteEntry_stores isNext isPrev] at deleted
    rw [← Option.some.inj deleted, setNext, setPrev, Function.update_of_ne notPrev,
      Function.update_of_ne notNext]
  refine ⟨heap', deleted, rings.set ring' ?_, frame⟩
  intro other nodes different isOther y inside
  have outside := rings.outside isList different isOther inside
  refine ⟨fun member => outside ?_, frame y outside⟩
  rcases List.mem_cons.mp member with isHead | isMember
  · exact isHead ▸ List.mem_cons_self
  · rcases List.mem_append.mp isMember with inFront | inBack
    · exact List.mem_cons_of_mem _ (List.mem_append_left _ inFront)
    · exact List.mem_cons_of_mem _ (List.mem_append_right _ (List.mem_cons_of_mem _ inBack))

end Rings

end NetworkLab
