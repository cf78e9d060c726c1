import Mathlib.Data.List.Nodup
import Mathlib.Logic.Function.Basic

/-!
# Circular doubly linked lists in a heap

A heap gives every node a forward and a backward link, `none` for a null pointer.
`Ring heap head members` says that `head` and `members` form one circular list,
linked both ways.
-/
set_option autoImplicit false

namespace Lib.LinkedRing

variable {α : Type*}

structure Links (α : Type*) where
  next : Option α
  prev : Option α

abbrev Heap (α : Type*) := α → Links α

/-- Every two neighbours in the sequence are linked both ways. -/
def Linked (heap : Heap α) : List α → Prop
  | x :: y :: rest => (heap x).next = some y ∧ (heap y).prev = some x ∧ Linked heap (y :: rest)
  | _ => True

structure Ring (heap : Heap α) (head : α) (members : List α) : Prop where
  linked : Linked heap (head :: members ++ [head])
  nodup : (head :: members).Nodup

theorem linked_append_cons {heap : Heap α} (front back : List α) (x : α) :
    Linked heap (front ++ x :: back) ↔ Linked heap (front ++ [x]) ∧ Linked heap (x :: back) := by
  induction front with
  | nil => simp [Linked]
  | cons y rest ih =>
      cases rest with
      | nil => simp [Linked, and_assoc]
      | cons z rest =>
          simp only [List.cons_append, Linked] at ih ⊢
          rw [ih]
          simp only [and_assoc]

/-- A sequence stays linked when the links between its nodes stay. -/
theorem Linked.congr {heap heap' : Heap α} {nodes : List α} (linked : Linked heap nodes)
    (nexts : ∀ x ∈ nodes.dropLast, (heap' x).next = (heap x).next)
    (prevs : ∀ x ∈ nodes.tail, (heap' x).prev = (heap x).prev) : Linked heap' nodes := by
  induction nodes with
  | nil => trivial
  | cons x rest ih =>
      cases rest with
      | nil => trivial
      | cons y rest =>
          obtain ⟨forward, backward, later⟩ := linked
          refine ⟨?_, ?_, ih later ?_ ?_⟩
          · rw [nexts x (by simp), forward]
          · rw [prevs y (by simp), backward]
          · exact fun z member => nexts z (by simp [member])
          · exact fun z member => prevs z (List.mem_of_mem_tail (by simpa using member))

section Update

variable [DecidableEq α]

def setNext (heap : Heap α) (x : α) (next : Option α) : Heap α :=
  Function.update heap x { heap x with next := next }

def setPrev (heap : Heap α) (x : α) (prev : Option α) : Heap α :=
  Function.update heap x { heap x with prev := prev }

@[simp] theorem setNext_next (heap : Heap α) (x : α) (next : Option α) (y : α) :
    (setNext heap x next y).next = if y = x then next else (heap y).next := by
  by_cases same : y = x
  · subst same
    simp [setNext]
  · simp [setNext, same]

@[simp] theorem setNext_prev (heap : Heap α) (x : α) (next : Option α) (y : α) :
    (setNext heap x next y).prev = (heap y).prev := by
  by_cases same : y = x
  · subst same
    simp [setNext]
  · simp [setNext, same]

@[simp] theorem setPrev_prev (heap : Heap α) (x : α) (prev : Option α) (y : α) :
    (setPrev heap x prev y).prev = if y = x then prev else (heap y).prev := by
  by_cases same : y = x
  · subst same
    simp [setPrev]
  · simp [setPrev, same]

@[simp] theorem setPrev_next (heap : Heap α) (x : α) (prev : Option α) (y : α) :
    (setPrev heap x prev y).next = (heap y).next := by
  by_cases same : y = x
  · subst same
    simp [setPrev]
  · simp [setPrev, same]

end Update

theorem Ring.exists_last {heap : Heap α} {head : α} {members : List α}
    (ring : Ring heap head members) :
    ∃ front last, head :: members = front ++ [last] ∧ (heap head).prev = some last ∧
      (heap last).next = some head := by
  obtain ⟨front, last, split⟩ : ∃ front last, head :: members = front ++ [last] :=
    ⟨_, _, (List.dropLast_append_getLast (List.cons_ne_nil head members)).symm⟩
  have linked := ring.linked
  rw [split, List.append_assoc, List.singleton_append, linked_append_cons] at linked
  exact ⟨front, last, split, linked.2.2.1, linked.2.1⟩

theorem Ring.exists_first {heap : Heap α} {head : α} {members : List α}
    (ring : Ring heap head members) :
    ∃ first rest, members ++ [head] = first :: rest ∧ (heap head).next = some first := by
  have linked := ring.linked
  cases members with
  | nil => exact ⟨head, [], rfl, linked.1⟩
  | cons x rest => exact ⟨x, rest ++ [head], rfl, linked.1⟩

/-- The node after a member is the next member, or the head after the last. -/
theorem Ring.exists_next {heap : Heap α} {head x : α} {front back : List α}
    (ring : Ring heap head (front ++ x :: back)) :
    ∃ next rest, back ++ [head] = next :: rest ∧ (heap x).next = some next := by
  obtain ⟨next, rest, split⟩ : ∃ next rest, back ++ [head] = next :: rest :=
    List.exists_cons_of_ne_nil (by simp)
  have linked := ring.linked
  have whole : head :: (front ++ x :: back) ++ [head] = (head :: front) ++ x :: next :: rest := by
    simp [← split]
  rw [whole, linked_append_cons] at linked
  exact ⟨next, rest, split, linked.2.1⟩

theorem Ring.next_ne {heap : Heap α} {head x : α} {front back : List α}
    (ring : Ring heap head (front ++ x :: back)) : (heap x).next ≠ some x := by
  obtain ⟨next, rest, split, isNext⟩ := ring.exists_next
  intro own
  have same : next = x := Option.some.inj (isNext.symm.trans own)
  have nodup := List.nodup_cons.mp ring.nodup
  have behind := (List.nodup_append.mp nodup.2).2.1
  have inside : x ∈ back ++ [head] := split ▸ same ▸ List.mem_cons_self
  rcases List.mem_append.mp inside with inBack | isHead
  · exact (List.nodup_cons.mp behind).1 inBack
  · apply nodup.1
    rw [← List.mem_singleton.mp isHead]
    exact List.mem_append_right _ List.mem_cons_self

theorem Ring.exists_prev {heap : Heap α} {head x : α} {front back : List α}
    (ring : Ring heap head (front ++ x :: back)) :
    ∃ prev ∈ head :: front, (heap x).prev = some prev := by
  obtain ⟨init, prev, split⟩ : ∃ init prev, head :: front = init ++ [prev] :=
    ⟨_, _, (List.dropLast_append_getLast (List.cons_ne_nil head front)).symm⟩
  have linked := ring.linked
  have whole : head :: (front ++ x :: back) ++ [head] = init ++ prev :: x :: (back ++ [head]) := by
    rw [← List.cons_append, split]
    simp
  rw [whole, linked_append_cons] at linked
  exact ⟨prev, split ▸ List.mem_append_right init (List.mem_singleton_self prev), linked.2.2.1⟩

theorem Ring.links {heap : Heap α} {head x : α} {members : List α}
    (ring : Ring heap head members) (inside : x ∈ head :: members) :
    (heap x).next.isSome ∧ (heap x).prev.isSome := by
  rcases List.mem_cons.mp inside with isHead | isMember
  · obtain ⟨first, rest, split, isFirst⟩ := ring.exists_first
    obtain ⟨front, last, split, isLast, links⟩ := ring.exists_last
    rw [isHead, isFirst, isLast]
    exact ⟨rfl, rfl⟩
  · obtain ⟨front, back, split⟩ := List.append_of_mem isMember
    subst split
    obtain ⟨next, rest, split, isNext⟩ := ring.exists_next
    obtain ⟨prev, member, isPrev⟩ := ring.exists_prev
    rw [isNext, isPrev]
    exact ⟨rfl, rfl⟩

theorem Ring.next_mem {heap : Heap α} {head x y : α} {members : List α}
    (ring : Ring heap head members) (inside : x ∈ head :: members)
    (isNext : (heap x).next = some y) : y ∈ head :: members := by
  have cyclic : ∀ front back : List α, (front ++ back) ++ [head] ⊆ head :: (front ++ back) := by
    intro front back z member
    rcases List.mem_append.mp member with isMember | isHead
    · exact List.mem_cons_of_mem _ isMember
    · rw [List.mem_singleton.mp isHead]
      exact List.mem_cons_self
  rcases List.mem_cons.mp inside with isHead | isMember
  · obtain ⟨first, rest, split, isFirst⟩ := ring.exists_first
    rw [isHead, isFirst] at isNext
    cases Option.some.inj isNext
    exact cyclic [] members (split ▸ List.mem_cons_self)
  · obtain ⟨front, back, rfl⟩ := List.append_of_mem isMember
    obtain ⟨next, rest, split, isNext'⟩ := ring.exists_next
    cases Option.some.inj (isNext'.symm.trans isNext)
    apply cyclic front (x :: back)
    rw [List.append_assoc, List.cons_append, split]
    exact List.mem_append_right _ (List.mem_cons_of_mem _ List.mem_cons_self)

theorem Ring.forward_mem {heap : Heap α} {head x : α} {members path : List α}
    (ring : Ring heap head members) (inside : x ∈ head :: members)
    (forward : List.IsChain (fun y z => (heap y).next = some z) (x :: path)) :
    ∀ y ∈ path, y ∈ head :: members := by
  induction path generalizing x with
  | nil => exact fun y member => absurd member List.not_mem_nil
  | cons z rest ih =>
      obtain ⟨isNext, later⟩ := List.isChain_cons_cons.mp forward
      have here := ring.next_mem inside isNext
      intro y member
      rcases List.mem_cons.mp member with rfl | behind
      · exact here
      · exact ih here later y behind

theorem Linked.forward {heap : Heap α} {nodes : List α} (linked : Linked heap nodes) :
    List.IsChain (fun y z => (heap y).next = some z) nodes := by
  induction nodes with
  | nil => exact .nil
  | cons x rest ih =>
      cases rest with
      | nil => exact .singleton x
      | cons y rest => exact List.isChain_cons_cons.mpr ⟨linked.1, ih linked.2.2⟩

/-- A way forward stays when the links of its nodes but the last stay. -/
theorem forward_congr {heap heap' : Heap α} {path : List α} {last : α}
    (forward : List.IsChain (fun y z => (heap y).next = some z) (path ++ [last]))
    (same : ∀ x ∈ path, (heap' x).next = (heap x).next) :
    List.IsChain (fun y z => (heap' y).next = some z) (path ++ [last]) := by
  induction path with
  | nil => exact .singleton last
  | cons x rest ih =>
      have later := ih (List.isChain_of_isChain_cons forward) fun y member => same y (List.mem_cons_of_mem _ member)
      cases rest with
      | nil =>
          have isNext := (List.isChain_cons_cons.mp forward).1
          exact List.isChain_cons_cons.mpr ⟨(same x List.mem_cons_self).trans isNext, later⟩
      | cons y rest =>
          have isNext := (List.isChain_cons_cons.mp forward).1
          exact List.isChain_cons_cons.mpr ⟨(same x List.mem_cons_self).trans isNext, later⟩

/-- A ring stays when the links of its nodes stay. -/
theorem Ring.congr {heap heap' : Heap α} {head : α} {members : List α}
    (ring : Ring heap head members) (same : ∀ x ∈ head :: members,
      (heap' x).next = (heap x).next ∧ (heap' x).prev = (heap x).prev) :
    Ring heap' head members := by
  refine ⟨ring.linked.congr ?_ ?_, ring.nodup⟩
  · intro x member
    rw [List.dropLast_concat] at member
    exact (same x member).1
  · intro x member
    refine (same x ?_).2
    have inTail : x ∈ members ++ [head] := member
    rcases List.mem_append.mp inTail with inside | isHead
    · exact List.mem_cons_of_mem _ inside
    · rw [List.mem_singleton.mp isHead]
      exact List.mem_cons_self

theorem Ring.add_last {heap heap' : Heap α} {head x last : α} {members : List α}
    (ring : Ring heap head members) (fresh : x ∉ head :: members)
    (isLast : (heap head).prev = some last)
    (xNext : (heap' x).next = some head) (xPrev : (heap' x).prev = some last)
    (lastNext : (heap' last).next = some x) (headPrev : (heap' head).prev = some x)
    (nexts : ∀ y, y ≠ x → y ≠ last → (heap' y).next = (heap y).next)
    (prevs : ∀ y, y ≠ x → y ≠ head → (heap' y).prev = (heap y).prev) :
    Ring heap' head (members ++ [x]) := by
  obtain ⟨front, last', split, isLast', -⟩ := ring.exists_last
  obtain rfl : last' = last := Option.some.inj (isLast'.symm.trans isLast)
  have linked := ring.linked
  have nodup := ring.nodup
  rw [split] at nodup fresh
  rw [split, List.append_assoc, List.singleton_append, linked_append_cons] at linked
  have headTail : ∀ y ∈ (front ++ [last']).tail, y ≠ head := by
    rw [← split]
    intro y member same
    exact (List.nodup_cons.mp ring.nodup).1 (same ▸ member)
  constructor
  · have whole : head :: (members ++ [x]) ++ [head] = front ++ last' :: [x, head] := by
      rw [← List.cons_append, split]
      simp
    rw [whole, linked_append_cons]
    refine ⟨linked.1.congr ?_ ?_, lastNext, xPrev, xNext, headPrev, trivial⟩
    · intro y member
      rw [List.dropLast_concat] at member
      refine nexts y (fun same => fresh (by simp [← same, member])) fun same => ?_
      exact (List.nodup_append.mp nodup).2.2 y member last' (by simp) same
    · intro y member
      exact prevs y (fun same => fresh (same ▸ List.mem_of_mem_tail member)) (headTail y member)
  · rw [← List.cons_append, split]
    exact List.Nodup.append nodup (List.nodup_singleton x) (by simpa using fresh)

theorem Ring.add_first {heap heap' : Heap α} {head x first : α} {members : List α}
    (ring : Ring heap head members) (fresh : x ∉ head :: members)
    (isFirst : (heap head).next = some first)
    (xNext : (heap' x).next = some first) (xPrev : (heap' x).prev = some head)
    (headNext : (heap' head).next = some x) (firstPrev : (heap' first).prev = some x)
    (nexts : ∀ y, y ≠ x → y ≠ head → (heap' y).next = (heap y).next)
    (prevs : ∀ y, y ≠ x → y ≠ first → (heap' y).prev = (heap y).prev) :
    Ring heap' head (x :: members) := by
  obtain ⟨first', rest, split, isFirst'⟩ := ring.exists_first
  obtain rfl : first' = first := Option.some.inj (isFirst'.symm.trans isFirst)
  have linked := ring.linked
  have nodup := ring.nodup
  have headNotMember := (List.nodup_cons.mp nodup).1
  have xNotMember : x ∉ members := fun member => fresh (List.mem_cons_of_mem _ member)
  rw [List.cons_append, split] at linked
  constructor
  · rw [List.cons_append, List.cons_append, split]
    refine ⟨headNext, xPrev, xNext, firstPrev, linked.2.2.congr ?_ ?_⟩
    · intro y member
      rw [← split, List.dropLast_concat] at member
      apply nexts
      · exact fun same => xNotMember (same ▸ member)
      · exact fun same => headNotMember (same ▸ member)
    · intro y member
      -- Among the members and the head behind them, the first node comes once.
      have behind : (members ++ [head]).Nodup :=
        List.Nodup.append (List.nodup_cons.mp nodup).2 (List.nodup_singleton _)
          (by simpa using headNotMember)
      rw [split] at behind
      apply prevs
      · intro same
        have inside : x ∈ members ++ [head] := split ▸ List.mem_cons_of_mem _ (same ▸ member)
        rcases List.mem_append.mp inside with isMember | isHead
        · exact xNotMember isMember
        · exact fresh (List.mem_singleton.mp isHead ▸ List.mem_cons_self)
      · exact fun same => (List.nodup_cons.mp behind).1 (same ▸ member)
  · apply List.nodup_cons.mpr ⟨?_, List.nodup_cons.mpr ⟨xNotMember, (List.nodup_cons.mp nodup).2⟩⟩
    intro member
    rcases List.mem_cons.mp member with same | isMember
    · exact fresh (same ▸ List.mem_cons_self)
    · exact headNotMember isMember

theorem Ring.unlink {heap heap' : Heap α} {head x before after : α} {front back : List α}
    (ring : Ring heap head (front ++ x :: back)) (xPrev : (heap x).prev = some before)
    (xNext : (heap x).next = some after) (beforeNext : (heap' before).next = some after)
    (afterPrev : (heap' after).prev = some before)
    (nexts : ∀ y, y ≠ before → (heap' y).next = (heap y).next)
    (prevs : ∀ y, y ≠ after → (heap' y).prev = (heap y).prev) :
    Ring heap' head (front ++ back) := by
  obtain ⟨init, before', initSplit⟩ : ∃ init before', head :: front = init ++ [before'] :=
    ⟨_, _, (List.dropLast_append_getLast (List.cons_ne_nil head front)).symm⟩
  obtain ⟨after', rest, restSplit⟩ : ∃ after' rest, back ++ [head] = after' :: rest :=
    List.exists_cons_of_ne_nil (by simp)
  have linked := ring.linked
  have nodup := ring.nodup
  have whole : head :: (front ++ x :: back) ++ [head] =
      init ++ before' :: (x :: after' :: rest) := by
    rw [← List.cons_append, initSplit]
    simp [← restSplit]
  rw [whole, linked_append_cons] at linked
  obtain ⟨linkedInit, -, xBack, xForward, -, linkedRest⟩ := linked
  obtain rfl : before' = before := Option.some.inj (xBack.symm.trans xPrev)
  obtain rfl : after' = after := Option.some.inj (xForward.symm.trans xNext)
  rw [← List.cons_append, initSplit] at nodup
  obtain ⟨nodupFront, nodupBack, disjoint⟩ := List.nodup_append.mp nodup
  have headNotBack : head ∉ back := by
    intro member
    refine disjoint head ?_ head (List.mem_cons_of_mem _ member) rfl
    rw [← initSplit]
    exact List.mem_cons_self
  have headNotTail : head ∉ (init ++ [before']).tail := by
    rw [← initSplit] at nodupFront ⊢
    exact (List.nodup_cons.mp nodupFront).1
  constructor
  · have whole' : head :: (front ++ back) ++ [head] = init ++ before' :: (after' :: rest) := by
      rw [← List.cons_append, initSplit]
      simp [← restSplit]
    rw [whole', linked_append_cons]
    refine ⟨linkedInit.congr ?_ ?_, beforeNext, afterPrev, linkedRest.congr ?_ ?_⟩
    · intro y member
      rw [List.dropLast_concat] at member
      exact nexts y fun same =>
        (List.nodup_append.mp nodupFront).2.2 y member before' (by simp) same
    · intro y member
      refine prevs y fun same => ?_
      subst same
      have inEnd : y ∈ back ++ [head] := by simp [restSplit]
      rcases List.mem_append.mp inEnd with inBack | isHead
      · exact disjoint y (List.mem_of_mem_tail member) y (List.mem_cons_of_mem _ inBack) rfl
      · rw [List.mem_singleton.mp isHead] at member
        exact headNotTail member
    · intro y member
      rw [← restSplit, List.dropLast_concat] at member
      exact nexts y fun same =>
        disjoint before' (by simp) y (List.mem_cons_of_mem _ member) same.symm
    · intro y member
      refine prevs y fun same => ?_
      subst same
      have nodupEnd : (back ++ [head]).Nodup :=
        List.Nodup.append (List.nodup_cons.mp nodupBack).2 (List.nodup_singleton _)
          (by simpa using headNotBack)
      rw [restSplit] at nodupEnd
      exact (List.nodup_cons.mp nodupEnd).1 member
  · rw [← List.cons_append, initSplit]
    exact nodup.sublist (List.Sublist.append_left (List.sublist_cons_self x back) _)

section Rings

def Occurs (lists : α → Option (List α)) (x : α) : Prop :=
  ∃ head members, lists head = some members ∧ x ∈ head :: members

/-- Any number of circular lists that share no node. -/
structure Rings (heap : Heap α) (lists : α → Option (List α)) : Prop where
  ring : ∀ head members, lists head = some members → Ring heap head members
  apart : ∀ head members other others x, lists head = some members →
    lists other = some others → x ∈ head :: members → x ∈ other :: others → head = other

variable {heap heap' : Heap α} {lists : α → Option (List α)} {head x : α} {members : List α}

theorem Rings.links (rings : Rings heap lists) (occurs : Occurs lists x) :
    (heap x).next.isSome ∧ (heap x).prev.isSome := by
  obtain ⟨head, members, isList, inside⟩ := occurs
  exact (rings.ring head members isList).links inside

theorem Rings.outside (rings : Rings heap lists) (isList : lists head = some members)
    {other y : α} {nodes : List α} (different : other ≠ head) (isOther : lists other = some nodes)
    (inside : y ∈ other :: nodes) : y ∉ head :: members := by
  intro inHead
  exact different (rings.apart other nodes head members y isOther isList inside inHead)

theorem Rings.set [DecidableEq α] (rings : Rings heap lists) (ring : Ring heap' head members)
    (others : ∀ other nodes, other ≠ head → lists other = some nodes → ∀ y ∈ other :: nodes,
      y ∉ head :: members ∧ heap' y = heap y) :
    Rings heap' (Function.update lists head (some members)) where
  ring other nodes isList := by
    by_cases same : other = head
    · subst same
      rw [Function.update_self] at isList
      rw [← Option.some.inj isList]
      exact ring
    · rw [Function.update_of_ne same] at isList
      apply (rings.ring other nodes isList).congr
      intro y inside
      rw [(others other nodes same isList y inside).2]
      exact ⟨rfl, rfl⟩
  apart first nodes second nodes' y isFirst isSecond inFirst inSecond := by
    by_cases sameFirst : first = head
    · subst sameFirst
      rw [Function.update_self] at isFirst
      rw [← Option.some.inj isFirst] at inFirst
      by_contra different
      rw [Function.update_of_ne (Ne.symm different)] at isSecond
      exact (others second nodes' (Ne.symm different) isSecond y inSecond).1 inFirst
    · rw [Function.update_of_ne sameFirst] at isFirst
      by_cases sameSecond : second = head
      · subst sameSecond
        rw [Function.update_self] at isSecond
        rw [← Option.some.inj isSecond] at inSecond
        exact absurd inSecond (others first nodes sameFirst isFirst y inFirst).1
      · rw [Function.update_of_ne sameSecond] at isSecond
        exact rings.apart first nodes second nodes' y isFirst isSecond inFirst inSecond

theorem Rings.insert [DecidableEq α] {members' : List α} (rings : Rings heap lists)
    (isList : lists head = some members) (free : ¬ Occurs lists x)
    (ring : Ring heap' head members') (nodes : ∀ y ∈ members', y = x ∨ y ∈ members)
    (frame : ∀ y, y ≠ x → y ∉ head :: members → heap' y = heap y) :
    Rings heap' (Function.update lists head (some members')) := by
  apply rings.set ring
  intro other others different isOther y inside
  have outside := rings.outside isList different isOther inside
  have notNew : y ≠ x := fun same => free ⟨other, others, isOther, same ▸ inside⟩
  refine ⟨?_, frame y notNew outside⟩
  intro member
  cases List.mem_cons.mp member with
  | inl isHead => exact outside (isHead ▸ List.mem_cons_self)
  | inr inMembers =>
    cases nodes y inMembers with
    | inl isNew => exact notNew isNew
    | inr isMember => exact outside (List.mem_cons_of_mem _ isMember)

theorem Occurs.of_update [DecidableEq α]
    (occurs : Occurs (Function.update lists head (some members)) x) :
    x ∈ head :: members ∨ ∃ other nodes, other ≠ head ∧ lists other = some nodes ∧
      x ∈ other :: nodes := by
  obtain ⟨other, nodes, isList, inside⟩ := occurs
  by_cases same : other = head
  · subst same
    rw [Function.update_self] at isList
    rw [← Option.some.inj isList] at inside
    exact Or.inl inside
  · rw [Function.update_of_ne same] at isList
    exact Or.inr ⟨other, nodes, same, isList, inside⟩

theorem Occurs.of_new [DecidableEq α] (occurs : Occurs (Function.update lists head (some [])) x) :
    x = head ∨ Occurs lists x := by
  rcases occurs.of_update with inside | ⟨other, nodes, -, isOther, inside⟩
  · exact Or.inl (List.mem_singleton.mp inside)
  · exact Or.inr ⟨other, nodes, isOther, inside⟩

theorem Occurs.of_deleted [DecidableEq α] {entry : α} {front back : List α}
    (isList : lists head = some (front ++ entry :: back))
    (occurs : Occurs (Function.update lists head (some (front ++ back))) x) : Occurs lists x := by
  rcases occurs.of_update with inside | ⟨other, nodes, -, isOther, inside⟩
  · refine ⟨head, _, isList, ?_⟩
    rw [← List.cons_append, List.mem_append] at inside ⊢
    exact inside.imp_right (List.mem_cons_of_mem _)
  · exact ⟨other, nodes, isOther, inside⟩

/-- A node that is taken out of its list is in no list. -/
theorem Rings.not_occurs [DecidableEq α] {front back : List α} (rings : Rings heap lists)
    (isList : lists head = some (front ++ x :: back)) :
    ¬ Occurs (Function.update lists head (some (front ++ back))) x := by
  have member : x ∈ front ++ x :: back := List.mem_append_right _ List.mem_cons_self
  have nodup := (rings.ring head _ isList).nodup
  rw [← List.cons_append, List.nodup_middle, List.nodup_cons] at nodup
  intro occurs
  rcases occurs.of_update with inside | ⟨other, nodes, different, isOther, inside⟩
  · exact nodup.1 inside
  · exact rings.outside isList different isOther inside (List.mem_cons_of_mem _ member)

theorem Rings.restrict {fewer : α → Option (List α)} (rings : Rings heap lists)
    (kept : ∀ head members, fewer head = some members → lists head = some members)
    (same : ∀ y, Occurs fewer y → heap' y = heap y) : Rings heap' fewer where
  ring head members isList := by
    apply (rings.ring head members (kept head members isList)).congr
    intro y inside
    rw [same y ⟨head, members, isList, inside⟩]
    exact ⟨rfl, rfl⟩
  apart head members other others y isList isOther inside inOther :=
    rings.apart head members other others y (kept head members isList)
      (kept other others isOther) inside inOther

end Rings

section Visit

variable [DecidableEq α]

/-- The nodes that a forward traversal visits from `pos` until it is back at `head`;
`none` when it meets a null pointer or does not come back within `fuel` nodes. -/
def visit (heap : Heap α) (head : α) : Nat → α → Option (List α)
  | 0, _ => none
  | fuel + 1, pos =>
    if pos = head then some []
    else do
      let next ← (heap pos).next
      let rest ← visit heap head fuel next
      some (pos :: rest)

theorem visit_linked {heap : Heap α} {head pos : α} {nodes rest : List α} {fuel : Nat}
    (split : nodes ++ [head] = pos :: rest) (linked : Linked heap (nodes ++ [head]))
    (other : head ∉ nodes) (enough : nodes.length < fuel) :
    visit heap head fuel pos = some nodes := by
  induction nodes generalizing pos rest fuel with
  | nil =>
      obtain ⟨fuel, rfl⟩ := Nat.exists_eq_succ_of_ne_zero (by omega : fuel ≠ 0)
      obtain rfl : head = pos := (List.cons.inj split).1
      simp [visit]
  | cons x nodes ih =>
      obtain ⟨fuel, rfl⟩ := Nat.exists_eq_succ_of_ne_zero (by omega : fuel ≠ 0)
      obtain rfl : x = pos := (List.cons.inj split).1
      obtain ⟨y, rest', split'⟩ : ∃ y rest', nodes ++ [head] = y :: rest' :=
        List.exists_cons_of_ne_nil (by simp)
      rw [List.cons_append, split'] at linked
      have different : x ≠ head := fun same => other (same ▸ List.mem_cons_self)
      have later := ih split' (split' ▸ linked.2.2)
        (fun member => other (List.mem_cons_of_mem _ member))
        (Nat.lt_of_succ_lt_succ enough)
      simp [visit, different, linked.1, later]

theorem Ring.visit {heap : Heap α} {head : α} {members : List α} {fuel : Nat}
    (ring : Ring heap head members) (enough : members.length < fuel) :
    ∃ first, (heap head).next = some first ∧
      visit heap head fuel first = some members := by
  obtain ⟨first, rest, split, next⟩ := ring.exists_first
  have linked := ring.linked
  rw [List.cons_append, split] at linked
  exact ⟨first, next, visit_linked split (split ▸ linked.2.2)
    (List.nodup_cons.mp ring.nodup).1 enough⟩

end Visit

end Lib.LinkedRing
