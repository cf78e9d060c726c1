import NetworkLab.ListHead
import NetworkLab.Tcp.Process
import Mathlib.Logic.Relation

/-!
# Lists as sequences, and their traversal while they change

`list_for_each_entry_safe` of `list.h` saves the successor of a node before its body runs.
The body may take the current node out, and add nodes at the head of the list or to other
lists.  Under the operations of `list.h` the heap stays a set of circular lists, each a
sequence of nodes.
-/
set_option autoImplicit false

namespace NetworkLab

open Lib.LinkedRing

universe u

variable {α σ : Type u} [DecidableEq α]

abbrev Lists (α : Type u) := α → Option (List α)

/-- The loop from `pos` with the saved `q`: the nodes that it visits, and the state and the heap
behind it.  `none` is a null pointer, or more turns than `fuel`. -/
def forEachSafe (body : α → σ → Heap α → Option (σ × Heap α)) (head : α) :
    Nat → α → α → σ → Heap α → Option (List α × σ × Heap α)
  | 0, _, _, _, _ => none
  | fuel + 1, pos, q, state, heap =>
    if pos = head then some ([], state, heap)
    else do
      let (state, heap) ← body pos state heap
      let next ← (heap q).next
      let (visited, final) ← forEachSafe body head fuel q next state heap
      some (pos :: visited, final)

def listForEachEntrySafe (body : α → σ → Heap α → Option (σ × Heap α)) (head : α) (fuel : Nat)
    (state : σ) (heap : Heap α) : Option (List α × σ × Heap α) := do
  let pos ← (heap head).next
  let q ← (heap pos).next
  forEachSafe body head fuel pos q state heap

section Specification

/-- What the body may do while it is at `pos` in the list of `head`. -/
inductive BodyStep (head pos : α) : Heap α × Lists α → Heap α × Lists α → Prop
  | init (heap : Heap α) (lists : Lists α) (list : α)
      (apart : ∀ other nodes, other ≠ list → lists other = some nodes → list ∉ other :: nodes)
      (empty : ∀ nodes, lists list = some nodes → nodes = []) :
      BodyStep head pos (heap, lists)
        (initListHead heap list, Function.update lists list (some []))
  | addHead (heap heap' : Heap α) (lists : Lists α) (new list : α) (members : List α)
      (isList : lists list = some members) (free : ¬ Occurs lists new)
      (added : listAddHead heap new list = some heap') :
      BodyStep head pos (heap, lists) (heap', Function.update lists list (some (new :: members)))
  | addTail (heap heap' : Heap α) (lists : Lists α) (new list : α) (members : List α)
      (other : list ≠ head) (isList : lists list = some members) (free : ¬ Occurs lists new)
      (added : listAddTail heap new list = some heap') :
      BodyStep head pos (heap, lists)
        (heap', Function.update lists list (some (members ++ [new])))
  | delete (heap heap' : Heap α) (lists : Lists α) (list : α) (front back : List α)
      (isList : lists list = some (front ++ pos :: back))
      (deleted : listDeleteEntry heap pos = some heap') :
      BodyStep head pos (heap, lists) (heap', Function.update lists list (some (front ++ back)))
  -- an empty list is given up
  | forget (heap : Heap α) (lists : Lists α) (list : α) (other : list ≠ head)
      (empty : lists list = some []) :
      BodyStep head pos (heap, lists) (heap, Function.update lists list none)
  -- stores to memory that belongs to no list, as those of `malloc` and `free`
  | store (heap heap' : Heap α) (lists : Lists α)
      (same : ∀ y, Occurs lists y → heap' y = heap y) :
      BodyStep head pos (heap, lists) (heap', lists)

/-- From every state of the loop in which `pos` is the next node the body does what it may;
`inv` speaks about the nodes that are still to be visited, the state, the heap and the lists. -/
def Allowed (body : α → σ → Heap α → Option (σ × Heap α)) (head : α)
    (inv : List α → σ → Heap α → Lists α → Prop) : Prop :=
  ∀ pos rest front state heap lists, inv (pos :: rest) state heap lists → Rings heap lists →
    lists head = some (front ++ pos :: rest) →
    ∃ state' heap' lists', body pos state heap = some (state', heap') ∧
      Relation.ReflTransGen (BodyStep head pos) (heap, lists) (heap', lists') ∧
      inv rest state' heap' lists'

/-- The operations of `list.h` are those of sequences, for the lists of one heap. -/
structure RefinesSequences (heap : Heap α) (lists : Lists α) : Prop where
  init : ∀ list, ¬ Occurs lists list →
    Rings (initListHead heap list) (Function.update lists list (some [])) ∧
      ∀ y, y ≠ list → initListHead heap list y = heap y
  addHead : ∀ head members new, lists head = some members → ¬ Occurs lists new →
    ∃ heap', listAddHead heap new head = some heap' ∧
      Rings heap' (Function.update lists head (some (new :: members))) ∧
      ∀ y, y ≠ new → y ∉ head :: members → heap' y = heap y
  addTail : ∀ head members new, lists head = some members → ¬ Occurs lists new →
    ∃ heap', listAddTail heap new head = some heap' ∧
      Rings heap' (Function.update lists head (some (members ++ [new]))) ∧
      ∀ y, y ≠ new → y ∉ head :: members → heap' y = heap y
  delete : ∀ head front entry back, lists head = some (front ++ entry :: back) →
    ∃ heap', listDeleteEntry heap entry = some heap' ∧
      Rings heap' (Function.update lists head (some (front ++ back))) ∧
      ∀ y, y ∉ head :: (front ++ entry :: back) → heap' y = heap y
  forEachSafe : ∀ (σ : Type u) (body : α → σ → Heap α → Option (σ × Heap α)) (head : α)
    (members : List α) (inv : List α → σ → Heap α → Lists α → Prop) (state : σ) (fuel : Nat),
    lists head = some members → Allowed body head inv → inv members state heap lists →
    members.length < fuel →
    ∃ state' heap' lists',
      listForEachEntrySafe body head fuel state heap = some (members, state', heap') ∧
        Rings heap' lists' ∧ inv [] state' heap' lists'

end Specification

section Ahead

/-- The nodes that are still to be visited end the list of `head`. -/
structure Ahead (head : α) (rest : List α) (shape : Heap α × Lists α) : Prop where
  rings : Rings shape.1 shape.2
  behind : ∃ front, shape.2 head = some (front ++ rest)

variable {head pos : α} {rest : List α}

theorem Ahead.update {heap heap' : Heap α} {lists : Lists α} {list : α} {members : List α}
    (ahead : Ahead head rest (heap, lists))
    (rings : Rings heap' (Function.update lists list (some members)))
    (ending : list = head → ∃ front, members = front ++ rest) :
    Ahead head rest (heap', Function.update lists list (some members)) := by
  refine ⟨rings, ?_⟩
  by_cases same : list = head
  · cases ending same with
    | intro front split =>
      refine ⟨front, ?_⟩
      change Function.update lists list (some members) head = _
      rw [← same, Function.update_self, split]
  · cases ahead.behind with
    | intro front isList =>
      refine ⟨front, ?_⟩
      change Function.update lists list (some members) head = _
      rw [Function.update_of_ne (Ne.symm same)]
      exact isList

omit [DecidableEq α] in
theorem Ahead.ending {heap : Heap α} {lists : Lists α} {list : α} {members : List α}
    (ahead : Ahead head rest (heap, lists)) (isList : lists list = some members)
    (same : list = head) : ∃ front, members = front ++ rest := by
  cases ahead.behind with
  | intro front isHead =>
    refine ⟨front, ?_⟩
    rw [same] at isList
    exact Option.some.inj (isList.symm.trans isHead)

theorem Ahead.forget {heap : Heap α} {lists : Lists α} {list : α}
    (ahead : Ahead head rest (heap, lists)) (other : list ≠ head) :
    Ahead head rest (heap, Function.update lists list none) := by
  have kept : ∀ first members, Function.update lists list none first = some members →
      lists first = some members := by
    intro first members isList
    by_cases same : first = list
    · rw [same, Function.update_self] at isList
      cases isList
    · rw [Function.update_of_ne same] at isList
      exact isList
  refine ⟨ahead.rings.restrict kept fun _ _ => rfl, ?_⟩
  cases ahead.behind with
  | intro front isHead =>
    refine ⟨front, ?_⟩
    change Function.update lists list none head = _
    rw [Function.update_of_ne (Ne.symm other)]
    exact isHead

omit [DecidableEq α] in
/-- The next node is not the head, is not visited again, and may be left behind. -/
theorem Ahead.current {heap : Heap α} {lists : Lists α} {first : α}
    (ahead : Ahead head (first :: rest) (heap, lists)) :
    first ≠ head ∧ first ∉ rest ∧ Ahead head rest (heap, lists) := by
  cases ahead.behind with
  | intro front isList =>
    have nodup := List.nodup_cons.mp (ahead.rings.ring head _ isList).nodup
    refine ⟨?_, ?_, ahead.rings, front ++ [first], ?_⟩
    · intro same
      exact nodup.1 (same ▸ List.mem_append_right _ List.mem_cons_self)
    · exact (List.nodup_cons.mp (List.nodup_append.mp nodup.2).2.1).1
    · rw [List.append_assoc]
      exact isList

omit [DecidableEq α] in
theorem occurs_of_mem_ring {lists : Lists α} {front : List α} {y : α}
    (isList : lists head = some (front ++ rest)) (inside : y ∈ rest ++ [head]) :
    Occurs lists y := by
  refine ⟨head, _, isList, ?_⟩
  cases List.mem_append.mp inside with
  | inl isMember => exact List.mem_cons_of_mem _ (List.mem_append_right _ isMember)
  | inr isHead => exact List.mem_singleton.mp isHead ▸ List.mem_cons_self

omit [DecidableEq α] in
theorem suffix_of_delete {front back before : List α}
    (split : front ++ pos :: back = before ++ rest) (notAhead : pos ∉ rest) :
    ∃ others, front ++ back = others ++ rest := by
  cases List.append_eq_append_iff.mp split with
  | inl longer =>
    cases longer with
    | intro middle parts =>
      cases middle with
      | nil =>
        have first : pos ∈ rest := by
          rw [List.nil_append] at parts
          rw [← parts.2]
          exact List.mem_cons_self
        exact absurd first notAhead
      | cons x middle =>
        refine ⟨front ++ middle, ?_⟩
        have tails := (List.cons.inj parts.2).2
        change back = middle ++ rest at tails
        rw [tails, List.append_assoc]
  | inr shorter =>
    cases shorter with
    | intro middle parts =>
      have inside : pos ∈ rest := by
        rw [parts.2]
        exact List.mem_append_right _ List.mem_cons_self
      exact absurd inside notAhead

theorem Ahead.step {before after : Heap α × Lists α} (ahead : Ahead head rest before)
    (current : pos ∉ rest) (step : BodyStep head pos before after) : Ahead head rest after := by
  cases step with
  | init heap lists list apart empty =>
    apply ahead.update (initListHead_idle ahead.rings apart)
    intro same
    cases ahead.behind with
    | intro front isList =>
      have none := empty (front ++ rest) (same ▸ isList)
      exact ⟨front, none.symm⟩
  | addHead heap heap' lists new list members isList free added =>
    cases listAddHead_rings ahead.rings isList free with
    | intro other rings =>
      have equal : heap' = other := Option.some.inj (added.symm.trans rings.1)
      rw [equal]
      apply ahead.update rings.2.1
      intro same
      cases ahead.ending isList same with
      | intro front split => exact ⟨new :: front, by rw [split, List.cons_append]⟩
  | addTail heap heap' lists new list members other isList free added =>
    cases listAddTail_rings ahead.rings isList free with
    | intro result rings =>
      have equal : heap' = result := Option.some.inj (added.symm.trans rings.1)
      rw [equal]
      exact ahead.update rings.2.1 fun same => absurd same other
  | delete heap heap' lists list front back isList deleted =>
    cases listDeleteEntry_rings ahead.rings isList with
    | intro result rings =>
      have equal : heap' = result := Option.some.inj (deleted.symm.trans rings.1)
      rw [equal]
      apply ahead.update rings.2.1
      intro same
      cases ahead.ending isList same with
      | intro before split => exact suffix_of_delete split current
  | forget heap lists list other empty => exact ahead.forget other
  | store heap heap' lists same =>
    exact ⟨ahead.rings.restrict (fun _ _ isList => isList) same, ahead.behind⟩

theorem Ahead.steps {before after : Heap α × Lists α} (ahead : Ahead head rest before)
    (current : pos ∉ rest)
    (steps : Relation.ReflTransGen (BodyStep head pos) before after) : Ahead head rest after := by
  induction steps with
  | refl => exact ahead
  | tail _ step ih => exact ih.step current step

end Ahead

section Loop

variable {body : α → σ → Heap α → Option (σ × Heap α)} {head : α}
  {inv : List α → σ → Heap α → Lists α → Prop}

/-- From its next node on the loop visits what is ahead, each node once. -/
theorem forEachSafe_ahead (allowed : Allowed body head inv) {rest : List α} {heap : Heap α}
    {lists : Lists α} {state : σ} {pos q : α} {behind : List α} {fuel : Nat}
    (ahead : Ahead head rest (heap, lists)) (holds : inv rest state heap lists)
    (split : rest ++ [head] = pos :: behind) (saved : (heap pos).next = some q)
    (enough : rest.length < fuel) :
    ∃ state' heap' lists', forEachSafe body head fuel pos q state heap =
        some (rest, state', heap') ∧ Rings heap' lists' ∧ inv [] state' heap' lists' := by
  induction rest generalizing heap lists state pos q behind fuel with
  | nil =>
    cases fuel with
    | zero => exact absurd enough (Nat.not_lt_zero _)
    | succ fuel =>
      have isHead : pos = head := ((List.cons.inj split).1).symm
      refine ⟨state, heap, lists, ?_, ahead.rings, holds⟩
      unfold forEachSafe
      rw [if_pos isHead]
  | cons first rest ih =>
    cases fuel with
    | zero => exact absurd enough (Nat.not_lt_zero _)
    | succ fuel =>
      have isFirst : first = pos := (List.cons.inj split).1
      subst isFirst
      obtain ⟨notHead, once, shorter⟩ := ahead.current
      cases ahead.behind with
      | intro front isList =>
        obtain ⟨next, later, isNext, link⟩ := (ahead.rings.ring head _ isList).exists_next
        have isSaved : next = q := Option.some.inj (link.symm.trans saved)
        rw [isSaved] at isNext
        obtain ⟨state', heap', lists', ran, steps, holds'⟩ :=
          allowed first rest front state heap lists holds ahead.rings isList
        have ahead' := shorter.steps once steps
        cases ahead'.behind with
        | intro front' isList' =>
          -- the saved node is the next one, or the head behind the last one
          have inside : q ∈ rest ++ [head] := isNext ▸ List.mem_cons_self
          have occurs : Occurs lists' q := occurs_of_mem_ring isList' inside
          cases Option.isSome_iff_exists.mp (ahead'.rings.links occurs).1 with
          | intro following link' =>
            obtain ⟨final, heap'', lists'', run, rings, holds''⟩ :=
              ih ahead' holds' isNext link' (Nat.lt_of_succ_lt_succ enough)
            refine ⟨final, heap'', lists'', ?_, rings, holds''⟩
            unfold forEachSafe
            rw [if_neg notHead]
            change (heap' q).next = some following at link'
            simp only [ran, link', run, Option.bind_eq_bind, Option.bind_some]

theorem listForEachEntrySafe_visits (allowed : Allowed body head inv) {heap : Heap α}
    {lists : Lists α} {members : List α} {state : σ} {fuel : Nat} (rings : Rings heap lists)
    (isList : lists head = some members) (holds : inv members state heap lists)
    (enough : members.length < fuel) :
    ∃ state' heap' lists', listForEachEntrySafe body head fuel state heap =
        some (members, state', heap') ∧ Rings heap' lists' ∧ inv [] state' heap' lists' := by
  have ring := rings.ring head members isList
  obtain ⟨pos, behind, split, first⟩ := ring.exists_first
  have inside : pos ∈ members ++ [head] := split ▸ List.mem_cons_self
  have whole : lists head = some ([] ++ members) := isList
  have occurs : Occurs lists pos := occurs_of_mem_ring whole inside
  cases Option.isSome_iff_exists.mp (rings.links occurs).1 with
  | intro q saved =>
    have ahead : Ahead head members (heap, lists) := ⟨rings, [], isList⟩
    obtain ⟨state', heap', lists', run, result⟩ :=
      forEachSafe_ahead allowed ahead holds split saved enough
    refine ⟨state', heap', lists', ?_, result⟩
    unfold listForEachEntrySafe
    simp only [first, saved, run, Option.bind_eq_bind, Option.bind_some]

end Loop

/-- In every heap of circular lists. -/
theorem list_operations_refine (heap : Heap α) (lists : Lists α) (rings : Rings heap lists) :
    RefinesSequences heap lists where
  init _ free := ⟨initListHead_rings rings free, fun _ other => initListHead_of_ne heap other⟩
  addHead _ _ _ isList free := listAddHead_rings rings isList free
  addTail _ _ _ isList free := listAddTail_rings rings isList free
  delete _ _ _ _ isList := listDeleteEntry_rings rings isList
  forEachSafe _ _ _ _ _ _ _ isList allowed holds enough :=
    listForEachEntrySafe_visits allowed rings isList holds enough

def twoHeads : Heap Nat
  | 0 => { next := some 2, prev := some 2 }
  | 1 => { next := some 1, prev := some 1 }
  | 2 => { next := some 0, prev := some 0 }
  | _ => { next := none, prev := none }

def twoLists : Lists Nat
  | 0 => some [2]
  | 1 => some []
  | _ => none

theorem rings_twoLists : Rings twoHeads twoLists := by
  constructor
  · intro head members isList
    match head with
    | 0 =>
      cases isList
      exact ⟨⟨rfl, rfl, rfl, rfl, trivial⟩, by decide⟩
    | 1 =>
      cases isList
      exact ⟨⟨rfl, rfl, trivial⟩, by decide⟩
    | _ + 2 => cases isList
  · intro head members other others x isList isOther inside inOther
    match head, other with
    | 0, 0 => rfl
    | 1, 1 => rfl
    | 0, 1 =>
      cases isList
      cases isOther
      cases List.mem_singleton.mp inOther
      revert inside
      decide
    | 1, 0 =>
      cases isList
      cases isOther
      cases List.mem_singleton.mp inside
      revert inOther
      decide
    | _ + 2, _ => cases isList
    | _, _ + 2 => cases isOther

theorem list_operations_refine_two : Rings twoHeads twoLists ∧ RefinesSequences twoHeads twoLists :=
  ⟨rings_twoLists, list_operations_refine twoHeads twoLists rings_twoLists⟩

/-! ## The traversal of `rcv_ofo_buf` -/

section RcvOfoBuf

open Tcp

variable {β : Type} [DecidableEq β]

def takeOut (t : OfoPacket) (rcvBuf : RingBuffer) (tsk : TcpSock) : TcpSock :=
  { tsk with rcvBuf := rcvBuf, rcvNxt := t.seqNum + UInt32.ofInt t.len }

/-- The body in `tcp_process`, for nodes with the packets that they link; the state is the
socket and the flag that some packet was taken out. -/
def drainBody (packet : β → OfoPacket) (t : β) (state : TcpSock × Bool) (heap : Heap β) :
    Option ((TcpSock × Bool) × Heap β) :=
  if (packet t).seqNum = state.1.rcvNxt then do
    let rcvBuf ← state.1.rcvBuf.writeRingBuffer (packet t).packet (packet t).len
    let heap ← listDeleteEntry heap t
    some ((takeOut (packet t) rcvBuf state.1, true), heap)
  else some (state, heap)

/-- What is left to do of the traversal `drainPass` ends as the whole of it. -/
def Drains (packet : β → OfoPacket) (lists : Lists β) (head : β) (next : TcpSock)
    (left : List OfoPacket) (flag : Bool) (rest : List β) (state : TcpSock × Bool) (_ : Heap β)
    (lists' : Lists β) : Prop :=
  ∃ kept left' flag', lists' = Function.update lists head (some (kept ++ rest)) ∧
    drainPass (rest.map packet) state.1 = some (next, left', flag') ∧
    left = kept.map packet ++ left' ∧ flag = (state.2 || flag')

theorem drainBody_allowed (packet : β → OfoPacket) (lists : Lists β) (head : β) (next : TcpSock)
    (left : List OfoPacket) (flag : Bool) :
    Allowed (drainBody packet) head (Drains packet lists head next left flag) := by
  intro t rest front state heap lists' drains rings isList
  obtain ⟨kept, left', flag', shape, pass, leaves, flags⟩ := drains
  have isKept : lists' head = some (kept ++ t :: rest) := by
    rw [shape, Function.update_self]
  rw [List.map_cons] at pass
  unfold drainPass at pass
  by_cases due : (packet t).seqNum = state.1.rcvNxt
  · rw [if_pos due] at pass
    cases written : state.1.rcvBuf.writeRingBuffer (packet t).packet (packet t).len with
    | none => simp [written] at pass
    | some rcvBuf =>
      cases listDeleteEntry_rings rings isKept with
      | intro heap' deleted =>
        rw [written, Option.bind_eq_bind, Option.bind_some] at pass
        change (drainPass (rest.map packet) (takeOut (packet t) rcvBuf state.1)).bind _ = _ at pass
        cases inner : drainPass (rest.map packet) (takeOut (packet t) rcvBuf state.1) with
        | none => simp [inner] at pass
        | some result =>
          simp only [inner, Option.bind_some, Option.some.injEq, Prod.mk.injEq] at pass
          refine ⟨(takeOut (packet t) rcvBuf state.1, true), heap',
            Function.update lists' head (some (kept ++ rest)), ?_,
            .single (.delete heap heap' lists' head kept rest isKept deleted.1),
            kept, left', result.2.2, ?_, ?_, leaves, ?_⟩
          · unfold drainBody
            rw [if_pos due, written]
            simp only [deleted.1, Option.bind_eq_bind, Option.bind_some]
          · rw [shape, Function.update_idem]
          · rw [inner, ← pass.1, ← pass.2.1]
          · rw [flags, ← pass.2.2, Bool.or_true, Bool.true_or]
  · rw [if_neg due] at pass
    cases inner : drainPass (rest.map packet) state.1 with
    | none => simp [inner] at pass
    | some result =>
      simp only [inner, Option.bind_eq_bind, Option.bind_some, Option.some.injEq,
        Prod.mk.injEq] at pass
      refine ⟨state, heap, lists', ?_, .refl, kept ++ [t], result.2.1, flag', ?_, ?_, ?_, flags⟩
      · unfold drainBody
        rw [if_neg due]
      · rw [shape, List.append_assoc]
        rfl
      · rw [inner, ← pass.1, ← pass.2.2]
      · rw [leaves, ← pass.2.1, List.map_append, List.append_assoc]
        rfl

/-- The loop on the nodes does what the traversal of the list of packets does, and leaves the
nodes of the packets that stay. -/
theorem drainPass_on_nodes (packet : β → OfoPacket) {heap : Heap β} {lists : Lists β} {head : β}
    {members : List β} {tsk next : TcpSock} {left : List OfoPacket} {flag : Bool} {fuel : Nat}
    (rings : Rings heap lists) (isList : lists head = some members)
    (pass : drainPass (members.map packet) tsk = some (next, left, flag))
    (enough : members.length < fuel) :
    ∃ heap' kept, listForEachEntrySafe (drainBody packet) head fuel (tsk, false) heap =
        some (members, (next, flag), heap') ∧
      Rings heap' (Function.update lists head (some kept)) ∧ kept.map packet = left := by
  have start : Drains packet lists head next left flag members (tsk, false) heap lists := by
    refine ⟨[], left, flag, ?_, pass, rfl, (Bool.false_or flag).symm⟩
    rw [List.nil_append, ← isList, Function.update_eq_self]
  obtain ⟨state', heap', lists', run, rings', drained⟩ :=
    listForEachEntrySafe_visits (drainBody_allowed packet lists head next left flag) rings isList
      start enough
  obtain ⟨kept, left', flag', shape, done, leaves, flags⟩ := drained
  rw [List.map_nil, drainPass, Option.some.injEq, Prod.mk.injEq, Prod.mk.injEq] at done
  refine ⟨heap', kept, ?_, ?_, ?_⟩
  · have flagged : flag = state'.2 := by
      rw [flags, ← done.2.2, Bool.or_false]
    rw [run, flagged, ← done.1]
  · rw [shape, List.append_nil] at rings'
    exact rings'
  · rw [leaves, ← done.2.1, List.append_nil]

end RcvOfoBuf

end NetworkLab
