import Mathlib.Data.List.Basic

/-!
# Programs that log what they do

A program maps a state to the entries that it logs and, unless it stops, to a result and the
next state.  The entries are there also when it stops.  `Safe proper program post state` says
that every entry is proper, and that the program ends in `post` if it returns.
-/
set_option autoImplicit false

namespace Lib.Logged

def Program (State Entry Result : Type) : Type := State → List Entry × Option (Result × State)

namespace Program

variable {State Entry Result Next : Type}

def pure (result : Result) : Program State Entry Result := fun state => ([], some (result, state))

def bind (program : Program State Entry Result) (next : Result → Program State Entry Next) :
    Program State Entry Next := fun state =>
  match program state with
  | (entries, none) => (entries, none)
  | (entries, some (result, state)) => (entries ++ (next result state).1, (next result state).2)

instance : Monad (Program State Entry) where
  pure := pure
  bind := bind

def stop : Program State Entry Result := fun _ => ([], none)

/-- A result that is read off the state, if there is one. -/
def read (part : State → Option Result) : Program State Entry Result := fun state =>
  ([], (part state).map fun result => (result, state))

def modify (change : State → State) : Program State Entry Unit := fun state =>
  ([], some ((), change state))

/-- The entry is logged even when the change cannot be made. -/
def log (entry : State → Entry) (change : State → Option State) : Program State Entry Unit :=
  fun state => ([entry state], (change state).map fun next => ((), next))

end Program

variable {State Entry Result Next : Type}

def Safe (proper : Entry → Prop) (program : Program State Entry Result)
    (post : Result → State → Prop) (state : State) : Prop :=
  (∀ entry ∈ (program state).1, proper entry) ∧
    ∀ result ∈ (program state).2, post result.1 result.2

variable {proper : Entry → Prop} {program : Program State Entry Result}
  {post : Result → State → Prop} {state : State}

theorem safe_pure (result : Result) :
    Safe proper (Pure.pure result : Program State Entry Result) post state ↔
      post result state := by
  constructor
  · intro safe
    exact safe.2 _ rfl
  · intro holds
    refine ⟨fun entry none => absurd none List.not_mem_nil, fun other returned => ?_⟩
    rw [← Option.some.inj returned]
    exact holds

theorem safe_stop : Safe proper (Program.stop : Program State Entry Result) post state :=
  ⟨fun _ none => absurd none List.not_mem_nil, nofun⟩

theorem safe_bind (next : Result → Program State Entry Next) {post : Next → State → Prop} :
    Safe proper (program >>= next) post state ↔
      Safe proper program (fun result => Safe proper (next result) post) state := by
  have unfolded : (program >>= next) state = Program.bind program next state := rfl
  unfold Safe
  rw [unfolded, Program.bind]
  cases ran : program state with
  | mk entries outcome =>
    cases outcome with
    | none => exact ⟨fun safe => ⟨safe.1, nofun⟩, fun safe => ⟨safe.1, nofun⟩⟩
    | some returned =>
      constructor
      · intro safe
        have split := List.forall_mem_append.mp safe.1
        refine ⟨split.1, fun result same => ?_⟩
        rw [← Option.some.inj same]
        exact ⟨split.2, safe.2⟩
      · intro safe
        have later := safe.2 _ rfl
        exact ⟨List.forall_mem_append.mpr ⟨safe.1, later.1⟩, later.2⟩

theorem Safe.mono {weaker : Result → State → Prop} (safe : Safe proper program post state)
    (implied : ∀ result next, post result next → weaker result next) :
    Safe proper program weaker state :=
  ⟨safe.1, fun result returned => implied _ _ (safe.2 result returned)⟩

theorem Safe.returned (safe : Safe proper program post state) :
    Safe proper program
      (fun result next => post result next ∧ (program state).2 = some (result, next)) state :=
  ⟨safe.1, fun result returned => ⟨safe.2 result returned, returned⟩⟩

theorem safe_read {part : State → Option Result} :
    Safe proper (Program.read part : Program State Entry Result) post state ↔
      ∀ result, part state = some result → post result state := by
  constructor
  · intro safe result isResult
    exact safe.2 (result, state) (by simp [Program.read, isResult])
  · intro holds
    refine ⟨fun _ none => absurd none List.not_mem_nil, fun result returned => ?_⟩
    obtain ⟨value, isValue, same⟩ := Option.map_eq_some_iff.mp returned
    rw [← same]
    exact holds value isValue

theorem safe_modify {change : State → State} {post : Unit → State → Prop} :
    Safe proper (Program.modify change : Program State Entry Unit) post state ↔
      post () (change state) := by
  constructor
  · intro safe
    exact safe.2 _ rfl
  · intro holds
    refine ⟨fun _ none => absurd none List.not_mem_nil, fun result returned => ?_⟩
    rw [← Option.some.inj returned]
    exact holds

theorem safe_log {entry : State → Entry} {change : State → Option State}
    {post : Unit → State → Prop} :
    Safe proper (Program.log entry change) post state ↔
      proper (entry state) ∧ ∀ next, change state = some next → post () next := by
  constructor
  · intro safe
    refine ⟨safe.1 _ (List.mem_singleton_self _), fun next isNext => ?_⟩
    exact safe.2 ((), next) (by simp [Program.log, isNext])
  · intro holds
    refine ⟨fun logged member => ?_, fun result returned => ?_⟩
    · rw [List.mem_singleton.mp member]
      exact holds.1
    · obtain ⟨next, isNext, same⟩ := Option.map_eq_some_iff.mp returned
      rw [← same]
      exact holds.2 next isNext

end Lib.Logged
