import Mathlib.Data.Set.Basic

/-!
# Runs of a partial transition function

A system is a function `step : State → Event → Option State`; `none` means that
the event cannot happen in this state.  A run is a list of events.  The rules
below turn a fact about one step into a fact about every run: `invariant_run`
for all runs, `invariant_guarded_run` for the runs whose steps all meet a
condition on the state they start from.
-/
set_option autoImplicit false

namespace Lib.Run

variable {State Event : Type*} (step : State → Event → Option State)

def run : State → List Event → Option State
  | state, [] => some state
  | state, event :: rest => (step state event).bind fun next => run next rest

def Reachable (initial state : State) : Prop :=
  ∃ events, run step initial events = some state

/-- Every step of the run meets `condition` in the state it starts from. -/
def Guarded (condition : State → Event → Prop) : State → List Event → Prop
  | _, [] => True
  | state, event :: rest => condition state event ∧
      ∀ next, step state event = some next → Guarded condition next rest

/-- Every state of the run, the first and the last included, has `property`. -/
def Always (property : State → Prop) : State → List Event → Prop
  | state, [] => property state
  | state, event :: rest => property state ∧
      ∀ next, step state event = some next → Always property next rest

def Completes (property : State → Prop) : State → List Event → Prop
  | _, [] => True
  | state, event :: rest =>
    ∃ next, step state event = some next ∧ property next ∧ Completes property next rest

/-- Every step of the run has `property`, with the states before and after it. -/
def EachStep (property : State → Event → State → Prop) : State → List Event → Prop
  | _, [] => True
  | state, event :: rest => ∀ next, step state event = some next →
      property state event next ∧ EachStep property next rest

instance decidableGuarded (condition : State → Event → Prop)
    [∀ state event, Decidable (condition state event)] :
    ∀ state events, Decidable (Guarded step condition state events)
  | _, [] => isTrue trivial
  | state, event :: rest =>
    have : ∀ next, Decidable (Guarded step condition next rest) :=
      fun next => decidableGuarded condition next rest
    inferInstanceAs (Decidable (condition state event ∧
      ∀ next ∈ step state event, Guarded step condition next rest))

instance decidableAlways (property : State → Prop) [DecidablePred property] :
    ∀ state events, Decidable (Always step property state events)
  | state, [] => inferInstanceAs (Decidable (property state))
  | state, event :: rest =>
    have : ∀ next, Decidable (Always step property next rest) :=
      fun next => decidableAlways property next rest
    inferInstanceAs (Decidable (property state ∧
      ∀ next ∈ step state event, Always step property next rest))

@[simp] theorem run_nil (state : State) : run step state [] = some state := rfl

@[simp] theorem run_cons (state : State) (event : Event) (rest : List Event) :
    run step state (event :: rest) = (step state event).bind fun next => run step next rest := rfl

theorem run_cons_some {state final : State} {event : Event} {rest : List Event}
    (success : run step state (event :: rest) = some final) :
    ∃ next, step state event = some next ∧ run step next rest = some final :=
  Option.bind_eq_some_iff.mp success

theorem run_append (state : State) (first second : List Event) :
    run step state (first ++ second) =
      (run step state first).bind fun middle => run step middle second := by
  induction first generalizing state with
  | nil => rfl
  | cons event rest ih =>
      simp only [List.cons_append, run_cons]
      cases step state event with
      | none => rfl
      | some next => exact ih next

theorem reachable_initial (initial : State) : Reachable step initial initial := ⟨[], rfl⟩

theorem guarded_of_forall {condition : Event → Prop} {state : State} (events : List Event)
    (each : ∀ event ∈ events, condition event) :
    Guarded step (fun _ event => condition event) state events := by
  induction events generalizing state with
  | nil => exact trivial
  | cons event rest ih =>
      rw [List.forall_mem_cons] at each
      exact ⟨each.1, fun next _ => ih each.2⟩

/-- Two conditions that agree under an invariant, which the steps that meet them keep. -/
theorem guarded_congr_kept {condition other : State → Event → Prop} {invariant : State → Prop}
    (kept : ∀ state event next, invariant state → condition state event →
      step state event = some next → invariant next)
    (agree : ∀ state event, invariant state → (condition state event ↔ other state event))
    {state : State} (events : List Event) (holds : invariant state) :
    Guarded step condition state events ↔ Guarded step other state events := by
  induction events generalizing state with
  | nil => exact Iff.rfl
  | cons event rest ih =>
      have now := agree state event holds
      constructor
      · intro guarded
        refine ⟨now.mp guarded.1, ?_⟩
        intro next taken
        exact (ih (kept state event next holds guarded.1 taken)).mp (guarded.2 next taken)
      · intro guarded
        have first := now.mpr guarded.1
        refine ⟨first, ?_⟩
        intro next taken
        exact (ih (kept state event next holds first taken)).mpr (guarded.2 next taken)

theorem guarded_congr {condition other : State → Event → Prop} {invariant : State → Prop}
    (preserved : ∀ state event next, invariant state →
      step state event = some next → invariant next)
    (agree : ∀ state event, invariant state → (condition state event ↔ other state event))
    {state : State} (events : List Event) (holds : invariant state) :
    Guarded step condition state events ↔ Guarded step other state events :=
  guarded_congr_kept step (fun state event next inv _ taken => preserved state event next inv taken)
    agree events holds

theorem always_first {property : State → Prop} {state : State} {events : List Event}
    (always : Always step property state events) : property state := by
  cases events with
  | nil => exact always
  | cons event rest => exact always.1

theorem always_last {property : State → Prop} {state final : State} (events : List Event)
    (always : Always step property state events) (success : run step state events = some final) :
    property final := by
  induction events generalizing state with
  | nil =>
      cases Option.some.inj success
      exact always
  | cons event rest ih =>
      obtain ⟨next, taken, later⟩ := run_cons_some step success
      exact ih (always.2 next taken) later

theorem always_of_guarded {condition : State → Event → Prop} {invariant : State → Prop}
    (preserved : ∀ state event next, invariant state → condition state event →
      step state event = some next → invariant next)
    {state : State} (events : List Event) (holds : invariant state)
    (guarded : Guarded step condition state events) : Always step invariant state events := by
  induction events generalizing state with
  | nil => exact holds
  | cons event rest ih =>
      exact ⟨holds, fun next taken =>
        ih (preserved state event next holds guarded.1 taken) (guarded.2 next taken)⟩

/-- What a condition shows of one step, it shows of every step of a run. -/
theorem guarded_of_guarded {condition property : State → Event → Prop} {invariant : State → Prop}
    (preserved : ∀ state event next, invariant state → condition state event →
      step state event = some next → invariant next)
    (shown : ∀ state event, invariant state → condition state event → property state event)
    {state : State} (events : List Event) (holds : invariant state)
    (guarded : Guarded step condition state events) : Guarded step property state events := by
  induction events generalizing state with
  | nil => exact trivial
  | cons event rest ih =>
      exact ⟨shown state event holds guarded.1, fun next taken =>
        ih (preserved state event next holds guarded.1 taken) (guarded.2 next taken)⟩

theorem always_of_preserved {invariant : State → Prop}
    (preserved : ∀ state event next, invariant state →
      step state event = some next → invariant next)
    {state : State} (events : List Event) (holds : invariant state) :
    Always step invariant state events := by
  have unguarded : Guarded step (fun _ _ => True) state events :=
    guarded_of_forall step events fun _ _ => trivial
  exact always_of_guarded step (fun state event next holds _ => preserved state event next holds)
    events holds unguarded

theorem invariant_guarded_run {condition : State → Event → Prop} {invariant : State → Prop}
    (preserved : ∀ state event next, invariant state → condition state event →
      step state event = some next → invariant next)
    {state final : State} (events : List Event) (holds : invariant state)
    (guarded : Guarded step condition state events)
    (success : run step state events = some final) : invariant final :=
  always_last step events (always_of_guarded step preserved events holds guarded) success

theorem invariant_run {invariant : State → Prop}
    (preserved : ∀ state event next, invariant state →
      step state event = some next → invariant next)
    {state final : State} (events : List Event) (holds : invariant state)
    (success : run step state events = some final) : invariant final :=
  always_last step events (always_of_preserved step preserved events holds) success

theorem always_mono {weak strong : State → Prop} (implied : ∀ state, strong state → weak state)
    {state : State} (events : List Event) (always : Always step strong state events) :
    Always step weak state events := by
  induction events generalizing state with
  | nil => exact implied state always
  | cons event rest ih =>
      exact ⟨implied state always.1, fun next taken => ih (always.2 next taken)⟩

/-- A property that a step keeps exactly under a condition holds in all states of
the run exactly when every step meets the condition. -/
theorem always_iff_guarded {condition : State → Event → Prop} {invariant property : State → Prop}
    (preserved : ∀ state event next, invariant state →
      step state event = some next → invariant next)
    (kept_iff : ∀ state event next, invariant state → property state →
      step state event = some next → (property next ↔ condition state event))
    (stuck : ∀ state event, invariant state → step state event = none → condition state event)
    {state : State} (events : List Event) (holds : invariant state) (initially : property state) :
    Always step property state events ↔ Guarded step condition state events := by
  induction events generalizing state with
  | nil => exact ⟨fun _ => trivial, fun _ => initially⟩
  | cons event rest ih =>
      cases taken : step state event with
      | none => simp [Always, Guarded, taken, initially, stuck state event holds taken]
      | some next =>
          have kept := kept_iff state event next holds initially taken
          have later := ih (preserved state event next holds taken)
          simp only [Always, Guarded, taken, Option.some.injEq, forall_eq', initially, true_and]
          constructor
          · intro always
            have here := always_first step always
            exact ⟨kept.mp here, (later here).mp always⟩
          · rintro ⟨condition, guarded⟩
            exact (later (kept.mpr condition)).mpr guarded

/-- A run goes through exactly when every step meets the condition under which it can be
taken and keeps the property. -/
theorem completes_iff_guarded {condition : State → Event → Prop}
    {invariant property : State → Prop}
    (preserved : ∀ state event next, invariant state →
      step state event = some next → invariant next)
    (taken_iff : ∀ state event, invariant state → property state →
      ((∃ next, step state event = some next ∧ property next) ↔ condition state event))
    {state : State} (events : List Event) (holds : invariant state) (initially : property state) :
    Completes step property state events ↔ Guarded step condition state events := by
  induction events generalizing state with
  | nil => exact Iff.rfl
  | cons event rest ih =>
      have here := taken_iff state event holds initially
      constructor
      · rintro ⟨next, taken, kept, completes⟩
        refine ⟨here.mp ⟨next, taken, kept⟩, fun other same => ?_⟩
        obtain rfl := Option.some.inj (taken.symm.trans same)
        exact (ih (preserved state event next holds taken) kept).mp completes
      · rintro ⟨meets, guarded⟩
        obtain ⟨next, taken, kept⟩ := here.mpr meets
        exact ⟨next, taken, kept,
          (ih (preserved state event next holds taken) kept).mpr (guarded next taken)⟩

theorem completes_last {property : State → Prop} {state final : State} (events : List Event)
    (initially : property state) (completes : Completes step property state events)
    (success : run step state events = some final) : property final := by
  induction events generalizing state with
  | nil =>
      cases Option.some.inj success
      exact initially
  | cons event rest ih =>
      obtain ⟨next, taken, kept, later⟩ := completes
      obtain ⟨other, same, success⟩ := run_cons_some step success
      cases Option.some.inj (taken.symm.trans same)
      exact ih kept later success

theorem eachStep_last {property : State → Event → State → Prop} {state before next : State}
    {event : Event} (events : List Event)
    (eachStep : EachStep step property state (events ++ [event]))
    (success : run step state events = some before) (taken : step before event = some next) :
    property before event next := by
  induction events generalizing state with
  | nil =>
      cases Option.some.inj success
      exact (eachStep next taken).1
  | cons first rest ih =>
      obtain ⟨middle, takes, later⟩ := run_cons_some step success
      exact ih (eachStep middle takes).2 later

/-- When the steps have the property exactly under a condition, which also keeps the
invariant, so do runs. -/
theorem eachStep_iff_guarded {condition : State → Event → Prop} {invariant : State → Prop}
    {property : State → Event → State → Prop}
    (preserved : ∀ state event next, invariant state → condition state event →
      step state event = some next → invariant next)
    (property_iff : ∀ state event next, invariant state →
      step state event = some next → (property state event next ↔ condition state event))
    (stuck : ∀ state event, invariant state → step state event = none → condition state event)
    {state : State} (events : List Event) (holds : invariant state) :
    EachStep step property state events ↔ Guarded step condition state events := by
  induction events generalizing state with
  | nil => exact Iff.rfl
  | cons event rest ih =>
      cases taken : step state event with
      | none => simp [EachStep, Guarded, taken, stuck state event holds taken]
      | some next =>
          have here := property_iff state event next holds taken
          simp only [EachStep, Guarded, taken, Option.some.injEq, forall_eq']
          constructor
          · rintro ⟨shown, later⟩
            have meets := here.mp shown
            exact ⟨meets, (ih (preserved state event next holds meets taken)).mp later⟩
          · rintro ⟨meets, later⟩
            exact ⟨here.mpr meets, (ih (preserved state event next holds meets taken)).mpr later⟩

end Lib.Run
