import NetworkLab.Lib.Run

/-!
# Threads that wait

`sleep_on`, `wake_up` and `wait_exit` of `synch_wait.h`, called by any threads.  The mutex
makes what lies between two waits one step: a call, or the end of a
`pthread_cond_wait` that was signalled.
-/
set_option autoImplicit false

namespace NetworkLab.Tcp

open Lib.Run

/-- `struct synch_wait` and the threads inside `pthread_cond_wait`: those without a
signal, and those with one that do not have the mutex yet. -/
structure CondWait (ι : Type) where
  notified : Bool
  dead : Bool
  sleep : Bool
  blocked : List ι
  signalled : List ι
deriving DecidableEq

/-- `resume` is the end of a wait.  `choice` says which thread a signal wakes. -/
inductive WaitCall (ι : Type)
  | sleepOn (thread : ι)
  | resume (thread : ι)
  | wakeUp (choice : ι)
  | waitExit

namespace CondWait

variable {ι : Type} [DecidableEq ι]

def init (ι : Type) : CondWait ι :=
  { notified := false, dead := false, sleep := false, blocked := [], signalled := [] }

def condSignal (choice : ι) (wait : CondWait ι) : CondWait ι :=
  match wait.blocked with
  | [] => wait
  | first :: _ =>
    let thread := if choice ∈ wait.blocked then choice else first
    { wait with
      blocked := wait.blocked.erase thread,
      signalled := wait.signalled ++ [thread] }

def condBroadcast (wait : CondWait ι) : CondWait ι :=
  { wait with blocked := [], signalled := wait.signalled ++ wait.blocked }

def woken (wait : CondWait ι) : CondWait ι := { wait with notified := false, sleep := false }

def sleepOn (thread : ι) (wait : CondWait ι) : CondWait ι :=
  if wait.dead then wait
  else
    let wait := { wait with sleep := true }
    if wait.notified then wait.woken else { wait with blocked := wait.blocked ++ [thread] }

def wakeUp (choice : ι) (wait : CondWait ι) : CondWait ι :=
  if wait.dead then wait
  else if wait.notified then wait
  else
    let wait := { wait with notified := true }
    if wait.sleep then wait.condSignal choice else wait

def waitExit (wait : CondWait ι) : CondWait ι :=
  if wait.dead then wait
  else
    let wait := { wait with dead := true }
    if wait.sleep then wait.condBroadcast else wait

/-- A thread that is inside `sleep_on` does not call it. -/
def step (wait : CondWait ι) : WaitCall ι → Option (CondWait ι)
  | .sleepOn thread =>
    if thread ∈ wait.blocked ∨ thread ∈ wait.signalled then none else some (wait.sleepOn thread)
  | .resume thread =>
    if thread ∈ wait.signalled then
      some { wait.woken with signalled := wait.signalled.erase thread }
    else none
  | .wakeUp choice => some (wait.wakeUp choice)
  | .waitExit => some wait.waitExit

/-- No thread is blocked without a signal while `notified` is set. -/
def NoLostWakeUp (wait : CondWait ι) : Prop := wait.notified = true → wait.blocked = []

/-- The same, where a signal for any thread counts. -/
def SomeSignal (wait : CondWait ι) : Prop :=
  wait.notified = true → wait.blocked = [] ∨ wait.signalled ≠ []

instance (wait : CondWait ι) : Decidable wait.NoLostWakeUp :=
  inferInstanceAs (Decidable (_ → _))

instance (wait : CondWait ι) : Decidable wait.SomeSignal := inferInstanceAs (Decidable (_ → _))

/-- A `wake_up` that sets `notified` finds no thread, or a single one that its signal goes to. -/
def WakesOnly (wait : CondWait ι) : WaitCall ι → Prop
  | .wakeUp _ => wait.dead = false → wait.notified = false →
      wait.blocked = [] ∨ wait.sleep = true ∧ wait.blocked.length = 1
  | _ => True

/-- A `wake_up` that sets `notified` finds no thread, or it signals, or a signal is on its
way. -/
def WakesSome (wait : CondWait ι) : WaitCall ι → Prop
  | .wakeUp _ => wait.dead = false → wait.notified = false →
      wait.blocked = [] ∨ wait.sleep = true ∨ wait.signalled ≠ []
  | _ => True

section Signals

variable (choice : ι) (wait : CondWait ι)

@[simp] theorem condSignal_notified : (wait.condSignal choice).notified = wait.notified := by
  unfold condSignal
  split <;> rfl

/-- A signal leaves no thread blocked when there was at most one. -/
theorem condSignal_blocked : (wait.condSignal choice).blocked = [] ↔ wait.blocked.length ≤ 1 := by
  unfold condSignal
  split
  · simp_all
  · rename_i first rest equation
    have member : (if choice ∈ wait.blocked then choice else first) ∈ wait.blocked := by
      split_ifs with chosen
      · exact chosen
      · rw [equation]
        exact List.mem_cons_self
    rw [← List.length_eq_zero_iff, List.length_erase_of_mem member]
    exact Nat.sub_eq_zero_iff_le

/-- A signal reaches some thread when there was one. -/
theorem condSignal_signalled :
    (wait.condSignal choice).blocked = [] ∨ (wait.condSignal choice).signalled ≠ [] := by
  unfold condSignal
  split
  · exact .inl ‹_›
  · right
    simp

end Signals

variable {wait next : CondWait ι} {call : WaitCall ι}

/-- Every other call that leaves `notified` set found it set, and blocks no thread and
takes no signal away. -/
theorem step_other (other : ¬ ∃ choice, call = .wakeUp choice)
    (taken : wait.step call = some next) (notified : next.notified = true) :
    next.blocked = [] ∨
      wait.notified = true ∧ next.blocked = wait.blocked ∧ next.signalled = wait.signalled := by
  cases call with
  | sleepOn thread =>
      simp only [step] at taken
      split_ifs at taken
      obtain rfl := Option.some.inj taken
      unfold sleepOn at notified ⊢
      dsimp only at notified ⊢
      split_ifs at notified ⊢ with dead set
      · exact .inr ⟨notified, rfl, rfl⟩
      · cases notified
      · exact absurd notified set
  | resume thread =>
      simp only [step] at taken
      split_ifs at taken
      obtain rfl := Option.some.inj taken
      cases notified
  | wakeUp choice => exact absurd ⟨choice, rfl⟩ other
  | waitExit =>
      obtain rfl := Option.some.inj taken
      unfold waitExit at notified ⊢
      dsimp only at notified ⊢
      split_ifs at notified ⊢
      · exact .inr ⟨notified, rfl, rfl⟩
      · exact .inl rfl
      · exact .inr ⟨notified, rfl, rfl⟩

omit [DecidableEq ι] in
theorem other_condition (other : ¬ ∃ choice, call = .wakeUp choice) :
    wait.WakesOnly call ∧ wait.WakesSome call := by
  cases call with
  | wakeUp choice => exact absurd ⟨choice, rfl⟩ other
  | _ => exact ⟨trivial, trivial⟩

theorem wakeUp_idle (choice : ι) (idle : ¬ (wait.dead = false ∧ wait.notified = false)) :
    wait.wakeUp choice = wait := by
  unfold wakeUp
  cases dead : wait.dead <;> cases notified : wait.notified <;> simp_all

theorem wakeUp_notifies (choice : ι) (alive : wait.dead = false) (quiet : wait.notified = false) :
    wait.wakeUp choice =
      if wait.sleep then { wait with notified := true }.condSignal choice
      else { wait with notified := true } := by
  simp [wakeUp, alive, quiet]

theorem wakeUp_noLostWakeUp (choice : ι) (kept : wait.NoLostWakeUp) :
    (wait.wakeUp choice).NoLostWakeUp ↔ wait.WakesOnly (.wakeUp choice) := by
  by_cases idle : wait.dead = false ∧ wait.notified = false
  · rw [wakeUp_notifies choice idle.1 idle.2, WakesOnly]
    simp only [idle.1, idle.2, forall_const]
    cases sleep : wait.sleep with
    | true =>
        rw [if_pos rfl, NoLostWakeUp, condSignal_notified, condSignal_blocked]
        rw [← List.length_eq_zero_iff]
        simp only [forall_const, true_and]
        omega
    | false => simp [NoLostWakeUp]
  · rw [wakeUp_idle choice idle]
    exact iff_of_true kept fun alive quiet => absurd ⟨alive, quiet⟩ idle

theorem wakeUp_someSignal (choice : ι) (kept : wait.SomeSignal) :
    (wait.wakeUp choice).SomeSignal ↔ wait.WakesSome (.wakeUp choice) := by
  by_cases idle : wait.dead = false ∧ wait.notified = false
  · rw [wakeUp_notifies choice idle.1 idle.2, WakesSome]
    simp only [idle.1, idle.2, forall_const]
    cases sleep : wait.sleep with
    | true => exact iff_of_true (fun _ => condSignal_signalled choice _) (.inr (.inl rfl))
    | false => simp [SomeSignal]
  · rw [wakeUp_idle choice idle]
    exact iff_of_true kept fun alive quiet => absurd ⟨alive, quiet⟩ idle

theorem step_noLostWakeUp (kept : wait.NoLostWakeUp) (taken : wait.step call = some next) :
    next.NoLostWakeUp ↔ wait.WakesOnly call := by
  by_cases wakes : ∃ choice, call = .wakeUp choice
  · obtain ⟨choice, rfl⟩ := wakes
    obtain rfl := Option.some.inj taken
    exact wakeUp_noLostWakeUp choice kept
  · refine iff_of_true (fun notified => ?_) (other_condition wakes).1
    rcases step_other wakes taken notified with empty | ⟨same, blocked, -⟩
    · exact empty
    · exact blocked.trans (kept same)

theorem step_someSignal (kept : wait.SomeSignal) (taken : wait.step call = some next) :
    next.SomeSignal ↔ wait.WakesSome call := by
  by_cases wakes : ∃ choice, call = .wakeUp choice
  · obtain ⟨choice, rfl⟩ := wakes
    obtain rfl := Option.some.inj taken
    exact wakeUp_someSignal choice kept
  · refine iff_of_true (fun notified => ?_) (other_condition wakes).2
    rcases step_other wakes taken notified with empty | ⟨same, blocked, signalled⟩
    · exact .inl empty
    · rw [blocked, signalled]
      exact kept same

theorem stuck_condition (stuck : wait.step call = none) :
    wait.WakesOnly call ∧ wait.WakesSome call := by
  apply other_condition
  rintro ⟨choice, rfl⟩
  cases stuck

end CondWait

section

variable {ι : Type} [DecidableEq ι]

open CondWait

/-- In the states of a run no thread is blocked without a signal while `notified` is set
exactly when every `wake_up` that sets it finds at most one thread, and `sleep` set if there
is one.  A signal for some thread is pending exactly when each finds `sleep` set, a signal on
its way, or no thread. -/
theorem no_lost_wake_up (calls : List (WaitCall ι)) :
    (Always step NoLostWakeUp (init ι) calls ↔ Guarded step WakesOnly (init ι) calls) ∧
      (Always step SomeSignal (init ι) calls ↔ Guarded step WakesSome (init ι) calls) := by
  have preserved : ∀ (wait : CondWait ι) (call : WaitCall ι) (next : CondWait ι), True →
      wait.step call = some next → True := fun _ _ _ _ _ => trivial
  constructor
  · apply always_iff_guarded step preserved
    · exact fun _ _ _ _ kept taken => step_noLostWakeUp kept taken
    · exact fun _ _ _ stuck => (stuck_condition stuck).1
    · trivial
    · exact fun _ => rfl
  · apply always_iff_guarded step preserved
    · exact fun _ _ _ _ kept taken => step_someSignal kept taken
    · exact fun _ _ _ stuck => (stuck_condition stuck).2
    · trivial
    · exact fun _ => .inl rfl

/-- The thread that returns first clears `sleep` under the one that still waits. -/
theorem second_sleeper_lost :
    (¬ ∀ calls : List (WaitCall (Fin 2)), Always step NoLostWakeUp (init (Fin 2)) calls) ∧
      ¬ ∀ calls : List (WaitCall (Fin 2)), Always step SomeSignal (init (Fin 2)) calls := by
  constructor
  · intro always
    have kept := always [.sleepOn 0, .sleepOn 1, .wakeUp 0, .resume 0, .wakeUp 0]
    revert kept
    decide
  · intro always
    have kept := always [.sleepOn 0, .sleepOn 1, .wakeUp 0, .resume 0, .wakeUp 0]
    revert kept
    decide

end

end NetworkLab.Tcp
