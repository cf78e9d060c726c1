import Mathlib.Data.Fintype.Basic
import NetworkLab.Tcp.Timers

/-!
# The list of armed timers

`timer_list` stays a ring of exactly the armed timers as long as only an unarmed timer
is set, only an armed one is removed, and no retransmission timer runs out for good.
`tcp_send_packet` sets the timer on every packet and `remove_ack_data` removes it on
every acknowledgement, so ordinary runs leave this range and lose other timers.
-/
set_option autoImplicit false

namespace NetworkLab.Tcp

open Lib.LinkedRing Lib.Run

variable {ι : Type} [DecidableEq ι]

/-- `timer_list` is a ring, and a forward traversal visits the armed timers, each once. -/
def Intact (stack : Stack ι) : Prop :=
  ∃ timers, Ring stack.heap .timerList timers ∧
    (∃ first fuel, (stack.heap .timerList).next = some first ∧
      visit stack.heap .timerList fuel first = some timers) ∧
    ∀ node, node ∈ timers ↔ stack.armed node

def Stack.Live (stack : Stack ι) (node : TimerNode ι) : Prop :=
  node = .timerList ∨ stack.armed node

/-- A timer that may be deleted from the list: an armed one, or one whose two stores
write links that the nodes in the list have already. -/
def Stack.Removable (stack : Stack ι) (node : TimerNode ι) : Prop :=
  stack.armed node ∨
    ∃ next ∈ (stack.heap node).next, ∃ prev ∈ (stack.heap node).prev,
      (stack.Live next → (stack.heap next).prev = some prev) ∧
      (stack.Live prev → (stack.heap prev).next = some next)

def EffectFits (s child : ι) (stack : Stack ι) : Effect → Prop
  | .setRetransTimer => ¬ stack.armed (.retransTimer s)
  | .removeRetransTimer => stack.Removable (.retransTimer s)
  | .setTimewaitTimer => ¬ stack.armed (.timewait s)
  | .ofChild effect => EffectFits child child stack effect
  | _ => True

/-- The next scan does not find the timer run out for the fourth time, or run out with
nothing to send again. -/
def Stack.Renewed (stack : Stack ι) (s : ι) : Prop :=
  stack.armed (.retransTimer s) →
    (stack.timer (.retransTimer s)).timeout ≤ TCP_TIMER_SCAN_INTERVAL →
    (stack.timer (.retransTimer s)).retransNumber ≠ 3 ∧
      ∀ tsk ∈ stack.sock s, tsk.sendBuf ≠ []

def StepFits (stack : Stack ι) : StackEvent ι → Prop
  | .scan _ => ∀ s, stack.Renewed s
  | event => ∀ call ∈ event.call stack,
      Guarded (Stack.effectStep call.1 call.2.1) (EffectFits call.1 call.2.1)
        (stack.setSock call.1 call.2.2.tsk) call.2.2.effects

/-- An armed timer has the type of its field and belongs to an allocated socket. -/
def Stack.Wired (stack : Stack ι) : TimerNode ι → Prop
  | .timerList => False
  | .timewait s => (stack.timer (.timewait s)).type = 0 ∧ (stack.sock s).isSome
  | .retransTimer s => (stack.timer (.retransTimer s)).type = 1 ∧ (stack.sock s).isSome

structure Sound (stack : Stack ι) (timers : List (TimerNode ι)) : Prop where
  ring : Ring stack.heap .timerList timers
  mem_iff : ∀ node, node ∈ timers ↔ stack.armed node
  wired : ∀ node, stack.armed node → stack.Wired node

section Fields

variable (stack : Stack ι) (s : ι) (node : TimerNode ι)

@[simp] theorem setSock_heap (tsk : TcpSock) : (stack.setSock s tsk).heap = stack.heap := rfl

@[simp] theorem setSock_timer (tsk : TcpSock) : (stack.setSock s tsk).timer = stack.timer := rfl

@[simp] theorem setSock_armed (tsk : TcpSock) : (stack.setSock s tsk).armed = stack.armed := rfl

@[simp] theorem setTimer_heap (timer : Timer) : (stack.setTimer node timer).heap = stack.heap := rfl

@[simp] theorem setTimer_sock (timer : Timer) : (stack.setTimer node timer).sock = stack.sock := rfl

@[simp] theorem setTimer_armed (timer : Timer) :
    (stack.setTimer node timer).armed = stack.armed := rfl

@[simp] theorem setTimer_timer (timer : Timer) :
    (stack.setTimer node timer).timer = Function.update stack.timer node timer := rfl

@[simp] theorem setArmed_heap (armed : Bool) : (stack.setArmed node armed).heap = stack.heap := rfl

@[simp] theorem setArmed_sock (armed : Bool) : (stack.setArmed node armed).sock = stack.sock := rfl

@[simp] theorem setArmed_timer (armed : Bool) :
    (stack.setArmed node armed).timer = stack.timer := rfl

@[simp] theorem setArmed_armed (armed : Bool) :
    (stack.setArmed node armed).armed = Function.update stack.armed node armed := rfl

theorem setSock_isSome (tsk : TcpSock) {s' : ι} (allocated : (stack.sock s').isSome) :
    ((stack.setSock s tsk).sock s').isSome := by
  by_cases same : s' = s
  · subst same
    simp [Stack.setSock]
  · simpa [Stack.setSock, same] using allocated

end Fields

section Operations

variable {stack next : Stack ι} {timers : List (TimerNode ι)} {node : TimerNode ι}

theorem Sound.intact (sound : Sound stack timers) : Intact stack := by
  obtain ⟨first, isFirst, visited⟩ := sound.ring.visit (Nat.lt_succ_self timers.length)
  exact ⟨timers, sound.ring, ⟨first, _, isFirst, visited⟩, sound.mem_iff⟩

omit [DecidableEq ι] in
theorem Sound.live_iff (sound : Sound stack timers) :
    stack.Live node ↔ node ∈ TimerNode.timerList :: timers := by
  rw [List.mem_cons, sound.mem_iff]
  rfl

omit [DecidableEq ι] in
/-- Sockets may change as long as none disappears. -/
theorem Stack.Wired.mono (wired : stack.Wired node) (timer : next.timer = stack.timer)
    (sock : ∀ s, (stack.sock s).isSome → (next.sock s).isSome) : next.Wired node := by
  cases node with
  | timerList => exact wired
  | timewait s => exact ⟨timer ▸ wired.1, sock s wired.2⟩
  | retransTimer s => exact ⟨timer ▸ wired.1, sock s wired.2⟩

/-- The timers of other nodes may change. -/
theorem Stack.Wired.update (wired : stack.Wired node) (x : TimerNode ι) {timer : Timer}
    (type : node = x → timer.type = (stack.timer x).type) :
    (stack.setTimer x timer).Wired node := by
  have kept : ((stack.setTimer x timer).timer node).type = (stack.timer node).type := by
    by_cases same : node = x
    · subst same
      simpa using type rfl
    · simp [same]
  cases node with
  | timerList => exact wired
  | timewait s => exact ⟨kept.trans wired.1, wired.2⟩
  | retransTimer s => exact ⟨kept.trans wired.1, wired.2⟩

omit [DecidableEq ι] in
theorem Sound.exists_next_of_rest {front rest later : List (TimerNode ι)} {q : TimerNode ι}
    (sound : Sound stack (front ++ rest)) (here : rest ++ [.timerList] = q :: later) :
    ∃ next, (stack.heap q).next = some next := by
  cases rest with
  | nil =>
      obtain rfl : TimerNode.timerList = q := (List.cons.inj here).1
      obtain ⟨first, -, -, isFirst⟩ := sound.ring.exists_first
      exact ⟨first, isFirst⟩
  | cons x rest =>
      obtain rfl : x = q := (List.cons.inj here).1
      obtain ⟨next, -, -, isNext⟩ := sound.ring.exists_next
      exact ⟨next, isNext⟩

theorem Sound.setSock (sound : Sound stack timers) (s : ι) (tsk : TcpSock) :
    Sound (stack.setSock s tsk) timers where
  ring := sound.ring
  mem_iff := sound.mem_iff
  wired := fun node armed =>
    (sound.wired node armed).mono rfl fun _ => setSock_isSome stack s tsk

theorem Sound.setTimer (sound : Sound stack timers) (node : TimerNode ι) {timer : Timer}
    (type : timer.type = (stack.timer node).type) : Sound (stack.setTimer node timer) timers where
  ring := sound.ring
  mem_iff := sound.mem_iff
  wired := fun x armed => (sound.wired x armed).update node fun _ => type

theorem Sound.addTimer (sound : Sound stack timers) (unarmed : ¬ stack.armed node) {timer : Timer}
    (wired : (stack.setTimer node timer).Wired node)
    (taken : stack.addTimer node timer = some next) : Sound next (timers ++ [node]) := by
  have notHead : node ≠ .timerList := by
    rintro rfl
    exact wired
  have fresh : node ∉ TimerNode.timerList :: timers := by
    rw [← sound.live_iff]
    rintro (same | armed)
    · exact notHead same
    · exact unarmed armed
  obtain ⟨heap, added, ring⟩ := listAddTail_ring sound.ring fresh
  simp only [Stack.addTimer, added, Option.map_some, Option.some.injEq] at taken
  subst taken
  refine ⟨ring, fun x => ?_, fun x armed => ?_⟩
  · by_cases same : x = node
    · subst same
      simp
    · simp [same, sound.mem_iff]
  · by_cases same : x = node
    · subst same
      exact wired.mono rfl fun _ => id
    · have armedBefore : stack.armed x := by simpa [same] using armed
      have updated : (stack.setTimer node timer).Wired x :=
        (sound.wired x armedBefore).update node fun isNode => absurd isNode same
      exact updated.mono rfl fun _ => id

theorem Sound.removeArmed {front back : List (TimerNode ι)}
    (sound : Sound stack (front ++ node :: back)) :
    ∃ heap, stack.removeTimer node = some ({ stack with heap := heap }.setArmed node false) ∧
      Sound ({ stack with heap := heap }.setArmed node false) (front ++ back) := by
  obtain ⟨heap, deleted, ring⟩ := listDeleteEntry_ring sound.ring
  have nodup := (List.nodup_cons.mp sound.ring.nodup).2
  have absent : node ∉ front ++ back :=
    (List.nodup_cons.mp (List.nodup_middle.mp nodup)).1
  refine ⟨heap, by simp [Stack.removeTimer, deleted], ring, fun x => ?_, fun x armed => ?_⟩
  · by_cases same : x = node
    · subst same
      simp [absent]
    · have before := sound.mem_iff x
      simp only [List.mem_append, List.mem_cons, same, false_or] at before
      simp [same, ← before]
  · have different : x ≠ node := by
      rintro rfl
      simp at armed
    have armedBefore : stack.armed x := by simpa [different] using armed
    exact (sound.wired x armedBefore).mono rfl fun _ => id

theorem Sound.removeTimer (sound : Sound stack timers) (removable : stack.Removable node)
    (taken : stack.removeTimer node = some next) : ∃ timers', Sound next timers' := by
  by_cases armed : stack.armed node
  · obtain ⟨front, back, rfl⟩ := List.append_of_mem ((sound.mem_iff node).mpr armed)
    obtain ⟨heap, removed, after⟩ := sound.removeArmed
    cases Option.some.inj (removed.symm.trans taken)
    exact ⟨_, after⟩
  · obtain ⟨n, isNext, p, isPrev, nextKept, prevKept⟩ := removable.resolve_left armed
    obtain ⟨heap, deleted, ring⟩ := listDeleteEntry_stale sound.ring isNext isPrev
      (nextKept ∘ sound.live_iff.mpr) (prevKept ∘ sound.live_iff.mpr)
    simp only [Stack.removeTimer, deleted, Option.map_some, Option.some.injEq] at taken
    subst taken
    have same : Function.update stack.armed node false = stack.armed :=
      Function.update_eq_self_iff.mpr (Bool.not_eq_true _ ▸ armed).symm
    refine ⟨timers, ring, fun x => ?_, fun x armed => ?_⟩
    · simpa [same] using sound.mem_iff x
    · exact (sound.wired x (by simpa [same] using armed)).mono rfl fun _ => id

theorem effectStep_sound {s child : ι} {effect : Effect} (sound : Sound stack timers)
    (fits : EffectFits s child stack effect)
    (taken : stack.effectStep s child effect = some next) : ∃ timers', Sound next timers' := by
  induction effect generalizing s with
  | setRetransTimer =>
      simp only [Stack.effectStep, Stack.tcpSetRetransTimer] at taken
      split_ifs at taken with absent
      refine ⟨_, sound.addTimer fits ⟨by simp, ?_⟩ taken⟩
      simpa [Option.isSome_iff_ne_none] using absent
  | setTimewaitTimer =>
      simp only [Stack.effectStep, Stack.tcpSetTimewaitTimer] at taken
      split_ifs at taken with absent
      refine ⟨_, sound.addTimer fits ⟨by simp, ?_⟩ taken⟩
      simpa [Option.isSome_iff_ne_none] using absent
  | removeRetransTimer =>
      simp only [Stack.effectStep, Stack.tcpRemoveRetransTimer] at taken
      split_ifs at taken
      exact sound.removeTimer fits taken
  | newChild tsk =>
      simp only [Stack.effectStep] at taken
      split_ifs at taken
      exact ⟨timers, Option.some.inj taken ▸ sound.setSock child tsk⟩
  | ofChild effect ih => exact ih fits taken
  | _ => exact ⟨timers, Option.some.inj taken ▸ sound⟩

omit [DecidableEq ι] in
theorem Stack.Renewed.frame {s : ι} (renewed : stack.Renewed s)
    (armed : next.armed (.retransTimer s) → stack.armed (.retransTimer s))
    (timer : next.timer (.retransTimer s) = stack.timer (.retransTimer s))
    (sock : ∀ tsk ∈ next.sock s, ∃ before ∈ stack.sock s, tsk.sendBuf = before.sendBuf) :
    next.Renewed s := by
  intro isArmed early
  rw [timer] at early ⊢
  obtain ⟨number, filled⟩ := renewed (armed isArmed) early
  refine ⟨number, fun tsk isTsk => ?_⟩
  obtain ⟨before, isBefore, same⟩ := sock tsk isTsk
  rw [same]
  exact filled before isBefore

theorem scanEntry_running (running : 0 < (stack.timer node).countDown.timeout) :
    stack.scanEntry node = some (stack.setTimer node (stack.timer node).countDown, false) := by
  simp [Stack.scanEntry, running.not_ge]

theorem scanEntry_timewait {s : ι} {tsk : TcpSock} {removed : Stack ι}
    (out : (stack.timer (.timewait s)).countDown.timeout ≤ 0)
    (type : (stack.timer (.timewait s)).type = 0)
    (taken : (stack.setTimer (.timewait s) (stack.timer (.timewait s)).countDown).removeTimer
      (.timewait s) = some removed) (isTsk : removed.sock s = some tsk) :
    stack.scanEntry (.timewait s) = some (removed.setSock s (tcpSetState .closed tsk), false) := by
  have type' : (stack.timer (.timewait s)).countDown.type = 0 := type
  simp [Stack.scanEntry, out, type', taken, timewaitToTcpSock, isTsk]

theorem scanEntry_retrans {s : ι} {tsk : TcpSock}
    (out : (stack.timer (.retransTimer s)).countDown.timeout ≤ 0)
    (type : (stack.timer (.retransTimer s)).type = 1) (isTsk : stack.sock s = some tsk)
    (number : (stack.timer (.retransTimer s)).retransNumber ≠ 3)
    (filled : tsk.sendBuf ≠ []) :
    stack.scanEntry (.retransTimer s) =
      some ((stack.setTimer (.retransTimer s) (stack.timer (.retransTimer s)).countDown).setTimer
        (.retransTimer s) (stack.timer (.retransTimer s)).countDown.backOff, false) := by
  have type' : (stack.timer (.retransTimer s)).countDown.type = 1 := type
  have number' : (stack.timer (.retransTimer s)).countDown.retransNumber ≠ 3 := number
  simp [Stack.scanEntry, out, type', number', retranstimerToTcpSock, isTsk, filled]

/-- One iteration of the scan: it does not return, and unlinks at most its own node. -/
theorem scanEntry_sound {front rest : List (TimerNode ι)}
    (sound : Sound stack (front ++ node :: rest))
    (renewed : ∀ s, node = .retransTimer s → stack.Renewed s) :
    ∃ next front', stack.scanEntry node = some (next, false) ∧ Sound next (front' ++ rest) ∧
      ∀ s, node ≠ .retransTimer s → stack.Renewed s → next.Renewed s := by
  have armed : stack.armed node := (sound.mem_iff node).mp (by simp)
  have wired := sound.wired node armed
  have whole : front ++ node :: rest = (front ++ [node]) ++ rest := by simp
  have counted : Sound (stack.setTimer node (stack.timer node).countDown) (front ++ node :: rest) :=
    sound.setTimer node rfl
  by_cases running : 0 < (stack.timer node).countDown.timeout
  · refine ⟨_, front ++ [node], scanEntry_running running, whole ▸ counted, ?_⟩
    intro s other before
    exact before.frame id (by simp [Ne.symm other]) fun tsk isTsk => ⟨tsk, isTsk, rfl⟩
  have out := not_lt.mp running
  cases node with
  | timerList => exact absurd wired id
  | timewait s =>
      obtain ⟨type, allocated⟩ := wired
      obtain ⟨tsk, isTsk⟩ := Option.isSome_iff_exists.mp allocated
      obtain ⟨heap, removed, after⟩ := counted.removeArmed
      refine ⟨_, front, scanEntry_timewait out type removed isTsk, after.setSock s _, ?_⟩
      intro s' other before
      refine before.frame (by simp) (by simp) fun tsk' isTsk' => ?_
      by_cases same : s' = s
      · subst same
        obtain rfl : tcpSetState .closed tsk = tsk' := by simpa [Stack.setSock] using isTsk'
        exact ⟨tsk, isTsk, rfl⟩
      · exact ⟨tsk', by simpa [Stack.setSock, same] using isTsk', rfl⟩
  | retransTimer s =>
      obtain ⟨type, allocated⟩ := wired
      obtain ⟨tsk, isTsk⟩ := Option.isSome_iff_exists.mp allocated
      obtain ⟨number, filled⟩ := renewed s rfl armed (by simpa [Timer.countDown] using out)
      refine ⟨_, front ++ [.retransTimer s],
        scanEntry_retrans out type isTsk number (filled tsk isTsk), ?_, ?_⟩
      · exact whole ▸ counted.setTimer _ (by simp [Timer.backOff])
      · intro s' other before
        exact before.frame id (by simp [Ne.symm other]) fun tsk isTsk => ⟨tsk, isTsk, rfl⟩

/-- The loop from a member of the list on: with a fuel for each remaining member it ends. -/
theorem scanFrom_sound {fuel : Nat} {front rest later : List (TimerNode ι)} {pos q : TimerNode ι}
    (sound : Sound stack (front ++ rest)) (here : rest ++ [.timerList] = pos :: later)
    (isNext : (stack.heap pos).next = some q)
    (renewed : ∀ s, .retransTimer s ∈ rest → stack.Renewed s) :
    (fuel ≤ rest.length ∧ stack.scanFrom fuel pos q = none) ∨
      ∃ next timers', stack.scanFrom fuel pos q = some next ∧ Sound next timers' := by
  induction rest generalizing fuel front stack pos q later with
  | nil =>
      obtain rfl : TimerNode.timerList = pos := (List.cons.inj here).1
      cases fuel with
      | zero => exact .inl ⟨le_rfl, rfl⟩
      | succ fuel => exact .inr ⟨stack, _, by simp [Stack.scanFrom], sound⟩
  | cons x rest ih =>
      obtain rfl : x = pos := (List.cons.inj here).1
      cases fuel with
      | zero => exact .inl ⟨Nat.zero_le _, rfl⟩
      | succ fuel =>
          have notHead : x ≠ .timerList := by
            rintro rfl
            exact sound.wired .timerList ((sound.mem_iff _).mp (by simp))
          have absent : x ∉ rest := by
            have nodup := (List.nodup_cons.mp sound.ring.nodup).2
            exact (List.nodup_cons.mp (List.nodup_append.mp nodup).2.1).1
          obtain ⟨q', later', split, isNext'⟩ := sound.ring.exists_next
          obtain rfl : q' = q := Option.some.inj (isNext'.symm.trans isNext)
          obtain ⟨after, front', entry, sound', kept⟩ :=
            scanEntry_sound sound fun s same => renewed s (same ▸ List.mem_cons_self)
          obtain ⟨next, isNextQ⟩ := sound'.exists_next_of_rest split
          have unfolded : stack.scanFrom (fuel + 1) x q' = after.scanFrom fuel q' next := by
            simp [Stack.scanFrom, notHead, entry, isNextQ]
          rw [unfolded, List.length_cons, Nat.add_le_add_iff_right]
          refine ih sound' split isNextQ fun s member => ?_
          exact kept s (fun same => absent (same ▸ member))
            (renewed s (List.mem_cons_of_mem _ member))

theorem scan_sound {fuel : Nat} (sound : Sound stack timers) (renewed : ∀ s, stack.Renewed s)
    (taken : stack.tcpScanTimerList fuel = some next) : ∃ timers', Sound next timers' := by
  obtain ⟨pos, later, split, isFirst⟩ := sound.ring.exists_first
  have whole : Sound stack ([] ++ timers) := sound
  obtain ⟨q, isNext⟩ := whole.exists_next_of_rest split
  simp only [Stack.tcpScanTimerList, isFirst, isNext, Option.bind_eq_bind, Option.bind_some] at taken
  rcases scanFrom_sound whole split isNext fun s _ => renewed s with
    ⟨-, stuck⟩ | ⟨next', timers', success, sound'⟩
  · cases stuck.symm.trans taken
  · cases Option.some.inj (success.symm.trans taken)
    exact ⟨timers', sound'⟩

theorem call_sound {event : StackEvent ι} (sound : Sound stack timers)
    (fits : ∀ call ∈ event.call stack,
      Guarded (Stack.effectStep call.1 call.2.1) (EffectFits call.1 call.2.1)
        (stack.setSock call.1 call.2.2.tsk) call.2.2.effects)
    (taken : ((event.call stack).bind fun call =>
      stack.applyOutcome call.1 call.2.1 call.2.2) = some next) :
    ∃ timers', Sound next timers' := by
  obtain ⟨⟨s, child, outcome⟩, isCall, success⟩ := Option.bind_eq_some_iff.mp taken
  have preserved : ∀ stack effect next, (∃ timers, Sound stack timers) →
      EffectFits s child stack effect → stack.effectStep s child effect = some next →
      ∃ timers', Sound next timers' := fun _ _ _ ⟨_, sound⟩ => effectStep_sound sound
  exact invariant_guarded_run (Stack.effectStep s child) preserved outcome.effects
    ⟨timers, sound.setSock s outcome.tsk⟩ (fits _ isCall) success

theorem stackStep_sound {event : StackEvent ι} (sound : ∃ timers, Sound stack timers)
    (fits : StepFits stack event) (taken : stackStep stack event = some next) :
    ∃ timers', Sound next timers' := by
  obtain ⟨timers, sound⟩ := sound
  cases event with
  | scan fuel => exact scan_sound sound fits taken
  | _ => exact call_sound sound fits taken

end Operations

theorem startStack_sound : Sound (startStack : Stack ι) [] where
  ring := initListHead_ring _ _
  mem_iff := by simp [startStack]
  wired := by simp [startStack]

/-- In every run whose calls fit, the list holds the armed timers in every state. -/
theorem timer_list_intact (events : List (StackEvent ι))
    (fits : Guarded stackStep StepFits startStack events) :
    Always stackStep Intact startStack events := by
  have sound : Always stackStep (fun stack => ∃ timers, Sound stack timers) startStack events :=
    always_of_guarded stackStep (fun _ _ _ => stackStep_sound) events ⟨[], startStack_sound⟩ fits
  exact always_mono stackStep (fun _ ⟨_, sound⟩ => sound.intact) events sound

section Decide

variable (stack : Stack ι)

instance (node : TimerNode ι) : Decidable (stack.Live node) :=
  inferInstanceAs (Decidable (_ ∨ _))

instance (node : TimerNode ι) : Decidable (stack.Removable node) :=
  inferInstanceAs (Decidable (_ ∨ _))

instance (s : ι) : Decidable (stack.Renewed s) := inferInstanceAs (Decidable (_ → _ → _ ∧ _))

instance decidableEffectFits (s child : ι) :
    ∀ stack effect, Decidable (EffectFits s child stack effect) := fun stack effect =>
  match effect with
  | .setRetransTimer => inferInstanceAs (Decidable (¬ _))
  | .removeRetransTimer => inferInstanceAs (Decidable (stack.Removable _))
  | .setTimewaitTimer => inferInstanceAs (Decidable (¬ _))
  | .ofChild effect => decidableEffectFits child child stack effect
  | .ipSendPacket _ => isTrue trivial
  | .wakeUp _ => isTrue trivial
  | .newChild _ => isTrue trivial
  | .hashChild => isTrue trivial
  | .acceptEnqueue => isTrue trivial
  | .clearListenQueue => isTrue trivial
  | .unhash => isTrue trivial
  | .freeTcpSock => isTrue trivial

instance [Fintype ι] (event : StackEvent ι) : Decidable (StepFits stack event) :=
  match event with
  | .scan _ => inferInstanceAs (Decidable (∀ s, stack.Renewed s))
  | .assign s tsk => inferInstanceAs (Decidable (∀ call ∈ StackEvent.call stack (.assign s tsk), _))
  | .sendPacket s payload =>
    inferInstanceAs (Decidable (∀ call ∈ StackEvent.call stack (.sendPacket s payload), _))
  | .sendControlPacket s flags =>
    inferInstanceAs (Decidable (∀ call ∈ StackEvent.call stack (.sendControlPacket s flags), _))
  | .removeAckData s ackNum =>
    inferInstanceAs (Decidable (∀ call ∈ StackEvent.call stack (.removeAckData s ackNum), _))
  | .process s child iss cb =>
    inferInstanceAs (Decidable (∀ call ∈ StackEvent.call stack (.process s child iss cb), _))

end Decide

theorem timer_list_intact_two :
    Always stackStep Intact (startStack : Stack Bool)
      [.assign false allocTcpSock, .assign true allocTcpSock, .sendPacket false [1],
        .sendPacket true [2], .removeAckData false 0, .sendPacket false [3], .scan 3] :=
  timer_list_intact _ (by decide)

/-- A second packet of one socket sets its timer again: the timer that another socket has
set in between is no longer in the list. -/
theorem second_packet_loses_timer :
    ∃ stack, run stackStep (startStack : Stack Bool)
      [.assign false allocTcpSock, .assign true allocTcpSock, .sendPacket false [1],
        .sendPacket true [2], .sendPacket false [3]] = some stack ∧ ¬ Intact stack := by
  refine ⟨_, Option.some_get (by decide) |>.symm, ?_⟩
  generalize reached : Option.get _ _ = stack
  have first : (stack.heap .timerList).next = some (.retransTimer false) := by
    subst reached
    decide
  have last : (stack.heap (.retransTimer false)).next = some .timerList := by
    subst reached
    decide
  have armed : stack.armed (.retransTimer true) := by
    subst reached
    decide
  rintro ⟨timers, -, ⟨pos, fuel, isFirst, visited⟩, mem_iff⟩
  obtain rfl : .retransTimer false = pos := Option.some.inj (first.symm.trans isFirst)
  have lost : timers = [.retransTimer false] := by
    rcases fuel with - | - | fuel
    · cases visited
    · simp [visit, last] at visited
    · simpa [visit, last, eq_comm] using visited
  simpa [lost] using (mem_iff _).mpr armed

end NetworkLab.Tcp
