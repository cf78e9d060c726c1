import NetworkLab.Tcp.Sockets
import NetworkLab.Tcp.Timers

/-!
# One scan of the timers

`tcp_scan_timer_list` with the sockets of `tcp_sock.c`, their reference counts and the
packets that it sends again.  The scan returns in the middle of the list when it gives a
connection up, and leaves that timer in the list, so the timers behind it do not run.
Timeouts are integers that do not wrap, as an `int` does not from 3200000 down to -2147483648.
-/
set_option autoImplicit false

namespace NetworkLab.Tcp

open Lib.LinkedRing Lib.Run

/-- `resent` are the packets that scans have handed to `ip_send_packet`. -/
structure TimerStack (ι : Type) where
  sockets : Sockets ι
  heap : Heap (TimerNode ι)
  timer : TimerNode ι → Timer
  resent : List (ι × Segment)

def TimerNode.owner {ι : Type} : TimerNode ι → Option ι
  | .timerList => none
  | .timewait s => some s
  | .retransTimer s => some s

variable {ι : Type} [DecidableEq ι]

namespace TimerStack

def setTimer (node : TimerNode ι) (timer : Timer) (stack : TimerStack ι) : TimerStack ι :=
  { stack with timer := Function.update stack.timer node timer }

def tcpSetRetransTimer (s : ι) (stack : TimerStack ι) : Option (TimerStack ι) :=
  (listAddTail stack.heap (.retransTimer s) .timerList).map fun heap =>
    { stack with heap := heap }.setTimer (.retransTimer s)
      { type := 1, timeout := TCP_RETRANS_INTERVAL, retransNumber := 0 }

def effectStep (s : ι) (stack : TimerStack ι) : Effect → Option (TimerStack ι)
  | .setRetransTimer => stack.tcpSetRetransTimer s
  | effect => (stack.sockets.effectStep (fun _ => false) s s effect).map fun sockets =>
    { stack with sockets := sockets }

def tcpSockClose (s : ι) (stack : TimerStack ι) : Option (TimerStack ι) := do
  let sock ← stack.sockets.socket s
  let outcome := Tcp.tcpSockClose sock.tsk
  let sockets ← stack.sockets.update s fun sock => { sock with tsk := outcome.tsk }
  run (effectStep s) { stack with sockets := sockets } outcome.effects

/-- The body of the loop in `tcp_scan_timer_list`, and whether it returns.  `none` also for
a node in the memory of a socket that was released. -/
def scanEntry (t : TimerNode ι) (stack : TimerStack ι) : Option (TimerStack ι × Bool) := do
  let owner ← t.owner
  let _ ← stack.sockets.socket owner
  let timer := (stack.timer t).countDown
  let stack := stack.setTimer t timer
  if timer.timeout ≤ 0 ∧ timer.type = 0 then
    let heap ← listDeleteEntry stack.heap t
    let s ← timewaitToTcpSock t
    let sockets ← stack.sockets.timewaitExpires s
    some ({ stack with heap := heap, sockets := sockets }, false)
  else if timer.timeout ≤ 0 ∧ timer.type = 1 then
    let s ← retranstimerToTcpSock t
    let sock ← stack.sockets.socket s
    if timer.retransNumber = 3 then
      let stack ← stack.tcpSockClose s
      some (stack, true)
    else
      match sock.tsk.sendBuf with
      | [] => some (stack, false)
      | packet :: _ =>
        some ({ stack.setTimer t timer.backOff with resent := stack.resent ++ [(s, packet)] }, false)
  else some (stack, false)

/-- The loop from `pos` on; `q` was read from `pos` before its body.  `none` also when
`fuel` iterations are not enough. -/
def scanFrom : Nat → TimerNode ι → TimerNode ι → TimerStack ι → Option (TimerStack ι)
  | 0, _, _, _ => none
  | fuel + 1, pos, q, stack =>
    if pos = .timerList then some stack
    else do
      let (stack, returned) ← stack.scanEntry pos
      if returned then some stack
      else
        let next ← (stack.heap q).next
        scanFrom fuel q next stack

def tcpScanTimerList (fuel : Nat) (stack : TimerStack ι) : Option (TimerStack ι) := do
  let pos ← (stack.heap .timerList).next
  let q ← (stack.heap pos).next
  stack.scanFrom fuel pos q

end TimerStack

section Statement

variable (stack : TimerStack ι)

/-- A time-wait timer holds a reference of its socket, and a socket without a parent is in
`bind_table` with another one.  A retransmission timer in the list holds none, so there is
one more. -/
structure TimerStack.Holds (timers : List (TimerNode ι)) (s : ι) (sock : Socket ι) : Prop where
  bound : sock.parent = none → sock.bindHashListSet = true
  references : 1 + (if sock.parent.isNone then 1 else 0) +
    (if .retransTimer s ∈ timers then 1 else 0) ≤ sock.refCnt

/-- `timer_list` is a ring of these timers, each of the type of its node and in a socket
that lives. -/
structure TimerStack.WellFormed (timers : List (TimerNode ι)) : Prop where
  ring : Ring stack.heap .timerList timers
  timewait : ∀ s, .timewait s ∈ timers → (stack.timer (.timewait s)).type = 0 ∧
    s ∈ stack.sockets.timewait ∧ ∃ sock, stack.sockets.socket s = some sock ∧ Holds timers s sock
  retrans : ∀ s, .retransTimer s ∈ timers → (stack.timer (.retransTimer s)).type = 1 ∧
    (stack.sockets.socket s).isSome

namespace TimerStack

def Expires (node : TimerNode ι) : Prop := (stack.timer node).countDown.timeout ≤ 0

instance (node : TimerNode ι) : Decidable (stack.Expires node) :=
  inferInstanceAs (Decidable (_ ≤ (_ : Int)))

/-- The timer has to leave the list: a time-wait timer that expires, and a retransmission
timer that expires after three retransmissions. -/
def Leaves (node : TimerNode ι) : Prop :=
  stack.Expires node ∧ ((stack.timer node).type = 0 ∨ 3 ≤ (stack.timer node).retransNumber)

instance (node : TimerNode ι) : Decidable (stack.Leaves node) :=
  inferInstanceAs (Decidable (_ ∧ (_ ∨ _)))

/-- The timer as the scan should leave it. -/
def nextTimer (node : TimerNode ι) : Timer :=
  if stack.Expires node ∧ (stack.timer node).type = 1 ∧ ¬ stack.Leaves node then
    (stack.timer node).countDown.backOff
  else (stack.timer node).countDown

/-- The oldest segment that a socket has sent and that is not acknowledged. -/
def oldest (s : ι) : Option (ι × Segment) :=
  (stack.sockets.socket s).bind fun sock => sock.tsk.sendBuf.head?.map fun packet => (s, packet)

/-- The packet to send again for a timer. -/
def due : TimerNode ι → Option (ι × Segment)
  | .retransTimer s =>
    if stack.Expires (.retransTimer s) ∧ ¬ stack.Leaves (.retransTimer s) then stack.oldest s
    else none
  | _ => none

/-- A state of a socket that is closed, or that `tcp_sock_close` has begun to close. -/
def Closed (state : TcpState) : Prop :=
  state = .closed ∨ state = .finWait1 ∨ state = .lastAck

/-- What a scan owes to every timer that was in the list.  A socket that was released is
closed. -/
structure Advanced (before : TimerStack ι) (timers : List (TimerNode ι)) (after : TimerStack ι) :
    Prop where
  list : Ring after.heap .timerList (timers.filter fun node => ¬ before.Leaves node)
  counted : ∀ node ∈ timers, after.timer node = before.nextTimer node
  timewait : ∀ s, .timewait s ∈ timers → before.Expires (.timewait s) →
    ∀ sock ∈ after.sockets.socket s, sock.tsk.state = .closed
  gaveUp : ∀ s, .retransTimer s ∈ timers → before.Leaves (.retransTimer s) →
    ∀ sock ∈ after.sockets.socket s, Closed sock.tsk.state
  resent : after.resent = before.resent ++ timers.filterMap before.due

/-- Every retransmission timer that expires was used less than three times, and has a
segment to send again. -/
def NoneGivenUp (timers : List (TimerNode ι)) : Prop :=
  ∀ s, .retransTimer s ∈ timers → stack.Expires (.retransTimer s) →
    (stack.timer (.retransTimer s)).retransNumber < 3 ∧
      ∀ sock ∈ stack.sockets.socket s, sock.tsk.sendBuf ≠ []

end TimerStack

end Statement

section Sockets

variable {sockets : Sockets ι} {s : ι} {sock : Socket ι}

theorem release_spec (live : sockets.socket s = some sock) :
    ∃ next, sockets.release s = some next ∧ next.timewait = sockets.timewait ∧
      (∀ t, t ≠ s → next.socket t = sockets.socket t) ∧
      (∀ left ∈ next.socket s, left.tsk = tcpSetState .closed sock.tsk) ∧
      (2 ≤ sock.refCnt → (next.socket s).isSome) := by
  have released : sockets.release s = some { sockets with
      socket := Function.update sockets.socket s (if sock.refCnt - 1 ≤ 0 then none
        else some { sock with
          tsk := tcpSetState .closed sock.tsk, refCnt := sock.refCnt - 1 }) } := by
    simp [Sockets.release, Sockets.update, live, Sockets.freeTcpSock, Sockets.put]
  refine ⟨_, released, rfl, ?_, ?_, ?_⟩
  · intro t other
    exact Function.update_of_ne other ..
  · intro left isLeft
    simp only [Function.update_self] at isLeft
    split_ifs at isLeft
    · cases isLeft
    · cases Option.some.inj isLeft
      rfl
  · intro enough
    simp only [Function.update_self]
    rw [if_neg (by omega)]
    rfl

theorem tcpBindUnhash_spec (live : sockets.socket s = some sock)
    (bound : sock.bindHashListSet = true) (enough : 2 ≤ sock.refCnt) :
    ∃ next, sockets.tcpBindUnhash s = some next ∧ next.timewait = sockets.timewait ∧
      next.socket = Function.update sockets.socket s
        (some { sock with refCnt := sock.refCnt - 1 }) := by
  have live' : (sockets.deleteBindHashList s).socket s = some sock := live
  have kept : ¬ sock.refCnt ≤ 1 := by omega
  have released : sockets.tcpBindUnhash s = some { sockets.deleteBindHashList s with
      socket := Function.update sockets.socket s
        (some { sock with refCnt := sock.refCnt - 1 }) } := by
    simp [Sockets.tcpBindUnhash, live, bound, Sockets.freeTcpSock, live', kept]
    rfl
  exact ⟨_, released, rfl, rfl⟩

/-- A time-wait timer that expires closes its socket, and touches no other one. -/
theorem timewaitExpires_spec {timers : List (TimerNode ι)} (waits : s ∈ sockets.timewait)
    (live : sockets.socket s = some sock) (holds : TimerStack.Holds timers s sock) :
    ∃ next, sockets.timewaitExpires s = some next ∧
      next.timewait = sockets.timewait.filter (· ≠ s) ∧
      (∀ t, t ≠ s → next.socket t = sockets.socket t) ∧
      (∀ left ∈ next.socket s, left.tsk = tcpSetState .closed sock.tsk) ∧
      (.retransTimer s ∈ timers → (next.socket s).isSome) := by
  have live' : (sockets.deleteTimewait s).socket s = some sock := live
  have references := holds.references
  rw [Sockets.timewaitExpires, if_pos waits, live, Option.bind_eq_bind, Option.bind_some]
  by_cases orphan : sock.parent = none
  · rw [orphan, Option.isNone_none, if_pos rfl] at references
    have enough : 2 ≤ sock.refCnt := by
      split_ifs at references <;> omega
    obtain ⟨unbound, unhashes, sameTimewait, socket⟩ :=
      tcpBindUnhash_spec live' (holds.bound orphan) enough
    have liveUnbound : unbound.socket s = some { sock with refCnt := sock.refCnt - 1 } := by
      rw [socket, Function.update_self]
    obtain ⟨next, success, timewait, others, closed, survives⟩ := release_spec liveUnbound
    refine ⟨next, ?_, timewait.trans sameTimewait, ?_, closed, ?_⟩
    · rw [if_pos (by rw [orphan]; rfl), unhashes, Option.bind_some, success]
    · intro t other
      rw [others t other, socket]
      exact Function.update_of_ne other ..
    · intro listed
      rw [if_pos listed] at references
      exact survives (by dsimp only; omega)
  · obtain ⟨next, success, timewait, others, closed, survives⟩ := release_spec live'
    refine ⟨next, ?_, timewait, others, closed, ?_⟩
    · rw [if_neg (by simpa using orphan), success]
    · intro listed
      rw [if_pos listed] at references
      exact survives (by split_ifs at references <;> omega)

end Sockets

/-! ## What the loop does to one timer -/

namespace TimerStack

variable (stack : TimerStack ι)

/-- The scan returns at this timer. -/
def ReturnsAt (node : TimerNode ι) : Prop :=
  stack.Expires node ∧ (stack.timer node).type = 1 ∧ (stack.timer node).retransNumber = 3

/-- The packet that the loop sends for a timer where it does not return. -/
def resends : TimerNode ι → Option (ι × Segment)
  | .retransTimer s => if stack.Expires (.retransTimer s) then stack.oldest s else none
  | _ => none

/-- The timer as the loop leaves it where it does not return. -/
def scanned (node : TimerNode ι) : Timer :=
  if (stack.resends node).isSome then (stack.timer node).countDown.backOff
  else (stack.timer node).countDown

/-- The timer is in the list after the loop. -/
def Stays (node : TimerNode ι) : Prop := ¬ (stack.Expires node ∧ (stack.timer node).type = 0)

instance (node : TimerNode ι) : Decidable (stack.Stays node) :=
  inferInstanceAs (Decidable (¬ (_ ∧ _)))

/-- The loop between two timers: `done` have had their turn, `rest` have not. -/
structure Progress (start : TimerStack ι) (done rest : List (TimerNode ι)) (now : TimerStack ι) :
    Prop where
  ring : Ring now.heap .timerList ((done.filter fun node => start.Stays node) ++ rest)
  counted : ∀ node ∈ done, now.timer node = start.scanned node
  waiting : ∀ node ∈ rest, now.timer node = start.timer node
  closed : ∀ s, .timewait s ∈ done → start.Expires (.timewait s) →
    ∀ sock ∈ now.sockets.socket s, sock.tsk.state = .closed
  holding : ∀ s, .timewait s ∈ rest →
    now.sockets.socket s = start.sockets.socket s ∧ s ∈ now.sockets.timewait
  sending : ∀ s, .retransTimer s ∈ rest → (now.sockets.socket s).map (fun sock => sock.tsk.sendBuf) =
    (start.sockets.socket s).map fun sock => sock.tsk.sendBuf
  resent : now.resent = start.resent ++ done.filterMap start.resends

variable {stack} {start now next : TimerStack ι} {node : TimerNode ι}
  {done rest : List (TimerNode ι)} {s : ι} {sock : Socket ι}

theorem WellFormed.progress {timers : List (TimerNode ι)} (wellFormed : start.WellFormed timers) :
    Progress start [] timers start where
  ring := wellFormed.ring
  counted := by simp
  waiting := fun _ _ => rfl
  closed := by simp
  holding := fun s member => ⟨rfl, (wellFormed.timewait s member).2.1⟩
  sending := fun _ _ => rfl
  resent := by simp

theorem WellFormed.nodup (wellFormed : start.WellFormed (done ++ node :: rest)) :
    node ∉ done ∧ node ∉ rest := by
  have nodup := (List.nodup_cons.mp wellFormed.ring.nodup).2
  have absent := (List.nodup_cons.mp (List.nodup_middle.mp nodup)).1
  exact ⟨fun member => absent (List.mem_append_left _ member),
    fun member => absent (List.mem_append_right _ member)⟩

theorem Progress.counted_turn (progress : Progress start done (node :: rest) now)
    (wellFormed : start.WellFormed (done ++ node :: rest)) :
    ∀ other ∈ done ++ [node],
      Function.update now.timer node (start.scanned node) other = start.scanned other := by
  intro other member
  cases List.mem_append.mp member with
  | inl earlier =>
      have different : other ≠ node := fun same => wellFormed.nodup.1 (same ▸ earlier)
      rw [Function.update_of_ne different]
      exact progress.counted other earlier
  | inr here => rw [List.mem_singleton.mp here, Function.update_self]

theorem Progress.waiting_turn (progress : Progress start done (node :: rest) now)
    (wellFormed : start.WellFormed (done ++ node :: rest)) (timer : Timer) :
    ∀ other ∈ rest, Function.update now.timer node timer other = start.timer other := by
  intro other member
  have different : other ≠ node := fun same => wellFormed.nodup.2 (same ▸ member)
  rw [Function.update_of_ne different]
  exact progress.waiting other (List.mem_cons_of_mem _ member)

/-- The socket of a retransmission timer is there at its turn, with the send buffer that it had
at the start. -/
theorem Progress.live_retrans (progress : Progress start done (.retransTimer s :: rest) now)
    (wellFormed : start.WellFormed (done ++ .retransTimer s :: rest)) :
    ∃ sock current, start.sockets.socket s = some sock ∧ now.sockets.socket s = some current ∧
      current.tsk.sendBuf = sock.tsk.sendBuf := by
  obtain ⟨-, allocated⟩ := wellFormed.retrans s (by simp)
  obtain ⟨sock, live⟩ := Option.isSome_iff_exists.mp allocated
  have sending := progress.sending s List.mem_cons_self
  rw [live, Option.map_some] at sending
  obtain ⟨current, liveNow, sameBuf⟩ := Option.map_eq_some_iff.mp sending
  exact ⟨sock, current, live, liveNow, sameBuf⟩

theorem Progress.count (progress : Progress start done (node :: rest) now)
    (wellFormed : start.WellFormed (done ++ node :: rest)) (stays : start.Stays node)
    (heap : next.heap = now.heap) (sockets : next.sockets = now.sockets)
    (timer : next.timer = Function.update now.timer node (start.scanned node))
    (resent : next.resent = now.resent ++ (start.resends node).toList) :
    Progress start (done ++ [node]) rest next := by
  constructor
  case ring =>
    rw [heap, List.filter_append, List.filter_cons_of_pos (by simpa using stays),
      List.append_assoc]
    exact progress.ring
  case counted =>
    rw [timer]
    exact progress.counted_turn wellFormed
  case waiting =>
    rw [timer]
    exact progress.waiting_turn wellFormed _
  case closed =>
    intro s member expires
    rw [sockets]
    rcases List.mem_append.mp member with earlier | here
    · exact progress.closed s earlier expires
    · rw [← List.mem_singleton.mp here] at stays
      have type := (wellFormed.timewait s (by rw [List.mem_singleton.mp here]; simp)).1
      exact absurd ⟨expires, type⟩ stays
  case holding =>
    intro s member
    rw [sockets]
    exact progress.holding s (List.mem_cons_of_mem _ member)
  case sending =>
    intro s member
    rw [sockets]
    exact progress.sending s (List.mem_cons_of_mem _ member)
  case resent =>
    rw [resent, progress.resent, List.append_assoc, List.filterMap_append]
    congr 1

/-- What the closing of a socket leaves of its buffer, and of those of the others. -/
theorem Progress.sending_closed {sockets : Sockets ι}
    (progress : Progress start done (.timewait s :: rest) now)
    (live : start.sockets.socket s = some sock)
    (others : ∀ t, t ≠ s → sockets.socket t = now.sockets.socket t)
    (closed : ∀ left ∈ sockets.socket s, left.tsk = tcpSetState .closed sock.tsk)
    (survives : .retransTimer s ∈ done ++ .timewait s :: rest → (sockets.socket s).isSome)
    (t : ι) (member : .retransTimer t ∈ rest) :
    (sockets.socket t).map (fun sock => sock.tsk.sendBuf) =
      (start.sockets.socket t).map fun sock => sock.tsk.sendBuf := by
  by_cases here : t = s
  · subst here
    have listed : .retransTimer t ∈ done ++ .timewait t :: rest := by simp [member]
    obtain ⟨left, isLeft⟩ := Option.isSome_iff_exists.mp (survives listed)
    rw [isLeft, live, Option.map_some, Option.map_some, closed left isLeft]
    rfl
  · rw [others t here]
    exact progress.sending t (List.mem_cons_of_mem _ member)

theorem Progress.expire (progress : Progress start done (.timewait s :: rest) now)
    (wellFormed : start.WellFormed (done ++ .timewait s :: rest))
    (expires : start.Expires (.timewait s)) :
    ∃ next, now.scanEntry (.timewait s) = some (next, false) ∧
      Progress start (done ++ [.timewait s]) rest next := by
  have notRest := wellFormed.nodup.2
  obtain ⟨type, -, sock, live, holds⟩ := wellFormed.timewait s (by simp)
  obtain ⟨same, waits⟩ := progress.holding s List.mem_cons_self
  have timer := progress.waiting (.timewait s) List.mem_cons_self
  obtain ⟨heap, deleted, ring⟩ := listDeleteEntry_ring progress.ring
  obtain ⟨sockets, success, timewait, others, closed, survives⟩ :=
    timewaitExpires_spec waits (same.trans live) holds
  have out : (now.timer (.timewait s)).countDown.timeout ≤ 0 ∧
      (now.timer (.timewait s)).countDown.type = 0 := by
    rw [timer]
    exact ⟨expires, type⟩
  have entry : now.scanEntry (.timewait s) = some
      ({ now.setTimer (.timewait s) (now.timer (.timewait s)).countDown with
        heap := heap, sockets := sockets }, false) := by
    simp only [scanEntry, TimerNode.owner, same.trans live, Option.bind_eq_bind, Option.bind_some]
    rw [if_pos out]
    simp [setTimer, deleted, timewaitToTcpSock, success]
  have counted : start.scanned (.timewait s) = (now.timer (.timewait s)).countDown := by
    rw [timer]
    rfl
  refine ⟨_, entry, ?_⟩
  constructor
  case ring =>
    rw [List.filter_append, List.filter_cons_of_neg (by simpa [Stays] using ⟨expires, type⟩),
      List.filter_nil, List.append_nil]
    exact ring
  case counted =>
    dsimp only [setTimer]
    rw [← counted]
    exact progress.counted_turn wellFormed
  case waiting => exact progress.waiting_turn wellFormed _
  case closed =>
    intro t member expiresT left isLeft
    by_cases here : t = s
    · rw [here] at isLeft
      rw [closed left isLeft]
      rfl
    · rw [others t here] at isLeft
      have earlier : .timewait t ∈ done := by
        simpa [here] using member
      exact progress.closed t earlier expiresT left isLeft
  case holding =>
    intro t member
    have other : t ≠ s := by
      intro here
      exact notRest (here ▸ member)
    have before := progress.holding t (List.mem_cons_of_mem _ member)
    rw [others t other, timewait, List.mem_filter]
    exact ⟨before.1, before.2, by simpa using other⟩
  case sending => exact progress.sending_closed live others closed survives
  case resent =>
    have nothing : [TimerNode.timewait s].filterMap start.resends = [] := rfl
    rw [List.filterMap_append, nothing, List.append_nil]
    exact progress.resent

/-- The turn of a retransmission timer that expires and is not given up. -/
theorem Progress.retransmit (progress : Progress start done (.retransTimer s :: rest) now)
    (wellFormed : start.WellFormed (done ++ .retransTimer s :: rest))
    (expires : start.Expires (.retransTimer s))
    (goesOn : ¬ start.ReturnsAt (.retransTimer s)) :
    ∃ next, now.scanEntry (.retransTimer s) = some (next, false) ∧
      Progress start (done ++ [.retransTimer s]) rest next := by
  have type := (wellFormed.retrans s (by simp)).1
  obtain ⟨sock, current, live, liveNow, sameBuf⟩ := progress.live_retrans wellFormed
  have timer := progress.waiting (.retransTimer s) List.mem_cons_self
  have stays : start.Stays (.retransTimer s) := by
    rintro ⟨-, timewait⟩
    rw [type] at timewait
    cases timewait
  have out : (now.timer (.retransTimer s)).countDown.timeout ≤ 0 := by
    rw [timer]
    exact expires
  have isRetrans : (now.timer (.retransTimer s)).countDown.type = 1 := by
    rw [timer]
    exact type
  have number : (now.timer (.retransTimer s)).countDown.retransNumber ≠ 3 := by
    rw [timer]
    exact fun three => goesOn ⟨expires, type, three⟩
  have isDue : start.resends (.retransTimer s) = sock.tsk.sendBuf.head?.map fun p => (s, p) := by
    rw [resends, if_pos expires, oldest, live, Option.bind_some]
  cases buf : sock.tsk.sendBuf with
  | nil =>
      rw [buf] at sameBuf isDue
      have entry : now.scanEntry (.retransTimer s) = some
          (now.setTimer (.retransTimer s) (now.timer (.retransTimer s)).countDown, false) := by
        simp [scanEntry, TimerNode.owner, liveNow, out, isRetrans, number, setTimer,
          retranstimerToTcpSock, sameBuf]
      refine ⟨_, entry, progress.count wellFormed stays rfl rfl ?_ ?_⟩
      · rw [scanned, isDue, timer]
        rfl
      · rw [isDue]
        simp [setTimer]
  | cons packet later =>
      rw [buf] at sameBuf isDue
      have entry : now.scanEntry (.retransTimer s) = some
          ({ now.setTimer (.retransTimer s) (now.timer (.retransTimer s)).countDown.backOff with
            resent := now.resent ++ [(s, packet)] }, false) := by
        simp [scanEntry, TimerNode.owner, liveNow, out, isRetrans, number, setTimer,
          retranstimerToTcpSock, sameBuf]
      refine ⟨_, entry, progress.count wellFormed stays rfl rfl ?_ ?_⟩
      · rw [scanned, isDue, timer]
        rfl
      · rw [isDue]
        simp

theorem Progress.scanEntry (progress : Progress start done (node :: rest) now)
    (wellFormed : start.WellFormed (done ++ node :: rest)) (goesOn : ¬ start.ReturnsAt node) :
    ∃ next, now.scanEntry node = some (next, false) ∧
      Progress start (done ++ [node]) rest next := by
  have timer := progress.waiting node List.mem_cons_self
  have running : ∀ {owner : ι} {sock : Socket ι}, node.owner = some owner →
      now.sockets.socket owner = some sock → ¬ start.Expires node → start.resends node = none →
      ∃ next, now.scanEntry node = some (next, false) ∧
        Progress start (done ++ [node]) rest next := by
    intro owner sock isOwner live early quiet
    have stays : start.Stays node := fun both => early both.1
    have out : ¬ (now.timer node).countDown.timeout ≤ 0 := by
      rw [timer]
      exact early
    have entry : now.scanEntry node =
        some (now.setTimer node (now.timer node).countDown, false) := by
      simp [TimerStack.scanEntry, isOwner, live, out]
    refine ⟨_, entry, progress.count wellFormed stays rfl rfl ?_ ?_⟩
    · rw [scanned, quiet, timer]
      rfl
    · rw [quiet]
      simp [setTimer]
  cases node with
  | timerList =>
      exact absurd (List.nodup_cons.mp wellFormed.ring.nodup).1 (by simp)
  | timewait s =>
      by_cases expires : start.Expires (.timewait s)
      · exact progress.expire wellFormed expires
      · obtain ⟨-, -, sock, live, -⟩ := wellFormed.timewait s (by simp)
        have same := (progress.holding s List.mem_cons_self).1
        exact running rfl (same.trans live) expires rfl
  | retransTimer s =>
      by_cases expires : start.Expires (.retransTimer s)
      · exact progress.retransmit wellFormed expires goesOn
      · obtain ⟨sock, current, -, liveNow, -⟩ := progress.live_retrans wellFormed
        exact running rfl liveNow expires (if_neg expires)

/-! ## Where the scan returns -/

/-- Going forward from the head of the list one comes to this timer. -/
def Reached (heap : Heap (TimerNode ι)) (node : TimerNode ι) : Prop :=
  ∃ path, List.IsChain (fun x y => (heap x).next = some y) (.timerList :: path ++ [node])

/-- The links on a way from the head are those of `heap`, and the list ends elsewhere. -/
def WayKept (heap : Heap (TimerNode ι)) (path : List (TimerNode ι)) (now : TimerStack ι) : Prop :=
  (∀ x ∈ .timerList :: path, (now.heap x).next = (heap x).next) ∧
    ∀ last ∈ (now.heap .timerList).prev, last ∉ .timerList :: path

theorem effectStep_wayKept {path : List (TimerNode ι)} {heap : Heap (TimerNode ι)}
    {effect : Effect} (notOn : TimerNode.retransTimer s ∉ path) (kept : WayKept heap path now)
    (taken : now.effectStep s effect = some next) : WayKept heap path next := by
  have absent : TimerNode.retransTimer s ∉ .timerList :: path := by
    simpa using notOn
  by_cases sets : effect = .setRetransTimer
  · subst sets
    obtain ⟨heap', added, rfl⟩ := Option.map_eq_some_iff.mp taken
    obtain ⟨last, isLast, rfl⟩ := Option.map_eq_some_iff.mp added
    have outside := kept.2 last isLast
    constructor
    · intro x member
      have notNode : x ≠ .retransTimer s := fun same => absent (same ▸ member)
      have notLast : x ≠ last := fun same => outside (same ▸ member)
      simpa [setTimer, listInsert, notNode, notLast] using kept.1 x member
    · intro last' isLast'
      have isNode : TimerNode.retransTimer s = last' := by
        simpa [setTimer, listInsert] using isLast'
      rw [← isNode]
      exact absent
  · have others : now.effectStep s effect =
        (now.sockets.effectStep (fun _ => false) s s effect).map fun sockets =>
          { now with sockets := sockets } := by
      cases effect <;> first | exact absurd rfl sets | rfl
    rw [others] at taken
    obtain ⟨sockets, -, rfl⟩ := Option.map_eq_some_iff.mp taken
    exact kept

theorem scanEntry_returns (live : now.sockets.socket s = some sock)
    (returnsAt : now.ReturnsAt (.retransTimer s)) :
    now.scanEntry (.retransTimer s) =
      ((now.setTimer (.retransTimer s) (now.timer (.retransTimer s)).countDown).tcpSockClose s).map
        fun stack => (stack, true) := by
  obtain ⟨expires, type, three⟩ := returnsAt
  have isRetrans : (now.timer (.retransTimer s)).countDown.type = 1 := type
  have number : (now.timer (.retransTimer s)).countDown.retransNumber = 3 := three
  rw [Expires] at expires
  simp [scanEntry, TimerNode.owner, live, expires, isRetrans, number, retranstimerToTcpSock,
    setTimer]
  cases tcpSockClose s _ <;> rfl

theorem tcpSockClose_forward {path : List (TimerNode ι)}
    (ring : Ring now.heap .timerList (path ++ .retransTimer s :: rest))
    (success : now.tcpSockClose s = some next) :
    ∀ x ∈ TimerNode.timerList :: path, (next.heap x).next = (now.heap x).next := by
  obtain ⟨sock, -, closes⟩ := Option.bind_eq_some_iff.mp success
  obtain ⟨sockets, -, runs⟩ := Option.bind_eq_some_iff.mp closes
  have nodup : (TimerNode.timerList :: path ++ .retransTimer s :: rest).Nodup := ring.nodup
  have apart := (List.nodup_append.mp nodup).2.2
  have notOn : TimerNode.retransTimer s ∉ path := fun member =>
    apart _ (List.mem_cons_of_mem _ member) _ List.mem_cons_self rfl
  have outside : ∀ last ∈ (now.heap .timerList).prev, last ∉ TimerNode.timerList :: path := by
    intro last isLast
    obtain ⟨front, last', split, isLast', -⟩ := ring.exists_last
    cases Option.some.inj (isLast'.symm.trans isLast)
    have behind : last ∈ TimerNode.retransTimer s :: rest := by
      have same := congrArg List.getLast? split
      rw [List.getLast?_append_cons, ← List.cons_append, List.getLast?_append_cons] at same
      exact List.mem_of_getLast? same
    exact fun member => apart last member last behind rfl
  have preserved : ∀ (stack : TimerStack ι) effect next, WayKept now.heap path stack →
      stack.effectStep s effect = some next → WayKept now.heap path next :=
    fun _ _ _ => effectStep_wayKept notOn
  have starts : WayKept now.heap path { now with sockets := sockets } :=
    ⟨fun _ _ => rfl, outside⟩
  exact (invariant_run (effectStep s) preserved _ starts runs).1

/-- Where the scan returns it leaves the timer in the list. -/
theorem Progress.returns (progress : Progress start done (node :: rest) now)
    (wellFormed : start.WellFormed (done ++ node :: rest)) (returnsAt : start.ReturnsAt node)
    {returned : Bool} (taken : now.scanEntry node = some (next, returned)) :
    returned = true ∧ Reached next.heap node := by
  obtain ⟨expires, type, three⟩ := returnsAt
  have timer := progress.waiting node List.mem_cons_self
  cases node with
  | timerList => exact absurd (List.nodup_cons.mp wellFormed.ring.nodup).1 (by simp)
  | timewait s =>
      have isTimewait := (wellFormed.timewait s (by simp)).1
      rw [isTimewait] at type
      cases type
  | retransTimer s =>
      obtain ⟨sock, current, -, liveNow, -⟩ := progress.live_retrans wellFormed
      have returnsNow : now.ReturnsAt (.retransTimer s) := by
        rw [ReturnsAt, Expires, timer]
        exact ⟨expires, type, three⟩
      rw [scanEntry_returns liveNow returnsNow] at taken
      obtain ⟨closed, closes, result⟩ := Option.map_eq_some_iff.mp taken
      cases result
      refine ⟨rfl, done.filter fun node => start.Stays node, ?_⟩
      have counted : Ring (now.setTimer (.retransTimer s)
          (now.timer (.retransTimer s)).countDown).heap .timerList
          ((done.filter fun node => start.Stays node) ++ .retransTimer s :: rest) := progress.ring
      have same := tcpSockClose_forward counted closes
      have linked := progress.ring.linked
      rw [List.cons_append, List.append_assoc, List.cons_append, ← List.cons_append,
        linked_append_cons] at linked
      exact forward_congr linked.1.forward same

/-! ## The loop -/

/-- With a fuel for each timer and one more the loop ends behind the last timer, or it
returns at a timer that it leaves in the list. -/
theorem Progress.scanFrom {fuel : Nat} {later : List (TimerNode ι)} {pos q : TimerNode ι}
    (progress : Progress start done rest now) (wellFormed : start.WellFormed (done ++ rest))
    (here : rest ++ [.timerList] = pos :: later) (isNext : (now.heap pos).next = some q)
    (enough : rest.length < fuel) :
    ((∀ node ∈ rest, ¬ start.ReturnsAt node) ∧
      ∃ after, now.scanFrom fuel pos q = some after ∧ Progress start (done ++ rest) [] after) ∨
    ∃ node ∈ rest, start.ReturnsAt node ∧
      ∀ after, now.scanFrom fuel pos q = some after → Reached after.heap node := by
  induction rest generalizing fuel done now pos q later with
  | nil =>
      cases (List.cons.inj here).1
      obtain ⟨fuel, rfl⟩ := Nat.exists_eq_succ_of_ne_zero (Nat.ne_of_gt enough)
      refine .inl ⟨by simp, now, by simp [TimerStack.scanFrom], ?_⟩
      rw [List.append_nil]
      exact progress
  | cons node rest ih =>
      cases (List.cons.inj here).1
      obtain ⟨fuel, rfl⟩ := Nat.exists_eq_succ_of_ne_zero (Nat.ne_of_gt (Nat.zero_lt_of_lt enough))
      have notHead : node ≠ .timerList := by
        rintro rfl
        exact absurd (List.nodup_cons.mp wellFormed.ring.nodup).1 (by simp)
      by_cases returnsAt : start.ReturnsAt node
      · refine .inr ⟨node, List.mem_cons_self, returnsAt, ?_⟩
        intro after success
        rw [TimerStack.scanFrom, if_neg notHead] at success
        obtain ⟨⟨next, returned⟩, taken, success⟩ := Option.bind_eq_some_iff.mp success
        obtain ⟨isReturned, reached⟩ := progress.returns wellFormed returnsAt taken
        cases isReturned
        cases Option.some.inj success
        exact reached
      · obtain ⟨next, taken, moved⟩ := progress.scanEntry wellFormed returnsAt
        obtain ⟨q', later', split, isNext'⟩ := progress.ring.exists_next
        cases Option.some.inj (isNext'.symm.trans isNext)
        have onRing : q ∈ .timerList :: ((done ++ [node]).filter fun node => start.Stays node) ++
            rest := by
          have member : q ∈ rest ++ [.timerList] := split ▸ List.mem_cons_self
          simp only [List.mem_append, List.mem_singleton] at member
          rcases member with inRest | isHead
          · exact List.mem_append_right _ inRest
          · rw [isHead]
            exact List.mem_cons_self
        obtain ⟨next', isNextQ⟩ := Option.isSome_iff_exists.mp (moved.ring.links onRing).1
        have unfolded : now.scanFrom (fuel + 1) node q = next.scanFrom fuel q next' := by
          simp [TimerStack.scanFrom, notHead, taken, isNextQ]
        have wellFormed' : start.WellFormed ((done ++ [node]) ++ rest) := by
          rw [List.append_assoc]
          exact wellFormed
        have enough' : rest.length < fuel := Nat.lt_of_succ_lt_succ enough
        rw [unfolded]
        cases ih moved wellFormed' split isNextQ enough' with
        | inl goesOn =>
            obtain ⟨others, after, success, final⟩ := goesOn
            refine .inl ⟨?_, after, success, ?_⟩
            · intro other member
              rcases List.mem_cons.mp member with rfl | behind
              · exact returnsAt
              · exact others other behind
            · rw [List.append_assoc] at final
              exact final
        | inr returns =>
            obtain ⟨other, behind, isReturn, reached⟩ := returns
            exact .inr ⟨other, List.mem_cons_of_mem _ behind, isReturn, reached⟩

variable {timers : List (TimerNode ι)} {fuel : Nat}

theorem WellFormed.scan (wellFormed : start.WellFormed timers) (enough : timers.length < fuel) :
    ((∀ node ∈ timers, ¬ start.ReturnsAt node) ∧
      ∃ after, start.tcpScanTimerList fuel = some after ∧ Progress start timers [] after) ∨
    ∃ node ∈ timers, start.ReturnsAt node ∧
      ∀ after, start.tcpScanTimerList fuel = some after → Reached after.heap node := by
  obtain ⟨pos, later, split, isFirst⟩ := wellFormed.ring.exists_first
  have onRing : pos ∈ .timerList :: timers := by
    have member : pos ∈ timers ++ [.timerList] := split ▸ List.mem_cons_self
    cases List.mem_append.mp member with
    | inl inside => exact List.mem_cons_of_mem _ inside
    | inr isHead => exact List.mem_singleton.mp isHead ▸ List.mem_cons_self
  obtain ⟨q, isNext⟩ := Option.isSome_iff_exists.mp (wellFormed.ring.links onRing).1
  have unfolded : start.tcpScanTimerList fuel = start.scanFrom fuel pos q := by
    simp [tcpScanTimerList, isFirst, isNext]
  rw [unfolded]
  exact wellFormed.progress.scanFrom wellFormed split isNext enough

theorem WellFormed.owned (wellFormed : start.WellFormed timers) (member : node ∈ timers) :
    (∃ s, node = .timewait s ∧ (start.timer node).type = 0) ∨
      ∃ s, node = .retransTimer s ∧ (start.timer node).type = 1 := by
  cases node with
  | timerList => exact absurd member (List.nodup_cons.mp wellFormed.ring.nodup).1
  | timewait s => exact .inl ⟨s, rfl, (wellFormed.timewait s member).1⟩
  | retransTimer s => exact .inr ⟨s, rfl, (wellFormed.retrans s member).1⟩

/-! ## When the scan does what it owes -/

omit [DecidableEq ι] in
theorem reached_of_mem {heap : Heap (TimerNode ι)} (ring : Ring heap .timerList timers)
    (member : node ∈ timers) : Reached heap node := by
  obtain ⟨front, back, rfl⟩ := List.append_of_mem member
  have linked := ring.linked
  rw [List.cons_append, List.append_assoc, List.cons_append, ← List.cons_append,
    linked_append_cons] at linked
  exact ⟨front, linked.1.forward⟩

omit [DecidableEq ι] in
theorem Advanced.not_leaves (advanced : Advanced start timers next) (reached : Reached next.heap node)
    (notHead : node ≠ .timerList) : ¬ start.Leaves node := by
  obtain ⟨path, forward⟩ := reached
  have inside := advanced.list.forward_mem List.mem_cons_self forward node
    (List.mem_append_right _ (List.mem_singleton.mpr rfl))
  rcases List.mem_cons.mp inside with isHead | member
  · exact absurd isHead notHead
  · simpa using (List.mem_filter.mp member).2

omit [DecidableEq ι] in
theorem ReturnsAt.leaves (returnsAt : start.ReturnsAt node) : start.Leaves node :=
  ⟨returnsAt.1, .inr (Nat.le_of_eq returnsAt.2.2.symm)⟩

section Kept

variable (wellFormed : start.WellFormed timers) (member : .retransTimer s ∈ timers)
  (expires : start.Expires (.retransTimer s))

include wellFormed member expires

/-- A scan that does what it owes finds no timer that was used three times, -/
theorem Advanced.used (advanced : Advanced start timers next)
    (progress : Progress start timers [] next) :
    (start.timer (.retransTimer s)).retransNumber < 3 := by
  have type := (wellFormed.retrans s member).1
  have stays : .retransTimer s ∈ (timers.filter fun node => start.Stays node) ++ [] := by
    rw [List.append_nil, List.mem_filter]
    refine ⟨member, ?_⟩
    simp [Stays, type]
  have reached := reached_of_mem progress.ring stays
  have kept := advanced.not_leaves reached (by simp)
  exact Nat.lt_of_not_ge fun three => kept ⟨expires, .inr three⟩

/-- and none without a segment to send again. -/
theorem Advanced.filled (advanced : Advanced start timers next)
    (progress : Progress start timers [] next) {sock : Socket ι}
    (live : start.sockets.socket s = some sock) : sock.tsk.sendBuf ≠ [] := by
  intro empty
  have type := (wellFormed.retrans s member).1
  have few := advanced.used wellFormed member expires progress
  have notLeaves : ¬ start.Leaves (.retransTimer s) := by
    rintro ⟨-, timewait | three⟩
    · rw [type] at timewait
      cases timewait
    · omega
  have nothing : start.resends (.retransTimer s) = none := by
    rw [resends, if_pos expires, oldest, live, Option.bind_some, empty]
    rfl
  have same := (progress.counted _ member).symm.trans (advanced.counted _ member)
  rw [scanned, nothing, if_neg (by simp), nextTimer, if_pos ⟨expires, type, notLeaves⟩] at same
  have numbers : (start.timer (.retransTimer s)).retransNumber =
      (start.timer (.retransTimer s)).retransNumber + 1 := congrArg Timer.retransNumber same
  omega

end Kept

theorem Progress.advanced (progress : Progress start timers [] next)
    (wellFormed : start.WellFormed timers) (none : start.NoneGivenUp timers) :
    Advanced start timers next := by
  have kept : ∀ s, .retransTimer s ∈ timers → ¬ start.Leaves (.retransTimer s) := by
    rintro s member ⟨expires, timewait | three⟩
    · rw [(wellFormed.retrans s member).1] at timewait
      cases timewait
    · exact absurd (none s member expires).1 (Nat.not_lt_of_le three)
  have resends : ∀ node ∈ timers, start.resends node = start.due node := by
    intro node member
    cases node with
    | timerList => rfl
    | timewait s => rfl
    | retransTimer s => simp [TimerStack.resends, due, kept s member]
  constructor
  · have same : ∀ node ∈ timers,
        decide (¬ start.Leaves node) = decide (start.Stays node) := by
      intro node member
      rcases wellFormed.owned member with ⟨s, rfl, type⟩ | ⟨s, rfl, type⟩
      · simp [Leaves, Stays, type]
      · simp [kept s member, Stays, type]
    rw [List.filter_congr same]
    simpa using progress.ring
  · intro node member
    rw [progress.counted node member, scanned, nextTimer]
    rcases wellFormed.owned member with ⟨s, rfl, type⟩ | ⟨s, rfl, type⟩
    · rw [if_neg (by simp [TimerStack.resends]), if_neg (by simp [type])]
    · by_cases expires : start.Expires (.retransTimer s)
      · obtain ⟨sock, live⟩ := Option.isSome_iff_exists.mp (wellFormed.retrans s member).2
        have filled := (none s member expires).2 sock live
        have isDue : (start.resends (.retransTimer s)).isSome := by
          rw [TimerStack.resends, if_pos expires, oldest, live, Option.bind_some]
          cases buf : sock.tsk.sendBuf with
          | nil => exact absurd buf filled
          | cons packet later => rfl
        rw [if_pos isDue, if_pos ⟨expires, type, kept s member⟩]
      · rw [if_neg (by simp [TimerStack.resends, expires]), if_neg (by simp [expires])]
  · exact progress.closed
  · exact fun s member leaves => absurd leaves (kept s member)
  · rw [progress.resent, List.filterMap_congr resends]

end TimerStack

open TimerStack

/-- A scan of a well-formed list lets every timer advance, and sends again, closes and
removes what it should, if and only if it does not come to give a connection up. -/
theorem scan_advances_iff (stack : TimerStack ι) (timers : List (TimerNode ι))
    (wellFormed : stack.WellFormed timers) (fuel : Nat) (enough : timers.length < fuel) :
    (∃ after, stack.tcpScanTimerList fuel = some after ∧ Advanced stack timers after) ↔
      stack.NoneGivenUp timers := by
  constructor
  · intro kept s member expires
    obtain ⟨after, success, advanced⟩ := kept
    rcases wellFormed.scan enough with ⟨-, final, ends, progress⟩ | ⟨node, inside, returns, reached⟩
    · cases Option.some.inj (ends.symm.trans success)
      exact ⟨advanced.used wellFormed member expires progress,
        fun sock live => advanced.filled wellFormed member expires progress live⟩
    · have notHead : node ≠ .timerList := by
        rintro rfl
        exact absurd inside (List.nodup_cons.mp wellFormed.ring.nodup).1
      exact absurd returns.leaves (advanced.not_leaves (reached after success) notHead)
  · intro none
    rcases wellFormed.scan enough with ⟨-, after, success, progress⟩ | ⟨node, inside, returns, -⟩
    · exact ⟨after, success, progress.advanced wellFormed none⟩
    · rcases wellFormed.owned inside with ⟨s, rfl, type⟩ | ⟨s, rfl, type⟩
      · have retrans := returns.2.1
        rw [type] at retrans
        cases retrans
      · have few := (none s inside returns.1).1
        rw [returns.2.2] at few
        exact absurd few (Nat.lt_irrefl 3)

def twoConnections (retransNumber : Nat) : TimerStack Bool :=
  { sockets := { (noSockets : Sockets Bool) with
      socket := fun _ => some (Socket.fresh
        (tcpSendPacket { allocTcpSock with state := .established } [7]).tsk none) },
    heap := fun
      | .timerList => ⟨some (.retransTimer false), some (.retransTimer true)⟩
      | .retransTimer false => ⟨some (.retransTimer true), some .timerList⟩
      | .retransTimer true => ⟨some .timerList, some (.retransTimer false)⟩
      | .timewait _ => ⟨none, none⟩,
    timer := fun
      | .retransTimer false => { type := 1, timeout := 100000, retransNumber := retransNumber }
      | _ => { type := 1, timeout := 400000, retransNumber := 0 },
    resent := [] }

theorem twoConnections_wellFormed (retransNumber : Nat) :
    (twoConnections retransNumber).WellFormed [.retransTimer false, .retransTimer true] where
  ring := ⟨by simp [Linked, twoConnections], by decide⟩
  timewait s member := by simp at member
  retrans s _ := by cases s <;> exact ⟨rfl, rfl⟩

def closingConnections : TimerStack Bool :=
  { sockets := { (noSockets : Sockets Bool) with
      socket := fun
        | false => some { Socket.fresh { allocTcpSock with state := .timeWait } none with
            refCnt := 2, bindHashListSet := true }
        | true => some (Socket.fresh
            (tcpSendPacket { allocTcpSock with state := .established } [7]).tsk none),
      timewait := [false] },
    heap := fun
      | .timerList => ⟨some (.timewait false), some (.retransTimer true)⟩
      | .timewait false => ⟨some (.retransTimer true), some .timerList⟩
      | .retransTimer true => ⟨some .timerList, some (.timewait false)⟩
      | _ => ⟨none, none⟩,
    timer := fun
      | .timewait _ => { type := 0, timeout := 100000, retransNumber := 0 }
      | _ => { type := 1, timeout := 150000, retransNumber := 1 },
    resent := [] }

theorem closingConnections_wellFormed :
    closingConnections.WellFormed [.timewait false, .retransTimer true] where
  ring := ⟨by simp [Linked, closingConnections], by decide⟩
  timewait s member := by
    obtain rfl : s = false := by simpa using member
    exact ⟨rfl, by decide, _, rfl, ⟨fun _ => rfl, by decide⟩⟩
  retrans s member := by
    obtain rfl : s = true := by simpa using member
    exact ⟨rfl, rfl⟩

theorem scan_advances_iff_closing :
    (∃ after, closingConnections.tcpScanTimerList 3 = some after ∧
        Advanced closingConnections [.timewait false, .retransTimer true] after) ↔
      closingConnections.NoneGivenUp [.timewait false, .retransTimer true] :=
  scan_advances_iff _ _ closingConnections_wellFormed 3 (by decide)

/-- The first connection is given up, and the timer of the second does not run. -/
theorem second_timer_stands :
    ¬ ∀ (stack : TimerStack Bool) (timers : List (TimerNode Bool)), stack.WellFormed timers →
      ∀ fuel, timers.length < fuel →
        ∃ after, stack.tcpScanTimerList fuel = some after ∧ Advanced stack timers after := by
  intro advances
  obtain ⟨after, success, advanced⟩ := advances _ _ (twoConnections_wellFormed 3) 3 (by decide)
  have stands : ((twoConnections 3).tcpScanTimerList 3).map
      (fun after => (after.timer (.retransTimer true)).timeout) = some 400000 := by decide
  have runs := congrArg Timer.timeout (advanced.counted (.retransTimer true) (by simp))
  rw [success, Option.map_some, runs] at stands
  exact absurd stands (by decide)

end NetworkLab.Tcp
