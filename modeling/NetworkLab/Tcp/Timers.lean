import NetworkLab.Lib.Run
import NetworkLab.ListHead
import NetworkLab.Tcp.Process

/-!
# The timers of all sockets

`tcp_timer.c` over a heap of list nodes: `timer_list` and the two nodes embedded in
every socket.  `none` is a null pointer that is followed, or a socket that was never
allocated; memory of a freed socket is not used again.  `armed` is not part of the
code: it records which timers are set, and neither removed nor expired since.
A timeout is an integer: an `int` starts from 3200000 at most, and only one that has run out
and stays in the list for more than 21000 scans would wrap.
-/
set_option autoImplicit false

namespace NetworkLab.Tcp

open Lib.LinkedRing Lib.Run

def TCP_TIMER_SCAN_INTERVAL : Int := 100000
def TCP_TIMEWAIT_TIMEOUT : Int := 2 * 1000000
def TCP_RETRANS_INTERVAL : Int := 400000

inductive TimerNode (ι : Type)
  | timerList
  | timewait (s : ι)
  | retransTimer (s : ι)
deriving DecidableEq

structure Timer where
  type : Nat
  timeout : Int
  retransNumber : Nat

def Timer.countDown (timer : Timer) : Timer :=
  { timer with timeout := timer.timeout - TCP_TIMER_SCAN_INTERVAL }

/-- The timer after a retransmission: the loop doubles the interval once more each time. -/
def Timer.backOff (timer : Timer) : Timer :=
  { timer with
    timeout := TCP_RETRANS_INTERVAL * 2 ^ (timer.retransNumber + 1),
    retransNumber := timer.retransNumber + 1 }

structure Stack (ι : Type) where
  sock : ι → Option TcpSock
  heap : Heap (TimerNode ι)
  timer : TimerNode ι → Timer
  armed : TimerNode ι → Bool

variable {ι : Type}

def timewaitToTcpSock : TimerNode ι → Option ι
  | .timewait s => some s
  | _ => none

def retranstimerToTcpSock : TimerNode ι → Option ι
  | .retransTimer s => some s
  | _ => none

variable [DecidableEq ι]

namespace Stack

def setSock (s : ι) (tsk : TcpSock) (stack : Stack ι) : Stack ι :=
  { stack with sock := Function.update stack.sock s (some tsk) }

def setTimer (node : TimerNode ι) (timer : Timer) (stack : Stack ι) : Stack ι :=
  { stack with timer := Function.update stack.timer node timer }

def setArmed (node : TimerNode ι) (armed : Bool) (stack : Stack ι) : Stack ι :=
  { stack with armed := Function.update stack.armed node armed }

def addTimer (node : TimerNode ι) (timer : Timer) (stack : Stack ι) : Option (Stack ι) :=
  (listAddTail stack.heap node .timerList).map fun heap =>
    ({ stack with heap := heap }.setTimer node timer).setArmed node true

def removeTimer (node : TimerNode ι) (stack : Stack ι) : Option (Stack ι) :=
  (listDeleteEntry stack.heap node).map fun heap =>
    { stack with heap := heap }.setArmed node false

def tcpSetTimewaitTimer (s : ι) (stack : Stack ι) : Option (Stack ι) :=
  if (stack.sock s).isNone then none
  else
    stack.addTimer (.timewait s)
      { stack.timer (.timewait s) with type := 0, timeout := TCP_TIMEWAIT_TIMEOUT }

def tcpSetRetransTimer (s : ι) (stack : Stack ι) : Option (Stack ι) :=
  if (stack.sock s).isNone then none
  else
    stack.addTimer (.retransTimer s)
      { type := 1, timeout := TCP_RETRANS_INTERVAL, retransNumber := 0 }

def tcpRemoveRetransTimer (s : ι) (stack : Stack ι) : Option (Stack ι) :=
  if (stack.sock s).isNone then none else stack.removeTimer (.retransTimer s)

/-- What an effect of a call for socket `s` does to the sockets and timers; `child` is
the memory for a socket that the call allocates. -/
def effectStep (s child : ι) (stack : Stack ι) : Effect → Option (Stack ι)
  | .setRetransTimer => stack.tcpSetRetransTimer s
  | .removeRetransTimer => stack.tcpRemoveRetransTimer s
  | .setTimewaitTimer => stack.tcpSetTimewaitTimer s
  | .newChild tsk => if (stack.sock child).isNone then some (stack.setSock child tsk) else none
  | .ofChild effect => effectStep child child stack effect
  | _ => some stack

def applyOutcome (s child : ι) (outcome : Outcome) (stack : Stack ι) : Option (Stack ι) :=
  run (effectStep s child) (stack.setSock s outcome.tsk) outcome.effects

/-- The body of the loop in `tcp_scan_timer_list`, and whether it returns. -/
def scanEntry (t : TimerNode ι) (stack : Stack ι) : Option (Stack ι × Bool) :=
  let timer := (stack.timer t).countDown
  let stack := stack.setTimer t timer
  if timer.timeout ≤ 0 ∧ timer.type = 0 then do
    let stack ← stack.removeTimer t
    let s ← timewaitToTcpSock t
    let tsk ← stack.sock s
    some (stack.setSock s (tcpSetState .closed tsk), false)
  else if timer.timeout ≤ 0 ∧ timer.type = 1 then do
    let s ← retranstimerToTcpSock t
    let tsk ← stack.sock s
    if timer.retransNumber = 3 then
      let stack ← (stack.setArmed t false).applyOutcome s s (tcpSockClose tsk)
      some (stack, true)
    else if tsk.sendBuf.isEmpty then
      -- the timer has run out and nothing sets it again
      some (stack.setArmed t false, false)
    else some (stack.setTimer t timer.backOff, false)
  else some (stack, false)

/-- The loop from `pos` on; `q` was read from `pos` before its body, which may unlink it.
`none` also when `fuel` iterations are not enough. -/
def scanFrom : Nat → TimerNode ι → TimerNode ι → Stack ι → Option (Stack ι)
  | 0, _, _, _ => none
  | fuel + 1, pos, q, stack =>
    if pos = .timerList then some stack
    else do
      let (stack, returned) ← stack.scanEntry pos
      if returned then some stack
      else
        let next ← (stack.heap q).next
        scanFrom fuel q next stack

def tcpScanTimerList (fuel : Nat) (stack : Stack ι) : Option (Stack ι) := do
  let pos ← (stack.heap .timerList).next
  let q ← (stack.heap pos).next
  stack.scanFrom fuel pos q

end Stack

/-- `assign` is whatever else allocates a socket or changes the fields of one. -/
inductive StackEvent (ι : Type)
  | assign (s : ι) (tsk : TcpSock)
  | sendPacket (s : ι) (payload : List UInt8)
  | sendControlPacket (s : ι) (flags : UInt8)
  | removeAckData (s : ι) (ackNum : UInt32)
  | process (s child : ι) (iss : UInt32) (cb : TcpCb)
  | scan (fuel : Nat)

/-- The call that an event makes: its socket, the memory for a child, and the outcome. -/
def StackEvent.call (stack : Stack ι) : StackEvent ι → Option (ι × ι × Outcome)
  | .assign s tsk => some (s, s, tsk.done)
  | .sendPacket s payload => (stack.sock s).map fun tsk => (s, s, tcpSendPacket tsk payload)
  | .sendControlPacket s flags =>
    (stack.sock s).map fun tsk => (s, s, tcpSendControlPacket flags tsk)
  | .removeAckData s ackNum => (stack.sock s).map fun tsk => (s, s, Tcp.removeAckData ackNum tsk)
  | .process s child iss cb => do
    let outcome ← tcpProcess iss cb (← stack.sock s)
    some (s, child, outcome)
  | .scan _ => none

def stackStep (stack : Stack ι) : StackEvent ι → Option (Stack ι)
  | .scan fuel => stack.tcpScanTimerList fuel
  | event => do
    let (s, child, outcome) ← event.call stack
    stack.applyOutcome s child outcome

def startStack : Stack ι :=
  { sock := fun _ => none,
    heap := initListHead (fun _ => { next := none, prev := none }) .timerList,
    timer := fun _ => { type := 0, timeout := 0, retransNumber := 0 },
    armed := fun _ => false }

end NetworkLab.Tcp
