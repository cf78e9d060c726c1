import Mathlib.Logic.Function.Basic
import NetworkLab.Tcp.Calls
import NetworkLab.Tcp.SendWindow

/-!
# Threads that write

`tcp_sock_write` and `synch_wait.h`, beside the segments that arrive for the socket.
`snd_wnd` is zero from `alloc_tcp_sock` on: `tcp_update_window` is never called, and only
what was taken from the window comes back.  So a thread that has something to send goes
to sleep on `wait_send`, and nothing wakes it.  A wait on the condition variable ends with
a notification only.
-/
set_option autoImplicit false

namespace NetworkLab.Tcp

open Lib Lib.Run

def ETH_FRAME_LEN : Nat := 1500

/-- `struct synch_wait`; `dead` is never set. -/
structure SynchWait where
  notified : Bool
  sleep : Bool
deriving DecidableEq

def waitInit : SynchWait := { notified := false, sleep := false }

def wakeUp (wait : SynchWait) : SynchWait := { wait with notified := true }

/-- Where a thread is in `tcp_sock_write`: at the test of the loop, inside `sleep_on`, or
behind the test of `snd_wnd`. -/
inductive Writer
  | outside
  | atTest (buf : List UInt8) (sentLen : Nat)
  | asleep (buf : List UInt8) (sentLen : Nat)
  | awake (buf : List UInt8) (sentLen : Nat)
deriving DecidableEq

structure Connection (ι : Type) where
  tsk : TcpSock
  waitSend : SynchWait
  writers : ι → Writer

inductive ConnectionEvent (ι : Type)
  | segment (cb : TcpCb) (iss : UInt32)
  | accept
  | write (thread : ι) (buf : List UInt8)
  | turn (thread : ι)
  | read (len : Nat)
  | close
  | timewaitExpires

def Effect.wakesWriters : Effect → Bool
  | .wakeUp .waitSend => true
  | _ => false

/-- `tcp_sock_connect` and `tcp_sock_accept` have given the socket to the application. -/
def HandedOver (tsk : TcpSock) : Prop := tsk.state ≠ .synSent ∧ tsk.state ≠ .synRecv

instance (tsk : TcpSock) : Decidable (HandedOver tsk) := inferInstanceAs (Decidable (_ ∧ _))

section
variable {ι : Type} [DecidableEq ι]

def Connection.move (thread : ι) (writer : Writer) (connection : Connection ι) : Connection ι :=
  { connection with writers := Function.update connection.writers thread writer }

@[simp] theorem move_self (thread : ι) (writer : Writer) (connection : Connection ι) :
    (connection.move thread writer).writers thread = writer := Function.update_self ..

theorem move_other {thread other : ι} (writer : Writer) (connection : Connection ι)
    (different : other ≠ thread) :
    (connection.move thread writer).writers other = connection.writers other :=
  Function.update_of_ne different ..

/-- One atomic part of `tcp_sock_write`.  `none` for a thread that sleeps without a
notification, and for a read behind the end of `buf`. -/
def turn (thread : ι) (connection : Connection ι) : Option (Connection ι) :=
  match connection.writers thread with
  | .outside => none
  | .atTest buf sentLen =>
    if sentLen < buf.length then
      if connection.tsk.sndWnd = 0 then
        -- `sleep_on`
        if connection.waitSend.notified then
          some ({ connection with waitSend := waitInit }.move thread (.awake buf sentLen))
        else some ({ connection with waitSend := { connection.waitSend with sleep := true } }.move
          thread (.asleep buf sentLen))
      else some (connection.move thread (.awake buf sentLen))
    else some (connection.move thread .outside)
  | .asleep buf sentLen =>
    if connection.waitSend.notified then
      some ({ connection with waitSend := waitInit }.move thread (.awake buf sentLen))
    else none
  | .awake buf sentLen =>
    let dataLen := min connection.tsk.sndWnd.toNat (min buf.length
      (ETH_FRAME_LEN - ETHER_HDR_SIZE - IP_BASE_HDR_SIZE - TCP_BASE_HDR_SIZE))
    if sentLen + dataLen ≤ buf.length then
      let sent := tcpSendPacket connection.tsk ((buf.drop sentLen).take dataLen)
      some ({ connection with tsk := sent.tsk }.move thread (.atTest buf (sentLen + dataLen)))
    else none

/-- Every segment that arrives advertises a window. -/
def connectionStep (connection : Connection ι) : ConnectionEvent ι → Option (Connection ι)
  | .segment cb iss =>
    if cb.rwnd = 0 then none
    else (tcpProcess iss cb connection.tsk).map fun outcome =>
      { connection with
        tsk := outcome.tsk,
        waitSend := if outcome.effects.any Effect.wakesWriters then wakeUp connection.waitSend
          else connection.waitSend }
  | .accept =>
    if connection.tsk.state = .synRecv then
      some { connection with tsk := tcpSetState .established connection.tsk }
    else none
  | .write thread buf =>
    if connection.writers thread = .outside ∧ HandedOver connection.tsk then
      some (connection.move thread (.atTest buf 0))
    else none
  | .turn thread => turn thread connection
  | .read len => some { connection with tsk := (tcpSockRead len connection.tsk).2 }
  | .close => some { connection with tsk := (tcpSockClose connection.tsk).tsk }
  | .timewaitExpires =>
    if connection.tsk.state = .finWait2 then
      some { connection with tsk := tcpSetState .closed connection.tsk }
    else none

def connectingSock (localAddr peer : SockAddr) (iss : UInt32) : TcpSock :=
  (tcpSendControlPacket TCP_SYN
    { allocTcpSock with
      localAddr := localAddr, peer := peer, iss := iss, sndNxt := iss, state := .synSent }).tsk

/-- The sockets on which connections start: that of `tcp_sock_connect`, and the child
that `tcp_state_listen` makes. -/
inductive Starts : TcpSock → Prop
  | connect (localAddr peer : SockAddr) (iss : UInt32) :
      Starts (connectingSock localAddr peer iss)
  | listen {tsk child : TcpSock} {cb : TcpCb} {iss : UInt32}
      (created : .newChild child ∈ (tcpStateListen iss cb tsk).effects) : Starts child

def startConnection (ι : Type) (tsk : TcpSock) : Connection ι :=
  { tsk := tsk, waitSend := waitInit, writers := fun _ => .outside }

/-- A thread that sleeps although nothing is in flight has a notification pending. -/
def NotStranded (connection : Connection ι) : Prop :=
  connection.tsk.state = .established → connection.tsk.sendBuf = [] →
    ∀ thread buf sentLen, connection.writers thread = .asleep buf sentLen →
      connection.tsk.sndWnd ≠ 0 ∨ connection.waitSend.notified = true

/-- The segment is taken for an acknowledgement, and of everything in `send_buf`. -/
def AcksAll (cb : TcpCb) (tsk : TcpSock) : Prop :=
  hasFlag cb.flags TCP_RST = false ∧ hasFlag cb.flags TCP_SYN = false ∧
    (if cb.plLen = 0 then hasFlag cb.flags TCP_FIN = false ∧ hasFlag cb.flags TCP_ACK = true
      else (hasFlag cb.flags TCP_ACK = true ∨ hasFlag cb.flags TCP_FIN = true) ∧
        cb.seq < tsk.rcvNxt) ∧
    ∀ packet ∈ tsk.sendBuf, packet.removedBy cb.ack = true

/-- No thread comes to the test of `snd_wnd` with bytes to send while nothing is in
flight, and nothing in flight is acknowledged while a thread sleeps. -/
def KeepsWriters (connection : Connection ι) : ConnectionEvent ι → Prop
  | .turn thread => connection.tsk.state = .established → connection.tsk.sendBuf = [] →
      ∀ buf sentLen, connection.writers thread = .atTest buf sentLen → buf.length ≤ sentLen
  | .segment cb _ => cb.rwnd ≠ 0 → connection.tsk.state = .established →
      connection.tsk.sendBuf ≠ [] →
      (∃ thread buf sentLen, connection.writers thread = .asleep buf sentLen) →
      ¬ AcksAll cb connection.tsk
  | _ => True

end

/-! ## What a segment can do to the sending side -/

section Processing

variable {tsk : TcpSock} {cb : TcpCb} {outcome : Outcome}

/-- A property of the sending side that its three functions keep. -/
structure KeptBySending (P : TcpSock → Prop) : Prop where
  control : ∀ flags tsk, P tsk → P (tcpSendControlPacket flags tsk).tsk
  ack : ∀ ackNum tsk, P tsk → P (removeAckData ackNum tsk).tsk
  other : ∀ tsk next : TcpSock, next.sndWnd = tsk.sndWnd → next.sendBuf = tsk.sendBuf →
    P tsk → P next

def TcpState.ending : TcpState → Bool
  | .closeWait | .lastAck | .finWait1 | .finWait2 | .closed => true
  | _ => false

/-- The socket stays in its state or goes on to close, no writer is woken, and the sending
side is changed by its own functions only. -/
structure Served (tsk : TcpSock) (outcome : Outcome) : Prop where
  keeps : ∀ P, KeptBySending P → P tsk → P outcome.tsk
  silent : ∀ effect ∈ outcome.effects, effect.wakesWriters = false
  state : outcome.tsk.state = tsk.state ∨ outcome.tsk.state.ending = true

theorem silent_tcpSendControlPacket (flags : UInt8) (tsk : TcpSock) :
    ∀ effect ∈ (tcpSendControlPacket flags tsk).effects, effect.wakesWriters = false := by
  unfold tcpSendControlPacket
  split_ifs <;> simp [Effect.wakesWriters]

theorem silent_removeAckData (ackNum : UInt32) (tsk : TcpSock) :
    ∀ effect ∈ (removeAckData ackNum tsk).effects, effect.wakesWriters = false := by
  unfold removeAckData
  intro effect member
  rcases List.mem_cons.mp member with rfl | later
  · rfl
  · split_ifs at later
    · cases later
    · rw [List.mem_singleton.mp later]
      rfl

theorem silent_append {first second : List Effect}
    (before : ∀ effect ∈ first, effect.wakesWriters = false)
    (after : ∀ effect ∈ second, effect.wakesWriters = false) :
    ∀ effect ∈ first ++ second, effect.wakesWriters = false := by
  intro effect member
  rcases List.mem_append.mp member with early | late
  · exact before effect early
  · exact after effect late

theorem served_done (tsk : TcpSock) : Served tsk tsk.done :=
  ⟨fun _ _ holds => holds, by simp, .inl rfl⟩

theorem served_removeAckData (ackNum : UInt32) (tsk : TcpSock) :
    Served tsk (removeAckData ackNum tsk) :=
  ⟨fun _ kept => kept.ack ackNum tsk, silent_removeAckData ackNum tsk, .inl rfl⟩

theorem served_control (flags : UInt8) (tsk : TcpSock) :
    Served tsk (tcpSendControlPacket flags tsk) :=
  ⟨fun _ kept => kept.control flags tsk, silent_tcpSendControlPacket flags tsk,
    .inl (tcpSendControlPacket_state flags tsk)⟩

theorem Served.andThen (served : Served tsk outcome) {f : TcpSock → Outcome}
    (next : Served outcome.tsk (f outcome.tsk)) : Served tsk (outcome.andThen f) where
  keeps P kept holds := next.keeps P kept (served.keeps P kept holds)
  silent := silent_append served.silent next.silent
  state := by
    rcases next.state with same | ending
    · rw [Outcome.andThen_tsk, same]
      exact served.state
    · exact .inr ending

theorem Served.emit (served : Served tsk outcome) {effect : Effect}
    (silent : effect.wakesWriters = false) : Served tsk (outcome.emit effect) :=
  ⟨served.keeps, silent_append served.silent (by simpa using silent), served.state⟩

theorem Served.after {middle : TcpSock} (served : Served middle outcome)
    (sndWnd : middle.sndWnd = tsk.sndWnd) (sendBuf : middle.sendBuf = tsk.sendBuf)
    (state : middle.state = tsk.state ∨ middle.state.ending = true) : Served tsk outcome where
  keeps P kept holds := served.keeps P kept (kept.other tsk middle sndWnd sendBuf holds)
  silent := served.silent
  state := by
    rcases served.state with same | ending
    · rw [same]
      exact state
    · exact .inr ending

theorem Served.moved (served : Served tsk outcome) {state : TcpState}
    (ending : state.ending = true) :
    Served tsk { outcome with tsk := tcpSetState state outcome.tsk } where
  keeps P kept holds := kept.other outcome.tsk _ rfl rfl (served.keeps P kept holds)
  silent := served.silent
  state := .inr ending

theorem served_acked (flag : Bool) (ackNum : UInt32) (tsk : TcpSock) :
    Served tsk (if flag then removeAckData ackNum tsk else tsk.done) := by
  split_ifs
  · exact served_removeAckData ackNum tsk
  · exact served_done tsk

theorem served_tcpSockClose (notListening : tsk.state ≠ .listen) : Served tsk (tcpSockClose tsk) := by
  unfold tcpSockClose
  split
  · exact absurd ‹_› notListening
  · exact (served_control _ tsk).moved rfl
  · exact (served_control _ tsk).moved rfl
  · exact served_done tsk

theorem drain_sending {fuel : Nat} {final : TcpSock} (success : drain fuel tsk = some final) :
    final.sndWnd = tsk.sndWnd ∧ final.sendBuf = tsk.sendBuf := by
  have kept : KeptByDrain fun t => t.sndWnd = tsk.sndWnd ∧ t.sendBuf = tsk.sendBuf :=
    ⟨fun _ _ same => same, fun _ same => same⟩
  exact drain_keeps kept success ⟨rfl, rfl⟩

theorem served_tcpRcvInOrder (success : tcpRcvInOrder cb tsk = some outcome) :
    Served tsk outcome ∧ outcome.tsk.state = tsk.state ∧ outcome.tsk.sendBuf = tsk.sendBuf := by
  obtain ⟨rcvBuf, -, success⟩ := Option.bind_eq_some_iff.mp success
  obtain ⟨drained, drains, result⟩ := Option.bind_eq_some_iff.mp success
  obtain rfl := Option.some.inj result
  obtain ⟨sndWnd, sendBuf⟩ := drain_sending drains
  have state := drain_state drains
  have acked : Served tsk (tcpSendControlPacket TCP_ACK drained) :=
    (served_control TCP_ACK drained).after sndWnd sendBuf (.inl state)
  have noFlag : hasFlag TCP_ACK (TCP_SYN ||| TCP_FIN) = false := by decide
  refine ⟨⟨acked.keeps, ?_, acked.state⟩, ?_, ?_⟩
  · intro effect member
    rcases List.mem_cons.mp member with rfl | later
    · rfl
    · exact acked.silent effect later
  · exact (tcpSendControlPacket_state _ _).trans state
  · simpa [tcpSendControlPacket, noFlag] using sendBuf

theorem served_tcpRcvSegment (notListening : tsk.state ≠ .listen)
    (success : tcpRcvSegment cb tsk = some outcome) : Served tsk outcome := by
  unfold tcpRcvSegment at success
  by_cases payload : cb.plLen ≠ 0
  · rw [if_pos payload] at success
    split_ifs at success
    · exact (served_tcpRcvInOrder success).1
    · obtain rfl := Option.some.inj success
      exact (served_control _ tsk).andThen (served_removeAckData _ _)
    · unfold tcpBufferOfo at success
      split_ifs at success
      obtain rfl := Option.some.inj success
      exact (served_done _).after rfl rfl (.inl rfl)
  rw [if_neg payload] at success
  by_cases fin : hasFlag cb.flags TCP_FIN
  · rw [if_pos fin] at success
    obtain rfl := Option.some.inj success
    have acked : Served tsk (if hasFlag cb.flags TCP_ACK then
        removeAckData cb.ack (tcpSetState .closeWait tsk) else (tcpSetState .closeWait tsk).done) :=
      (served_acked _ _ _).after rfl rfl (.inr rfl)
    have replied := acked.andThen (f := fun t => tcpSendControlPacket TCP_ACK
      { t with rcvNxt := cb.seqEnd }) ((served_control _ _).after rfl rfl (.inl rfl))
    apply replied.andThen
    apply served_tcpSockClose
    intro listening
    rcases replied.state with same | ending
    · exact notListening (same ▸ listening)
    · rw [listening] at ending
      cases ending
  · rw [if_neg fin] at success
    have acked := served_acked (hasFlag cb.flags TCP_ACK) cb.ack tsk
    dsimp only at success
    split at success
    · obtain rfl := Option.some.inj success
      exact acked.andThen ((served_control _ _).after rfl rfl (.inl rfl))
    · obtain rfl := Option.some.inj success
      exact acked

theorem served_tcpProcess {iss : UInt32} (opened : Open tsk)
    (success : tcpProcess iss cb tsk = some outcome) : Served tsk outcome := by
  have notListening := opened.2.1
  have branch : OpenBranch cb tsk (tcpProcess iss cb tsk) := tcpProcess_openBranch opened
  rw [success] at branch
  cases branch with
  | reset rst => exact (served_tcpSockClose notListening).emit rfl
  | syn syn =>
      have closed := served_tcpSockClose notListening
      refine ⟨closed.keeps, ?_, closed.state⟩
      intro effect member
      rcases List.mem_cons.mp member with rfl | later
      · rfl
      · exact closed.silent effect later
  | neither ack fin => exact served_done tsk
  | synRecv loud state =>
      unfold tcpStateSynRecv
      split_ifs
      · exact ((served_removeAckData _ _).emit rfl).emit rfl
      · exact ⟨fun _ _ holds => holds, by simp [tcpSendReset, Effect.wakesWriters], .inl rfl⟩
  | finWait1 state => exact (served_removeAckData _ _).moved rfl
  | finAck state flags =>
      have acked : Served tsk (tcpSendControlPacket TCP_ACK { tsk with rcvNxt := cb.seqEnd }) :=
        (served_control _ _).after rfl rfl (.inl rfl)
      exact acked.emit rfl
  | finWait2 state flags => exact served_done tsk
  | lastAck state =>
      have acked : Served tsk (removeAckData cb.ack (tcpSetState .closed tsk)) :=
        (served_removeAckData _ _).after rfl rfl (.inr rfl)
      exact acked.emit rfl
  | segment loud synRecv finWait1 finWait2 lastAck segment =>
      exact served_tcpRcvSegment notListening segment

theorem served_tcpStateSynSent (cb : TcpCb) (tsk : TcpSock) :
    (∀ P, KeptBySending P → P tsk → P (tcpStateSynSent cb tsk).tsk) ∧
      ∀ effect ∈ (tcpStateSynSent cb tsk).effects, effect.wakesWriters = false := by
  unfold tcpStateSynSent
  split_ifs
  · have replied := (served_removeAckData cb.ack tsk).andThen
      (f := fun t => tcpSendControlPacket TCP_ACK { t with rcvNxt := cb.seqEnd, sndUna := cb.ack })
      ((served_control _ _).after rfl rfl (.inl rfl))
    constructor
    · intro P kept holds
      have before := replied.keeps P kept holds
      refine kept.other _ _ ?_ ?_ before <;> rfl
    · exact silent_append replied.silent (by simp [Effect.wakesWriters])
  · exact ⟨fun _ _ holds => holds, by simp [tcpSendReset, Effect.wakesWriters]⟩

/-- In every state a segment keeps what sending keeps, and wakes no writer. -/
theorem tcpProcess_sending {iss : UInt32} {P : TcpSock → Prop} (kept : KeptBySending P)
    (holds : P tsk) (success : tcpProcess iss cb tsk = some outcome) :
    P outcome.tsk ∧ ∀ effect ∈ outcome.effects, effect.wakesWriters = false := by
  have branch := tcpProcess_branch iss cb tsk
  rw [success] at branch
  cases branch with
  | closed state => exact ⟨holds, by simp [tcpSendReset, Effect.wakesWriters]⟩
  | listen state =>
      unfold tcpStateListen
      split_ifs
      · refine ⟨holds, ?_⟩
        intro effect member
        rcases List.mem_append.mp member with early | last
        · rcases List.mem_cons.mp early with rfl | ofChild
          · rfl
          · obtain ⟨inner, -, rfl⟩ := List.mem_map.mp ofChild
            rfl
        · rw [List.mem_singleton.mp last]
          rfl
      · exact ⟨holds, by simp [tcpSendReset, Effect.wakesWriters]⟩
  | synSent state =>
      obtain ⟨keeps, silent⟩ := served_tcpStateSynSent cb tsk
      exact ⟨keeps P kept holds, silent⟩
  | opened opened branch =>
      have served := served_tcpProcess opened success
      exact ⟨served.keeps P kept holds, served.silent⟩

theorem removeAckData_empties (ackNum : UInt32) (tsk : TcpSock) :
    (removeAckData ackNum tsk).tsk.sendBuf = [] ↔
      ∀ packet ∈ tsk.sendBuf, packet.removedBy ackNum = true := by
  simp [removeAckData, List.filter_eq_nil_iff]

theorem control_ack_sendBuf (tsk : TcpSock) :
    (tcpSendControlPacket TCP_ACK tsk).tsk.sendBuf = tsk.sendBuf := by
  have noFlag : hasFlag TCP_ACK (TCP_SYN ||| TCP_FIN) = false := by decide
  simp [tcpSendControlPacket, noFlag]

theorem tcpRcvSegment_empties_iff (established : tsk.state = .established)
    (inFlight : tsk.sendBuf ≠ []) (loud : Loud cb) (success : tcpRcvSegment cb tsk = some outcome) :
    outcome.tsk.state = .established ∧ outcome.tsk.sendBuf = [] ↔ AcksAll cb tsk := by
  rw [AcksAll, and_iff_right loud.rst, and_iff_right loud.syn]
  unfold tcpRcvSegment at success
  by_cases payload : cb.plLen = 0
  · rw [if_neg (not_not.mpr payload)] at success
    rw [if_pos payload]
    by_cases fin : hasFlag cb.flags TCP_FIN
    · rw [if_pos fin] at success
      obtain rfl := Option.some.inj success
      have waiting : ((if hasFlag cb.flags TCP_ACK = true then
          removeAckData cb.ack (tcpSetState .closeWait tsk)
          else (tcpSetState .closeWait tsk).done).andThen fun t =>
            tcpSendControlPacket TCP_ACK { t with rcvNxt := cb.seqEnd }).tsk.state = .closeWait := by
        rw [Outcome.andThen_tsk, tcpSendControlPacket_state]
        split_ifs <;> rfl
      have ends := tcpSockClose_closeWait waiting
      rw [Outcome.andThen_tsk, ends]
      simp [fin]
    · have ack := loud.flags.resolve_right fin
      rw [if_neg fin] at success
      rw [Bool.not_eq_true] at fin
      simp only [ack, if_true] at success
      simp only [fin, ack, true_and]
      rw [← removeAckData_empties]
      split_ifs at success
      · obtain rfl := Option.some.inj success
        rw [Outcome.andThen_tsk, control_ack_sendBuf]
        simp [removeAckData_state, established]
      · obtain rfl := Option.some.inj success
        simp [removeAckData_state, established]
  · rw [if_pos payload] at success
    rw [if_neg payload, and_iff_right loud.flags]
    split_ifs at success with inOrder late
    · obtain ⟨-, -, sendBuf⟩ := served_tcpRcvInOrder success
      simp [sendBuf, inFlight, inOrder]
    · obtain rfl := Option.some.inj success
      rw [Outcome.andThen_tsk, and_iff_right late, removeAckData_empties, control_ack_sendBuf,
        removeAckData_state, tcpSendControlPacket_state]
      exact and_iff_right established
    · unfold tcpBufferOfo at success
      split_ifs at success
      obtain rfl := Option.some.inj success
      simp [inFlight, late]

/-- When the last packet in flight is taken for acknowledged. -/
theorem tcpProcess_empties_iff {iss : UInt32} (established : tsk.state = .established)
    (inFlight : tsk.sendBuf ≠ []) (success : tcpProcess iss cb tsk = some outcome) :
    outcome.tsk.state = .established ∧ outcome.tsk.sendBuf = [] ↔ AcksAll cb tsk := by
  have opened : Open tsk := by simp [Open, established]
  have closes : (tcpSockClose tsk).tsk.state ≠ .established := by
    simp [tcpSockClose, established, tcpSetState]
  have branch : OpenBranch cb tsk (tcpProcess iss cb tsk) := tcpProcess_openBranch opened
  rw [success] at branch
  cases branch with
  | reset rst => simp [AcksAll, rst, closes]
  | syn syn => simp [AcksAll, syn, closes]
  | neither ack fin => simp [AcksAll, ack, fin, inFlight]
  | synRecv loud state => cases established.symm.trans state
  | finWait1 state => cases established.symm.trans state
  | finAck state flags => cases established.symm.trans state
  | finWait2 state flags => cases established.symm.trans state
  | lastAck state => cases established.symm.trans state
  | segment loud synRecv finWait1 finWait2 lastAck segment =>
      exact tcpRcvSegment_empties_iff established inFlight loud segment

theorem tcpProcess_not_established {iss : UInt32} (handed : HandedOver tsk)
    (notEstablished : tsk.state ≠ .established) (success : tcpProcess iss cb tsk = some outcome) :
    outcome.tsk.state ≠ .established := by
  by_cases closed : tsk.state = .closed
  · rw [tcpProcess, if_pos closed] at success
    obtain rfl := Option.some.inj success
    exact notEstablished
  by_cases listening : tsk.state = .listen
  · rw [tcpProcess, if_neg closed, if_pos listening] at success
    obtain rfl := Option.some.inj success
    unfold tcpStateListen
    split_ifs <;> exact notEstablished
  rcases (served_tcpProcess ⟨closed, listening, handed.1⟩ success).state with same | ending
  · rw [same]
    exact notEstablished
  · intro established
    rw [established] at ending
    cases ending

theorem tcpProcess_handedOver {iss : UInt32} (handed : HandedOver tsk)
    (success : tcpProcess iss cb tsk = some outcome) : HandedOver outcome.tsk := by
  by_cases closed : tsk.state = .closed
  · rw [tcpProcess, if_pos closed] at success
    obtain rfl := Option.some.inj success
    exact handed
  by_cases listening : tsk.state = .listen
  · rw [tcpProcess, if_neg closed, if_pos listening] at success
    obtain rfl := Option.some.inj success
    unfold tcpStateListen
    split_ifs <;> exact handed
  rcases (served_tcpProcess ⟨closed, listening, handed.1⟩ success).state with same | ending
  · rw [HandedOver, same]
    exact handed
  · constructor
    · intro synSent
      rw [synSent] at ending
      cases ending
    · intro synRecv
      rw [synRecv] at ending
      cases ending

/-! ## Nothing is ever sent -/

/-- The window is zero, and only packets without payload are held. -/
def NoData (tsk : TcpSock) : Prop :=
  tsk.sndWnd = 0 ∧ ∀ packet ∈ tsk.sendBuf, packet.tcpDataLen = 0

theorem foldl_noData (packets : List Segment) (window : UInt16)
    (empty : ∀ packet ∈ packets, packet.tcpDataLen = 0) :
    packets.foldl (fun window packet => window + packet.tcpDataLen) window = window := by
  induction packets with
  | nil => rfl
  | cons packet packets ih =>
      rw [List.forall_mem_cons] at empty
      rw [List.foldl_cons, empty.1, UInt16.add_zero]
      exact ih empty.2

theorem noData_kept : KeptBySending NoData where
  control flags tsk noData := by
    unfold tcpSendControlPacket
    split_ifs
    · refine ⟨noData.1, ?_⟩
      intro packet member
      rcases List.mem_append.mp member with held | new
      · exact noData.2 packet held
      · rw [List.mem_singleton.mp new]
        exact tcpDataLen_buildSegment tsk flags []
    · exact noData
  ack ackNum tsk noData := by
    constructor
    · have empty : ∀ packet ∈ tsk.sendBuf.filter fun packet => packet.removedBy ackNum,
          packet.tcpDataLen = 0 := fun packet member => noData.2 packet (List.mem_filter.mp member).1
      exact (foldl_noData _ _ empty).trans noData.1
    · intro packet member
      exact noData.2 packet (List.mem_filter.mp member).1
  other tsk next sndWnd sendBuf noData := by
    rw [NoData, sndWnd, sendBuf]
    exact noData

theorem Starts.noData (starts : Starts tsk) : NoData tsk := by
  cases starts with
  | connect localAddr peer iss =>
      apply noData_kept.control
      exact ⟨rfl, by simp [allocTcpSock]⟩
  | listen created =>
      unfold tcpStateListen at created
      split_ifs at created
      · rcases List.mem_append.mp created with early | last
        · rcases List.mem_cons.mp early with same | ofChild
          · cases same
            apply noData_kept.control
            exact ⟨rfl, by simp [allocTcpSock]⟩
          · obtain ⟨inner, -, different⟩ := List.mem_map.mp ofChild
            cases different
        · cases List.mem_singleton.mp last
      · cases List.mem_singleton.mp created

end Processing

/-! ## What a run keeps -/

section
variable {ι : Type} {connection next : Connection ι}

/-- No data is in flight, no writer was woken, and writers have a socket that the handshake
is past. -/
structure Dry (connection : Connection ι) : Prop where
  noData : NoData connection.tsk
  quiet : connection.waitSend.notified = false
  stopped : ∀ thread buf sentLen, connection.writers thread ≠ .awake buf sentLen
  handed : ∀ thread, connection.writers thread ≠ .outside → HandedOver connection.tsk

theorem Dry.notStranded_iff (dry : Dry connection) :
    NotStranded connection ↔ (connection.tsk.state = .established → connection.tsk.sendBuf = [] →
      ∀ thread buf sentLen, connection.writers thread ≠ .asleep buf sentLen) := by
  simp [NotStranded, dry.noData.1, dry.quiet]

theorem Dry.segment (dry : Dry connection) {cb : TcpCb} {iss : UInt32} {outcome : Outcome}
    (success : tcpProcess iss cb connection.tsk = some outcome) :
    Dry { connection with
      tsk := outcome.tsk,
      waitSend := if outcome.effects.any Effect.wakesWriters then wakeUp connection.waitSend
        else connection.waitSend } := by
  obtain ⟨noData, silent⟩ := tcpProcess_sending noData_kept dry.noData success
  have noWake : outcome.effects.any Effect.wakesWriters = false := by
    rw [List.any_eq_false]
    intro effect member
    simp [silent effect member]
  simp only [noWake, Bool.false_eq_true, if_false]
  exact ⟨noData, dry.quiet, dry.stopped,
    fun thread inside => tcpProcess_handedOver (dry.handed thread inside) success⟩

theorem Dry.change (dry : Dry connection) {tsk : TcpSock} (noData : NoData tsk)
    (handed : HandedOver connection.tsk → HandedOver tsk) :
    Dry { connection with tsk := tsk } :=
  ⟨noData, dry.quiet, dry.stopped, fun thread inside => handed (dry.handed thread inside)⟩

variable [DecidableEq ι]

theorem Dry.move (dry : Dry connection) {thread : ι} {writer : Writer} {wait : SynchWait}
    (quiet : wait.notified = false) (notAwake : ∀ buf sentLen, writer ≠ .awake buf sentLen)
    (handed : HandedOver connection.tsk) :
    Dry ({ connection with waitSend := wait }.move thread writer) := by
  refine ⟨dry.noData, quiet, ?_, fun _ _ => handed⟩
  intro other buf sentLen
  by_cases same : other = thread
  · subst same
    rw [move_self]
    exact notAwake buf sentLen
  · rw [move_other writer _ same]
    exact dry.stopped other buf sentLen

theorem Dry.turn_cases (dry : Dry connection) {thread : ι}
    (taken : turn thread connection = some next) :
    ∃ buf sentLen, connection.writers thread = .atTest buf sentLen ∧
      (buf.length ≤ sentLen ∧ next = connection.move thread .outside ∨
        sentLen < buf.length ∧
          next = { connection with waitSend := { notified := false, sleep := true } }.move
            thread (.asleep buf sentLen)) := by
  unfold turn at taken
  cases position : connection.writers thread with
  | outside => simp [position] at taken
  | atTest buf sentLen =>
      refine ⟨buf, sentLen, rfl, ?_⟩
      simp only [position, dry.noData.1, dry.quiet, if_true, Bool.false_eq_true, if_false] at taken
      split_ifs at taken with more
      · exact .inr ⟨more, (Option.some.inj taken).symm⟩
      · exact .inl ⟨Nat.le_of_not_lt more, (Option.some.inj taken).symm⟩
  | asleep buf sentLen => simp [position, dry.quiet] at taken
  | awake buf sentLen => exact absurd position (dry.stopped thread buf sentLen)

theorem tcpSockClose_noData {tsk : TcpSock} (noData : NoData tsk) :
    NoData (tcpSockClose tsk).tsk := by
  unfold tcpSockClose
  split
  · exact noData
  · exact noData_kept.control _ _ noData
  · exact noData_kept.control _ _ noData
  · exact noData

/-- After `tcp_sock_close` the connection is not established, and no handshake starts. -/
theorem tcpSockClose_state (tsk : TcpSock) : (tcpSockClose tsk).tsk.state ≠ .established ∧
    (HandedOver tsk → HandedOver (tcpSockClose tsk).tsk) := by
  unfold tcpSockClose
  split
  · simp [tcpSetState, HandedOver]
  · simp [tcpSetState, HandedOver]
  · simp [tcpSetState, HandedOver]
  · rename_i notEstablished _
    exact ⟨notEstablished, id⟩

theorem connectionStep_dry {event : ConnectionEvent ι} (dry : Dry connection)
    (taken : connectionStep connection event = some next) : Dry next := by
  cases event with
  | segment cb iss =>
      simp only [connectionStep] at taken
      split_ifs at taken
      obtain ⟨outcome, success, rfl⟩ := Option.map_eq_some_iff.mp taken
      exact dry.segment success
  | accept =>
      simp only [connectionStep] at taken
      split_ifs at taken with synRecv
      obtain rfl := Option.some.inj taken
      refine dry.change (noData_kept.other connection.tsk _ rfl rfl dry.noData) ?_
      intro handed
      exact absurd synRecv handed.2
  | write thread buf =>
      simp only [connectionStep] at taken
      split_ifs at taken with idle
      obtain rfl := Option.some.inj taken
      exact dry.move dry.quiet (by simp) idle.2
  | turn thread =>
      obtain ⟨buf, sentLen, position, ⟨-, rfl⟩ | ⟨-, rfl⟩⟩ := dry.turn_cases taken
      · exact dry.move dry.quiet (by simp) (dry.handed thread (by simp [position]))
      · exact dry.move rfl (by simp) (dry.handed thread (by simp [position]))
  | read len =>
      obtain rfl := Option.some.inj taken
      exact dry.change (noData_kept.other connection.tsk _ rfl rfl dry.noData) id
  | close =>
      obtain rfl := Option.some.inj taken
      exact dry.change (tcpSockClose_noData dry.noData) (tcpSockClose_state _).2
  | timewaitExpires =>
      simp only [connectionStep] at taken
      split_ifs at taken
      obtain rfl := Option.some.inj taken
      refine dry.change (noData_kept.other connection.tsk _ rfl rfl dry.noData) ?_
      exact fun _ => ⟨by simp [tcpSetState], by simp [tcpSetState]⟩

theorem Dry.notStranded_move (dry : Dry connection) (kept : NotStranded connection) {thread : ι}
    {writer : Writer} {wait : SynchWait} (moved : Dry ({ connection with waitSend := wait }.move
      thread writer)) : NotStranded ({ connection with waitSend := wait }.move thread writer) ↔
      (connection.tsk.state = .established → connection.tsk.sendBuf = [] →
        ∀ buf sentLen, writer ≠ .asleep buf sentLen) := by
  rw [dry.notStranded_iff] at kept
  rw [moved.notStranded_iff]
  constructor
  · intro awake established idle buf sentLen
    have here := awake established idle thread buf sentLen
    rwa [move_self] at here
  · intro awake established idle other buf sentLen
    by_cases same : other = thread
    · subst same
      rw [move_self]
      exact awake established idle buf sentLen
    · rw [move_other writer _ same]
      exact kept established idle other buf sentLen

theorem Dry.segment_iff (dry : Dry connection) (kept : NotStranded connection) {cb : TcpCb}
    {iss : UInt32} (window : cb.rwnd ≠ 0)
    (taken : connectionStep connection (.segment cb iss) = some next) :
    NotStranded next ↔ KeepsWriters connection (.segment cb iss) := by
  have dryNext := connectionStep_dry dry taken
  simp only [connectionStep, if_neg window] at taken
  obtain ⟨outcome, success, rfl⟩ := Option.map_eq_some_iff.mp taken
  rw [dry.notStranded_iff] at kept
  rw [dryNext.notStranded_iff, KeepsWriters]
  by_cases established : connection.tsk.state = .established
  · by_cases idle : connection.tsk.sendBuf = []
    · have awake := kept established idle
      simp [idle, awake]
    · have empties := tcpProcess_empties_iff established idle success
      constructor
      · rintro awake - - - ⟨thread, buf, sentLen, asleep⟩ acksAll
        obtain ⟨state, sendBuf⟩ := empties.mpr acksAll
        exact awake state sendBuf thread buf sentLen asleep
      · intro notAcked state sendBuf thread buf sentLen asleep
        exact notAcked window established idle ⟨thread, buf, sentLen, asleep⟩
          (empties.mp ⟨state, sendBuf⟩)
  · apply iff_of_true
    · intro state _ thread buf sentLen asleep
      have asleepHere : connection.writers thread = .asleep buf sentLen := asleep
      have handed := dry.handed thread (by simp [asleepHere])
      exact tcpProcess_not_established handed established success state
    · exact fun _ impossible => absurd impossible established

theorem connectionStep_notStranded_iff {event : ConnectionEvent ι} (dry : Dry connection)
    (kept : NotStranded connection) (taken : connectionStep connection event = some next) :
    NotStranded next ↔ KeepsWriters connection event := by
  have dryNext := connectionStep_dry dry taken
  cases event with
  | segment cb iss =>
      have window : cb.rwnd ≠ 0 := by
        intro closed
        simp [connectionStep, closed] at taken
      exact dry.segment_iff kept window taken
  | accept =>
      simp only [connectionStep] at taken
      split_ifs at taken with synRecv
      obtain rfl := Option.some.inj taken
      apply iff_of_true _ trivial
      intro _ _ thread buf sentLen asleep
      have asleepHere : connection.writers thread = .asleep buf sentLen := asleep
      exact absurd synRecv (dry.handed thread (by simp [asleepHere])).2
  | write thread buf =>
      simp only [connectionStep] at taken
      split_ifs at taken
      obtain rfl := Option.some.inj taken
      apply iff_of_true _ trivial
      exact (dry.notStranded_move kept dryNext).mpr (by simp)
  | turn thread =>
      obtain ⟨buf, sentLen, position, ⟨done, rfl⟩ | ⟨more, rfl⟩⟩ := dry.turn_cases taken
      · apply iff_of_true
        · exact (dry.notStranded_move kept dryNext).mpr (by simp)
        · intro _ _ buf' sentLen' same
          cases position.symm.trans same
          exact done
      · rw [dry.notStranded_move kept dryNext]
        constructor
        · intro awake established idle
          exact absurd rfl (awake established idle buf sentLen)
        · intro returns established idle
          exact absurd (returns established idle buf sentLen position) (Nat.not_le_of_lt more)
  | read len =>
      obtain rfl := Option.some.inj taken
      exact iff_of_true kept trivial
  | close =>
      obtain rfl := Option.some.inj taken
      apply iff_of_true _ trivial
      exact fun established => absurd established (tcpSockClose_state _).1
  | timewaitExpires =>
      simp only [connectionStep] at taken
      split_ifs at taken
      obtain rfl := Option.some.inj taken
      apply iff_of_true _ trivial
      intro established
      cases established

theorem tcpProcess_stuck {iss : UInt32} {cb : TcpCb} {tsk : TcpSock}
    (established : tsk.state = .established) (stuck : tcpProcess iss cb tsk = none) :
    ¬ AcksAll cb tsk := by
  rintro ⟨rst, syn, accepted, -⟩
  have opened : Open tsk := by simp [Open, established]
  rw [tcpProcess_open opened] at stuck
  simp only [rst, syn, established, reduceCtorEq, if_false, Bool.false_eq_true] at stuck
  by_cases payload : cb.plLen = 0
  · rw [if_pos payload] at accepted
    simp [tcpRcvSegment, payload, accepted] at stuck
    split_ifs at stuck
  · rw [if_neg payload] at accepted
    have notNext : cb.seq ≠ tsk.rcvNxt := by
      rintro same
      rw [same] at accepted
      exact absurd accepted.2 (by simp)
    simp [tcpRcvSegment, payload, accepted, notNext] at stuck
    split_ifs at stuck

/-- In a run of a connection on which the peer always advertises a window no writer is
stranded exactly when none comes to send while nothing is in flight, or is asleep when the
last packet in flight is acknowledged. -/
theorem writers_not_stranded (tsk : TcpSock) (starts : Starts tsk)
    (events : List (ConnectionEvent ι)) :
    Always connectionStep NotStranded (startConnection ι tsk) events ↔
      Guarded connectionStep KeepsWriters (startConnection ι tsk) events := by
  have preserved : ∀ (connection : Connection ι) event next, Dry connection →
      connectionStep connection event = some next → Dry next := fun _ _ _ => connectionStep_dry
  apply always_iff_guarded connectionStep preserved
  · intro connection event next dry kept taken
    exact connectionStep_notStranded_iff dry kept taken
  · intro connection event dry stuck
    cases event with
    | segment cb iss =>
        intro window established _ _
        simp only [connectionStep, if_neg window, Option.map_eq_none_iff] at stuck
        exact tcpProcess_stuck established stuck
    | turn thread =>
        intro _ _ buf sentLen position
        simp only [connectionStep, turn, position] at stuck
        split_ifs at stuck
    | accept => trivial
    | write thread buf => trivial
    | read len => trivial
    | close => trivial
    | timewaitExpires => trivial
  · exact ⟨starts.noData, rfl, by simp [startConnection], by simp [startConnection]⟩
  · intro _ _ thread buf sentLen asleep
    cases asleep

end

def clientSock : TcpSock := connectingSock ⟨0x0a000001, 12345⟩ ⟨0x0a000002, 80⟩ 100

def peerSynAck : TcpCb :=
  { saddr := 0x0a000002, daddr := 0x0a000001, sport := 80, dport := 12345, seq := 500,
    seqEnd := 501, ack := 101, payload := [], plLen := 0, rwnd := 65535,
    flags := TCP_SYN ||| TCP_ACK }

def twoWriters : List (ConnectionEvent Bool) :=
  [.segment peerSynAck 0, .write false [], .turn false, .write true [1], .turn true, .close]

theorem writers_not_stranded_client :
    Always connectionStep NotStranded (startConnection Bool clientSock) twoWriters ↔
      Guarded connectionStep KeepsWriters (startConnection Bool clientSock) twoWriters :=
  writers_not_stranded clientSock (.connect _ _ _) twoWriters

/-- The first `tcp_sock_write` on an established connection sleeps and is not woken. -/
theorem first_write_stranded :
    ¬ ∀ (tsk : TcpSock), Starts tsk → ∀ events : List (ConnectionEvent (Fin 1)),
      Always connectionStep NotStranded (startConnection (Fin 1) tsk) events := by
  intro always
  have stranded : ∃ connection ∈ run connectionStep (startConnection (Fin 1) clientSock)
      [.segment peerSynAck 0, .write 0 [1], .turn 0],
      connection.tsk.state = .established ∧ connection.tsk.sendBuf = [] ∧
        connection.tsk.sndWnd = 0 ∧ connection.waitSend.notified = false ∧
        connection.writers 0 = .asleep [1] 0 := by decide
  obtain ⟨connection, success, established, idle, window, quiet, asleep⟩ := stranded
  have kept := always_last connectionStep _ (always clientSock (.connect _ _ _) _) success
  rcases kept established idle 0 [1] 0 asleep with opened | notified
  · exact opened window
  · rw [quiet] at notified
    cases notified

end NetworkLab.Tcp
