import NetworkLab.Lib.InFlight
import NetworkLab.Tcp.Closing
import NetworkLab.Tcp.Delivery
import NetworkLab.Tcp.Segmentation

/-!
# A conversation

Two established sockets at the ends of a network that delays, loses, doubles and reorders packets.
The applications write and read on both sides, and `tcp_scan_timer_list` sends again what
`send_buf` begins with.  Each application reads what the other one has written, in order and
without gaps.
-/
set_option autoImplicit false

namespace NetworkLab.Tcp

open Lib Lib.Run

inductive Side
  | client
  | server
deriving DecidableEq

def Side.peer : Side → Side
  | .client => .server
  | .server => .client

/-- The sockets with what was read from them, the packets in the network with the side that they
go to, and those that `tcp_process` has had. -/
structure Conversation where
  host : Side → Receiver
  inFlight : List (Side × Segment)
  processed : List (Side × Segment)

/-- `write` is a call of `tcp_send_packet` by `tcp_sock_write`, and `retransmit` the turn of
`tcp_scan_timer_list` for a retransmission timer that has expired. -/
inductive TalkEvent
  | write (s : Side) (payload : List UInt8)
  | read (s : Side) (len : Nat)
  | retransmit (s : Side)
  | deliver (k : Nat) (newIss : UInt32)
  | lose (k : Nat)
  | duplicate (k : Nat)

def packetsOf (effects : List Effect) : List Segment :=
  effects.filterMap fun effect =>
    match effect with
    | .ipSendPacket packet => some packet
    | _ => none

/-- A side goes on with its socket, and sends packets. -/
def Conversation.update (talk : Conversation) (s : Side) (receiver : Receiver)
    (packets : List Segment) : Conversation :=
  { talk with
    host := Function.update talk.host s receiver
    inFlight := talk.inFlight ++ packets.map fun packet => (s.peer, packet) }

def talkStep (talk : Conversation) : TalkEvent → Option Conversation
  | .write s payload =>
    let outcome := tcpSendPacket (talk.host s).tsk payload
    some (talk.update s { talk.host s with tsk := outcome.tsk } (packetsOf outcome.effects))
  | .read s len =>
    let (bytes, tsk) := tcpSockRead len (talk.host s).tsk
    some (talk.update s { tsk := tsk, taken := (talk.host s).taken ++ bytes } [])
  | .retransmit s => some (talk.update s (talk.host s) ((talk.host s).tsk.sendBuf.take 1))
  | .deliver k newIss => do
    let (s, packet) ← talk.inFlight[k]?
    let outcome ← tcpProcess newIss (tcpCbInit packet) (talk.host s).tsk
    let talk :=
      { talk with
        inFlight := talk.inFlight.eraseIdx k
        processed := talk.processed ++ [(s, packet)] }
    some (talk.update s { talk.host s with tsk := outcome.tsk } (packetsOf outcome.effects))
  | .lose k => do
    let _ ← talk.inFlight[k]?
    some { talk with inFlight := talk.inFlight.eraseIdx k }
  | .duplicate k => do
    let copy ← talk.inFlight[k]?
    some { talk with inFlight := talk.inFlight ++ [copy] }

def startTalk (init : Side → TcpSock) : Conversation where
  host s := { tsk := init s, taken := [] }
  inFlight := []
  processed := []

def payloads (s : Side) : List TalkEvent → List (List UInt8)
  | [] => []
  | .write t payload :: rest => if t = s then payload :: payloads s rest else payloads s rest
  | _ :: rest => payloads s rest

/-- The sizes that `tcp_sock_write` gives to its segments while there is a window. -/
def TalkEvent.Proper : TalkEvent → Prop
  | .write _ payload => payload ≠ [] ∧ payload.length ≤ maxDataLen
  | _ => True

/-! ## Packets -/

section Packets

variable {first : UInt32} {segments : List (List UInt8)}

structure IsData (first : UInt32) (segments : List (List UInt8)) (packet : Segment)
    (i : Fin segments.length) : Prop where
  seq : packet.seq = seqOf first segments i
  payload : packet.payload = segments.get i
  flags : packet.flags = TCP_PSH ||| TCP_ACK
  totLen : packet.totLen.toNat = IP_BASE_HDR_SIZE + TCP_BASE_HDR_SIZE + (segments.get i).length

structure IsAck (packet : Segment) : Prop where
  flags : packet.flags = TCP_ACK
  totLen : packet.totLen = UInt16.ofNat (IP_BASE_HDR_SIZE + TCP_BASE_HDR_SIZE)

/-- What processing a packet of an established connection leaves of the sending side. -/
structure RepliesTo (tsk : TcpSock) (outcome : Outcome) : Prop where
  sndNxt : outcome.tsk.sndNxt = tsk.sndNxt
  sendBuf : ∀ packet ∈ outcome.tsk.sendBuf, packet ∈ tsk.sendBuf
  sent : ∀ packet ∈ packetsOf outcome.effects, IsAck packet

theorem packetsOf_append (effects more : List Effect) :
    packetsOf (effects ++ more) = packetsOf effects ++ packetsOf more := List.filterMap_append

theorem answers_ack (tsk : TcpSock) : RepliesTo tsk (tcpSendControlPacket TCP_ACK tsk) := by
  have noFlag : hasFlag TCP_ACK (TCP_SYN ||| TCP_FIN) = false := by decide
  have sent : packetsOf (tcpSendControlPacket TCP_ACK tsk).effects =
      [buildSegment tsk TCP_ACK []] := by
    simp only [tcpSendControlPacket, noFlag, Bool.false_eq_true, if_false]
    rfl
  refine ⟨by simp, by simp, ?_⟩
  intro packet member
  rw [sent, List.mem_singleton] at member
  rw [member]
  exact ⟨rfl, rfl⟩

theorem answers_removeAckData (ackNum : UInt32) (tsk : TcpSock) :
    RepliesTo tsk (removeAckData ackNum tsk) := by
  refine ⟨rfl, fun packet member => List.mem_of_mem_filter member, ?_⟩
  intro packet member
  have none : packetsOf (removeAckData ackNum tsk).effects = [] := by
    simp only [removeAckData]
    split_ifs <;> rfl
  rw [none] at member
  cases member

theorem RepliesTo.andThen {tsk : TcpSock} {outcome : Outcome} {f : TcpSock → Outcome}
    (before : RepliesTo tsk outcome) (after : RepliesTo outcome.tsk (f outcome.tsk)) :
    RepliesTo tsk (outcome.andThen f) := by
  refine ⟨after.sndNxt.trans before.sndNxt,
    fun packet member => before.sendBuf packet (after.sendBuf packet member), ?_⟩
  intro packet member
  rw [Outcome.andThen_effects, packetsOf_append, List.mem_append] at member
  exact member.elim (before.sent packet) (after.sent packet)

theorem answers_inOrder {cb : TcpCb} {tsk : TcpSock} {outcome : Outcome}
    (success : tcpRcvInOrder cb tsk = some outcome) : RepliesTo tsk outcome := by
  obtain ⟨rcvBuf, -, success⟩ := Option.bind_eq_some_iff.mp success
  obtain ⟨drained, drains, result⟩ := Option.bind_eq_some_iff.mp success
  have kept : KeptByDrain fun t => t.sndNxt = tsk.sndNxt ∧ t.sendBuf = tsk.sendBuf :=
    ⟨fun _ _ same => same, fun _ same => same⟩
  obtain ⟨sndNxt, sendBuf⟩ := drain_keeps kept drains ⟨rfl, rfl⟩
  have acked := answers_ack drained
  rw [← Option.some.inj result]
  refine ⟨acked.sndNxt.trans sndNxt, ?_, acked.sent⟩
  intro packet member
  rw [← sendBuf]
  exact acked.sendBuf packet member

variable {newIss : UInt32} {tsk : TcpSock} {packet : Segment} {outcome : Outcome}

theorem IsData.answers (nonempty : ∀ segment ∈ segments, segment ≠ []) {i : Fin segments.length}
    (data : IsData first segments packet i) (established : tsk.state = .established)
    (processed : tcpProcess newIss (tcpCbInit packet) tsk = some outcome) :
    RepliesTo tsk outcome := by
  rw [tcpCbInit_segment data.seq data.payload data.flags data.totLen,
    tcpProcess_segment nonempty established] at processed
  split_ifs at processed
  · exact answers_inOrder processed
  · rw [← Option.some.inj processed]
    exact (answers_ack tsk).andThen (answers_removeAckData _ _)
  · unfold tcpBufferOfo at processed
    split_ifs at processed
    rw [← Option.some.inj processed]
    refine ⟨rfl, fun _ member => member, fun _ none => ?_⟩
    cases none

/-- A packet without data only acknowledges. -/
theorem IsAck.processed (ack : IsAck packet) (established : tsk.state = .established)
    (processed : tcpProcess newIss (tcpCbInit packet) tsk = some outcome) :
    outcome = removeAckData packet.ack tsk := by
  have plLen : (tcpCbInit packet).plLen = 0 := by
    simp only [tcpCbInit, ack.totLen]
    rfl
  have flags : (tcpCbInit packet).flags = TCP_ACK := ack.flags
  have noRst : hasFlag TCP_ACK TCP_RST = false := by decide
  have noSyn : hasFlag TCP_ACK TCP_SYN = false := by decide
  have noFin : hasFlag TCP_ACK TCP_FIN = false := by decide
  have isAck : hasFlag TCP_ACK TCP_ACK = true := by decide
  simp only [tcpProcess, tcpRcvSegment, established, flags, plLen, noRst, noSyn, noFin, isAck,
    reduceCtorEq, if_false, Bool.false_eq_true, Bool.not_true, Bool.false_and, ne_eq,
    not_true_eq_false, if_true, Option.some.injEq] at processed
  exact processed.symm

end Packets

/-! ## Both directions -/

theorem Side.peer_ne (s : Side) : s.peer ≠ s := by cases s <;> decide

@[simp] theorem Side.peer_peer (s : Side) : s.peer.peer = s := by cases s <;> rfl

theorem Side.eq_or_peer (s t : Side) : t = s ∨ t = s.peer := by
  cases s <;> cases t <;> decide

section Flow

variable (init : Side → TcpSock) (streams : Side → List (List UInt8))

/-- The packet has one of the first `j` segments of a side. -/
def Early (s : Side) (j : Nat) (packet : Segment) : Prop :=
  ∃ i : Fin (streams s).length, (i : Nat) < j ∧ IsData (init s).sndNxt (streams s) packet i

/-- A side has sent the first `j` segments of its stream. -/
structure Outbound (talk : Conversation) (s : Side) (j : Nat) : Prop where
  inside : j ≤ (streams s).length
  sndNxt : (talk.host s).tsk.sndNxt = seqOf (init s).sndNxt (streams s) j
  sendBuf : ∀ packet ∈ (talk.host s).tsk.sendBuf, Early init streams s j packet
  inFlight : ∀ packet, (s.peer, packet) ∈ talk.inFlight →
    Early init streams s j packet ∨ IsAck packet

/-- The other side has received some of them, all that it has processed among them. -/
structure Inbound (talk : Conversation) (s : Side) (j : Nat) (seen : List (Fin (streams s).length))
    (k : Nat) : Prop where
  receiving : Receiving (init s).sndNxt (streams s) (init s.peer).rcvBuf.contents
    (talk.host s.peer) seen k
  early : ∀ i ∈ seen, (i : Nat) < j
  processed : ∀ packet, (s.peer, packet) ∈ talk.processed → packet.flags = TCP_PSH ||| TCP_ACK →
    ∃ i ∈ seen, packet.seq = seqOf (init s).sndNxt (streams s) i

def Flowing (talk : Conversation) (j : Side → Nat) : Prop :=
  ∀ s, Outbound init streams talk s (j s) ∧ ∃ seen k, Inbound init streams talk s (j s) seen k

variable {init streams} {talk next : Conversation} {s : Side} {j : Nat}

theorem Early.mono {j' : Nat} {packet : Segment} (early : Early init streams s j packet)
    (le : j ≤ j') : Early init streams s j' packet := by
  obtain ⟨i, before, data⟩ := early
  exact ⟨i, by omega, data⟩

section Update

variable {receiver : Receiver} {packets : List Segment}

theorem mem_update {t : Side} {packet : Segment}
    (member : (t, packet) ∈ (talk.update s receiver packets).inFlight) :
    (t, packet) ∈ talk.inFlight ∨ t = s.peer ∧ packet ∈ packets := by
  rcases List.mem_append.mp member with old | new
  · exact Or.inl old
  · obtain ⟨sent, isSent, same⟩ := List.mem_map.mp new
    cases same
    exact Or.inr ⟨rfl, isSent⟩

theorem Outbound.update_self (sent : Outbound init streams talk s j) {j' : Nat} (le : j ≤ j')
    (inside : j' ≤ (streams s).length)
    (sndNxt : receiver.tsk.sndNxt = seqOf (init s).sndNxt (streams s) j')
    (sendBuf : ∀ packet ∈ receiver.tsk.sendBuf, Early init streams s j' packet)
    (good : ∀ packet ∈ packets, Early init streams s j' packet ∨ IsAck packet) :
    Outbound init streams (talk.update s receiver packets) s j' := by
  have host : (talk.update s receiver packets).host s = receiver := Function.update_self ..
  refine ⟨inside, by rw [host]; exact sndNxt, by rw [host]; exact sendBuf, ?_⟩
  intro packet member
  rcases mem_update member with old | ⟨-, new⟩
  · exact (sent.inFlight packet old).imp_left fun early => early.mono le
  · exact good packet new

theorem Outbound.update_peer (sent : Outbound init streams talk s j) :
    Outbound init streams (talk.update s.peer receiver packets) s j := by
  have host : (talk.update s.peer receiver packets).host s = talk.host s :=
    Function.update_of_ne (Ne.symm s.peer_ne) _ _
  refine ⟨sent.inside, by rw [host]; exact sent.sndNxt, by rw [host]; exact sent.sendBuf, ?_⟩
  intro packet member
  rcases mem_update member with old | ⟨same, -⟩
  · exact sent.inFlight packet old
  · rw [Side.peer_peer] at same
    exact absurd same s.peer_ne

variable {seen : List (Fin (streams s).length)} {k : Nat}

theorem Inbound.update_self (got : Inbound init streams talk s j seen k) {j' : Nat} (le : j ≤ j') :
    Inbound init streams (talk.update s receiver packets) s j' seen k := by
  have host : (talk.update s receiver packets).host s.peer = talk.host s.peer :=
    Function.update_of_ne s.peer_ne _ _
  refine ⟨by rw [host]; exact got.receiving, ?_, got.processed⟩
  intro i member
  have before := got.early i member
  omega

theorem Inbound.update_peer (got : Inbound init streams talk s j seen k)
    (receiving : Receiving (init s).sndNxt (streams s) (init s.peer).rcvBuf.contents receiver seen k) :
    Inbound init streams (talk.update s.peer receiver packets) s j seen k := by
  have host : (talk.update s.peer receiver packets).host s.peer = receiver :=
    Function.update_self ..
  exact ⟨by rw [host]; exact receiving, got.early, got.processed⟩

end Update

/-- The sending side of the receiver may change. -/
theorem receiving_congr {first : UInt32} {segments : List (List UInt8)} {base : List UInt8}
    {receiver : Receiver} {seen : List (Fin segments.length)} {k : Nat} {tsk : TcpSock}
    (receiving : Receiving first segments base receiver seen k)
    (state : tsk.state = receiver.tsk.state) (rcvNxt : tsk.rcvNxt = receiver.tsk.rcvNxt)
    (rcvBuf : tsk.rcvBuf = receiver.tsk.rcvBuf)
    (rcvOfoBuf : tsk.rcvOfoBuf = receiver.tsk.rcvOfoBuf) :
    Receiving first segments base { receiver with tsk := tsk } seen k := by
  obtain ⟨established, ⟨inside, next, written, bounded⟩, prior, missing, ofSeen, buffered⟩ := receiving
  refine ⟨state.trans established, ⟨inside, rcvNxt.trans next, ?_, ?_⟩, prior, missing, ?_, ?_⟩
  · rw [rcvBuf]
    exact written
  · rw [rcvBuf]
    exact bounded
  · rw [rcvOfoBuf]
    exact ofSeen
  · rw [rcvOfoBuf]
    exact buffered

end Flow

/-! ## Steps -/

section Steps

variable {init : Side → TcpSock} {streams : Side → List (List UInt8)} {talk next : Conversation}
  {j : Side → Nat} (flowing : Flowing init streams talk j)

include flowing

theorem Flowing.established (s : Side) : (talk.host s).tsk.state = .established := by
  obtain ⟨-, seen, k, got⟩ := flowing s.peer
  have receiving := got.receiving
  rw [Side.peer_peer] at receiving
  exact receiving.established

theorem Flowing.write {t : Side} {payload : List UInt8} (le : payload.length ≤ maxDataLen)
    (isNext : (streams t)[j t]? = some payload)
    (taken : talkStep talk (.write t payload) = some next) :
    Flowing init streams next (Function.update j t (j t + 1)) := by
  rw [← Option.some.inj taken]
  intro s
  obtain ⟨sent, seen, k, got⟩ := flowing s
  rcases s.eq_or_peer t with rfl | rfl
  · rw [Function.update_self]
    obtain ⟨inside, isPayload⟩ := List.getElem?_eq_some_iff.mp isNext
    let i : Fin (streams t).length := ⟨j t, inside⟩
    have last : (streams t)[i] = payload := isPayload
    have data : IsData (init t).sndNxt (streams t)
        (buildSegment (talk.host t).tsk (TCP_PSH ||| TCP_ACK) payload) i := by
      refine ⟨sent.sndNxt, last.symm, rfl, ?_⟩
      rw [maxDataLen_eq] at le
      change (UInt16.ofNat _).toNat = _ + (streams t)[i].length
      rw [last, UInt16.toNat_ofNat']
      simp only [IP_BASE_HDR_SIZE, TCP_BASE_HDR_SIZE]
      omega
    have new : Early init streams t (j t + 1)
        (buildSegment (talk.host t).tsk (TCP_PSH ||| TCP_ACK) payload) :=
      ⟨i, Nat.lt_succ_self _, data⟩
    refine ⟨sent.update_self (Nat.le_succ _) inside ?_ ?_ ?_, seen, k,
      got.update_self (Nat.le_succ _)⟩
    · have next : seqOf (init t).sndNxt (streams t) (j t) + UInt32.ofNat (streams t)[i].length =
          seqOf (init t).sndNxt (streams t) (j t + 1) := seqOf_succ i
      rw [← next, ← sent.sndNxt, last]
      rfl
    · intro packet member
      rcases List.mem_append.mp member with old | isNew
      · exact (sent.sendBuf packet old).mono (Nat.le_succ _)
      · exact List.mem_singleton.mp isNew ▸ new
    · intro packet member
      exact Or.inl (List.mem_singleton.mp member ▸ new)
  · rw [Function.update_of_ne (Ne.symm s.peer_ne)]
    exact ⟨sent.update_peer, seen, k,
      got.update_peer (receiving_congr got.receiving rfl rfl rfl rfl)⟩

theorem Flowing.read {t : Side} {len : Nat}
    (short : ∀ s, (streams s).flatten.length < 4294967296)
    (taken : talkStep talk (.read t len) = some next) : Flowing init streams next j := by
  rw [← Option.some.inj taken]
  intro s
  obtain ⟨sent, seen, k, got⟩ := flowing s
  rcases s.eq_or_peer t with rfl | rfl
  · exact ⟨sent.update_self (le_refl _) sent.inside sent.sndNxt sent.sendBuf
      (fun _ none => absurd none List.not_mem_nil), seen, k, got.update_self (le_refl _)⟩
  · have read : receiveStep 0 (init s).sndNxt (streams s) (talk.host s.peer) (.read len) =
        some _ := rfl
    exact ⟨sent.update_peer, seen, k, got.update_peer (got.receiving.read (short s) read)⟩

theorem Flowing.retransmit {t : Side} (taken : talkStep talk (.retransmit t) = some next) :
    Flowing init streams next j := by
  rw [← Option.some.inj taken]
  intro s
  obtain ⟨sent, seen, k, got⟩ := flowing s
  rcases s.eq_or_peer t with rfl | rfl
  · exact ⟨sent.update_self (le_refl _) sent.inside sent.sndNxt sent.sendBuf
      (fun packet member => Or.inl (sent.sendBuf packet (List.mem_of_mem_take member))), seen, k,
      got.update_self (le_refl _)⟩
  · exact ⟨sent.update_peer, seen, k, got.update_peer got.receiving⟩

theorem Flowing.deliver {k : Nat} {newIss : UInt32}
    (nonempty : ∀ s, ∀ segment ∈ streams s, segment ≠ [])
    (noWrap : ∀ s, NoWrap (init s).sndNxt (streams s))
    (taken : talkStep talk (.deliver k newIss) = some next) : Flowing init streams next j := by
  simp only [talkStep, Option.bind_eq_bind, Option.bind_eq_some_iff] at taken
  obtain ⟨⟨t, packet⟩, here, outcome, processed, taken⟩ := taken
  have established := flowing.established t
  obtain ⟨sentTo, seenHere, m, gotHere⟩ := flowing t.peer
  have kind := sentTo.inFlight packet (by rw [Side.peer_peer]; exact List.mem_of_getElem? here)
  have answers : RepliesTo (talk.host t).tsk outcome := by
    rcases kind with ⟨i, -, data⟩ | ack
    · exact data.answers (nonempty t.peer) established processed
    · rw [ack.processed established processed]
      exact answers_removeAckData _ _
  let rest : Conversation :=
    { talk with inFlight := talk.inFlight.eraseIdx k, processed := talk.processed ++ [(t, packet)] }
  rw [← Option.some.inj taken]
  intro s
  obtain ⟨sent, seen, l, got⟩ := flowing s
  have left : Outbound init streams rest s (j s) :=
    ⟨sent.inside, sent.sndNxt, sent.sendBuf,
      fun other member => sent.inFlight other (List.mem_of_mem_eraseIdx member)⟩
  rcases s.eq_or_peer t with rfl | rfl
  · -- the sending side of the receiver goes on
    have before : Inbound init streams rest t (j t) seen l := by
      refine ⟨got.receiving, got.early, ?_⟩
      intro other member
      rcases List.mem_append.mp member with old | new
      · exact got.processed other old
      · exact absurd (congrArg Prod.fst (List.mem_singleton.mp new)) t.peer_ne
    refine ⟨left.update_self (le_refl _) sent.inside (answers.sndNxt.trans sent.sndNxt) ?_ ?_, seen,
      l, before.update_self (le_refl _)⟩
    · exact fun other member => sent.sendBuf other (answers.sendBuf other member)
    · exact fun other member => Or.inr (answers.sent other member)
  · refine ⟨left.update_peer, ?_⟩
    rcases sent.inFlight packet (List.mem_of_getElem? here) with ⟨i, before, data⟩ | ack
    · have arrives : receiveStep newIss (init s).sndNxt (streams s) (talk.host s.peer)
          (.arrive i (tcpCbInit packet)) =
          some { talk.host s.peer with tsk := outcome.tsk } := by
        have isSegment := tcpCbInit_segment data.seq data.payload data.flags data.totLen
        rw [receiveStep, ← isSegment, processed, Option.map_some]
      obtain ⟨l', receiving⟩ := got.receiving.arrive (nonempty s) (noWrap s) arrives
      refine ⟨seen ++ [i], l', ⟨?_, ?_, ?_⟩⟩
      · rw [show (rest.update s.peer { talk.host s.peer with tsk := outcome.tsk }
          (packetsOf outcome.effects)).host s.peer = _ from Function.update_self ..]
        exact receiving
      · intro other member
        rcases List.mem_append.mp member with old | new
        · exact got.early other old
        · exact List.mem_singleton.mp new ▸ before
      · intro other member flags
        rcases List.mem_append.mp member with old | new
        · obtain ⟨l, isSeen, seq⟩ := got.processed other old flags
          exact ⟨l, List.mem_append_left _ isSeen, seq⟩
        · cases List.mem_singleton.mp new
          exact ⟨i, List.mem_append_right _ (List.mem_singleton_self i), data.seq⟩
    · have silent : Inbound init streams rest s (j s) seen l := by
        refine ⟨got.receiving, got.early, ?_⟩
        intro other member flags
        rcases List.mem_append.mp member with old | new
        · exact got.processed other old flags
        · cases List.mem_singleton.mp new
          rw [ack.flags] at flags
          exact absurd flags (by decide)
      have acked := ack.processed established processed
      refine ⟨seen, l, silent.update_peer ?_⟩
      rw [acked]
      exact receiving_congr got.receiving rfl rfl rfl rfl

theorem Flowing.subset {frames : List (Side × Segment)}
    (within : ∀ copy ∈ frames, copy ∈ talk.inFlight) :
    Flowing init streams { talk with inFlight := frames } j := by
  intro s
  obtain ⟨sent, seen, k, got⟩ := flowing s
  exact ⟨⟨sent.inside, sent.sndNxt, sent.sendBuf,
    fun packet member => sent.inFlight packet (within _ member)⟩, seen, k,
    ⟨got.receiving, got.early, got.processed⟩⟩

end Steps

/-- How many segments the sides have written after an event. -/
def TalkEvent.count : TalkEvent → (Side → Nat) → Side → Nat
  | .write t _, j => Function.update j t (j t + 1)
  | _, j => j

def Ahead (streams : Side → List (List UInt8)) (j : Side → Nat) (events : List TalkEvent) : Prop :=
  ∀ s, (streams s).drop (j s) = payloads s events

section Runs

variable {init : Side → TcpSock} {streams : Side → List (List UInt8)} {talk next : Conversation}
  {j : Side → Nat}

theorem Ahead.after {event : TalkEvent} {rest : List TalkEvent}
    (ahead : Ahead streams j (event :: rest)) : Ahead streams (event.count j) rest := by
  intro s
  have here := ahead s
  cases event with
  | write t payload =>
      by_cases same : t = s
      · subst same
        rw [payloads, if_pos rfl] at here
        simp only [TalkEvent.count, Function.update_self]
        rw [← List.tail_drop, here, List.tail_cons]
      · rw [payloads, if_neg same] at here
        simp only [TalkEvent.count, Function.update_of_ne (Ne.symm same)]
        exact here
  | read t len => exact here
  | retransmit t => exact here
  | deliver k newIss => exact here
  | lose k => exact here
  | duplicate k => exact here

theorem step_flowing (nonempty : ∀ s, ∀ segment ∈ streams s, segment ≠ [])
    (noWrap : ∀ s, NoWrap (init s).sndNxt (streams s))
    (short : ∀ s, (streams s).flatten.length < 4294967296) {event : TalkEvent}
    {rest : List TalkEvent} (proper : event.Proper) (ahead : Ahead streams j (event :: rest))
    (flowing : Flowing init streams talk j) (taken : talkStep talk event = some next) :
    Flowing init streams next (event.count j) := by
  cases event with
  | write t payload =>
      have here := ahead t
      rw [payloads, if_pos rfl] at here
      have isNext : (streams t)[j t]? = some payload := by
        have first := congrArg List.head? here
        rwa [List.head?_drop, List.head?_cons] at first
      exact flowing.write proper.2 isNext taken
  | read t len => exact flowing.read short taken
  | retransmit t => exact flowing.retransmit taken
  | deliver k newIss => exact flowing.deliver nonempty noWrap taken
  | lose k =>
      simp only [talkStep, Option.bind_eq_bind, Option.bind_eq_some_iff] at taken
      obtain ⟨copy, -, taken⟩ := taken
      rw [← Option.some.inj taken]
      exact flowing.subset fun other member => List.mem_of_mem_eraseIdx member
  | duplicate k =>
      simp only [talkStep, Option.bind_eq_bind, Option.bind_eq_some_iff] at taken
      obtain ⟨copy, here, taken⟩ := taken
      rw [← Option.some.inj taken]
      refine flowing.subset fun other member => ?_
      rcases List.mem_append.mp member with old | new
      · exact old
      · exact List.mem_singleton.mp new ▸ List.mem_of_getElem? here

theorem run_flowing (nonempty : ∀ s, ∀ segment ∈ streams s, segment ≠ [])
    (noWrap : ∀ s, NoWrap (init s).sndNxt (streams s))
    (short : ∀ s, (streams s).flatten.length < 4294967296) (events : List TalkEvent)
    (proper : ∀ event ∈ events, event.Proper) (ahead : Ahead streams j events)
    (flowing : Flowing init streams talk j) (success : run talkStep talk events = some next) :
    ∃ j', Flowing init streams next j' := by
  induction events generalizing talk j with
  | nil =>
      cases Option.some.inj success
      exact ⟨j, flowing⟩
  | cons event rest ih =>
      obtain ⟨middle, taken, later⟩ := run_cons_some _ success
      obtain ⟨first, others⟩ := List.forall_mem_cons.mp proper
      exact ih others ahead.after (step_flowing nonempty noWrap short first ahead flowing taken) later

theorem mem_payloads {s : Side} {segment : List UInt8} {events : List TalkEvent}
    (member : segment ∈ payloads s events) : .write s segment ∈ events := by
  induction events with
  | nil => cases member
  | cons event rest ih =>
      cases event with
      | write t payload =>
          by_cases same : t = s
          · subst same
            rw [payloads, if_pos rfl] at member
            rcases List.mem_cons.mp member with rfl | later
            · exact List.mem_cons_self
            · exact List.mem_cons_of_mem _ (ih later)
          · rw [payloads, if_neg same] at member
            exact List.mem_cons_of_mem _ (ih member)
      | read t len => exact List.mem_cons_of_mem _ (ih member)
      | retransmit t => exact List.mem_cons_of_mem _ (ih member)
      | deliver k newIss => exact List.mem_cons_of_mem _ (ih member)
      | lose k => exact List.mem_cons_of_mem _ (ih member)
      | duplicate k => exact List.mem_cons_of_mem _ (ih member)

theorem flowing_start (established : ∀ s, (init s).state = .established)
    (agreed : ∀ s, (init s.peer).rcvNxt = (init s).sndNxt)
    (empty : ∀ s, (init s).sendBuf = [] ∧ (init s).rcvOfoBuf = []) :
    Flowing init streams (startTalk init) fun _ => 0 := by
  intro s
  have sender : ((startTalk init).host s).tsk.sendBuf = [] := (empty s).1
  have receiver : ((startTalk init).host s.peer).tsk.rcvOfoBuf = [] := (empty s.peer).2
  have rcvNxt : ((startTalk init).host s.peer).tsk.rcvNxt = (init s).sndNxt := agreed s
  refine ⟨⟨Nat.zero_le _, ?_, ?_, ?_⟩, [], 0, ⟨?_, ?_, ?_⟩⟩
  · simp [startTalk, seqOf, upTo]
  · intro packet member
    rw [sender] at member
    cases member
  · intro packet none
    cases none
  · refine ⟨established _, ⟨Nat.zero_le _, ?_, ?_, Or.inr ?_⟩, ?_, ?_, ?_, ?_⟩
    · rw [rcvNxt]
      simp [seqOf, upTo]
    · simp [startTalk, upTo]
    · have size := (init s.peer).rcvBuf.size_lt
      simp only [startTalk, List.length_nil]
      omega
    · intro i before
      omega
    · intro i none
      cases none
    · intro t member
      rw [receiver] at member
      cases member
    · intro i none
      cases none
  · intro i none
    cases none
  · intro packet none
    cases none

end Runs

/-- Whatever the network loses, doubles, delays or reorders, and whatever is sent again, what each
application has read and what waits in its ring buffer are the first bytes that the other one has
written; they are all of them once every segment has been processed. -/
theorem conversation_in_order (init : Side → TcpSock)
    (established : ∀ s, (init s).state = .established)
    (agreed : ∀ s, (init s.peer).rcvNxt = (init s).sndNxt)
    (empty : ∀ s, (init s).sendBuf = [] ∧ (init s).rcvOfoBuf = []) (events : List TalkEvent)
    (proper : ∀ event ∈ events, event.Proper)
    (noWrap : ∀ s, (init s).sndNxt.toNat + (payloads s events).flatten.length < 4294967296)
    (final : Conversation) (success : run talkStep (startTalk init) events = some final) (s : Side) :
    ∃ k ≤ (payloads s events).length,
      (final.host s.peer).written =
        (init s.peer).rcvBuf.contents ++ ((payloads s events).take k).flatten ∧
      ((∀ i : Fin (payloads s events).length, ∃ packet, (s.peer, packet) ∈ final.processed ∧
          packet.flags = TCP_PSH ||| TCP_ACK ∧
          packet.seq = seqOf (init s).sndNxt (payloads s events) i) →
        k = (payloads s events).length) := by
  let streams := fun s => payloads s events
  have nonempty (t : Side) : ∀ segment ∈ streams t, segment ≠ [] :=
    fun segment member => (proper _ (mem_payloads member)).1
  have fits (t : Side) : NoWrap (init t).sndNxt (streams t) := le_of_lt (noWrap t)
  have short (t : Side) : (streams t).flatten.length < 4294967296 :=
    lt_of_le_of_lt (Nat.le_add_left _ _) (noWrap t)
  obtain ⟨j, flowing⟩ := run_flowing nonempty fits short events proper (fun t => List.drop_zero)
    (flowing_start established agreed empty) success
  obtain ⟨-, seen, k, got⟩ := flowing s
  refine ⟨k, got.receiving.delivered.inside, got.receiving.delivered.written, ?_⟩
  intro all
  by_contra partly
  have inside : k ≤ (streams s).length := got.receiving.delivered.inside
  obtain ⟨packet, member, flags, seq⟩ := all ⟨k, lt_of_le_of_ne inside partly⟩
  obtain ⟨i, isSeen, same⟩ := got.processed packet member flags
  have before := lt_of_le_of_lt (length_upTo_le (streams s) k) (short s)
  exact got.receiving.missing i isSeen
    ((fits s).unrepeated (nonempty s) k inside before i (same.symm.trans seq))

/-- The first segment is lost, and sent again after the second one has arrived. -/
def smallTalk : List TalkEvent :=
  [.write .client [1, 2], .write .client [3], .lose 0, .deliver 0 0, .retransmit .client,
    .deliver 0 0, .read .server 2, .deliver 0 0]

def spoken : Conversation := (run talkStep (startTalk fun _ => smallSock) smallTalk).getD
  (startTalk fun _ => smallSock)

theorem conversation_in_order_small : ∃ k, (spoken.host .server).written =
    ((payloads .client smallTalk).take k).flatten := by
  have runs : (run talkStep (startTalk fun _ => smallSock) smallTalk).isSome := by decide +kernel
  obtain ⟨final, success⟩ := Option.isSome_iff_exists.mp runs
  have reached : spoken = final := by rw [spoken, success, Option.getD_some]
  obtain ⟨k, -, written, -⟩ := conversation_in_order (fun _ => smallSock) (fun _ => rfl)
    (fun _ => rfl) (fun _ => ⟨rfl, rfl⟩) smallTalk (by simp [smallTalk, TalkEvent.Proper])
    (fun s => by cases s <;> decide) final success .client
  rw [reached]
  exact ⟨k, written⟩

end NetworkLab.Tcp
