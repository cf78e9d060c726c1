import NetworkLab.Checksum
import NetworkLab.Tcp.Frame
import NetworkLab.Tcp.StackState

/-!
# Malformed packets

`handle_ip_packet`, `handle_tcp_packet` and `tcp_process` on the bytes of a frame, which
stop at the first null socket, negative length, read outside the frame or failed assertion
of `write_ring_buffer`.  The lengths in the headers are never compared with that of the
frame.
-/
set_option autoImplicit false

namespace NetworkLab.Tcp

open Lib.Bytes

inductive Fault
  | nullSocket
  | negativeLength
  | outside
  | sizeNotPositive
  | noRoom
deriving DecidableEq

/-- `fault` stands for a missing result. -/
def orFault {α : Type} (fault : Fault) : Option α → Except Fault α
  | some x => .ok x
  | none => .error fault

def inside {α : Type} : Option α → Except Fault α := orFault .outside

/-! ## The checksum -/

def htons (n : UInt16) : UInt16 := UInt16.ofNat (n.toNat % 256 * 256 + n.toNat / 256)

/-- The packet while the checksum is computed. -/
def clearChecksum (packet : List UInt8) (tcp : Nat) : List UInt8 :=
  (packet.set (tcp + 16) 0).set (tcp + 17) 0

/-- `tcp_checksum` after it has saved the field. -/
def clearedChecksum (packet : List UInt8) (tcp : Nat) : Option UInt16 := do
  let protocol ← ipProtocol packet
  let totLen ← ipTotLen packet
  let ipSize ← ipHdrSize packet
  let tcpLen := UInt16.ofInt (totLen.toNat - ipSize)
  let saddr ← read32Little packet (ETHER_HDR_SIZE + 12)
  let daddr ← read32Little packet (ETHER_HDR_SIZE + 16)
  checksum packet tcp tcpLen.toNat
    (saddr + daddr + (htons protocol.toUInt16).toUInt32 + (htons tcpLen).toUInt32)

def tcpChecksum (packet : List UInt8) (tcp : Nat) : Option UInt16 := do
  let _ ← read16Little packet (tcp + 16)
  clearedChecksum (clearChecksum packet tcp) tcp

/-! ## Writing with the reason of a failure -/

/-- `write_ring_buffer`; its assertion comes before the copy. -/
def writeChecked (rbuf : RingBuffer) (data : List UInt8) (size : Int) : Except Fault RingBuffer :=
  if size ≤ 0 then .error .sizeNotPositive
  else if rbuf.ringBufferFree < size then .error .noRoom
  else inside (rbuf.writeRingBuffer data size)

def drainPassChecked : List OfoPacket → TcpSock → Except Fault (TcpSock × List OfoPacket × Bool)
  | [], tsk => .ok (tsk, [], false)
  | t :: rest, tsk =>
    if t.seqNum = tsk.rcvNxt then do
      let rcvBuf ← writeChecked tsk.rcvBuf t.packet t.len
      let (next, left, _) ← drainPassChecked rest
        { tsk with rcvBuf := rcvBuf, rcvNxt := t.seqNum + UInt32.ofInt t.len }
      .ok (next, left, true)
    else do
      let (next, left, flag) ← drainPassChecked rest tsk
      .ok (next, t :: left, flag)

def drainChecked : Nat → TcpSock → Except Fault TcpSock
  | 0, tsk => .ok tsk
  | fuel + 1, tsk => do
    let (next, left, flag) ← drainPassChecked tsk.rcvOfoBuf tsk
    let drained := { next with rcvOfoBuf := left }
    if flag then drainChecked fuel drained else .ok drained

def tcpRcvInOrderChecked (cb : TcpCb) (tsk : TcpSock) : Except Fault Outcome := do
  let rcvBuf ← writeChecked tsk.rcvBuf cb.payload cb.plLen
  let drained ← drainChecked (tsk.rcvOfoBuf.length + 1)
    { tsk with rcvBuf := rcvBuf, rcvNxt := cb.seqEnd }
  let replied := tcpSendControlPacket TCP_ACK drained
  .ok { replied with effects := .wakeUp .waitRecv :: replied.effects }

/-- `tcp_process`; only its branches for a payload write or copy. -/
def tcpProcessChecked (iss : UInt32) (cb : TcpCb) (tsk : TcpSock) : Except Fault Outcome :=
  if ReachesPayload tsk cb ∧ cb.seq = tsk.rcvNxt then tcpRcvInOrderChecked cb tsk
  else inside (tcpProcess iss cb tsk)

/-! ## Handling a frame -/

/-- `elsewhere` are the packets that do not come to `handle_tcp_packet`. -/
inductive Handled (ι : Type)
  | elsewhere
  | dropped
  | processed (s : ι) (outcome : Outcome)

/-- `tcp_sock_accept_enqueue` and the `wake_up` behind it follow `parent`. -/
def Effect.enqueues : Effect → Bool
  | .acceptEnqueue => true
  | _ => false

def Outcome.enqueues (outcome : Outcome) : Bool := outcome.effects.any Effect.enqueues

namespace SocketStack

variable {ι : Type} [DecidableEq ι]

def handleTcpPacket (iss : UInt32) (packet : List UInt8) (tcp : Nat) (stack : SocketStack ι) :
    Except Fault (Handled ι) := do
  let sum ← inside (tcpChecksum packet tcp)
  let field ← inside (read16Little packet (tcp + 16))
  if sum = field then do
    let cb ← inside (frameCbInit packet tcp)
    if cb.plLen < 0 then .error .negativeLength
    else do
      let s ← orFault .nullSocket (stack.sockets.tcpSockLookup cb)
      let sock ← orFault .nullSocket (stack.sockets.socket s)
      let outcome ← tcpProcessChecked iss cb sock.tsk
      if outcome.enqueues ∧ sock.parent = none then .error .nullSocket
      else .ok (.processed s outcome)
  else .ok .dropped

/-- `ip` is the address of the interface. -/
def handleIpPacket (ip iss : UInt32) (packet : List UInt8) (stack : SocketStack ι) :
    Except Fault (Handled ι) := do
  let daddr ← inside (ipDaddr packet)
  if daddr = ip then do
    let protocol ← inside (ipProtocol packet)
    if protocol = IPPROTO_TCP then do
      let tcp ← inside (packetToTcpHdr packet)
      stack.handleTcpPacket iss packet tcp
    else .ok .elsewhere
  else .ok .elsewhere

end SocketStack

/-- `memory` is the frame and what lies behind it. -/
def Matches (ip : UInt32) (memory : List UInt8) : Prop :=
  ipDaddr memory = some ip ∧ ipProtocol memory = some IPPROTO_TCP ∧
    ∃ tcp field, packetToTcpHdr memory = some tcp ∧ tcpChecksum memory tcp = some field ∧
      read16Little memory (tcp + 16) = some field

/-- A buffer that is too full is not the fault of the packet. -/
def Safe {α : Type} (result : Except Fault α) : Prop :=
  ∀ fault, result = .error fault → fault = .noRoom

/-- The headers are inside the frame, and the lengths in them fit together and the frame. -/
def LengthsAgree (packet : List UInt8) : Prop :=
  ∃ ipSize totLen tcpSize, ipHdrSize packet = some ipSize ∧ ipTotLen packet = some totLen ∧
    tcpHdrSize packet (ETHER_HDR_SIZE + ipSize) = some tcpSize ∧
    ETHER_HDR_SIZE + IP_BASE_HDR_SIZE ≤ packet.length ∧
    ETHER_HDR_SIZE + ipSize + 18 ≤ packet.length ∧
    ipSize + tcpSize ≤ totLen.toNat ∧ ETHER_HDR_SIZE + totLen.toNat ≤ packet.length

/-- Some socket in the list of the packet's addresses has them, or one in the list of its
port has that. -/
def ForSocket {ι : Type} [DecidableEq ι] (sockets : Sockets ι) (cb : TcpCb) : Prop :=
  (∃ entry ∈ sockets.establishedTable,
      entry.1 = tcpHashFunction cb.daddr cb.saddr cb.dport cb.sport ∧
        sockets.hasTuple ⟨cb.daddr, cb.dport⟩ ⟨cb.saddr, cb.sport⟩ entry.2) ∨
    ∃ entry ∈ sockets.listenTable,
      entry.1 = tcpHashFunction 0 0 cb.dport 0 ∧ sockets.hasPort cb.dport entry.2

/-! ## Safe steps -/

section Safe

variable {α β : Type}

theorem safe_ok (x : α) : Safe (.ok x : Except Fault α) := fun _ impossible => nomatch impossible

theorem safe_error_iff {fault : Fault} :
    Safe (.error fault : Except Fault α) ↔ fault = .noRoom :=
  ⟨fun safe => safe fault rfl, fun same other error => by cases error; exact same⟩

theorem safe_bind_iff {fault : Fault} (other : fault ≠ .noRoom) {found : Option α}
    {next : α → Except Fault β} :
    Safe (orFault fault found >>= next) ↔ ∃ x, found = some x ∧ Safe (next x) := by
  cases found with
  | none =>
      apply iff_of_false
      · exact fun safe => other (safe fault rfl)
      · rintro ⟨x, impossible, -⟩
        cases impossible
  | some x =>
      constructor
      · exact fun safe => ⟨x, rfl, safe⟩
      · rintro ⟨y, same, safe⟩
        cases Option.some.inj same
        exact safe

theorem safe_bind_noRoom {found : Option α} {next : α → Except Fault β}
    (safe : ∀ x, found = some x → Safe (next x)) : Safe (orFault .noRoom found >>= next) := by
  cases found with
  | none => exact safe_error_iff.mpr rfl
  | some x => exact safe x rfl

theorem inside_bind_iff {found : Option α} {next : α → Except Fault β} :
    Safe (inside found >>= next) ↔ ∃ x, found = some x ∧ Safe (next x) :=
  safe_bind_iff (by decide)

end Safe

/-! ## `tcp_process` with complete payloads -/

section Process

variable {tsk : TcpSock} {cb : TcpCb} {iss : UInt32}

theorem writeChecked_eq {rbuf : RingBuffer} {data : List UInt8} {size : Int} (positive : 0 < size)
    (available : size ≤ data.length) :
    writeChecked rbuf data size = orFault .noRoom (rbuf.writeRingBuffer data size) := by
  unfold writeChecked RingBuffer.writeRingBuffer
  rw [if_neg (by omega)]
  split_ifs with full fits fits
  · omega
  · rfl
  · rfl
  · omega

theorem drainPassChecked_eq {queue : List OfoPacket} (complete : Complete queue) :
    drainPassChecked queue tsk = orFault .noRoom (drainPass queue tsk) := by
  induction queue generalizing tsk with
  | nil => rfl
  | cons t rest ih =>
      obtain ⟨whole, completeRest⟩ := List.forall_mem_cons.mp complete
      unfold drainPassChecked drainPass
      split_ifs with follows
      · rw [writeChecked_eq whole.1 (le_of_eq whole.2)]
        cases tsk.rcvBuf.writeRingBuffer t.packet t.len with
        | none => rfl
        | some rcvBuf =>
            change (drainPassChecked rest _ >>= _) = orFault _ ((drainPass rest _).bind _)
            rw [ih completeRest]
            cases drainPass rest _ with
            | none => rfl
            | some passed => rfl
      · rw [ih completeRest]
        cases drainPass rest tsk with
        | none => rfl
        | some passed => rfl

theorem drainChecked_eq (fuel : Nat) (complete : Complete tsk.rcvOfoBuf) :
    drainChecked fuel tsk = orFault .noRoom (drain fuel tsk) := by
  induction fuel generalizing tsk with
  | zero => rfl
  | succ fuel ih =>
      unfold drainChecked drain
      rw [drainPassChecked_eq complete]
      cases passed : drainPass tsk.rcvOfoBuf tsk with
      | none => rfl
      | some result =>
          obtain ⟨next, left, flag⟩ := result
          cases flag with
          | false => rfl
          | true => exact ih (drainPass_complete passed complete)

theorem tcpRcvInOrderChecked_eq (positive : 0 < cb.plLen) (available : cb.plLen ≤ cb.payload.length)
    (complete : Complete tsk.rcvOfoBuf) :
    tcpRcvInOrderChecked cb tsk = orFault .noRoom (tcpRcvInOrder cb tsk) := by
  unfold tcpRcvInOrderChecked tcpRcvInOrder
  rw [writeChecked_eq positive available]
  cases tsk.rcvBuf.writeRingBuffer cb.payload cb.plLen with
  | none => rfl
  | some rcvBuf =>
      let written : TcpSock := { tsk with rcvBuf := rcvBuf, rcvNxt := cb.seqEnd }
      have drains : drainChecked (tsk.rcvOfoBuf.length + 1) written =
          orFault .noRoom (drain (tsk.rcvOfoBuf.length + 1) written) := drainChecked_eq _ complete
      change (drainChecked _ written >>= _) = orFault _ ((drain _ written).bind _)
      rw [drains]
      cases drain (tsk.rcvOfoBuf.length + 1) written with
      | none => rfl
      | some drained => rfl

/-- What is left when the length is neither negative nor beyond the payload. -/
theorem tcpProcessChecked_eq (notNegative : 0 ≤ cb.plLen)
    (available : cb.plLen ≤ cb.payload.length) (complete : Complete tsk.rcvOfoBuf) :
    tcpProcessChecked iss cb tsk = orFault .noRoom (tcpProcess iss cb tsk) := by
  unfold tcpProcessChecked
  by_cases inOrder : ReachesPayload tsk cb ∧ cb.seq = tsk.rcvNxt
  · obtain ⟨reaches, same⟩ := inOrder
    have nonempty : cb.plLen ≠ 0 := reaches.2.2.2.2.2.2.2.2
    rw [if_pos ⟨reaches, same⟩, tcpProcess_payload reaches, if_pos same]
    exact tcpRcvInOrderChecked_eq (by omega) available complete
  · rw [if_neg inOrder]
    have passes : ∃ outcome, tcpProcess iss cb tsk = some outcome := by
      by_cases reaches : ReachesPayload tsk cb
      · rw [tcpProcess_payload reaches, if_neg fun same => inOrder ⟨reaches, same⟩]
        split_ifs
        · exact ⟨_, rfl⟩
        · exact ⟨_, by rw [tcpBufferOfo, if_pos ⟨notNegative, available⟩]⟩
      · obtain ⟨outcome, passes, -⟩ := tcpProcess_elsewhere reaches
        exact ⟨outcome, passes⟩
    obtain ⟨outcome, passes⟩ := passes
    rw [passes]
    rfl

end Process

/-! ## What the reads need -/

section Reads

variable {packet behind : List UInt8}

theorem stable_ipHdrSize : Stable ipHdrSize := (stable_read8 ETHER_HDR_SIZE).map _

theorem stable_packetToTcpHdr : Stable packetToTcpHdr := stable_ipHdrSize.map _

theorem stable_clearedChecksum (tcp : Nat) : Stable fun buffer => clearedChecksum buffer tcp :=
  (stable_read8 (ETHER_HDR_SIZE + 9)).bind fun _ =>
    (stable_read16 (ETHER_HDR_SIZE + 2)).bind fun _ => stable_ipHdrSize.bind fun _ =>
      (stable_read32Little (ETHER_HDR_SIZE + 12)).bind fun _ =>
        (stable_read32Little (ETHER_HDR_SIZE + 16)).bind fun _ => stable_checksum tcp _ _

theorem clearChecksum_append {tcp : Nat} (inside : tcp + 18 ≤ packet.length) :
    clearChecksum (packet ++ behind) tcp = clearChecksum packet tcp ++ behind := by
  unfold clearChecksum
  rw [List.set_append_left _ _ (by omega), List.set_append_left _ _ (by
    rw [List.length_set]
    omega)]

theorem length_clearChecksum (tcp : Nat) :
    (clearChecksum packet tcp).length = packet.length := by
  rw [clearChecksum, List.length_set, List.length_set]

theorem stable_tcpChecksum (tcp : Nat) : Stable fun buffer => tcpChecksum buffer tcp := by
  intro buffer behind sum success
  obtain ⟨field, found, success⟩ := Option.bind_eq_some_iff.mp success
  have bound := (exists_read16Little_iff buffer (tcp + 16)).mp ⟨field, found⟩
  have same : read16Little (buffer ++ behind) (tcp + 16) = some field :=
    stable_read16Little (tcp + 16) buffer behind field found
  dsimp only
  rw [tcpChecksum, same, clearChecksum_append (by omega)]
  exact stable_clearedChecksum tcp (clearChecksum buffer tcp) behind sum success

theorem read8_clearChecksum {tcp offset : Nat} (before : offset < tcp + 16) :
    read8 (clearChecksum packet tcp) offset = read8 packet offset := by
  unfold read8 clearChecksum
  rw [List.getElem?_set_ne (by omega), List.getElem?_set_ne (by omega)]

theorem ipHdrSize_clearChecksum {tcp : Nat} (behindEther : ETHER_HDR_SIZE ≤ tcp) :
    ipHdrSize (clearChecksum packet tcp) = ipHdrSize packet := by
  unfold ipHdrSize
  rw [read8_clearChecksum (by omega)]

theorem ipTotLen_clearChecksum {tcp : Nat} (behindEther : ETHER_HDR_SIZE ≤ tcp) :
    ipTotLen (clearChecksum packet tcp) = ipTotLen packet := by
  unfold ipTotLen read16
  rw [read8_clearChecksum (by omega), read8_clearChecksum (by omega)]

theorem exists_tcpChecksum_iff {tcp ipSize : Nat} {totLen : UInt16}
    (behindEther : ETHER_HDR_SIZE ≤ tcp) (size : ipHdrSize packet = some ipSize)
    (total : ipTotLen packet = some totLen) :
    (∃ sum, tcpChecksum packet tcp = some sum) ↔
      ETHER_HDR_SIZE + IP_BASE_HDR_SIZE ≤ packet.length ∧ tcp + 18 ≤ packet.length ∧
        ((UInt16.ofInt (totLen.toNat - ipSize)).toNat = 0 ∨
          tcp + (UInt16.ofInt (totLen.toNat - ipSize)).toNat ≤ packet.length) := by
  have sameLength : (clearChecksum packet tcp).length = packet.length := length_clearChecksum tcp
  have sameSize := (ipHdrSize_clearChecksum behindEther).trans size
  have sameTotal := (ipTotLen_clearChecksum behindEther).trans total
  constructor
  · rintro ⟨sum, success⟩
    obtain ⟨field, found, success⟩ := Option.bind_eq_some_iff.mp success
    have tcpHeader := (exists_read16Little_iff packet (tcp + 16)).mp ⟨field, found⟩
    simp only [clearedChecksum, sameTotal, sameSize, Option.bind_eq_bind, Option.bind_some]
      at success
    obtain ⟨protocol, -, success⟩ := Option.bind_eq_some_iff.mp success
    obtain ⟨saddr, -, success⟩ := Option.bind_eq_some_iff.mp success
    obtain ⟨daddr, found, success⟩ := Option.bind_eq_some_iff.mp success
    have ipHeader := (exists_read32Little_iff _ _).mp ⟨daddr, found⟩
    have words := (exists_checksum_iff _ _ _ _).mp ⟨sum, success⟩
    rw [sameLength] at ipHeader words
    exact ⟨ipHeader, tcpHeader, words⟩
  · rintro ⟨ipHeader, tcpHeader, words⟩
    rw [← sameLength] at ipHeader words
    have withIp : ETHER_HDR_SIZE + 16 + 4 ≤ (clearChecksum packet tcp).length := ipHeader
    obtain ⟨field, found⟩ := (exists_read16Little_iff packet (tcp + 16)).mpr tcpHeader
    obtain ⟨protocol, readsProtocol⟩ :=
      (exists_read8_iff (clearChecksum packet tcp) (ETHER_HDR_SIZE + 9)).mpr (by omega)
    obtain ⟨saddr, readsSaddr⟩ :=
      (exists_read32Little_iff (clearChecksum packet tcp) (ETHER_HDR_SIZE + 12)).mpr (by omega)
    obtain ⟨daddr, readsDaddr⟩ :=
      (exists_read32Little_iff (clearChecksum packet tcp) (ETHER_HDR_SIZE + 16)).mpr withIp
    obtain ⟨sum, sums⟩ := (exists_checksum_iff (clearChecksum packet tcp) tcp
      (UInt16.ofInt (totLen.toNat - ipSize)).toNat (saddr + daddr +
        (htons protocol.toUInt16).toUInt32 +
        (htons (UInt16.ofInt (totLen.toNat - ipSize))).toUInt32)).mpr words
    have readsProtocol : ipProtocol (clearChecksum packet tcp) = some protocol := readsProtocol
    exact ⟨sum, by simp [tcpChecksum, clearedChecksum, found, readsProtocol, sameTotal, sameSize,
      readsSaddr, readsDaddr, sums]⟩

theorem frameCbInit_some {tcp : Nat} {cb : TcpCb} (success : frameCbInit packet tcp = some cb) :
    ∃ ipSize totLen tcpSize, ipHdrSize packet = some ipSize ∧ ipTotLen packet = some totLen ∧
      tcpHdrSize packet tcp = some tcpSize ∧
      cb.plLen = totLen.toNat - ipSize - tcpSize ∧ cb.payload = packet.drop (tcp + tcpSize) := by
  obtain ⟨totLen, total, success⟩ := Option.bind_eq_some_iff.mp success
  obtain ⟨ipSize, size, success⟩ := Option.bind_eq_some_iff.mp success
  obtain ⟨tcpSize, offset, success⟩ := Option.bind_eq_some_iff.mp success
  obtain ⟨saddr, -, success⟩ := Option.bind_eq_some_iff.mp success
  obtain ⟨daddr, -, success⟩ := Option.bind_eq_some_iff.mp success
  obtain ⟨sport, -, success⟩ := Option.bind_eq_some_iff.mp success
  obtain ⟨dport, -, success⟩ := Option.bind_eq_some_iff.mp success
  obtain ⟨seq, -, success⟩ := Option.bind_eq_some_iff.mp success
  obtain ⟨flags, -, success⟩ := Option.bind_eq_some_iff.mp success
  obtain ⟨ack, -, success⟩ := Option.bind_eq_some_iff.mp success
  obtain ⟨rwnd, -, success⟩ := Option.bind_eq_some_iff.mp success
  cases Option.some.inj success
  exact ⟨ipSize, totLen, tcpSize, size, total, offset, rfl, rfl⟩

theorem toNat_ofInt {n : Int} (notNegative : 0 ≤ n) (below : n < 65536) :
    ((UInt16.ofInt n).toNat : Int) = n := by
  simp only [UInt16.ofInt, UInt16.toNat_ofNat']
  omega

theorem packetToTcpHdr_eq {tcp ipSize : Nat} (readsTcp : packetToTcpHdr packet = some tcp)
    (size : ipHdrSize packet = some ipSize) : ETHER_HDR_SIZE + ipSize = tcp := by
  rw [packetToTcpHdr, size] at readsTcp
  exact Option.some.inj readsTcp

theorem payload_inside {tcp : Nat} {cb : TcpCb} (readsTcp : packetToTcpHdr packet = some tcp)
    (sums : ∃ sum, tcpChecksum packet tcp = some sum) (inits : frameCbInit packet tcp = some cb)
    (notNegative : 0 ≤ cb.plLen) : cb.plLen ≤ cb.payload.length := by
  obtain ⟨ipSize, totLen, tcpSize, size, total, offset, plLen, payload⟩ := frameCbInit_some inits
  obtain rfl := packetToTcpHdr_eq readsTcp size
  obtain ⟨-, -, words⟩ := (exists_tcpChecksum_iff (Nat.le_add_right ..) size total).mp sums
  have below := totLen.toNat_lt
  have exact := toNat_ofInt (n := totLen.toNat - ipSize) (by omega) (by omega)
  rw [payload, List.length_drop]
  omega

end Reads

section Lookup

variable {ι : Type} [DecidableEq ι] {sockets : Sockets ι} {cb : TcpCb} {s : ι}

theorem exists_lookup_iff :
    (∃ s, sockets.tcpSockLookup cb = some s) ↔ ForSocket sockets cb := by
  unfold ForSocket
  unfold Sockets.tcpSockLookup Sockets.tcpSockLookupEstablished Sockets.tcpSockLookupListen
  rw [← Option.isSome_iff_exists]
  simp [Option.isSome_or]

end Lookup

section Frames

variable {ι : Type} [DecidableEq ι] {stack : SocketStack ι} {ip iss : UInt32}
  {packet behind : List UInt8}

/-- The headers of the packet can be read, and some socket is meant. -/
def MeansSocket (sockets : Sockets ι) (packet : List UInt8) : Prop :=
  ∃ tcp cb, packetToTcpHdr packet = some tcp ∧ frameCbInit packet tcp = some cb ∧
    ForSocket sockets cb

theorem not_enqueues_of_quiet {effects : List Effect} (quiet : ∀ effect ∈ effects, effect.quiet) :
    effects.any Effect.enqueues = false := by
  rw [List.any_eq_false]
  intro effect member enqueues
  have isQuiet := quiet effect member
  cases effect with
  | acceptEnqueue => cases isQuiet
  | _ => cases enqueues

theorem enqueues_synRecv {tsk : TcpSock} {cb : TcpCb} {outcome : Outcome}
    (success : tcpProcess iss cb tsk = some outcome) (enqueues : outcome.enqueues = true) :
    tsk.state = .synRecv := by
  cases tcpProcess_processed success with
  | quiet quiet kept =>
      rw [Outcome.enqueues, not_enqueues_of_quiet quiet] at enqueues
      cases enqueues
  | child listening child effects quiet state same =>
      subst same
      simp [Outcome.enqueues, Effect.enqueues, not_enqueues_of_quiet quiet] at enqueues
  | reset opened rst same =>
      subst same
      simp [Outcome.enqueues, Effect.enqueues,
        not_enqueues_of_quiet (quiet_tcpSockClose opened.2.1)] at enqueues
  | enqueue state rst syn ack acked quiet kept same => exact state
  | timewait state flags sent quiet kept same =>
      subst same
      simp [Outcome.enqueues, Effect.enqueues, not_enqueues_of_quiet quiet] at enqueues
  | unhash state acked quiet kept same =>
      subst same
      simp [Outcome.enqueues, Effect.enqueues, not_enqueues_of_quiet quiet] at enqueues

/-- Once the length is not negative and the payload inside the frame, a socket is all that
`tcp_process` needs. -/
theorem processes_safely {cb : TcpCb} (notNegative : 0 ≤ cb.plLen)
    (available : cb.plLen ≤ cb.payload.length) :
    Safe (do
        let s ← orFault .nullSocket (stack.sockets.tcpSockLookup cb)
        let sock ← orFault .nullSocket (stack.sockets.socket s)
        let outcome ← tcpProcessChecked iss cb sock.tsk
        if outcome.enqueues ∧ sock.parent = none then .error .nullSocket
        else .ok (.processed s outcome) : Except Fault (Handled ι)) ↔
      ForSocket stack.sockets cb := by
  rw [safe_bind_iff (by decide), ← exists_lookup_iff]
  apply exists_congr
  intro s
  constructor
  · exact fun found => found.1
  · intro found
    obtain ⟨sock, live, -⟩ := lookup_port found
    refine ⟨found, (safe_bind_iff (by decide)).mpr ⟨sock, live, ?_⟩⟩
    have complete := (stack.sound.buffering s sock live).complete
    rw [tcpProcessChecked_eq notNegative available complete]
    apply safe_bind_noRoom
    intro outcome success
    split_ifs with orphan
    · have synRecv := enqueues_synRecv success orphan.1
      exact absurd orphan.2 (stack.sound.parented s sock live (lookup_mem found) synRecv)
    · exact safe_ok _

theorem handleIpPacket_safe_iff (matching : Matches ip (packet ++ behind)) :
    Safe (stack.handleIpPacket ip iss packet) ↔
      ETHER_HDR_SIZE + IP_BASE_HDR_SIZE ≤ packet.length ∧
        ∃ tcp cb, packetToTcpHdr packet = some tcp ∧
          (∃ sum, tcpChecksum packet tcp = some sum) ∧ frameCbInit packet tcp = some cb ∧
          0 ≤ cb.plLen ∧ ForSocket stack.sockets cb := by
  obtain ⟨isDaddr, isProtocol, tcp, field, isTcp, isSum, isField⟩ := matching
  unfold SocketStack.handleIpPacket
  constructor
  · intro safe
    obtain ⟨daddr, readsDaddr, safe⟩ := inside_bind_iff.mp safe
    have header := (exists_read32_iff packet (ETHER_HDR_SIZE + 16)).mp ⟨daddr, readsDaddr⟩
    rw [if_pos ((stable_read32 (ETHER_HDR_SIZE + 16)).eq readsDaddr isDaddr)] at safe
    obtain ⟨protocol, readsProtocol, safe⟩ := inside_bind_iff.mp safe
    rw [if_pos ((stable_read8 (ETHER_HDR_SIZE + 9)).eq readsProtocol isProtocol)] at safe
    obtain ⟨other, readsTcp, safe⟩ := inside_bind_iff.mp safe
    obtain rfl := stable_packetToTcpHdr.eq readsTcp isTcp
    obtain ⟨sum, sums, safe⟩ := inside_bind_iff.mp safe
    obtain rfl := (stable_tcpChecksum other).eq sums isSum
    obtain ⟨stored, readsField, safe⟩ := inside_bind_iff.mp safe
    rw [if_pos ((stable_read16Little (other + 16)).eq readsField isField).symm] at safe
    obtain ⟨cb, inits, safe⟩ := inside_bind_iff.mp safe
    by_cases negative : cb.plLen < 0
    · rw [if_pos negative] at safe
      cases safe_error_iff.mp safe
    · rw [if_neg negative] at safe
      have available := payload_inside readsTcp ⟨sum, sums⟩ inits (not_lt.mp negative)
      exact ⟨header, other, cb, readsTcp, ⟨sum, sums⟩, inits, not_lt.mp negative,
        (processes_safely (not_lt.mp negative) available).mp safe⟩
  · rintro ⟨header, other, cb, readsTcp, ⟨sum, sums⟩, inits, notNegative, forSocket⟩
    obtain rfl := stable_packetToTcpHdr.eq readsTcp isTcp
    obtain rfl := (stable_tcpChecksum other).eq sums isSum
    obtain ⟨daddr, readsDaddr⟩ := (exists_read32_iff packet (ETHER_HDR_SIZE + 16)).mpr header
    have inHeader : ETHER_HDR_SIZE + 9 + 1 ≤ packet.length := by
      rw [IP_BASE_HDR_SIZE] at header
      omega
    obtain ⟨protocol, readsProtocol⟩ := (exists_read8_iff packet (ETHER_HDR_SIZE + 9)).mpr inHeader
    obtain ⟨stored, readsField, -⟩ := Option.bind_eq_some_iff.mp sums
    have available := payload_inside readsTcp ⟨sum, sums⟩ inits notNegative
    refine inside_bind_iff.mpr ⟨daddr, readsDaddr, ?_⟩
    rw [if_pos ((stable_read32 (ETHER_HDR_SIZE + 16)).eq readsDaddr isDaddr)]
    refine inside_bind_iff.mpr ⟨protocol, readsProtocol, ?_⟩
    rw [if_pos ((stable_read8 (ETHER_HDR_SIZE + 9)).eq readsProtocol isProtocol)]
    refine inside_bind_iff.mpr ⟨other, readsTcp, ?_⟩
    refine inside_bind_iff.mpr ⟨sum, sums, ?_⟩
    refine inside_bind_iff.mpr ⟨stored, readsField, ?_⟩
    rw [if_pos ((stable_read16Little (other + 16)).eq readsField isField).symm]
    refine inside_bind_iff.mpr ⟨cb, inits, ?_⟩
    rw [if_neg (not_lt.mpr notNegative)]
    exact (processes_safely notNegative available).mpr forSocket

theorem lengthsAgree_iff {sockets : Sockets ι} :
    (ETHER_HDR_SIZE + IP_BASE_HDR_SIZE ≤ packet.length ∧
        ∃ tcp cb, packetToTcpHdr packet = some tcp ∧
          (∃ sum, tcpChecksum packet tcp = some sum) ∧ frameCbInit packet tcp = some cb ∧
          0 ≤ cb.plLen ∧ ForSocket sockets cb) ↔
      LengthsAgree packet ∧ MeansSocket sockets packet := by
  constructor
  · rintro ⟨header, tcp, cb, readsTcp, sums, inits, notNegative, forSocket⟩
    obtain ⟨ipSize, totLen, tcpSize, size, total, offset, plLen, -⟩ := frameCbInit_some inits
    obtain rfl := packetToTcpHdr_eq readsTcp size
    have behindEther : ETHER_HDR_SIZE ≤ ETHER_HDR_SIZE + ipSize := Nat.le_add_right ..
    obtain ⟨-, tcpHeader, words⟩ := (exists_tcpChecksum_iff behindEther size total).mp sums
    have below := totLen.toNat_lt
    have exact := toNat_ofInt (n := totLen.toNat - ipSize) (by omega) (by omega)
    exact ⟨⟨ipSize, totLen, tcpSize, size, total, offset, header, tcpHeader, by omega, by omega⟩,
      ⟨_, cb, readsTcp, inits, forSocket⟩⟩
  · rintro ⟨⟨ipSize, totLen, tcpSize, size, total, offset, header, tcpHeader, fits, inFrame⟩, tcp,
      cb, readsTcp, inits, forSocket⟩
    obtain rfl := packetToTcpHdr_eq readsTcp size
    obtain ⟨otherSize, otherLen, otherOffset, sameSize, sameLen, sameOffset, plLen, -⟩ :=
      frameCbInit_some inits
    obtain rfl := Option.some.inj (size.symm.trans sameSize)
    obtain rfl := Option.some.inj (total.symm.trans sameLen)
    obtain rfl := Option.some.inj (offset.symm.trans sameOffset)
    have below := totLen.toNat_lt
    have exact := toNat_ofInt (n := totLen.toNat - ipSize) (by omega) (by omega)
    exact ⟨header, _, cb, readsTcp, (exists_tcpChecksum_iff (Nat.le_add_right ..) size total).mpr
      ⟨header, tcpHeader, .inr (by omega)⟩, inits, by omega, forSocket⟩

end Frames

/-- A frame is handled safely exactly when its lengths agree and it is meant for a socket. -/
theorem frames_handled_safely {ι : Type} [DecidableEq ι] (stack : SocketStack ι) (ip iss : UInt32)
    (packet behind : List UInt8) (matching : Matches ip (packet ++ behind)) :
    Safe (stack.handleIpPacket ip iss packet) ↔
      LengthsAgree packet ∧ MeansSocket stack.sockets packet :=
  (handleIpPacket_safe_iff matching).trans lengthsAgree_iff

def synFrame : List UInt8 :=
  Segment.toFrame
    { ether := List.replicate 14 0, length_ether := rfl, id := 0, ipChecksum := 0,
      tcpChecksum := 0x4496 }
    { saddr := 0x0a000002, daddr := 0x0a000001, totLen := 40, sport := 12345, dport := 10001,
      seq := 0, ack := 0, flags := TCP_SYN, rwnd := 65535, payload := [] }

def newStack : SocketStack Nat := .after [] rfl

theorem synFrame_matches : Matches 0x0a000001 (synFrame ++ []) :=
  ⟨by decide, by decide, 34, 0x9644, by decide, by decide, by decide⟩

theorem frames_handled_safely_syn :
    Safe (newStack.handleIpPacket 0x0a000001 0 synFrame) ↔
      LengthsAgree synFrame ∧ MeansSocket newStack.sockets synFrame :=
  frames_handled_safely newStack 0x0a000001 0 synFrame [] synFrame_matches

/-- A SYN to a port that nobody listens to is handled with a null socket. -/
theorem syn_to_closed_port :
    ¬ ∀ packet behind, Matches 0x0a000001 (packet ++ behind) →
      Safe (newStack.handleIpPacket 0x0a000001 0 packet) := by
  intro handled
  have nullSocket : newStack.handleIpPacket 0x0a000001 0 synFrame = .error .nullSocket := rfl
  cases handled synFrame [] synFrame_matches .nullSocket nullSocket

end NetworkLab.Tcp
