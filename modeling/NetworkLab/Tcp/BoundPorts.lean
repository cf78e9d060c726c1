import NetworkLab.Lib.Bytes
import NetworkLab.Tcp.Demultiplexing

/-!
# Ports in `bind_table`

`tcp_port_in_use` as it runs.  Its loop takes every node of `bind_table`, which is a
`bind_hash_list`, for a `hash_list`, so what it compares with the port are two bytes of
another field of the socket.
-/
set_option autoImplicit false

namespace NetworkLab.Tcp

open Lib.Run Lib.Bytes

/-! ## The layout of `struct tcp_sock` -/

inductive Member
  | sockLocal
  | peer
  | parent
  | refCnt
  | hashList
  | bindHashList
deriving DecidableEq

namespace Member

/-- `struct sock_addr` is packed; pointers have eight bytes. -/
def size : Member → Nat
  | sockLocal | peer => 6
  | parent => 8
  | refCnt => 4
  | hashList | bindHashList => 16

def align : Member → Nat
  | sockLocal | peer => 1
  | parent | hashList | bindHashList => 8
  | refCnt => 4

end Member

def members : List Member := [.sockLocal, .peer, .parent, .refCnt, .hashList, .bindHashList]

def padding (offset align : Nat) : Nat := (align - offset % align) % align

def offsetFrom (member : Member) : Nat → List Member → Nat
  | offset, [] => offset
  | offset, first :: rest =>
    let start := offset + padding offset first.align
    if first = member then start else offsetFrom member (start + first.size) rest

def offsetof (member : Member) : Nat := offsetFrom member 0 members

def sockAddrPort : Nat := 4

def bytes64 (n : UInt64) : List UInt8 :=
  [n.toUInt8, (n >>> 8).toUInt8, (n >>> 16).toUInt8, (n >>> 24).toUInt8, (n >>> 32).toUInt8,
    (n >>> 40).toUInt8, (n >>> 48).toUInt8, (n >>> 56).toUInt8]

section Memory

variable {ι : Type} [DecidableEq ι]

structure Pointer (ι : Type) where
  object : ι
  offset : Nat

def listEntry (ptr : Pointer ι) (member : Member) : Pointer ι :=
  { ptr with offset := ptr.offset - offsetof member }

def pointerValue (address : ι → UInt64) : Option ι → UInt64
  | none => 0
  | some s => address s

def SockAddr.bytes (addr : SockAddr) : List UInt8 := bytes32 addr.ip ++ bytes16 addr.port

/-- The memory of a socket up to `hash_list`; the gaps are zero from `alloc_tcp_sock` on. -/
def Socket.bytes (address : ι → UInt64) (sock : Socket ι) : List UInt8 :=
  sock.tsk.localAddr.bytes ++ sock.tsk.peer.bytes ++ List.replicate (padding 12 8) 0 ++
    bytes64 (pointerValue address sock.parent) ++ bytes32 (UInt32.ofInt sock.refCnt) ++
    List.replicate (padding 28 8) 0

def skSport (address : ι → UInt64) (sockets : Sockets ι) (tsk : Pointer ι) : Option UInt16 := do
  let sock ← sockets.socket tsk.object
  read16Little (sock.bytes address) (tsk.offset + offsetof .sockLocal + sockAddrPort)

/-- The loop goes on from `tsk->hash_list.next`, so it stays on the nodes of `bind_table`. -/
def tcpPortInUse (address : ι → UInt64) (sockets : Sockets ι) (sport : UInt16) : Bool :=
  let value := tcpHashFunction 0 0 sport 0
  let list := sockets.bindTable.filter fun entry => entry.1 = value
  list.any fun entry =>
    let node : Pointer ι := { object := entry.2, offset := offsetof .bindHashList }
    skSport address sockets (listEntry node .hashList) = some sport

omit [DecidableEq ι] in
/-- What is read as `sk_sport` of a node of `bind_table` are the bits 32 to 47 of `parent`. -/
theorem skSport_bindHashList (address : ι → UInt64) {sockets : Sockets ι} {s : ι}
    {sock : Socket ι} (live : sockets.socket s = some sock) :
    skSport address sockets (listEntry ⟨s, offsetof .bindHashList⟩ .hashList) =
      some (pointerValue address sock.parent >>> 32).toUInt16 := by
  have pair : skSport address sockets (listEntry ⟨s, offsetof .bindHashList⟩ .hashList) =
      some (UInt16.ofNat ((pointerValue address sock.parent >>> 40).toUInt8.toNat * 256 +
        (pointerValue address sock.parent >>> 32).toUInt8.toNat)) := by
    unfold skSport
    simp only [listEntry, live]
    rfl
  rw [pair]
  congr 1
  apply UInt16.toNat_inj.mp
  have below := (pointerValue address sock.parent).toNat_lt
  simp only [UInt16.toNat_ofNat', UInt64.toNat_toUInt8, UInt64.toNat_toUInt16,
    UInt64.toNat_shiftRight, UInt64.reduceToNat, Nat.reduceMod, Nat.shiftRight_eq_div_pow]
  omega

end Memory

/-! ## Calls that bind -/

variable {ι : Type} [DecidableEq ι]

inductive PortCall (ι : Type)
  | alloc (s : ι)
  | bind (s : ι) (port : UInt16)
  | connect (s : ι) (ip : UInt32) (skaddr : SockAddr) (iss : UInt32)
  | bindUnhash (s : ι)

/-- `bind` and `connect` are for sockets that are not bound, and succeed. -/
def portStep (address : ι → UInt64) (sockets : Sockets ι) : PortCall ι → Option (Sockets ι)
  | .alloc s => sockets.allocTcpSock s allocTcpSock none
  | .bind s port =>
    if sockets.bindTable.Linked s then none
    else (sockets.tcpSockBind (tcpPortInUse address sockets) s port).filter
      fun next => next.bindTable.Linked s
  | .connect s ip skaddr iss =>
    if sockets.bindTable.Linked s then none
    else (sockets.tcpSockConnect (tcpPortInUse address sockets) s ip skaddr iss).filter
      fun next => next.bindTable.Linked s
  | .bindUnhash s => if sockets.bindTable.Linked s then sockets.tcpBindUnhash s else none

/-- `tcp_port_in_use` knows the ports of the bound sockets. -/
def PortsAnswered (address : ι → UInt64) (sockets : Sockets ι) : Prop :=
  ∀ port, tcpPortInUse address sockets port = true ↔
    ∃ s, sockets.bindTable.Linked s ∧ sockets.hasPort port s = true

/-- The port that `tcp_sock_set_sport` gives when none looks taken. -/
def givenPort (port : UInt16) : UInt16 := if port = 0 then UInt16.ofNat PORT_MIN else port

/-- The socket of a `bind` or `connect`, and the port that the call names or begins with. -/
def PortCall.asks : PortCall ι → Option (ι × UInt16)
  | .bind s port => some (s, givenPort port)
  | .connect s _ _ _ => some (s, UInt16.ofNat PORT_MIN)
  | _ => none

/-- The port that a call gives to its socket is that of no other bound socket. -/
def Exclusive (before : Sockets ι) (call : PortCall ι) (after : Sockets ι) : Prop :=
  ∀ s ∈ call.asks.map Prod.fst, ∀ t, t ≠ s → before.bindTable.Linked t →
    ∀ port, after.hasPort port s = true → before.hasPort port t = false

def Unbound (sockets : Sockets ι) (s : ι) : Prop :=
  (∃ sock, sockets.socket s = some sock) ∧ ¬ sockets.bindTable.Linked s

def BindsNone (sockets : Sockets ι) (call : PortCall ι) : Prop :=
  ∀ s ∈ call.asks.map Prod.fst, ¬ Unbound sockets s

/-- No bound socket has the port asked for, or `PORT_MIN` where none is. -/
def AsksFree (sockets : Sockets ι) (call : PortCall ι) : Prop :=
  ∀ asked ∈ call.asks, Unbound sockets asked.1 →
    ∀ t, sockets.bindTable.Linked t → sockets.hasPort asked.2 t = false

/-- No socket has a parent, and every bound one has a port. -/
structure Rootless (sockets : Sockets ι) : Prop where
  used : ∀ s sock, sockets.socket s = some sock → sockets.used s = true
  parent : ∀ s sock, sockets.socket s = some sock → sock.parent = none
  bound : ∀ s, sockets.bindTable.Linked s → ∃ sock, sockets.socket s = some sock ∧
    sock.tsk.localAddr.port ≠ 0

section Calls

variable {address : ι → UInt64} {sockets next : Sockets ι} {s : ι} {inUse : UInt16 → Bool}

omit [DecidableEq ι] in
/-- Among sockets without parents every bound port looks like 0. -/
theorem Rootless.tcpPortInUse_eq (address : ι → UInt64) (rootless : Rootless sockets)
    {port : UInt16} (set : port ≠ 0) :
    tcpPortInUse address sockets port = false := by
  unfold tcpPortInUse
  apply List.any_eq_false.mpr
  intro entry member
  obtain ⟨sock, live, -⟩ := rootless.bound entry.2 (linked_of_mem (List.mem_filter.mp member).1)
  dsimp only
  rw [skSport_bindHashList address live, rootless.parent entry.2 sock live]
  simpa [pointerValue] using fun same : (0 : UInt16) = port => set same.symm

omit [DecidableEq ι] in
theorem Rootless.answered_iff (rootless : Rootless sockets) :
    PortsAnswered address sockets ↔ sockets.bindTable = [] := by
  constructor
  · intro answered
    by_contra nonempty
    obtain ⟨entry, member⟩ := List.exists_mem_of_ne_nil _ nonempty
    obtain ⟨sock, live, set⟩ := rootless.bound entry.2 (linked_of_mem member)
    have inUse := (answered sock.tsk.localAddr.port).mpr
      ⟨entry.2, linked_of_mem member, by simp [Sockets.hasPort, live]⟩
    rw [rootless.tcpPortInUse_eq address set] at inUse
    cases inUse
  · intro empty port
    simp [tcpPortInUse, empty, HashTable.Linked]

/-- What a `bind` or `connect` that succeeds leaves. -/
structure BoundTo (port : UInt16) (s : ι) (sockets next : Sockets ι) : Prop where
  used : next.used = sockets.used
  table : ∃ hash, next.bindTable = (hash, s) :: sockets.bindTable
  self : ∃ sock, next.socket s = some sock ∧ sock.parent = none ∧
    sock.tsk.localAddr.port = port
  others : ∀ t, t ≠ s → next.socket t = sockets.socket t

theorem BoundTo.rootless {port : UInt16} (bound : BoundTo port s sockets next)
    (rootless : Rootless sockets) (set : port ≠ 0) (before : sockets.used s = true) :
    Rootless next := by
  obtain ⟨hash, table⟩ := bound.table
  obtain ⟨sock, live, parent, isPort⟩ := bound.self
  constructor
  · intro t other liveT
    rw [bound.used]
    by_cases same : t = s
    · rw [same]
      exact before
    · rw [bound.others t same] at liveT
      exact rootless.used t other liveT
  · intro t other liveT
    by_cases same : t = s
    · rw [same, live] at liveT
      rw [← Option.some.inj liveT]
      exact parent
    · rw [bound.others t same] at liveT
      exact rootless.parent t other liveT
  · intro t linked
    rw [table] at linked
    by_cases same : t = s
    · rw [same]
      exact ⟨sock, live, isPort ▸ set⟩
    · rw [bound.others t same]
      exact rootless.bound t ((linked_cons.mp linked).resolve_left same)

omit [DecidableEq ι] in
theorem tcpGetPort_first (free : inUse (UInt16.ofNat PORT_MIN) = false) :
    tcpGetPort inUse = UInt16.ofNat PORT_MIN := by
  unfold tcpGetPort
  rw [show PORT_MAX - PORT_MIN = 11110 + 1 from rfl, List.range'_succ, List.map_cons]
  simp [free]

theorem givenPort_ne_zero (port : UInt16) : givenPort port ≠ 0 := by
  unfold givenPort
  split_ifs with zero
  · decide
  · exact zero

theorem tcpSockSetSport_bound (free : ∀ port, port ≠ 0 → inUse port = false) (port : UInt16)
    {sock : Socket ι} (live : sockets.socket s = some sock) (parent : sock.parent = none) :
    ∃ next, sockets.tcpSockSetSport inUse s port = some (next, true) ∧
      BoundTo (givenPort port) s sockets next := by
  have first : tcpGetPort inUse = UInt16.ofNat PORT_MIN := tcpGetPort_first (free _ (by decide))
  have works : ¬ PortFails inUse port := by
    rintro (⟨set, used⟩ | zero)
    · rw [free port set] at used
      cases used
    · rw [first] at zero
      exact givenPort_ne_zero port zero
  have runs : ∃ result, sockets.tcpSockSetSport inUse s port = some result := by
    rw [show sockets.tcpSockSetSport inUse s port = _ from if_neg works]
    simp [Sockets.update, live, Sockets.tcpBindHash]
  obtain ⟨⟨next, flag⟩, success⟩ := runs
  rcases tcpSockSetSport_some success with ⟨fails, -⟩ | ⟨-, rfl, sock', hash, live', rfl⟩
  · exact absurd fails works
  · obtain rfl := Option.some.inj (live.symm.trans live')
    rw [first] at success
    refine ⟨_, success, rfl, ⟨hash, rfl⟩, ⟨_, put_same _, parent, ?_⟩, fun t other => ?_⟩
    · rfl
    · exact (put_socket _ t).trans (if_neg other)

theorem tcpSockBind_bound (address : ι → UInt64) (rootless : Rootless sockets)
    (port : UInt16) {sock : Socket ι} (live : sockets.socket s = some sock) :
    ∃ next, sockets.tcpSockBind (tcpPortInUse address sockets) s port = some next ∧
      BoundTo (givenPort port) s sockets next := by
  obtain ⟨next, success, bound⟩ := tcpSockSetSport_bound
    (fun port set => rootless.tcpPortInUse_eq address set) port live
    (rootless.parent s sock live)
  exact ⟨next, by rw [Sockets.tcpSockBind, success]; rfl, bound⟩

structure SameBinding (s : ι) (sockets next : Sockets ι) : Prop where
  used : next.used = sockets.used
  table : next.bindTable = sockets.bindTable
  self : ∀ sock, sockets.socket s = some sock → ∃ after, next.socket s = some after ∧
    after.parent = sock.parent ∧ after.tsk.localAddr.port = sock.tsk.localAddr.port
  others : ∀ t, t ≠ s → next.socket t = sockets.socket t

theorem SameBinding.put {sock after : Socket ι} (live : sockets.socket s = some sock)
    (stores : next.socket = (sockets.put s after).socket) (used : next.used = sockets.used)
    (table : next.bindTable = sockets.bindTable) (parent : after.parent = sock.parent)
    (port : after.tsk.localAddr.port = sock.tsk.localAddr.port) :
    SameBinding s sockets next where
  used := used
  table := table
  self stored liveStored := by
    obtain rfl := Option.some.inj (live.symm.trans liveStored)
    exact ⟨after, stores ▸ put_same after, parent, port⟩
  others t other := by
    rw [stores]
    exact (put_socket after t).trans (if_neg other)

omit [DecidableEq ι] in
theorem BoundTo.andThen {port : UInt16} {middle : Sockets ι} (bound : BoundTo port s sockets middle)
    (same : SameBinding s middle next) : BoundTo port s sockets next := by
  obtain ⟨hash, table⟩ := bound.table
  obtain ⟨sock, live, parent, isPort⟩ := bound.self
  obtain ⟨after, liveAfter, sameParent, samePort⟩ := same.self sock live
  refine ⟨same.used.trans bound.used, ⟨hash, same.table.trans table⟩, ⟨after, liveAfter, ?_, ?_⟩,
    fun t other => ?_⟩
  · exact sameParent.trans parent
  · exact samePort.trans isPort
  · exact (same.others t other).trans (bound.others t other)

omit [DecidableEq ι] in
theorem BoundTo.after {port : UInt16} {middle : Sockets ι} (same : SameBinding s sockets middle)
    (bound : BoundTo port s middle next) : BoundTo port s sockets next where
  used := bound.used.trans same.used
  table := bound.table.imp fun _ table => same.table ▸ table
  self := bound.self
  others t other := (bound.others t other).trans (same.others t other)

theorem tcpHash_sameBinding {sock : Socket ι} (live : sockets.socket s = some sock) :
    ∃ next, sockets.tcpHash s = some next ∧ SameBinding s sockets next := by
  have runs : ∃ next, sockets.tcpHash s = some next := by
    unfold Sockets.tcpHash
    simp only [live, Sockets.update, Option.bind_eq_bind, Option.bind_some, Option.map_some]
    split_ifs <;> exact ⟨_, rfl⟩
  obtain ⟨next, success⟩ := runs
  refine ⟨next, success, ?_⟩
  rcases tcpHash_files success with rfl | ⟨sock', live', ⟨-, rfl⟩ | ⟨-, -, rfl⟩⟩
  · exact ⟨rfl, rfl, fun sock live => ⟨sock, live, rfl, rfl⟩, fun _ _ => rfl⟩
  · exact .put live' rfl rfl rfl rfl rfl
  · exact .put live' rfl rfl rfl rfl rfl

theorem sendSyn_sameBinding (inUse : UInt16 → Bool) {sock : Socket ι}
    (live : sockets.socket s = some sock) :
    ∃ next, sockets.applyOutcome inUse s s (tcpSendControlPacket TCP_SYN sock.tsk) = some next ∧
      SameBinding s sockets next := by
  have runs : ∃ next,
      sockets.applyOutcome inUse s s (tcpSendControlPacket TCP_SYN sock.tsk) = some next := by
    have flags : hasFlag TCP_SYN (TCP_SYN ||| TCP_FIN) = true := by decide
    simp [Sockets.applyOutcome, Sockets.update, live, tcpSendControlPacket, flags,
      Sockets.effectStep, Sockets.emit]
  obtain ⟨next, success⟩ := runs
  refine ⟨next, success, ?_⟩
  obtain ⟨sock', sent, live', rfl⟩ := applyOutcome_quiet (quiet_tcpSendControlPacket _ _) success
  obtain rfl := Option.some.inj (live.symm.trans live')
  have address : (tcpSendControlPacket TCP_SYN sock.tsk).tsk.localAddr = sock.tsk.localAddr := by
    unfold tcpSendControlPacket
    split_ifs <;> rfl
  exact .put live rfl rfl rfl rfl (congrArg SockAddr.port address)

theorem tcpSockConnect_bound (address : ι → UInt64) (rootless : Rootless sockets)
    (ip iss : UInt32) (skaddr : SockAddr) {sock : Socket ι} (live : sockets.socket s = some sock) :
    ∃ next, sockets.tcpSockConnect (tcpPortInUse address sockets) s ip skaddr iss = some next ∧
      BoundTo (UInt16.ofNat PORT_MIN) s sockets next := by
  have free : ∀ port, port ≠ 0 → tcpPortInUse address sockets port = false :=
    fun port set => rootless.tcpPortInUse_eq address set
  have first := tcpGetPort_first (free (UInt16.ofNat PORT_MIN) (by decide))
  let addressed : Socket ι := { sock with tsk := { sock.tsk with
    peer := skaddr, localAddr := { sock.tsk.localAddr with ip := ip } } }
  have started : SameBinding s sockets (sockets.put s addressed) := .put live rfl rfl rfl rfl rfl
  have liveAddressed : (sockets.put s addressed).socket s = some addressed := put_same addressed
  obtain ⟨bound, sets, isBound⟩ := tcpSockSetSport_bound free (UInt16.ofNat PORT_MIN)
    liveAddressed (rootless.parent s sock live)
  obtain ⟨stored, liveStored, -, -⟩ := isBound.self
  let connecting : Socket ι := { stored with
    tsk := { stored.tsk with iss := iss, sndNxt := iss, state := .synSent } }
  have moved : SameBinding s bound (bound.put s connecting) := .put liveStored rfl rfl rfl rfl rfl
  have liveConnecting : (bound.put s connecting).socket s = some connecting :=
    put_same connecting
  obtain ⟨hashed, hashes, isHashed⟩ := tcpHash_sameBinding liveConnecting
  obtain ⟨sender, liveSender, -⟩ := isHashed.self connecting liveConnecting
  obtain ⟨next, sends, isSent⟩ :=
    sendSyn_sameBinding (tcpPortInUse address sockets) liveSender
  refine ⟨next, ?_, ?_⟩
  · unfold Sockets.tcpSockConnect
    rw [first]
    simp only [Sockets.update, live, Option.map_some, Option.bind_eq_bind, Option.bind_some]
    rw [sets]
    simp only [Option.bind_some, if_true, liveStored, Option.map_some]
    rw [hashes]
    simp only [Option.bind_some, liveSender]
    exact sends
  · exact ((BoundTo.after started isBound).andThen moved |>.andThen isHashed).andThen isSent

omit [DecidableEq ι] in
theorem asks_ne_zero {call : PortCall ι} {asked : ι × UInt16} (asks : call.asks = some asked) :
    asked.2 ≠ 0 := by
  cases call with
  | bind s port =>
      obtain rfl := Option.some.inj asks
      exact givenPort_ne_zero port
  | connect s ip skaddr iss =>
      obtain rfl := Option.some.inj asks
      exact (by decide : UInt16.ofNat PORT_MIN ≠ 0)
  | _ => cases asks

/-- A call for an unbound socket binds it to the port that it asks for. -/
theorem portStep_binds (address : ι → UInt64) (rootless : Rootless sockets)
    {call : PortCall ι} {asked : ι × UInt16} (asks : call.asks = some asked) (unbound : Unbound sockets asked.1) :
    ∃ next, portStep address sockets call = some next ∧
      BoundTo asked.2 asked.1 sockets next := by
  obtain ⟨sock, live⟩ := unbound.1
  have linked : ∀ next, BoundTo asked.2 asked.1 sockets next →
      next.bindTable.Linked asked.1 := by
    intro next bound
    obtain ⟨hash, table⟩ := bound.table
    rw [table]
    exact linked_cons.mpr (.inl rfl)
  cases call with
  | bind s port =>
      obtain rfl := Option.some.inj asks
      obtain ⟨next, success, bound⟩ := tcpSockBind_bound address rootless port live
      refine ⟨next, ?_, bound⟩
      rw [portStep, if_neg unbound.2, success]
      exact Option.filter_eq_some_iff.mpr ⟨rfl, decide_eq_true (linked next bound)⟩
  | connect s ip skaddr iss =>
      obtain rfl := Option.some.inj asks
      obtain ⟨next, success, bound⟩ :=
        tcpSockConnect_bound address rootless ip iss skaddr live
      refine ⟨next, ?_, bound⟩
      rw [portStep, if_neg unbound.2, success]
      exact Option.filter_eq_some_iff.mpr ⟨rfl, decide_eq_true (linked next bound)⟩
  | _ => cases asks

theorem tcpSockBind_live {port : UInt16} (success : sockets.tcpSockBind inUse s port = some next)
    (linked : next.bindTable.Linked s) (before : ¬ sockets.bindTable.Linked s) :
    Unbound sockets s := by
  obtain ⟨⟨result, flag⟩, sets, rfl⟩ := Option.map_eq_some_iff.mp success
  rcases tcpSockSetSport_some sets with ⟨-, rfl, -⟩ | ⟨-, -, sock, hash, live, -⟩
  · exact absurd linked before
  · exact ⟨⟨sock, live⟩, before⟩

theorem portStep_unbound {call : PortCall ι} {asked : ι × UInt16} (asks : call.asks = some asked)
    (taken : portStep address sockets call = some next) : Unbound sockets asked.1 := by
  cases call with
  | bind s port =>
      obtain rfl := Option.some.inj asks
      simp only [portStep] at taken
      split_ifs at taken with before
      obtain ⟨success, linked⟩ := Option.filter_eq_some_iff.mp taken
      exact tcpSockBind_live success (of_decide_eq_true linked) before
  | connect s ip skaddr iss =>
      obtain rfl := Option.some.inj asks
      simp only [portStep] at taken
      split_ifs at taken with before
      obtain ⟨success, -⟩ := Option.filter_eq_some_iff.mp taken
      obtain ⟨sock, bound, flag, live, -⟩ := tcpSockConnect_some success
      exact ⟨⟨sock, live⟩, before⟩
  | _ => cases asks

theorem Rootless.alloc (rootless : Rootless sockets)
    (success : sockets.allocTcpSock s allocTcpSock none = some next) : Rootless next := by
  unfold Sockets.allocTcpSock at success
  split_ifs at success with used
  obtain rfl := Option.some.inj success
  have fresh : ∀ t, t = s → ¬ sockets.bindTable.Linked t := by
    intro t same linked
    obtain ⟨sock, live, -⟩ := rootless.bound t linked
    exact used (same ▸ rootless.used t sock live)
  constructor
  · intro t sock live
    by_cases same : t = s
    · rw [same]
      exact Function.update_self ..
    · have old := (put_socket _ t).symm.trans live
      rw [if_neg same] at old
      exact (Function.update_of_ne same _ _).trans (rootless.used t sock old)
  · intro t sock live
    have stored := (put_socket _ t).symm.trans live
    split_ifs at stored with same
    · rw [← Option.some.inj stored]
      rfl
    · exact rootless.parent t sock stored
  · intro t linked
    have other : t ≠ s := fun same => fresh t same linked
    obtain ⟨sock, live, set⟩ := rootless.bound t linked
    exact ⟨sock, ((put_socket _ t).trans (if_neg other)).trans live, set⟩

theorem Rootless.bindUnhash (rootless : Rootless sockets)
    (success : sockets.tcpBindUnhash s = some next) : Rootless next := by
  obtain ⟨sock, live, success⟩ := Option.bind_eq_some_iff.mp success
  split_ifs at success
  obtain ⟨stored, liveStored, rfl⟩ := Option.map_eq_some_iff.mp success
  obtain rfl := Option.some.inj (live.symm.trans liveStored)
  have before : ∀ t other, Function.update sockets.socket s
      (if sock.refCnt - 1 ≤ 0 then none else some { sock with refCnt := sock.refCnt - 1 }) t =
        some other → ∃ old, sockets.socket t = some old ∧ other.parent = old.parent := by
    intro t other liveT
    by_cases same : t = s
    · rw [same, Function.update_self] at liveT
      split_ifs at liveT
      rw [← Option.some.inj liveT, same]
      exact ⟨sock, live, rfl⟩
    · rw [Function.update_of_ne same] at liveT
      exact ⟨other, liveT, rfl⟩
  constructor
  · intro t other liveT
    obtain ⟨old, liveOld, -⟩ := before t other liveT
    exact rootless.used t old liveOld
  · intro t other liveT
    obtain ⟨old, liveOld, parent⟩ := before t other liveT
    exact parent.trans (rootless.parent t old liveOld)
  · intro t linked
    obtain ⟨other, linked⟩ := linked_unlink.mp linked
    obtain ⟨old, liveOld, set⟩ := rootless.bound t linked
    exact ⟨old, (Function.update_of_ne other _ _).trans liveOld, set⟩

theorem portStep_rootless (sockets : Sockets ι) (call : PortCall ι) (next : Sockets ι)
    (rootless : Rootless sockets) (taken : portStep address sockets call = some next) :
    Rootless next := by
  cases asks : call.asks with
  | some asked =>
      have unbound := portStep_unbound asks taken
      obtain ⟨next', taken', bound⟩ := portStep_binds address rootless asks unbound
      obtain rfl := Option.some.inj (taken.symm.trans taken')
      obtain ⟨sock, live⟩ := unbound.1
      exact bound.rootless rootless (asks_ne_zero asks) (rootless.used asked.1 sock live)
  | none =>
      cases call with
      | alloc s => exact rootless.alloc taken
      | bindUnhash s =>
          simp only [portStep] at taken
          split_ifs at taken
          exact rootless.bindUnhash taken
      | bind s port => cases asks
      | connect s ip skaddr iss => cases asks

theorem portStep_empty {call : PortCall ι} (asks : call.asks = none)
    (empty : sockets.bindTable = []) (taken : portStep address sockets call = some next) :
    next.bindTable = [] := by
  cases call with
  | alloc s =>
      simp only [portStep, Sockets.allocTcpSock] at taken
      split_ifs at taken
      obtain rfl := Option.some.inj taken
      exact empty
  | bindUnhash s =>
      simp only [portStep] at taken
      split_ifs at taken with linked
      rw [empty] at linked
      cases linked
  | bind s port => cases asks
  | connect s ip skaddr iss => cases asks

theorem portStep_answered {call : PortCall ι} (rootless : Rootless sockets)
    (answered : PortsAnswered address sockets)
    (taken : portStep address sockets call = some next) :
    PortsAnswered address next ↔ BindsNone sockets call := by
  rw [(portStep_rootless sockets call next rootless taken).answered_iff]
  rw [rootless.answered_iff] at answered
  unfold BindsNone
  cases asks : call.asks with
  | some asked =>
      have unbound := portStep_unbound asks taken
      obtain ⟨next', taken', bound⟩ := portStep_binds address rootless asks unbound
      obtain rfl := Option.some.inj (taken.symm.trans taken')
      obtain ⟨hash, table⟩ := bound.table
      simp [table, unbound]
  | none => simp [portStep_empty asks answered taken]

theorem portStep_exclusive {call : PortCall ι} (rootless : Rootless sockets)
    (taken : portStep address sockets call = some next) :
    Exclusive sockets call next ↔ AsksFree sockets call := by
  unfold Exclusive AsksFree
  cases asks : call.asks with
  | some asked =>
      have unbound := portStep_unbound asks taken
      obtain ⟨next', taken', bound⟩ := portStep_binds address rootless asks unbound
      obtain rfl := Option.some.inj (taken.symm.trans taken')
      obtain ⟨sock, live, -, isPort⟩ := bound.self
      have given : ∀ port, next.hasPort port asked.1 = true ↔ asked.2 = port := by
        intro port
        simp [Sockets.hasPort, live, isPort]
      simp only [Option.map_some, Option.mem_some_iff, forall_eq', given, unbound, forall_const]
      constructor
      · intro exclusive t linked
        exact exclusive t (fun same => unbound.2 (same ▸ linked)) linked
      · intro free t _ linked
        exact free t linked
  | none => simp

/-- A call that is not made is none for an unbound socket. -/
theorem portStep_stuck {call : PortCall ι} (rootless : Rootless sockets)
    (stuck : portStep address sockets call = none) :
    BindsNone sockets call ∧ AsksFree sockets call := by
  have none : ∀ asked ∈ call.asks, ¬ Unbound sockets asked.1 := by
    intro asked asks unbound
    obtain ⟨next, taken, -⟩ := portStep_binds address rootless asks unbound
    rw [stuck] at taken
    cases taken
  constructor
  · intro s member
    obtain ⟨asked, asks, rfl⟩ := Option.map_eq_some_iff.mp member
    exact none asked asks
  · exact fun asked asks unbound => absurd unbound (none asked asks)

end Calls

omit [DecidableEq ι] in
theorem rootless_noSockets : Rootless (noSockets : Sockets ι) where
  used := fun _ _ live => by cases live
  parent := fun _ _ live => by cases live
  bound := fun _ linked => by cases linked

/-- `tcp_port_in_use` answers right as long as no socket has been bound.  A call gives a port
that no other bound socket has exactly when none has the port asked for, or `PORT_MIN` where
the call leaves the choice. -/
theorem bound_ports (address : ι → UInt64) (calls : List (PortCall ι)) :
    (Always (portStep address) (PortsAnswered address) noSockets calls ↔
      Guarded (portStep address) BindsNone noSockets calls) ∧
    (EachStep (portStep address) Exclusive noSockets calls ↔
      Guarded (portStep address) AsksFree noSockets calls) := by
  constructor
  · apply always_iff_guarded (portStep address) portStep_rootless
    · exact fun _ _ _ rootless answered taken => portStep_answered rootless answered taken
    · exact fun _ _ rootless stuck => (portStep_stuck rootless stuck).1
    · exact rootless_noSockets
    · exact rootless_noSockets.answered_iff.mpr rfl
  · apply eachStep_iff_guarded (portStep address)
    · exact fun sockets call next rootless _ taken =>
        portStep_rootless sockets call next rootless taken
    · exact fun _ _ _ rootless taken => portStep_exclusive rootless taken
    · exact fun _ _ rootless stuck => (portStep_stuck rootless stuck).2
    · exact rootless_noSockets

/-- Two sockets are bound to port 80. -/
theorem port_bound_twice :
    (¬ ∀ (address : Nat → UInt64) (calls : List (PortCall Nat)),
      Always (portStep address) (PortsAnswered address) noSockets calls) ∧
    ¬ ∀ (address : Nat → UInt64) (calls : List (PortCall Nat)),
      EachStep (portStep address) Exclusive noSockets calls := by
  have bound : ∃ before, run (portStep fun _ => 0) noSockets
        [.alloc 0, .alloc 1, .bind (0 : Nat) 80] = some before ∧
      before.bindTable.Linked 0 ∧ before.hasPort 80 0 = true ∧
      tcpPortInUse (fun _ => 0) before 80 = false ∧
      ∃ after, portStep (fun _ => 0) before (.bind 1 80) = some after ∧
        after.hasPort 80 1 = true := ⟨_, rfl, by decide, by decide, by decide, _, rfl, by decide⟩
  obtain ⟨before, success, linked, hasPort, free, after, taken, given⟩ := bound
  constructor
  · intro always
    have answered := always_last _ _ (always _ _) success 80
    rw [answered.mpr ⟨0, linked, hasPort⟩] at free
    cases free
  · intro eachStep
    have exclusive := eachStep_last _ _ (eachStep _ _) success taken
    have other := exclusive 1 rfl 0 (by decide) linked 80 given
    rw [hasPort] at other
    cases other

end NetworkLab.Tcp
