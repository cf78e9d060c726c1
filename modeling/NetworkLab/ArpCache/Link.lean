import NetworkLab.ArpCache.Messages
import NetworkLab.Lib.InFlight
import NetworkLab.Lib.Run

/-!
# Nodes on common links

Hosts and routers that run `arp.c` and `arpcache.c`, with one cache for all interfaces of a node.
Frames are delayed, lost and doubled, the threads of a node are interleaved between
`arpcache_lookup` and `arpcache_append_packet`, and the sweeps come at any time.  Whatever
happens, every mapping of a cache is the true one, and a packet goes to the interface that it was
meant for.
-/
set_option autoImplicit false

namespace NetworkLab.ArpCache

open Lib Lib.Bytes Lib.Run

def ARP_ENTRY_TIMEOUT : Int := 15

def expireEntries (now : Int) (entries : Fin MAX_ARP_SIZE → ArpCacheEntry) :
    Fin MAX_ARP_SIZE → ArpCacheEntry :=
  fun i =>
    if (entries i).valid ∧ now - (entries i).added ≥ ARP_ENTRY_TIMEOUT then
      { entries i with valid := false }
    else entries i

def arpcacheSweep (now : Int) (cache : Cache) : Cache × List ArpEffect :=
  let (reqList, effects) := sweepRound now cache.reqList
  (⟨expireEntries now cache.entries, reqList⟩, effects)

structure Lan (Node Port Link : Type) where
  node : Port → Node
  iface : Port → Interface
  link : Port → Link
  ports : List Port
  complete : ∀ p, p ∈ ports
  nodup : ports.Nodup
  index_injective : ∀ p q, node p = node q → (iface p).index = (iface q).index → p = q
  ip_injective : ∀ p q, (iface p).ip = (iface q).ip → p = q
  mac_injective : ∀ p q, (iface p).mac = (iface q).mac → p = q
  unicast : ∀ p, (iface p).mac ≠ bcMac

/-- A frame on its way to an interface.  The source has no `serial`: it is the number of the call
of `iface_send_packet_by_arp` that the frame carries the packet of. -/
structure Copy (Port : Type) where
  port : Port
  frame : List UInt8
  serial : Option Nat

structure Ask (Port : Type) where
  port : Port
  dstIp : UInt32
  packet : List UInt8

structure Call (Port : Type) extends Ask Port where
  serial : Nat

/-- The caches with the frames on the links, and what has become of the calls. -/
structure State (Node Port : Type) where
  caches : Node → Cache
  asked : List (Ask Port)
  waiting : List (Call Port)
  inFlight : List (Copy Port)
  received : List (Copy Port)
  refused : List Nat

inductive LanEvent (Node Port : Type)
  | ask (p : Port) (dstIp : UInt32) (packet : List UInt8)
  | append (k : Nat) (now : Int)
  | deliver (k : Nat) (now : Int) (rand : Nat)
  /-- The frame is not for the interface, which does not take it in. -/
  | ignore (k : Nat)
  | lose (k : Nat)
  | duplicate (k : Nat)
  | sweep (n : Node) (now : Int)

namespace Lan

variable {Node Port Link : Type} [DecidableEq Node] [DecidableEq Port] [DecidableEq Link]
variable (L : Lan Node Port Link)

def copies (p : Port) (frame : List UInt8) (serial : Option Nat) : List (Copy Port) :=
  (L.ports.filter fun q => q ≠ p ∧ L.link q = L.link p).map fun q => ⟨q, frame, serial⟩

def portOf (n : Node) (iface : IfaceInfo) : Option Port :=
  L.ports.find? fun p => L.node p = n ∧ (L.iface p).index = iface.index

/-- The frames of an effect; what `icmp_send_packet` sends is asked for by another call. -/
def emits (n : Node) : ArpEffect → List (Copy Port)
  | .arpSendRequest _ iface ip4 =>
    (L.portOf n iface).toList.flatMap fun p => L.copies p (arpSendRequest (L.iface p) ip4) none
  | .ifaceSendPacket iface frame pkt =>
    (L.portOf n iface).toList.flatMap fun p => L.copies p frame (some pkt.serial)
  | .icmpSendPacket .. => []
  | .free .. => []

/-- The cache of a node is written back, and the effects take place. -/
def settle (state : State Node Port) (n : Node) (cache : Cache) (effects : List ArpEffect) :
    State Node Port :=
  { state with
    caches := Function.update state.caches n cache
    inFlight := state.inFlight ++ effects.flatMap (L.emits n)
    refused := state.refused ++ effects.filterMap fun effect =>
      effect.answered.map CachedPkt.serial }

/-- `handle_packet`, where a frame is for the IP layer or for `handle_arp_packet`.  It is undefined
from a write before the first entry on. -/
def handlePacket (state : State Node Port) (copy : Copy Port) (now : Int) (rand : Nat) :
    Option (State Node Port) := do
  let type ← read16 copy.frame ETHER_TYPE
  if type = ETH_P_IP then some { state with received := state.received ++ [copy] }
  else if type = ETH_P_ARP then
    let n := L.node copy.port
    let (replies, outcome) ←
      handleArpPacket now rand (L.iface copy.port) copy.frame (state.caches n)
    if ∀ k ∈ outcome.written, 0 ≤ k then
      let state :=
        { state with
          inFlight := state.inFlight ++ replies.flatMap fun reply => L.copies copy.port reply none }
      some (L.settle state n outcome.cache outcome.sent)
    else none
  else some state

/-- The frame is for another interface. -/
def Foreign (copy : Copy Port) : Prop :=
  readMac copy.frame 0 ≠ some (L.iface copy.port).mac ∧ readMac copy.frame 0 ≠ some bcMac

instance (copy : Copy Port) : Decidable (L.Foreign copy) :=
  inferInstanceAs (Decidable (_ ∧ _))

def step (state : State Node Port) : LanEvent Node Port → Option (State Node Port)
  | .ask p dstIp packet => do
    let call ← ifaceSendPacketByArp (L.iface p) dstIp packet (state.caches (L.node p))
    let serial := state.asked.length
    let ask : Ask Port := ⟨p, dstIp, packet⟩
    let state := { state with asked := state.asked ++ [ask] }
    match call with
    | .ifaceSendPacket frame =>
      some { state with inFlight := state.inFlight ++ L.copies p frame (some serial) }
    | .arpcacheAppendPacket packet =>
      let call : Call Port := { ask with packet := packet, serial := serial }
      some { state with waiting := state.waiting ++ [call] }
  | .append k now => do
    let call ← state.waiting[k]?
    let n := L.node call.port
    let (reqList, effects) := arpcacheAppendPacket now (L.iface call.port).toIfaceInfo call.dstIp
      call.serial call.packet (state.caches n).reqList
    let state := { state with waiting := state.waiting.eraseIdx k }
    some (L.settle state n ⟨(state.caches n).entries, reqList⟩ effects)
  | .deliver k now rand => do
    let copy ← state.inFlight[k]?
    L.handlePacket { state with inFlight := state.inFlight.eraseIdx k } copy now rand
  | .ignore k => do
    let copy ← state.inFlight[k]?
    if L.Foreign copy then some { state with inFlight := state.inFlight.eraseIdx k } else none
  | .lose k => do
    let _ ← state.inFlight[k]?
    some { state with inFlight := state.inFlight.eraseIdx k }
  | .duplicate k => do
    let copy ← state.inFlight[k]?
    some { state with inFlight := state.inFlight ++ [copy] }
  | .sweep n now =>
    let (cache, effects) := arpcacheSweep now (state.caches n)
    some (L.settle state n cache effects)

end Lan

def State.initial {Node Port : Type} : State Node Port where
  caches := fun _ => freshCache
  asked := []
  waiting := []
  inFlight := []
  received := []
  refused := []

/-! ## The truth -/

def replyFrame (iface other : Interface) : List UInt8 :=
  etherHeader other.mac iface.mac ETH_P_ARP ++
    EtherArp.bytes ⟨ARPOP_REPLY, iface.mac, iface.ip, other.mac, other.ip⟩

section Truth

variable {Node Port Link : Type} (L : Lan Node Port Link)

/-- The mappings are those of the interfaces. -/
def Bound (entries : Fin MAX_ARP_SIZE → ArpCacheEntry) : Prop :=
  ∀ i, (entries i).valid → ∃ q, (L.iface q).ip = (entries i).ip4 ∧ (L.iface q).mac = (entries i).mac

/-- The packet waits for the header of its call. -/
def Prepared (ask : Ask Port) (pending : List UInt8) : Prop :=
  ∀ mac, fillHeader mac (L.iface ask.port).mac pending =
    ipFrame mac (L.iface ask.port).mac ask.packet

/-- The request is one of an interface of the node, with packets of calls for its address. -/
structure Filing (asked : List (Ask Port)) (n : Node) (req : ArpReq) (p : Port) : Prop where
  node : L.node p = n
  iface : req.iface = (L.iface p).toIfaceInfo
  packets : ∀ pkt ∈ req.cachedPackets, ∃ ask, asked[pkt.serial]? = some ask ∧ ask.port = p ∧
    ask.dstIp = req.ip4 ∧ Prepared L ask pkt.packet

structure Carries (asked : List (Ask Port)) (copy : Copy Port) (serial : Nat) (ask : Ask Port)
    (q : Port) : Prop where
  numbered : copy.serial = some serial
  isAsked : asked[serial]? = some ask
  linked : L.link ask.port = L.link copy.port
  address : (L.iface q).ip = ask.dstIp
  frame : copy.frame = ipFrame (L.iface q).mac (L.iface ask.port).mac ask.packet

inductive Genuine (asked : List (Ask Port)) (copy : Copy Port) : Prop
  | request (p : Port) (dstIp : UInt32) (linked : L.link p = L.link copy.port)
      (unnumbered : copy.serial = none) (frame : copy.frame = arpSendRequest (L.iface p) dstIp)
  | reply (p r : Port) (linked : L.link p = L.link copy.port) (unnumbered : copy.serial = none)
      (frame : copy.frame = replyFrame (L.iface p) (L.iface r))
  | packet (serial : Nat) (ask : Ask Port) (q : Port) (carries : Carries L asked copy serial ask q)

structure Truthful (state : State Node Port) : Prop where
  entries : ∀ n, Bound L (state.caches n).entries
  requests : ∀ n, ∀ req ∈ (state.caches n).reqList, ∃ p, Filing L state.asked n req p
  waiting : ∀ call ∈ state.waiting, ∃ ask, state.asked[call.serial]? = some ask ∧
    ask.port = call.port ∧ ask.dstIp = call.dstIp ∧ Prepared L ask call.packet
  inFlight : ∀ copy ∈ state.inFlight, Genuine L state.asked copy
  received : ∀ copy ∈ state.received, ∃ serial ask q, Carries L state.asked copy serial ask q
  refused : ∀ serial ∈ state.refused, serial < state.asked.length

/-- What an effect of the node's cache says is true. -/
def Sincere (asked : List (Ask Port)) (n : Node) : ArpEffect → Prop
  | .arpSendRequest _ iface _ => ∃ p, L.node p = n ∧ iface = (L.iface p).toIfaceInfo
  | .ifaceSendPacket iface frame pkt => ∃ ask q, asked[pkt.serial]? = some ask ∧
    L.node ask.port = n ∧ iface = (L.iface ask.port).toIfaceInfo ∧
    (L.iface q).ip = ask.dstIp ∧ frame = ipFrame (L.iface q).mac (L.iface ask.port).mac ask.packet
  | .icmpSendPacket pkt _ _ => ∃ ask, asked[pkt.serial]? = some ask ∧ L.node ask.port = n
  | .free _ => True

theorem truthful_initial : Truthful L State.initial where
  entries n i valid := by cases valid
  requests n req member := by cases member
  waiting call member := by cases member
  inFlight copy member := by cases member
  received copy member := by cases member
  refused serial member := by cases member

section More

variable {L} {asked : List (Ask Port)} (last : Ask Port)

theorem isAsked_append {serial : Nat} {ask : Ask Port} (isAsked : asked[serial]? = some ask) :
    (asked ++ [last])[serial]? = some ask := by
  obtain ⟨inside, -⟩ := List.getElem?_eq_some_iff.mp isAsked
  rw [List.getElem?_append_left inside, isAsked]

theorem Filing.append {n : Node} {req : ArpReq} {p : Port} (filing : Filing L asked n req p) :
    Filing L (asked ++ [last]) n req p where
  node := filing.node
  iface := filing.iface
  packets pkt member := by
    obtain ⟨ask, isAsked, rest⟩ := filing.packets pkt member
    exact ⟨ask, isAsked_append last isAsked, rest⟩

theorem Carries.append {copy : Copy Port} {serial : Nat} {ask : Ask Port} {q : Port}
    (carries : Carries L asked copy serial ask q) :
    Carries L (asked ++ [last]) copy serial ask q :=
  ⟨carries.numbered, isAsked_append last carries.isAsked, carries.linked, carries.address,
    carries.frame⟩

theorem Genuine.append {copy : Copy Port} (genuine : Genuine L asked copy) :
    Genuine L (asked ++ [last]) copy := by
  cases genuine with
  | request p dstIp linked unnumbered frame => exact .request p dstIp linked unnumbered frame
  | reply p r linked unnumbered frame => exact .reply p r linked unnumbered frame
  | packet serial ask q carries => exact .packet serial ask q (carries.append last)

end More

/-! ## The cache -/

section Cache

variable {L}

theorem Bound.expire {entries : Fin MAX_ARP_SIZE → ArpCacheEntry} (bound : Bound L entries)
    (now : Int) : Bound L (expireEntries now entries) := by
  intro i valid
  unfold expireEntries at valid ⊢
  split_ifs at valid ⊢ with old
  exact bound i valid

theorem Bound.lookup {cache : Cache} (bound : Bound L cache.entries) {ip4 : UInt32} {mac : Mac}
    (found : arpcacheLookup ip4 cache = some mac) :
    ∃ q, (L.iface q).ip = ip4 ∧ (L.iface q).mac = mac := by
  obtain ⟨i, isFirst, rfl⟩ := Option.map_eq_some_iff.mp found
  have maps : (cache.entries i).Maps ip4 := by simpa using List.find?_some isFirst
  obtain ⟨q, address, sameMac⟩ := bound i maps.1
  exact ⟨q, address.trans maps.2, sameMac⟩

theorem Bound.insert {cache : Cache} (bound : Bound L cache.entries) (now : Int) (rand : Nat)
    (q : Port) : Bound L
      (arpcacheInsert now (L.iface q).ip (L.iface q).mac rand cache).cache.entries := by
  intro i valid
  by_cases known : cache.Knows (L.iface q).ip
  · obtain ⟨entries, -⟩ :=
      @arpcacheInsert_known now (L.iface q).ip (L.iface q).mac rand cache known
    rw [entries i] at valid ⊢
    split_ifs at valid ⊢ with maps
    · exact ⟨q, maps.2.symm, rfl⟩
    · exact bound i valid
  · obtain ⟨pos, -, -, entries, -⟩ :=
      @arpcacheInsert_unknown now (L.iface q).ip (L.iface q).mac rand cache known
    rw [entries i] at valid ⊢
    split_ifs at valid ⊢ with here
    · exact ⟨q, rfl, rfl⟩
    · exact bound i valid

end Cache

/-! ## The requests -/

section Requests

variable {L} {asked : List (Ask Port)} {n : Node} {reqList : List ArpReq}

theorem filing_append (filed : ∀ req ∈ reqList, ∃ p, Filing L asked n req p) {ask : Ask Port}
    {serial : Nat} {pending : List UInt8} (isAsked : asked[serial]? = some ask)
    (own : L.node ask.port = n) (prepared : Prepared L ask pending) (now : Int) :
    let outcome := arpcacheAppendPacket now (L.iface ask.port).toIfaceInfo ask.dstIp serial pending
      reqList
    (∀ req ∈ outcome.1, ∃ p, Filing L asked n req p) ∧ ∀ effect ∈ outcome.2, Sincere L asked n effect := by
  dsimp only
  unfold arpcacheAppendPacket
  cases joined : joinRequest (L.iface ask.port).toIfaceInfo ask.dstIp serial pending reqList with
  | some next =>
      obtain ⟨before, req, rest, rfl, ⟨sameIndex, sameIp4⟩, rfl⟩ := joinRequest_some joined
      refine ⟨?_, fun effect none => absurd none List.not_mem_nil⟩
      intro other member
      rcases List.mem_append.mp member with earlier | later
      · exact filed other (List.mem_append_left _ earlier)
      rcases List.mem_cons.mp later with rfl | behind
      · obtain ⟨p, filing⟩ := filed req (by simp)
        have same : p = ask.port := by
          apply L.index_injective p ask.port (filing.node.trans own.symm)
          rw [← sameIndex, filing.iface]
        refine ⟨p, filing.node, filing.iface, ?_⟩
        intro pkt waits
        rcases List.mem_append.mp waits with old | new
        · exact filing.packets pkt old
        · cases List.mem_singleton.mp new
          exact ⟨ask, isAsked, same.symm, sameIp4.symm, prepared⟩
      · exact filed other (by simp [behind])
  | none =>
      constructor
      · intro req member
        rcases List.mem_cons.mp member with rfl | old
        · refine ⟨ask.port, own, rfl, ?_⟩
          intro pkt waits
          cases List.mem_singleton.mp waits
          exact ⟨ask, isAsked, rfl, rfl, prepared⟩
        · exact filed req old
      · intro effect member
        cases List.mem_singleton.mp member
        exact ⟨ask.port, own, rfl⟩

theorem filing_insert (filed : ∀ req ∈ reqList, ∃ p, Filing L asked n req p) (q : Port) :
    let outcome := insertScan (L.iface q).ip (L.iface q).mac reqList
    (∀ req ∈ outcome.1, ∃ p, Filing L asked n req p) ∧ ∀ effect ∈ outcome.2, Sincere L asked n effect := by
  dsimp only
  rcases insertScan_cases (L.iface q).ip (L.iface q).mac reqList with none |
    ⟨before, req, rest, rfl, sameIp4, scanned⟩
  · rw [none]
    exact ⟨filed, fun effect none => absurd none List.not_mem_nil⟩
  · rw [scanned]
    constructor
    · intro other member
      rcases List.mem_append.mp member with earlier | later
      · exact filed other (List.mem_append_left _ earlier)
      · exact filed other (by simp [later])
    · intro effect member
      obtain ⟨pkt, waits, rfl⟩ := List.mem_map.mp member
      obtain ⟨p, filing⟩ := filed req (by simp)
      obtain ⟨ask, isAsked, rfl, sameAddress, prepared⟩ := filing.packets pkt waits
      refine ⟨ask, q, isAsked, filing.node, filing.iface, ?_, ?_⟩
      · rw [sameAddress, sameIp4]
      · rw [filing.iface]
        exact prepared (L.iface q).mac

/-- A request of the sweep is too young, is sent again, or has been sent often enough. -/
theorem sweepScan_cons (now : Int) (req : ArpReq) (rest : List ArpReq) :
    sweepScan now (req :: rest) =
      (req :: (sweepScan now rest).1, (sweepScan now rest).2.1, (sweepScan now rest).2.2) ∨
    sweepScan now (req :: rest) =
      ({ req with retries := req.retries + 1 } :: (sweepScan now rest).1,
        .arpSendRequest req.number req.iface req.ip4 :: (sweepScan now rest).2.1,
        (sweepScan now rest).2.2) ∨
    sweepScan now (req :: rest) =
      ((sweepScan now rest).1, (sweepScan now rest).2.1,
        req.cachedPackets ++ (sweepScan now rest).2.2) := by
  by_cases early : now - req.sent < 1
  · exact Or.inl (if_pos early)
  · by_cases fewer : req.retries < ARP_REQUEST_MAX_RETRIES
    · exact Or.inr (Or.inl ((if_neg early).trans (if_pos fewer)))
    · exact Or.inr (Or.inr ((if_neg early).trans (if_neg fewer)))

theorem filing_sweepScan (filed : ∀ req ∈ reqList, ∃ p, Filing L asked n req p) (now : Int) :
    (∀ req ∈ (sweepScan now reqList).1, ∃ p, Filing L asked n req p) ∧
      (∀ effect ∈ (sweepScan now reqList).2.1, Sincere L asked n effect) ∧
      ∀ pkt ∈ (sweepScan now reqList).2.2,
        ∃ ask, asked[pkt.serial]? = some ask ∧ L.node ask.port = n := by
  induction reqList with
  | nil => simp [sweepScan]
  | cons req rest ih =>
      obtain ⟨first, others⟩ := List.forall_mem_cons.mp filed
      obtain ⟨stays, resent, dropped⟩ := ih others
      obtain ⟨p, filing⟩ := first
      rcases sweepScan_cons now req rest with early | again | given
      · rw [early]
        exact ⟨List.forall_mem_cons.mpr ⟨⟨p, filing⟩, stays⟩, resent, dropped⟩
      · rw [again]
        exact ⟨List.forall_mem_cons.mpr ⟨⟨p, filing.node, filing.iface, filing.packets⟩, stays⟩,
          List.forall_mem_cons.mpr ⟨⟨p, filing.node, filing.iface⟩, resent⟩, dropped⟩
      · rw [given]
        refine ⟨stays, resent, ?_⟩
        intro pkt member
        rcases List.mem_append.mp member with own | later
        · obtain ⟨ask, isAsked, onPort, -⟩ := filing.packets pkt own
          exact ⟨ask, isAsked, onPort ▸ filing.node⟩
        · exact dropped pkt later

theorem filing_sweep (filed : ∀ req ∈ reqList, ∃ p, Filing L asked n req p) (now : Int) :
    (∀ req ∈ (sweepRound now reqList).1, ∃ p, Filing L asked n req p) ∧
      ∀ effect ∈ (sweepRound now reqList).2, Sincere L asked n effect := by
  obtain ⟨stays, resent, dropped⟩ := filing_sweepScan filed now
  refine ⟨stays, ?_⟩
  intro effect member
  rcases List.mem_append.mp member with again | refused
  · exact resent effect again
  · obtain ⟨pkt, isDropped, isAnswer⟩ := List.mem_flatMap.mp refused
    rcases List.mem_cons.mp isAnswer with rfl | isFree
    · exact dropped pkt isDropped
    · cases List.mem_singleton.mp isFree
      exact trivial

end Requests

/-! ## Steps -/

section Steps

variable [DecidableEq Node] [DecidableEq Port] [DecidableEq Link]
variable {L} {state next : State Node Port}

omit [DecidableEq Node] in
theorem mem_copies {p : Port} {frame : List UInt8} {serial : Option Nat} {copy : Copy Port} :
    copy ∈ L.copies p frame serial ↔ (copy.port ≠ p ∧ L.link copy.port = L.link p) ∧
      copy.frame = frame ∧ copy.serial = serial := by
  unfold Lan.copies
  constructor
  · intro member
    obtain ⟨q, isOther, rfl⟩ := List.mem_map.mp member
    obtain ⟨-, other⟩ := List.mem_filter.mp isOther
    exact ⟨by simpa using other, rfl, rfl⟩
  · rintro ⟨other, rfl, rfl⟩
    exact List.mem_map.mpr ⟨copy.port, List.mem_filter.mpr ⟨L.complete _, by simpa using other⟩, rfl⟩

omit [DecidableEq Port] [DecidableEq Link] in
theorem portOf_eq {n : Node} {p : Port} (own : L.node p = n) :
    L.portOf n (L.iface p).toIfaceInfo = some p := by
  unfold Lan.portOf
  cases found : L.ports.find? fun q =>
      L.node q = n ∧ (L.iface q).index = (L.iface p).toIfaceInfo.index with
  | none =>
      have absent := List.find?_eq_none.mp found p (L.complete p)
      exact absurd own (by simpa using absent)
  | some q =>
      have same : L.node q = n ∧ (L.iface q).index = (L.iface p).index := by
        simpa using List.find?_some found
      rw [L.index_injective q p (same.1.trans own.symm) same.2]

theorem emits_genuine {n : Node} {effect : ArpEffect} {copy : Copy Port}
    (sincere : Sincere L state.asked n effect) (emitted : copy ∈ L.emits n effect) :
    Genuine L state.asked copy := by
  cases effect with
  | arpSendRequest number iface ip4 =>
      obtain ⟨p, own, rfl⟩ := sincere
      simp only [Lan.emits, portOf_eq own, Option.toList_some, List.flatMap_singleton] at emitted
      obtain ⟨⟨-, linked⟩, frame, unnumbered⟩ := mem_copies.mp emitted
      exact .request p ip4 linked.symm unnumbered frame
  | ifaceSendPacket iface frame pkt =>
      obtain ⟨ask, q, isAsked, own, rfl, address, isFrame⟩ := sincere
      simp only [Lan.emits, portOf_eq own, Option.toList_some, List.flatMap_singleton] at emitted
      obtain ⟨⟨-, linked⟩, sameFrame, numbered⟩ := mem_copies.mp emitted
      exact .packet pkt.serial ask q
        ⟨numbered, isAsked, linked.symm, address, sameFrame.trans isFrame⟩
  | icmpSendPacket pkt type code => cases emitted
  | free pkt => cases emitted

theorem settle_truthful {n : Node} {cache : Cache} {effects : List ArpEffect}
    (truthful : Truthful L state) (bound : Bound L cache.entries)
    (filed : ∀ req ∈ cache.reqList, ∃ p, Filing L state.asked n req p)
    (sincere : ∀ effect ∈ effects, Sincere L state.asked n effect) :
    Truthful L (L.settle state n cache effects) where
  entries m := by
    by_cases same : m = n
    · subst same
      simpa only [Lan.settle, Function.update_self] using bound
    · simpa only [Lan.settle, Function.update_of_ne same] using truthful.entries m
  requests m := by
    by_cases same : m = n
    · subst same
      simpa only [Lan.settle, Function.update_self] using filed
    · simpa only [Lan.settle, Function.update_of_ne same] using truthful.requests m
  waiting := truthful.waiting
  inFlight copy member := by
    rcases List.mem_append.mp member with old | new
    · exact truthful.inFlight copy old
    · obtain ⟨effect, isEffect, emitted⟩ := List.mem_flatMap.mp new
      exact emits_genuine (sincere effect isEffect) emitted
  received := truthful.received
  refused serial member := by
    rcases List.mem_append.mp member with old | new
    · exact truthful.refused serial old
    · obtain ⟨effect, isEffect, answered⟩ := List.mem_filterMap.mp new
      obtain ⟨pkt, isAnswered, rfl⟩ := Option.map_eq_some_iff.mp answered
      cases effect <;> cases isAnswered
      obtain ⟨ask, isAsked, -⟩ := sincere _ isEffect
      exact (List.getElem?_eq_some_iff.mp isAsked).choose

/-- The node inserts the address of an interface. -/
def learn (L : Lan Node Port Link) (state : State Node Port) (n : Node) (p : Port) (now : Int)
    (rand : Nat) : Option (State Node Port) :=
  let outcome := arpcacheInsert now (L.iface p).ip (L.iface p).mac rand (state.caches n)
  if ∀ k ∈ outcome.written, 0 ≤ k then some (L.settle state n outcome.cache outcome.sent) else none

theorem settle_nothing (n : Node) : L.settle state n (state.caches n) [] = state := by
  simp only [Lan.settle, Function.update_eq_self, List.flatMap_nil, List.filterMap_nil,
    List.append_nil]

section Handle

variable {copy : Copy Port} (now : Int) (rand : Nat)

theorem handlePacket_packet {dstMac srcMac : Mac} {packet : List UInt8}
    (frame : copy.frame = ipFrame dstMac srcMac packet) :
    L.handlePacket state copy now rand =
      some { state with received := state.received ++ [copy] } := by
  have type : read16 copy.frame ETHER_TYPE = some ETH_P_IP := by
    rw [frame]
    exact read16_etherType _ _ _ _
  simp only [Lan.handlePacket, type, Option.bind_eq_bind, Option.bind_some, if_true]

theorem handlePacket_arp {dhost shost : Mac} {arp : List UInt8}
    (frame : copy.frame = etherHeader dhost shost ETH_P_ARP ++ arp) :
    L.handlePacket state copy now rand =
      (handleArpPacket now rand (L.iface copy.port) copy.frame
        (state.caches (L.node copy.port))).bind fun (replies, outcome) =>
          if ∀ k ∈ outcome.written, 0 ≤ k then
            some (L.settle { state with
              inFlight := state.inFlight ++
                replies.flatMap fun reply => L.copies copy.port reply none }
              (L.node copy.port) outcome.cache outcome.sent)
          else none := by
  have type : read16 copy.frame ETHER_TYPE = some ETH_P_ARP := by
    rw [frame]
    exact read16_etherType _ _ _ _
  have other : ETH_P_ARP ≠ ETH_P_IP := by decide
  simp only [Lan.handlePacket, type, Option.bind_eq_bind, Option.bind_some, other, if_false, if_true]

theorem handlePacket_request {p : Port} {dstIp : UInt32}
    (frame : copy.frame = arpSendRequest (L.iface p) dstIp) :
    L.handlePacket state copy now rand =
      if (L.iface copy.port).ip = dstIp then
        learn L { state with
          inFlight := state.inFlight ++
            L.copies copy.port (replyFrame (L.iface copy.port) (L.iface p)) none }
          (L.node copy.port) p now rand
      else some state := by
  rw [handlePacket_arp now rand frame, frame, arpSendRequest, handleArpPacket_request]
  split_ifs with own
  · simp only [Option.bind_some, List.flatMap_singleton]
    rfl
  · simp only [Option.bind_some, List.flatMap_nil, List.append_nil, settle_nothing,
      List.not_mem_nil, false_implies, implies_true, if_true]

theorem handlePacket_reply {p r : Port} (frame : copy.frame = replyFrame (L.iface p) (L.iface r)) :
    L.handlePacket state copy now rand =
      if copy.port = r then learn L state (L.node copy.port) p now rand else some state := by
  rw [handlePacket_arp now rand frame, frame, replyFrame, handleArpPacket_reply]
  by_cases own : copy.port = r
  · simp only [own, if_true, Option.bind_some, List.flatMap_nil, List.append_nil]
    rfl
  · have other : (L.iface copy.port).ip ≠ (L.iface r).ip := fun same =>
      own (L.ip_injective _ _ same)
    simp only [own, other, if_false, Option.bind_some, List.flatMap_nil, List.append_nil,
      settle_nothing, List.not_mem_nil, false_implies, implies_true, if_true]

end Handle

theorem learn_settles {n : Node} {p : Port} {now : Int} {rand : Nat}
    (learned : learn L state n p now rand = some next) : ∃ cache effects,
      cache.reqList =
        (insertScan (L.iface p).ip (L.iface p).mac (state.caches n).reqList).1 ∧
      effects = (insertScan (L.iface p).ip (L.iface p).mac (state.caches n).reqList).2 ∧
      (Bound L (state.caches n).entries → Bound L cache.entries) ∧
      L.settle state n cache effects = next := by
  unfold learn at learned
  dsimp only at learned
  split_ifs at learned
  exact ⟨_, _, rfl, rfl, fun bound => bound.insert now rand p, Option.some.inj learned⟩

theorem learn_truthful {n : Node} {p : Port} {now : Int} {rand : Nat}
    (truthful : Truthful L state) (learned : learn L state n p now rand = some next) :
    Truthful L next := by
  obtain ⟨cache, effects, kept, sent, bound, rfl⟩ := learn_settles learned
  obtain ⟨stays, sincere⟩ := filing_insert (truthful.requests n) p
  rw [← kept] at stays
  rw [← sent] at sincere
  exact settle_truthful truthful (bound (truthful.entries n)) stays sincere

omit [DecidableEq Node] in
theorem replied_truthful (truthful : Truthful L state) (p r : Port) : Truthful L { state with
    inFlight := state.inFlight ++ L.copies p (replyFrame (L.iface p) (L.iface r)) none } := by
  refine ⟨truthful.entries, truthful.requests, truthful.waiting, ?_, truthful.received,
    truthful.refused⟩
  intro copy member
  rcases List.mem_append.mp member with old | new
  · exact truthful.inFlight copy old
  · obtain ⟨⟨-, linked⟩, frame, unnumbered⟩ := mem_copies.mp new
    exact .reply p r linked.symm unnumbered frame

theorem handlePacket_truthful {copy : Copy Port} {now : Int} {rand : Nat}
    (truthful : Truthful L state) (genuine : Genuine L state.asked copy)
    (handled : L.handlePacket state copy now rand = some next) : Truthful L next := by
  cases genuine with
  | request p dstIp linked unnumbered frame =>
      rw [handlePacket_request now rand frame] at handled
      split_ifs at handled
      · have replied := replied_truthful truthful copy.port p
        exact learn_truthful replied handled
      · exact Option.some.inj handled ▸ truthful
  | reply p r linked unnumbered frame =>
      rw [handlePacket_reply now rand frame] at handled
      split_ifs at handled
      · exact learn_truthful truthful handled
      · exact Option.some.inj handled ▸ truthful
  | packet serial ask q carries =>
      rw [handlePacket_packet now rand carries.frame] at handled
      rw [← Option.some.inj handled]
      refine ⟨truthful.entries, truthful.requests, truthful.waiting, truthful.inFlight, ?_,
        truthful.refused⟩
      intro other member
      rcases List.mem_append.mp member with old | new
      · exact truthful.received other old
      · cases List.mem_singleton.mp new
        exact ⟨serial, ask, q, carries⟩

omit [DecidableEq Node] [DecidableEq Port] [DecidableEq Link] in
/-- Frames may be lost, doubled and reordered. -/
theorem Truthful.ofSubset {frames : List (Copy Port)} (truthful : Truthful L state)
    (within : ∀ copy ∈ frames, copy ∈ state.inFlight) :
    Truthful L { state with inFlight := frames } :=
  ⟨truthful.entries, truthful.requests, truthful.waiting,
    fun copy member => truthful.inFlight copy (within copy member), truthful.received,
    truthful.refused⟩

theorem ask_truthful {p : Port} {dstIp : UInt32} {packet : List UInt8}
    (truthful : Truthful L state) (taken : L.step state (.ask p dstIp packet) = some next) :
    Truthful L next := by
  simp only [Lan.step, Option.bind_eq_bind, Option.bind_eq_some_iff] at taken
  obtain ⟨call, prepared, taken⟩ := taken
  have frame := ifaceSendPacketByArp_frame prepared
  let ask : Ask Port := ⟨p, dstIp, packet⟩
  have isLast : (state.asked ++ [ask])[state.asked.length]? = some ask := by simp
  have longer : Truthful L { state with asked := state.asked ++ [ask] } := by
    refine ⟨truthful.entries, ?_, ?_, ?_, ?_, ?_⟩
    · intro n req member
      obtain ⟨q, filing⟩ := truthful.requests n req member
      exact ⟨q, filing.append ask⟩
    · intro call member
      obtain ⟨old, isAsked, rest⟩ := truthful.waiting call member
      exact ⟨old, isAsked_append ask isAsked, rest⟩
    · exact fun copy member => (truthful.inFlight copy member).append ask
    · intro copy member
      obtain ⟨serial, old, q, carries⟩ := truthful.received copy member
      exact ⟨serial, old, q, carries.append ask⟩
    · intro serial member
      have before := truthful.refused serial member
      simp only [List.length_append]
      omega
  cases known : arpcacheLookup dstIp (state.caches (L.node p)) with
  | some dstMac =>
      rw [known] at frame
      subst frame
      rw [← Option.some.inj taken]
      refine ⟨longer.entries, longer.requests, longer.waiting, ?_, longer.received, longer.refused⟩
      intro copy member
      rcases List.mem_append.mp member with old | new
      · exact longer.inFlight copy old
      · obtain ⟨⟨-, linked⟩, isFrame, numbered⟩ := mem_copies.mp new
        obtain ⟨q, address, sameMac⟩ := (truthful.entries (L.node p)).lookup known
        exact .packet _ ask q ⟨numbered, isLast, linked.symm, address, sameMac ▸ isFrame⟩
  | none =>
      rw [known] at frame
      obtain ⟨pending, rfl, fills⟩ := frame
      rw [← Option.some.inj taken]
      refine ⟨longer.entries, longer.requests, ?_, longer.inFlight, longer.received, longer.refused⟩
      intro call member
      rcases List.mem_append.mp member with old | new
      · exact longer.waiting call old
      · cases List.mem_singleton.mp new
        exact ⟨ask, isLast, rfl, rfl, fills⟩

theorem append_truthful {k : Nat} {now : Int} (truthful : Truthful L state)
    (taken : L.step state (.append k now) = some next) : Truthful L next := by
  simp only [Lan.step, Option.bind_eq_bind, Option.bind_eq_some_iff] at taken
  obtain ⟨call, here, taken⟩ := taken
  obtain ⟨ask, isAsked, onPort, forIp, prepared⟩ :=
    truthful.waiting call (List.mem_of_getElem? here)
  have rest : Truthful L { state with waiting := state.waiting.eraseIdx k } :=
    ⟨truthful.entries, truthful.requests,
      fun call member => truthful.waiting call (List.mem_of_mem_eraseIdx member), truthful.inFlight,
      truthful.received, truthful.refused⟩
  obtain ⟨filed, sincere⟩ := filing_append (truthful.requests (L.node call.port)) isAsked
    (congrArg L.node onPort) prepared now
  rw [onPort, forIp] at filed sincere
  rw [← Option.some.inj taken]
  exact settle_truthful rest (truthful.entries (L.node call.port)) filed sincere

theorem step_truthful {event : LanEvent Node Port} (truthful : Truthful L state)
    (taken : L.step state event = some next) : Truthful L next := by
  cases event with
  | ask p dstIp packet => exact ask_truthful truthful taken
  | append k now => exact append_truthful truthful taken
  | deliver k now rand =>
      simp only [Lan.step, Option.bind_eq_bind, Option.bind_eq_some_iff] at taken
      obtain ⟨copy, here, handled⟩ := taken
      exact handlePacket_truthful
        (truthful.ofSubset fun other member => List.mem_of_mem_eraseIdx member)
        (truthful.inFlight copy (List.mem_of_getElem? here)) handled
  | ignore k =>
      simp only [Lan.step, Option.bind_eq_bind, Option.bind_eq_some_iff] at taken
      obtain ⟨copy, -, taken⟩ := taken
      split_ifs at taken
      rw [← Option.some.inj taken]
      exact truthful.ofSubset fun other member => List.mem_of_mem_eraseIdx member
  | lose k =>
      simp only [Lan.step, Option.bind_eq_bind, Option.bind_eq_some_iff] at taken
      obtain ⟨copy, -, taken⟩ := taken
      rw [← Option.some.inj taken]
      exact truthful.ofSubset fun other member => List.mem_of_mem_eraseIdx member
  | duplicate k =>
      simp only [Lan.step, Option.bind_eq_bind, Option.bind_eq_some_iff] at taken
      obtain ⟨copy, here, taken⟩ := taken
      rw [← Option.some.inj taken]
      refine truthful.ofSubset fun other member => ?_
      rcases List.mem_append.mp member with old | new
      · exact old
      · exact List.mem_singleton.mp new ▸ List.mem_of_getElem? here
  | sweep n now =>
      obtain ⟨stays, sincere⟩ := filing_sweep (truthful.requests n) now
      rw [← Option.some.inj taken]
      exact settle_truthful truthful ((truthful.entries n).expire now) stays sincere

theorem run_truthful {final : State Node Port} (events : List (LanEvent Node Port))
    (success : run L.step State.initial events = some final) : Truthful L final :=
  invariant_run L.step (fun _ _ _ truthful taken => step_truthful truthful taken) events
    (truthful_initial L) success

omit [DecidableEq Node] [DecidableEq Port] [DecidableEq Link] in
/-- A frame that carries a packet is foreign to all but the interface that it is meant for. -/
theorem Carries.foreign_iff {asked : List (Ask Port)} {copy : Copy Port} {serial : Nat}
    {ask : Ask Port} {q : Port} (carries : Carries L asked copy serial ask q) :
    L.Foreign copy ↔ copy.port ≠ q := by
  have dhost : readMac copy.frame 0 = some (L.iface q).mac := by
    rw [carries.frame]
    exact readMac_etherDhost _ _ _ _
  unfold Lan.Foreign
  rw [dhost]
  constructor
  · rintro ⟨other, -⟩ rfl
    exact other rfl
  · intro other
    exact ⟨fun same => other (L.mac_injective _ _ (Option.some.inj same).symm),
      fun same => L.unicast q (Option.some.inj same)⟩

end Steps

/-- Whatever is delayed, lost, doubled or overheard, in every state reached each lookup gives the
true address, and each IP packet that an interface takes in was asked for on its link, is
unchanged behind its header, and goes from the interface that was asked to the one that has the
next hop's address, which is the receiver unless the frame is addressed to another. -/
theorem packets_go_where_meant {Node Port Link : Type} [DecidableEq Node] [DecidableEq Port]
    [DecidableEq Link] (L : Lan Node Port Link) (events : List (LanEvent Node Port))
    (final : State Node Port) (success : run L.step State.initial events = some final) :
    (∀ n ip4 mac, arpcacheLookup ip4 (final.caches n) = some mac →
      ∃ q, (L.iface q).ip = ip4 ∧ (L.iface q).mac = mac) ∧
    ∀ copy ∈ final.received, ∃ ask ∈ final.asked, ∃ q, L.link ask.port = L.link copy.port ∧
      (L.iface q).ip = ask.dstIp ∧
      copy.frame = ipFrame (L.iface q).mac (L.iface ask.port).mac ask.packet ∧
      (L.Foreign copy ↔ copy.port ≠ q) := by
  have truthful := run_truthful events success
  refine ⟨fun n ip4 mac found => (truthful.entries n).lookup found, ?_⟩
  intro copy member
  obtain ⟨serial, ask, q, carries⟩ := truthful.received copy member
  exact ⟨ask, List.mem_of_getElem? carries.isAsked, q, carries.linked, carries.address,
    carries.frame, carries.foreign_iff⟩

end Truth

/-! ## Two hosts on a link -/

def hostIface (i : Fin 2) : Interface where
  index := 2
  mac := ⟨#[2, 0, 0, 0, 0, if i = 0 then 1 else 2], rfl⟩
  ip := if i = 0 then 0x0a000001 else 0x0a000002

def twoHosts : Lan (Fin 2) (Fin 2) Unit where
  node p := p
  iface := hostIface
  link _ := ()
  ports := List.finRange 2
  complete := List.mem_finRange
  nodup := List.nodup_finRange 2
  index_injective p q same _ := same
  ip_injective := by decide
  mac_injective := by decide
  unicast := by decide

/-- The first host sends a packet to the second one, whose address it has to ask for. -/
def exchange : List (LanEvent (Fin 2) (Fin 2)) :=
  [.ask 0 0x0a000002 (List.replicate 15 0), .append 0 0, .deliver 0 0 0, .deliver 0 0 0,
    .deliver 0 0 0]

def exchanged : State (Fin 2) (Fin 2) :=
  (run twoHosts.step State.initial exchange).getD State.initial

theorem run_exchange : run twoHosts.step State.initial exchange = some exchanged := by
  have runs : (run twoHosts.step State.initial exchange).isSome := by decide +kernel
  obtain ⟨final, success⟩ := Option.isSome_iff_exists.mp runs
  rw [exchanged, success, Option.getD_some]

theorem packets_go_where_meant_twoHosts : exchanged.received.length = 1 ∧
    ∀ copy ∈ exchanged.received, ∃ ask ∈ exchanged.asked, ∃ q, (hostIface q).ip = ask.dstIp := by
  refine ⟨by decide +kernel, ?_⟩
  intro copy member
  obtain ⟨ask, asked, q, -, address, -⟩ :=
    (packets_go_where_meant twoHosts exchange exchanged run_exchange).2 copy member
  exact ⟨ask, asked, q, address⟩

end NetworkLab.ArpCache
