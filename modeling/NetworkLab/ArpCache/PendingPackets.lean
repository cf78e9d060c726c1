import Mathlib.Data.List.Induction
import Mathlib.Data.List.Nodup
import Mathlib.Data.List.Perm.Basic

/-!
# Packets that wait for a MAC address

The pending requests of `arpcache.c`: `arpcache_append_packet`, and what `arpcache_insert` and
one round of `arpcache_sweep` do with `req_list`, in any order.
-/
set_option autoImplicit false

namespace NetworkLab.ArpCache

def ETH_ALEN : Nat := 6

def ARP_REQUEST_MAX_RETRIES : Nat := 5

def ICMP_DEST_UNREACH : UInt8 := 3

def ICMP_HOST_UNREACH : UInt8 := 1

abbrev Mac := Vector UInt8 ETH_ALEN

/-- `iface_info_t` with the fields that the ARP cache uses. -/
structure IfaceInfo where
  index : Nat
  mac : Mac
deriving DecidableEq

/-- The source keeps neither `serial`, the place of the packet among all that were appended, nor
`request`, the request that it waits in. -/
structure CachedPkt where
  serial : Nat
  request : Nat
  packet : List UInt8
deriving DecidableEq

/-- `number` tells the requests apart: it is the serial of the first packet. -/
structure ArpReq where
  number : Nat
  iface : IfaceInfo
  ip4 : UInt32
  sent : Int
  retries : Nat
  cachedPackets : List CachedPkt

def ArpReq.key (req : ArpReq) : Nat × UInt32 := (req.iface.index, req.ip4)

/-- `ifaceSendPacket` frees the frame that it sends. -/
inductive ArpEffect where
  | arpSendRequest (number : Nat) (iface : IfaceInfo) (ip4 : UInt32)
  | ifaceSendPacket (iface : IfaceInfo) (frame : List UInt8) (pkt : CachedPkt)
  | icmpSendPacket (pkt : CachedPkt) (type code : UInt8)
  | free (pkt : CachedPkt)

def joinRequest (iface : IfaceInfo) (ip4 : UInt32) (serial : Nat) (packet : List UInt8) :
    List ArpReq → Option (List ArpReq)
  | [] => none
  | req :: rest =>
    if req.iface.index = iface.index ∧ req.ip4 = ip4 then
      some ({ req with
        cachedPackets := req.cachedPackets ++
          [{ serial := serial, request := req.number, packet := packet }] } :: rest)
    else (joinRequest iface ip4 serial packet rest).map (req :: ·)

def arpcacheAppendPacket (now : Int) (iface : IfaceInfo) (ip4 : UInt32) (serial : Nat)
    (packet : List UInt8) (reqList : List ArpReq) : List ArpReq × List ArpEffect :=
  match joinRequest iface ip4 serial packet reqList with
  | some reqList => (reqList, [])
  | none =>
    let req : ArpReq :=
      { number := serial, iface := iface, ip4 := ip4, sent := now, retries := 1
        cachedPackets := [{ serial := serial, request := serial, packet := packet }] }
    (req :: reqList, [.arpSendRequest serial iface ip4])

/-- The two `memcpy` of `arpcache_insert` into a packet with an Ethernet header. -/
def fillHeader (mac source : Mac) (packet : List UInt8) : List UInt8 :=
  mac.toList ++ (source.toList ++ packet.drop (ETH_ALEN + ETH_ALEN))

/-- The scan of `req_list` in `arpcache_insert`. -/
def insertScan (ip4 : UInt32) (mac : Mac) : List ArpReq → List ArpReq × List ArpEffect
  | [] => ([], [])
  | req :: rest =>
    if req.ip4 = ip4 then
      -- The scan breaks off, even if the address is asked for on another interface too.
      (rest, req.cachedPackets.map fun pkt =>
        .ifaceSendPacket req.iface (fillHeader mac req.iface.mac pkt.packet) pkt)
    else
      let (reqList, sent) := insertScan ip4 mac rest
      (req :: reqList, sent)

/-- The scan of `req_list` in `arpcache_sweep`: what stays, the requests sent again, and
`pkt_list`. -/
def sweepScan (now : Int) : List ArpReq → List ArpReq × List ArpEffect × List CachedPkt
  | [] => ([], [], [])
  | req :: rest =>
    let (reqList, resent, pktList) := sweepScan now rest
    if now - req.sent < 1 then (req :: reqList, resent, pktList)
    else if req.retries < ARP_REQUEST_MAX_RETRIES then
      ({ req with retries := req.retries + 1 } :: reqList,
        .arpSendRequest req.number req.iface req.ip4 :: resent, pktList)
    else (reqList, resent, req.cachedPackets ++ pktList)

def answer (pkt : CachedPkt) : List ArpEffect :=
  [.icmpSendPacket pkt ICMP_DEST_UNREACH ICMP_HOST_UNREACH, .free pkt]

def sweepRound (now : Int) (reqList : List ArpReq) : List ArpReq × List ArpEffect :=
  let (reqList, resent, pktList) := sweepScan now reqList
  (reqList, resent ++ pktList.flatMap answer)

/-! ## Runs -/

inductive ArpEvent where
  | append (now : Int) (iface : IfaceInfo) (ip4 : UInt32) (packet : List UInt8)
  | insert (ip4 : UInt32) (mac : Mac)
  | sweep (now : Int)

structure Appended where
  iface : IfaceInfo
  ip4 : UInt32
  packet : List UInt8

abbrev ArpLog := List (ArpEvent × ArpEffect)

/-- `req_list` with what led to it: every packet appended, and every effect with its event. -/
structure History where
  reqList : List ArpReq
  appended : List Appended
  log : ArpLog

def History.record (history : History) (event : ArpEvent)
    (outcome : List ArpReq × List ArpEffect) : History :=
  { history with
    reqList := outcome.1
    log := history.log ++ outcome.2.map fun effect => (event, effect) }

def History.step (history : History) (event : ArpEvent) : History :=
  match event with
  | .append now iface ip4 packet =>
    let outcome :=
      arpcacheAppendPacket now iface ip4 history.appended.length packet history.reqList
    { history.record event outcome with
      appended := history.appended ++ [{ iface := iface, ip4 := ip4, packet := packet }] }
  | .insert ip4 mac => history.record event (insertScan ip4 mac history.reqList)
  | .sweep now => history.record event (sweepRound now history.reqList)

def after (events : List ArpEvent) : History :=
  events.foldl History.step { reqList := [], appended := [], log := [] }

/-! ## Where a packet is -/

def ArpEffect.sent : ArpEffect → Option CachedPkt
  | .ifaceSendPacket _ _ pkt => some pkt
  | _ => none

def ArpEffect.answered : ArpEffect → Option CachedPkt
  | .icmpSendPacket pkt _ _ => some pkt
  | _ => none

def ArpEffect.freed : ArpEffect → Option CachedPkt
  | .free pkt => some pkt
  | _ => none

def ArpEffect.left : ArpEffect → Option CachedPkt
  | .ifaceSendPacket _ _ pkt => some pkt
  | .icmpSendPacket pkt _ _ => some pkt
  | _ => none

def ArpEffect.requests (number : Nat) : ArpEffect → Bool
  | .arpSendRequest asked _ _ => asked = number
  | _ => false

def pendingPackets (reqList : List ArpReq) : List CachedPkt :=
  reqList.flatMap ArpReq.cachedPackets

def ArpLog.sent (log : ArpLog) : List CachedPkt := log.filterMap fun entry => entry.2.sent

def ArpLog.answered (log : ArpLog) : List CachedPkt :=
  log.filterMap fun entry => entry.2.answered

def ArpLog.freed (log : ArpLog) : List CachedPkt := log.filterMap fun entry => entry.2.freed

def ArpLog.left (log : ArpLog) : List CachedPkt := log.filterMap fun entry => entry.2.left

def ArpLog.leftOf (log : ArpLog) (number : Nat) : List CachedPkt :=
  log.left.filter fun pkt => pkt.request = number

def ArpLog.requests (log : ArpLog) (number : Nat) : Nat :=
  log.countP fun entry => entry.2.requests number

/-- The packet is the one that was appended under its serial, for the address on an interface
with the index. -/
def IsAppended (appended : List Appended) (pkt : CachedPkt) (index : Nat) (ip4 : UInt32) : Prop :=
  ∃ call, appended[pkt.serial]? = some call ∧ call.iface.index = index ∧ call.ip4 = ip4 ∧
    call.packet = pkt.packet

/-- What an effect says of the packet that leaves with it. -/
def Founded (appended : List Appended) (entry : ArpEvent × ArpEffect) : Prop :=
  match entry.2 with
  | .ifaceSendPacket iface frame pkt =>
    ∃ ip4 mac, entry.1 = .insert ip4 mac ∧ IsAppended appended pkt iface.index ip4 ∧
      frame = fillHeader mac iface.mac pkt.packet
  | .icmpSendPacket pkt type code =>
    type = ICMP_DEST_UNREACH ∧ code = ICMP_HOST_UNREACH ∧
      ∃ index ip4, IsAppended appended pkt index ip4
  | _ => True

structure Conserved (history : History) : Prop where
  /-- Every packet is in one of the three places, once. -/
  once : ((pendingPackets history.reqList ++ history.log.sent ++ history.log.answered).map
    CachedPkt.serial).Perm (List.range history.appended.length)
  pending : ∀ req ∈ history.reqList, ∀ pkt ∈ req.cachedPackets,
    pkt.request = req.number ∧ IsAppended history.appended pkt req.iface.index req.ip4
  gone : ∀ entry ∈ history.log, Founded history.appended entry
  freed : history.log.freed = history.log.answered
  single : (history.reqList.map ArpReq.key).Nodup
  ordered : ∀ number,
    ((history.log.leftOf number).map CachedPkt.serial).Pairwise (· < ·)
  requested : ∀ number, history.log.requests number ≤ ARP_REQUEST_MAX_RETRIES

/-! ## The log -/

section Log

variable (log : ArpLog) (event : ArpEvent) (number : Nat)

@[simp] theorem ArpLog.sent_append (more : ArpLog) :
    ArpLog.sent (log ++ more) = log.sent ++ more.sent := List.filterMap_append

@[simp] theorem ArpLog.answered_append (more : ArpLog) :
    ArpLog.answered (log ++ more) = log.answered ++ more.answered := List.filterMap_append

@[simp] theorem ArpLog.freed_append (more : ArpLog) :
    ArpLog.freed (log ++ more) = log.freed ++ more.freed := List.filterMap_append

@[simp] theorem ArpLog.leftOf_append (more : ArpLog) :
    ArpLog.leftOf (log ++ more) number = log.leftOf number ++ more.leftOf number := by
  simp only [ArpLog.leftOf, ArpLog.left, List.filterMap_append, List.filter_append]

@[simp] theorem ArpLog.requests_append (more : ArpLog) :
    ArpLog.requests (log ++ more) number = log.requests number + more.requests number :=
  List.countP_append

/-- The packets that entries of the log send and answer, and how often they ask for each
request. -/
structure Adds (entries : ArpLog) (out refused : List CachedPkt) (asked : Nat → Nat) :
    Prop where
  sent : entries.sent = out
  answered : entries.answered = refused
  freed : entries.freed = refused
  left : entries.left = out ++ refused
  requests : ∀ number, entries.requests number = asked number

theorem Adds.request (asked : Nat) (iface : IfaceInfo) (ip4 : UInt32) :
    Adds [(event, .arpSendRequest asked iface ip4)] [] []
      fun number => if asked = number then 1 else 0 where
  sent := rfl
  answered := rfl
  freed := rfl
  left := rfl
  requests number := by simp [ArpLog.requests, ArpEffect.requests, List.countP_cons]

theorem Adds.sends (iface : IfaceInfo) (frame : CachedPkt → List UInt8) (pkts : List CachedPkt) :
    Adds ((pkts.map fun pkt => ArpEffect.ifaceSendPacket iface (frame pkt) pkt).map
      fun effect => (event, effect)) pkts [] fun _ => 0 := by
  induction pkts with
  | nil => exact ⟨rfl, rfl, rfl, rfl, fun _ => rfl⟩
  | cons pkt rest ih =>
    exact ⟨congrArg (pkt :: ·) ih.sent, ih.answered, ih.freed, congrArg (pkt :: ·) ih.left,
      ih.requests⟩

theorem Adds.answers (pkts : List CachedPkt) :
    Adds ((pkts.flatMap answer).map fun effect => (event, effect)) [] pkts fun _ => 0 := by
  induction pkts with
  | nil => exact ⟨rfl, rfl, rfl, rfl, fun _ => rfl⟩
  | cons pkt rest ih =>
    exact ⟨ih.sent, congrArg (pkt :: ·) ih.answered, congrArg (pkt :: ·) ih.freed,
      congrArg (pkt :: ·) ih.left, ih.requests⟩

theorem Adds.leftOf {entries : ArpLog} {out refused : List CachedPkt} {asked : Nat → Nat}
    (adds : Adds entries out refused asked) (number : Nat) :
    entries.leftOf number = (out ++ refused).filter fun pkt => pkt.request = number := by
  rw [ArpLog.leftOf, adds.left]

section Grow

variable {log} {entries : ArpLog} {out refused : List CachedPkt} {asked : Nat → Nat}
  (adds : Adds entries out refused asked)

include adds

theorem Adds.leftOf_append (number : Nat) : ArpLog.leftOf (log ++ entries) number =
    log.leftOf number ++ (out ++ refused).filter fun pkt => pkt.request = number := by
  rw [ArpLog.leftOf_append, adds.leftOf]

theorem Adds.requests_append (number : Nat) :
    ArpLog.requests (log ++ entries) number = log.requests number + asked number := by
  rw [ArpLog.requests_append, adds.requests]

theorem Adds.freed_append (freed : log.freed = log.answered) :
    ArpLog.freed (log ++ entries) = ArpLog.answered (log ++ entries) := by
  rw [ArpLog.freed_append, ArpLog.answered_append, adds.freed, adds.answered, freed]

end Grow

theorem leftOf_request (asked : Nat) (iface : IfaceInfo) (ip4 : UInt32) :
    ArpLog.leftOf (log ++ [(event, .arpSendRequest asked iface ip4)]) number =
      log.leftOf number := by
  rw [(Adds.request event asked iface ip4).leftOf_append, List.append_nil, List.filter_nil,
    List.append_nil]

end Log

/-! ## The invariant -/

structure Filed (history : History) (pktList : List CachedPkt) (req : ArpReq) : Prop where
  numbered : req.number < history.appended.length
  asked : history.log.requests req.number = req.retries
  retries : req.retries ≤ ARP_REQUEST_MAX_RETRIES
  waits : history.log.leftOf req.number = []
  unlisted : ∀ pkt ∈ pktList, pkt.request ≠ req.number
  packets : ∀ pkt ∈ req.cachedPackets,
    pkt.request = req.number ∧ IsAppended history.appended pkt req.iface.index req.ip4
  queued : (req.cachedPackets.map CachedPkt.serial).Pairwise (· < ·)

/-- `pktList` holds the packets that a round of the sweep has taken out and not yet answered. -/
structure Sound (history : History) (pktList : List CachedPkt) : Prop where
  once : ((pendingPackets history.reqList ++ pktList ++ history.log.sent ++
    history.log.answered).map CachedPkt.serial).Perm (List.range history.appended.length)
  filed : ∀ req ∈ history.reqList, Filed history pktList req
  single : (history.reqList.map ArpReq.key).Nodup
  named : (history.reqList.map ArpReq.number).Nodup
  listed : ∀ pkt ∈ pktList, pkt.request < history.appended.length ∧
    ∃ index ip4, IsAppended history.appended pkt index ip4
  gone : ∀ entry ∈ history.log, Founded history.appended entry
  freed : history.log.freed = history.log.answered
  ordered : ∀ number, ((history.log.leftOf number ++
    pktList.filter fun pkt => pkt.request = number).map CachedPkt.serial).Pairwise (· < ·)
  requested : ∀ number, history.log.requests number ≤ ARP_REQUEST_MAX_RETRIES
  unborn : ∀ number, history.appended.length ≤ number →
    history.log.requests number = 0 ∧ history.log.leftOf number = []

theorem Sound.conserved {history : History} (sound : Sound history []) : Conserved history where
  once := by simpa only [List.append_nil] using sound.once
  pending req member := (sound.filed req member).packets
  gone := sound.gone
  freed := sound.freed
  single := sound.single
  ordered number := by simpa only [List.filter_nil, List.append_nil] using sound.ordered number
  requested := sound.requested

theorem sound_nil : Sound { reqList := [], appended := [], log := [] } [] where
  once := List.Perm.refl _
  filed := nofun
  single := List.nodup_nil
  named := List.nodup_nil
  listed := nofun
  gone := nofun
  freed := rfl
  ordered _ := List.Pairwise.nil
  requested _ := Nat.zero_le _
  unborn _ _ := ⟨rfl, rfl⟩

section Frame

theorem IsAppended.mono {appended : List Appended} {pkt : CachedPkt} {index : Nat}
    {ip4 : UInt32} (known : IsAppended appended pkt index ip4) (more : List Appended) :
    IsAppended (appended ++ more) pkt index ip4 := by
  obtain ⟨call, isCall, fits⟩ := known
  have inside : pkt.serial < appended.length := (List.getElem?_eq_some_iff.mp isCall).1
  exact ⟨call, (List.getElem?_append_left inside).trans isCall, fits⟩

theorem Founded.mono {appended : List Appended} {entry : ArpEvent × ArpEffect}
    (founded : Founded appended entry) (more : List Appended) :
    Founded (appended ++ more) entry := by
  cases entry with
  | mk event effect =>
    cases effect with
    | ifaceSendPacket iface frame pkt =>
      obtain ⟨ip4, mac, isEvent, known, isFrame⟩ := founded
      exact ⟨ip4, mac, isEvent, known.mono more, isFrame⟩
    | icmpSendPacket pkt type code =>
      obtain ⟨isType, isCode, index, ip4, known⟩ := founded
      exact ⟨isType, isCode, index, ip4, known.mono more⟩
    | arpSendRequest number iface ip4 => trivial
    | free pkt => trivial

theorem founded_request (appended : List Appended) (event : ArpEvent) (asked : Nat)
    (iface : IfaceInfo) (ip4 : UInt32) :
    ∀ entry ∈ [(event, ArpEffect.arpSendRequest asked iface ip4)], Founded appended entry := by
  intro entry member
  rw [List.mem_singleton.mp member]
  trivial

/-- One more ARP request for a request that was not yet asked for often enough. -/
theorem requested_again {log : ArpLog} (event : ArpEvent) (iface : IfaceInfo) (ip4 : UInt32)
    {asked : Nat} (requested : ∀ number, log.requests number ≤ ARP_REQUEST_MAX_RETRIES)
    (fewer : log.requests asked < ARP_REQUEST_MAX_RETRIES) (number : Nat) :
    ArpLog.requests (log ++ [(event, .arpSendRequest asked iface ip4)]) number ≤
      ARP_REQUEST_MAX_RETRIES := by
  rw [(Adds.request event asked iface ip4).requests_append]
  by_cases same : asked = number
  · rw [if_pos same, ← same]
    exact fewer
  · rw [if_neg same]
    exact requested number

/-- A step that neither asks for the request nor moves a packet of it leaves it as it is. -/
theorem Filed.frame {history next : History} {pktList nextList : List CachedPkt} {req : ArpReq}
    {more : List Appended} (filed : Filed history pktList req)
    (grown : next.appended = history.appended ++ more)
    (asked : next.log.requests req.number = history.log.requests req.number)
    (left : next.log.leftOf req.number = history.log.leftOf req.number)
    (unlisted : ∀ pkt ∈ nextList, pkt.request ≠ req.number) : Filed next nextList req where
  numbered := by
    have numbered := filed.numbered
    rw [grown, List.length_append]
    omega
  asked := asked.trans filed.asked
  retries := filed.retries
  waits := left.trans filed.waits
  unlisted := unlisted
  packets pkt member := by
    rw [grown]
    exact ⟨(filed.packets pkt member).1, (filed.packets pkt member).2.mono more⟩
  queued := filed.queued

theorem nodup_map_focus {κ : Type} {f : ArpReq → κ} {before rest : List ArpReq} {req : ArpReq} :
    ((before ++ req :: rest).map f).Nodup ↔
      f req ∉ (before ++ rest).map f ∧ ((before ++ rest).map f).Nodup := by
  rw [List.map_append, List.map_cons, List.nodup_middle, List.nodup_cons, ← List.map_append]

theorem nodup_map_again {κ : Type} {f : ArpReq → κ} {before rest : List ArpReq}
    {req again : ArpReq} (nodup : ((before ++ req :: rest).map f).Nodup) (same : f again = f req) :
    ((before ++ again :: rest).map f).Nodup := by
  rw [nodup_map_focus] at nodup ⊢
  rw [same]
  exact nodup

theorem number_ne {before rest : List ArpReq} {req other : ArpReq}
    (named : ((before ++ req :: rest).map ArpReq.number).Nodup)
    (member : other ∈ before ++ rest) : other.number ≠ req.number := by
  intro same
  apply (nodup_map_focus.mp named).1
  rw [← same]
  exact List.mem_map_of_mem member

theorem mem_focus {before rest : List ArpReq} {req other : ArpReq} :
    other ∈ before ++ req :: rest ↔ other = req ∨ other ∈ before ++ rest := by
  rw [List.mem_append, List.mem_cons, List.mem_append]
  exact or_left_comm

theorem filter_own {pkts : List CachedPkt} {number : Nat}
    (tagged : ∀ pkt ∈ pkts, pkt.request = number) :
    (pkts.filter fun pkt => pkt.request = number) = pkts := by
  apply List.filter_eq_self.mpr
  intro pkt member
  exact decide_eq_true (tagged pkt member)

theorem filter_unlisted {pkts : List CachedPkt} {number : Nat}
    (unlisted : ∀ pkt ∈ pkts, pkt.request ≠ number) :
    (pkts.filter fun pkt => pkt.request = number) = [] := by
  apply List.filter_eq_nil_iff.mpr
  intro pkt member
  rw [decide_eq_true_eq]
  exact unlisted pkt member

theorem filter_other {pkts : List CachedPkt} {tag number : Nat}
    (tagged : ∀ pkt ∈ pkts, pkt.request = tag) (different : tag ≠ number) :
    (pkts.filter fun pkt => pkt.request = number) = [] := by
  apply filter_unlisted
  intro pkt member
  rw [tagged pkt member]
  exact different

end Frame

/-! ## What a step does -/

section Step

variable {appended : List Appended} {log : ArpLog} {before rest : List ArpReq} {req : ArpReq}
  {pktList : List CachedPkt}

theorem Sound.resend (event : ArpEvent)
    (sound : Sound { reqList := before ++ req :: rest, appended := appended, log := log } pktList)
    (fewer : req.retries < ARP_REQUEST_MAX_RETRIES) :
    Sound
      { reqList := before ++ { req with retries := req.retries + 1 } :: rest
        appended := appended
        log := log ++ [(event, .arpSendRequest req.number req.iface req.ip4)] } pktList := by
  have adds := Adds.request event req.number req.iface req.ip4
  have filed := sound.filed req (mem_focus.mpr (Or.inl rfl))
  have asked := filed.asked
  have left (number : Nat) := leftOf_request log event number req.number req.iface req.ip4
  have requests (number : Nat) := @Adds.requests_append log _ _ _ _ adds number
  constructor
  case once =>
    have once := sound.once
    simp only [pendingPackets, List.flatMap_append, List.flatMap_cons] at once ⊢
    rw [ArpLog.sent_append, ArpLog.answered_append, adds.sent, adds.answered, List.append_nil,
      List.append_nil]
    exact once
  case filed =>
    intro other member
    rcases mem_focus.mp member with isReq | isOther
    · subst isReq
      refine ⟨filed.numbered, ?_, fewer, ?_, filed.unlisted, filed.packets, filed.queued⟩
      · rw [requests, if_pos rfl, asked]
      · exact (left _).trans filed.waits
    · have different := number_ne sound.named isOther
      have same := sound.filed other (mem_focus.mpr (Or.inr isOther))
      apply same.frame (List.append_nil appended).symm ?_ (left _) same.unlisted
      rw [requests, if_neg different.symm]
      rfl
  case single => exact nodup_map_again sound.single rfl
  case named => exact nodup_map_again sound.named rfl
  case listed => exact sound.listed
  case gone =>
    exact List.forall_mem_append.mpr ⟨sound.gone, founded_request appended event _ _ _⟩
  case freed => exact adds.freed_append sound.freed
  case ordered =>
    intro number
    rw [left]
    exact sound.ordered number
  case requested =>
    apply requested_again event _ _ sound.requested
    change log.requests req.number = req.retries at asked
    rw [asked]
    exact fewer
  case unborn =>
    intro number late
    change appended.length ≤ number at late
    have numbered : req.number < appended.length := filed.numbered
    rw [requests, left, if_neg (by omega)]
    exact sound.unborn number late

/-- A request is taken out of the list: `out` is sent and `held` goes to `pkt_list`. -/
theorem Sound.depart {entries : ArpLog} {out held : List CachedPkt}
    (sound : Sound { reqList := before ++ req :: rest, appended := appended, log := log } pktList)
    (adds : Adds entries out [] fun _ => 0) (split : out ++ held = req.cachedPackets)
    (founded : ∀ entry ∈ entries, Founded appended entry) :
    Sound { reqList := before ++ rest, appended := appended, log := log ++ entries }
      (pktList ++ held) := by
  have filed := sound.filed req (mem_focus.mpr (Or.inl rfl))
  have taggedOut : ∀ pkt ∈ out, pkt.request = req.number := fun pkt member =>
    (filed.packets pkt (split ▸ List.mem_append_left held member)).1
  have taggedHeld : ∀ pkt ∈ held, pkt.request = req.number := fun pkt member =>
    (filed.packets pkt (split ▸ List.mem_append_right out member)).1
  have left : ∀ number, req.number ≠ number →
      ArpLog.leftOf (log ++ entries) number = log.leftOf number := fun number different => by
    rw [adds.leftOf_append, List.append_nil, filter_other taggedOut different, List.append_nil]
  have requests (number : Nat) := @Adds.requests_append log _ _ _ _ adds number
  constructor
  case once =>
    have once := sound.once
    rw [ArpLog.sent_append, ArpLog.answered_append, adds.sent, adds.answered]
    simp only [pendingPackets, List.flatMap_append, List.flatMap_cons, ← split, List.map_append,
      List.append_nil, List.perm_iff_count, List.count_append] at once ⊢
    intro serial
    have counted := once serial
    omega
  case filed =>
    intro other member
    have different := number_ne sound.named member
    have same := sound.filed other (mem_focus.mpr (Or.inr member))
    apply same.frame (List.append_nil appended).symm (requests _) (left _ different.symm)
    intro pkt listed
    rcases List.mem_append.mp listed with old | new
    · exact same.unlisted pkt old
    · rw [taggedHeld pkt new]
      exact different.symm
  case single => exact (nodup_map_focus.mp sound.single).2
  case named => exact (nodup_map_focus.mp sound.named).2
  case listed =>
    intro pkt listed
    rcases List.mem_append.mp listed with old | new
    · exact sound.listed pkt old
    · have known := (filed.packets pkt (split ▸ List.mem_append_right out new)).2
      rw [taggedHeld pkt new]
      exact ⟨filed.numbered, _, _, known⟩
  case gone => exact List.forall_mem_append.mpr ⟨sound.gone, founded⟩
  case freed => exact adds.freed_append sound.freed
  case ordered =>
    intro number
    rw [List.filter_append]
    by_cases same : req.number = number
    · -- Nothing of the request has left before.
      subst same
      have none := filter_unlisted filed.unlisted
      have waits : log.leftOf req.number = [] := filed.waits
      rw [adds.leftOf_append, waits, none, List.append_nil, filter_own taggedOut,
        filter_own taggedHeld, List.nil_append, List.nil_append, split]
      exact filed.queued
    · rw [left number same, filter_other taggedHeld same, List.append_nil]
      exact sound.ordered number
  case requested =>
    intro number
    rw [requests]
    exact sound.requested number
  case unborn =>
    intro number late
    change appended.length ≤ number at late
    have numbered : req.number < appended.length := filed.numbered
    rw [requests, left number (by omega)]
    exact sound.unborn number late

theorem Sound.answers {reqList : List ArpReq} {entries : ArpLog}
    (sound : Sound { reqList := reqList, appended := appended, log := log } pktList)
    (adds : Adds entries [] pktList fun _ => 0)
    (founded : ∀ entry ∈ entries, Founded appended entry) :
    Sound { reqList := reqList, appended := appended, log := log ++ entries } [] := by
  have left : ∀ number, ArpLog.leftOf (log ++ entries) number =
      log.leftOf number ++ pktList.filter fun pkt => pkt.request = number :=
    adds.leftOf_append
  have requests (number : Nat) := @Adds.requests_append log _ _ _ _ adds number
  constructor
  case once =>
    have once := sound.once
    rw [ArpLog.sent_append, ArpLog.answered_append, adds.sent, adds.answered]
    simp only [List.map_append, List.append_nil, List.perm_iff_count, List.count_append] at once ⊢
    intro serial
    have counted := once serial
    omega
  case filed =>
    intro req member
    have filed := sound.filed req member
    apply filed.frame (List.append_nil appended).symm (requests _) ?_
      fun _ none => absurd none List.not_mem_nil
    rw [left, filter_unlisted filed.unlisted, List.append_nil]
  case single => exact sound.single
  case named => exact sound.named
  case listed => nofun
  case gone => exact List.forall_mem_append.mpr ⟨sound.gone, founded⟩
  case freed => exact adds.freed_append sound.freed
  case ordered =>
    intro number
    rw [left, List.filter_nil, List.append_nil]
    exact sound.ordered number
  case requested =>
    intro number
    rw [requests]
    exact sound.requested number
  case unborn =>
    intro number late
    have none : (pktList.filter fun pkt => pkt.request = number) = [] := by
      apply filter_unlisted
      intro pkt member
      exact Nat.ne_of_lt (Nat.lt_of_lt_of_le (sound.listed pkt member).1 late)
    rw [requests, left, none, List.append_nil]
    exact sound.unborn number late

theorem queued_append {pkts : List CachedPkt} {index : Nat} {ip4 : UInt32}
    (queued : (pkts.map CachedPkt.serial).Pairwise (· < ·))
    (known : ∀ pkt ∈ pkts, IsAppended appended pkt index ip4) (request : Nat)
    (packet : List UInt8) :
    ((pkts ++ [CachedPkt.mk appended.length request packet]).map
      CachedPkt.serial).Pairwise (· < ·) := by
  rw [List.map_append, List.pairwise_append]
  refine ⟨queued, List.pairwise_singleton _ _, ?_⟩
  intro earlier isEarlier later isLater
  obtain ⟨pkt, member, isSerial⟩ := List.mem_map.mp isEarlier
  obtain ⟨call, isCall, _⟩ := known pkt member
  rw [List.mem_singleton.mp isLater, ← isSerial]
  exact (List.getElem?_eq_some_iff.mp isCall).1

theorem isAppended_last (iface : IfaceInfo) (ip4 : UInt32) (packet : List UInt8)
    (request : Nat) :
    IsAppended (appended ++ [{ iface := iface, ip4 := ip4, packet := packet }])
      { serial := appended.length, request := request, packet := packet } iface.index ip4 :=
  ⟨_, List.getElem?_concat_length, rfl, rfl, rfl⟩

theorem Sound.join (iface : IfaceInfo) (ip4 : UInt32) (packet : List UInt8)
    (sound : Sound { reqList := before ++ req :: rest, appended := appended, log := log } [])
    (sameIface : req.iface.index = iface.index) (sameIp4 : req.ip4 = ip4) :
    Sound
      { reqList := before ++ { req with
          cachedPackets := req.cachedPackets ++
            [{ serial := appended.length, request := req.number, packet := packet }] } :: rest
        appended := appended ++ [{ iface := iface, ip4 := ip4, packet := packet }]
        log := log } [] := by
  have filed := sound.filed req (mem_focus.mpr (Or.inl rfl))
  constructor
  case once =>
    have once := sound.once
    simp only [pendingPackets, List.flatMap_append, List.flatMap_cons, List.map_append,
      List.map_cons, List.map_nil, List.length_append, List.length_singleton, List.range_succ,
      List.perm_iff_count, List.count_append] at once ⊢
    intro serial
    have counted := once serial
    omega
  case filed =>
    intro other member
    rcases mem_focus.mp member with isReq | isOther
    · subst isReq
      refine ⟨?_, filed.asked, filed.retries, filed.waits, filed.unlisted, ?_, ?_⟩
      · rw [List.length_append]
        exact Nat.lt_add_right _ filed.numbered
      · intro pkt listed
        rcases List.mem_append.mp listed with old | new
        · exact ⟨(filed.packets pkt old).1, (filed.packets pkt old).2.mono _⟩
        · rw [List.mem_singleton.mp new]
          refine ⟨rfl, ?_⟩
          rw [sameIface, sameIp4]
          exact isAppended_last iface ip4 packet req.number
      · exact queued_append filed.queued (fun pkt old => (filed.packets pkt old).2) _ packet
    · exact (sound.filed other (mem_focus.mpr (Or.inr isOther))).frame rfl rfl rfl
        fun _ none => absurd none List.not_mem_nil
  case single => exact nodup_map_again sound.single rfl
  case named => exact nodup_map_again sound.named rfl
  case listed => exact fun _ none => absurd none List.not_mem_nil
  case gone => exact fun entry member => (sound.gone entry member).mono _
  case freed => exact sound.freed
  case ordered => exact sound.ordered
  case requested => exact sound.requested
  case unborn =>
    intro number late
    rw [List.length_append] at late
    exact sound.unborn number (Nat.le_of_add_right_le late)

/-- A request that starts has its packet, one ARP request and nothing that left before. -/
theorem filed_created {reqList : List ArpReq} (event : ArpEvent) (now : Int) (iface : IfaceInfo)
    (ip4 : UInt32) (packet : List UInt8) (requests : log.requests appended.length = 0)
    (left : log.leftOf appended.length = []) :
    Filed
      { reqList := reqList
        appended := appended ++ [{ iface := iface, ip4 := ip4, packet := packet }]
        log := log ++ [(event, .arpSendRequest appended.length iface ip4)] } []
      { number := appended.length, iface := iface, ip4 := ip4, sent := now, retries := 1
        cachedPackets :=
          [{ serial := appended.length, request := appended.length, packet := packet }] } := by
  have adds := Adds.request event appended.length iface ip4
  refine ⟨?_, ?_, Nat.succ_pos 4, ?_, fun _ none => absurd none List.not_mem_nil, ?_,
    List.pairwise_singleton _ _⟩
  · rw [List.length_append]
    exact Nat.lt_succ_self _
  · rw [adds.requests_append, if_pos rfl, requests]
  · rw [leftOf_request]
    exact left
  · intro pkt listed
    rw [List.mem_singleton.mp listed]
    exact ⟨rfl, isAppended_last iface ip4 packet _⟩

theorem Sound.unnamed {reqList : List ArpReq}
    (sound : Sound { reqList := reqList, appended := appended, log := log } []) :
    appended.length ∉ reqList.map ArpReq.number := by
  intro known
  obtain ⟨req, member, sameNumber⟩ := List.mem_map.mp known
  have numbered := (sound.filed req member).numbered
  rw [sameNumber] at numbered
  exact Nat.lt_irrefl _ numbered

theorem Sound.create {reqList : List ArpReq} (event : ArpEvent) (now : Int) (iface : IfaceInfo)
    (ip4 : UInt32) (packet : List UInt8)
    (sound : Sound { reqList := reqList, appended := appended, log := log } [])
    (unknown : ∀ req ∈ reqList, req.key ≠ (iface.index, ip4)) :
    Sound
      { reqList :=
          { number := appended.length, iface := iface, ip4 := ip4, sent := now, retries := 1
            cachedPackets :=
              [{ serial := appended.length, request := appended.length, packet := packet }] } ::
            reqList
        appended := appended ++ [{ iface := iface, ip4 := ip4, packet := packet }]
        log := log ++ [(event, .arpSendRequest appended.length iface ip4)] } [] := by
  have adds := Adds.request event appended.length iface ip4
  have unborn := sound.unborn appended.length (Nat.le_refl _)
  have left (number : Nat) := leftOf_request log event number appended.length iface ip4
  have requests (number : Nat) := @Adds.requests_append log _ _ _ _ adds number
  constructor
  case once =>
    have once := sound.once
    rw [ArpLog.sent_append, ArpLog.answered_append, adds.sent, adds.answered, List.append_nil,
      List.append_nil]
    simp only [pendingPackets, List.flatMap_cons, List.map_append, List.map_cons, List.map_nil,
      List.length_append, List.length_singleton, List.range_succ, List.perm_iff_count,
      List.count_append] at once ⊢
    intro serial
    have counted := once serial
    omega
  case filed =>
    intro other member
    rcases List.mem_cons.mp member with isNew | isOther
    · subst isNew
      exact filed_created event now iface ip4 packet unborn.1 unborn.2
    · have filed := sound.filed other isOther
      have numbered : other.number < appended.length := filed.numbered
      apply filed.frame rfl ?_ (left _) fun _ none => absurd none List.not_mem_nil
      rw [requests, if_neg (by omega)]
      rfl
  case single =>
    apply List.nodup_cons.mpr ⟨?_, sound.single⟩
    intro known
    obtain ⟨req, member, sameKey⟩ := List.mem_map.mp known
    exact unknown req member sameKey
  case named => exact List.nodup_cons.mpr ⟨sound.unnamed, sound.named⟩
  case listed => exact fun _ none => absurd none List.not_mem_nil
  case gone =>
    exact List.forall_mem_append.mpr
      ⟨fun entry old => (sound.gone entry old).mono _, founded_request _ event _ _ _⟩
  case freed => exact adds.freed_append sound.freed
  case ordered =>
    intro number
    rw [left]
    exact sound.ordered number
  case requested =>
    apply requested_again event _ _ sound.requested
    rw [unborn.1]
    decide
  case unborn =>
    intro number late
    rw [List.length_append, List.length_singleton] at late
    rw [requests, left, if_neg (by omega)]
    exact sound.unborn number (Nat.le_of_succ_le late)

end Step

/-! ## The operations -/

section Operations

variable {appended : List Appended} {log : ArpLog}

theorem joinRequest_some {iface : IfaceInfo} {ip4 : UInt32} {serial : Nat}
    {packet : List UInt8} {reqList next : List ArpReq}
    (joined : joinRequest iface ip4 serial packet reqList = some next) :
    ∃ before req rest, reqList = before ++ req :: rest ∧
      (req.iface.index = iface.index ∧ req.ip4 = ip4) ∧
      next = before ++ { req with
        cachedPackets := req.cachedPackets ++
          [{ serial := serial, request := req.number, packet := packet }] } :: rest := by
  induction reqList generalizing next with
  | nil => exact absurd joined nofun
  | cons req rest ih =>
    unfold joinRequest at joined
    split_ifs at joined with same
    · exact ⟨[], req, rest, rfl, same, (Option.some.inj joined).symm⟩
    · obtain ⟨tail, joinedTail, isNext⟩ := Option.map_eq_some_iff.mp joined
      obtain ⟨before, found, behind, isRest, same, isTail⟩ := ih joinedTail
      refine ⟨req :: before, found, behind, ?_, same, ?_⟩
      · rw [isRest, List.cons_append]
      · rw [← isNext, isTail, List.cons_append]

theorem joinRequest_none {iface : IfaceInfo} {ip4 : UInt32} {serial : Nat}
    {packet : List UInt8} {reqList : List ArpReq}
    (alone : joinRequest iface ip4 serial packet reqList = none) :
    ∀ req ∈ reqList, req.key ≠ (iface.index, ip4) := by
  induction reqList with
  | nil => exact fun _ none => absurd none List.not_mem_nil
  | cons req rest ih =>
    unfold joinRequest at alone
    split_ifs at alone with same
    apply List.forall_mem_cons.mpr ⟨?_, ih (Option.map_eq_none_iff.mp alone)⟩
    intro sameKey
    exact same ⟨congrArg Prod.fst sameKey, congrArg Prod.snd sameKey⟩

/-- The scan sends the packets of one request, or finds none. -/
theorem insertScan_cases (ip4 : UInt32) (mac : Mac) (reqList : List ArpReq) :
    insertScan ip4 mac reqList = (reqList, []) ∨
    ∃ before req rest, reqList = before ++ req :: rest ∧ req.ip4 = ip4 ∧
      insertScan ip4 mac reqList = (before ++ rest, req.cachedPackets.map fun pkt =>
        .ifaceSendPacket req.iface (fillHeader mac req.iface.mac pkt.packet) pkt) := by
  induction reqList with
  | nil => exact Or.inl rfl
  | cons req rest ih =>
    by_cases same : req.ip4 = ip4
    · exact Or.inr ⟨[], req, rest, rfl, same, if_pos same⟩
    · have unfolded : insertScan ip4 mac (req :: rest) =
          (req :: (insertScan ip4 mac rest).1, (insertScan ip4 mac rest).2) := if_neg same
      rcases ih with none | ⟨before, found, behind, isRest, sameIp4, scanned⟩
      · left
        rw [unfolded, none]
      · right
        refine ⟨req :: before, found, behind, ?_, sameIp4, ?_⟩
        · rw [isRest, List.cons_append]
        · rw [unfolded, scanned, List.cons_append]

theorem Adds.nothing : Adds [] [] [] fun _ => 0 := ⟨rfl, rfl, rfl, rfl, fun _ => rfl⟩

theorem Sound.scanned (event : ArpEvent) (now : Int) (before reqList : List ArpReq)
    {pktList : List CachedPkt}
    (sound : Sound { reqList := before ++ reqList, appended := appended, log := log } pktList) :
    Sound
      { reqList := before ++ (sweepScan now reqList).1
        appended := appended
        log := log ++ (sweepScan now reqList).2.1.map fun effect => (event, effect) }
      (pktList ++ (sweepScan now reqList).2.2) := by
  induction reqList generalizing before log pktList with
  | nil =>
    simp only [sweepScan, List.map_nil, List.append_nil] at sound ⊢
    exact sound
  | cons req rest ih =>
    by_cases early : now - req.sent < 1
    · have kept : sweepScan now (req :: rest) = (req :: (sweepScan now rest).1,
          (sweepScan now rest).2.1, (sweepScan now rest).2.2) := if_pos early
      rw [List.append_cons] at sound
      have next := ih _ sound
      rw [← List.append_cons] at next
      rw [kept]
      exact next
    · by_cases fewer : req.retries < ARP_REQUEST_MAX_RETRIES
      · have resent : sweepScan now (req :: rest) =
            ({ req with retries := req.retries + 1 } :: (sweepScan now rest).1,
              .arpSendRequest req.number req.iface req.ip4 :: (sweepScan now rest).2.1,
              (sweepScan now rest).2.2) := (if_neg early).trans (if_pos fewer)
        have asked := sound.resend event fewer
        rw [List.append_cons] at asked
        have next := ih _ asked
        rw [← List.append_cons, ← List.append_cons] at next
        rw [resent]
        exact next
      · have dropped : sweepScan now (req :: rest) = ((sweepScan now rest).1,
            (sweepScan now rest).2.1, req.cachedPackets ++ (sweepScan now rest).2.2) :=
          (if_neg early).trans (if_neg fewer)
        have taken := sound.depart Adds.nothing (List.nil_append req.cachedPackets)
          fun _ none => absurd none List.not_mem_nil
        rw [List.append_nil] at taken
        have next := ih _ taken
        rw [List.append_assoc] at next
        rw [dropped]
        exact next

theorem Sound.step_append {reqList : List ArpReq} (now : Int) (iface : IfaceInfo)
    (ip4 : UInt32) (packet : List UInt8)
    (sound : Sound { reqList := reqList, appended := appended, log := log } []) :
    Sound (History.step { reqList := reqList, appended := appended, log := log }
      (.append now iface ip4 packet)) [] := by
  simp only [History.step, History.record, arpcacheAppendPacket]
  cases outcome : joinRequest iface ip4 appended.length packet reqList with
  | none =>
    exact sound.create _ now iface ip4 packet (joinRequest_none outcome)
  | some next =>
    obtain ⟨before, req, rest, isList, same, isNext⟩ := joinRequest_some outcome
    subst isList isNext
    simp only [List.map_nil, List.append_nil]
    exact sound.join iface ip4 packet same.1 same.2

theorem Sound.step_insert {reqList : List ArpReq} (ip4 : UInt32) (mac : Mac)
    (sound : Sound { reqList := reqList, appended := appended, log := log } []) :
    Sound (History.step { reqList := reqList, appended := appended, log := log }
      (.insert ip4 mac)) [] := by
  simp only [History.step, History.record]
  rcases insertScan_cases ip4 mac reqList with none | ⟨before, req, rest, isList, same, scanned⟩
  · rw [none]
    simp only [List.map_nil, List.append_nil]
    exact sound
  · subst isList
    have filed := sound.filed req (mem_focus.mpr (Or.inl rfl))
    rw [scanned]
    apply sound.depart (Adds.sends (.insert ip4 mac) req.iface
      (fun pkt => fillHeader mac req.iface.mac pkt.packet) req.cachedPackets)
      (List.append_nil _)
    intro entry member
    rw [List.map_map] at member
    obtain ⟨pkt, listed, isEntry⟩ := List.mem_map.mp member
    rw [← isEntry]
    refine ⟨ip4, mac, rfl, ?_, rfl⟩
    rw [← same]
    exact (filed.packets pkt listed).2

theorem Sound.step_sweep {reqList : List ArpReq} (now : Int)
    (sound : Sound { reqList := reqList, appended := appended, log := log } []) :
    Sound (History.step { reqList := reqList, appended := appended, log := log }
      (.sweep now)) [] := by
  have scanned := Sound.scanned (.sweep now) now [] reqList sound
  have answered := scanned.answers (Adds.answers (.sweep now) _) ?_
  · simp only [History.step, History.record, sweepRound, List.map_append]
    rw [← List.append_assoc]
    exact answered
  · intro entry member
    obtain ⟨effect, isEffect, isEntry⟩ := List.mem_map.mp member
    obtain ⟨pkt, listed, isAnswer⟩ := List.mem_flatMap.mp isEffect
    rw [← isEntry]
    rcases List.mem_cons.mp isAnswer with isIcmp | isFree
    · rw [isIcmp]
      exact ⟨rfl, rfl, (scanned.listed pkt listed).2⟩
    · rw [List.mem_singleton.mp isFree]
      trivial

end Operations

theorem Sound.step {history : History} (sound : Sound history []) (event : ArpEvent) :
    Sound (history.step event) [] := by
  cases event with
  | append now iface ip4 packet => exact sound.step_append now iface ip4 packet
  | insert ip4 mac => exact sound.step_insert ip4 mac
  | sweep now => exact sound.step_sweep now

theorem after_sound (events : List ArpEvent) : Sound (after events) [] := by
  induction events using List.reverseRecOn with
  | nil => exact sound_nil
  | append_singleton events event ih =>
    rw [after, List.foldl_append]
    exact ih.step event

/-- Whatever the order of the three operations, no packet is lost and none leaves twice. -/
theorem pending_conserved (events : List ArpEvent) : Conserved (after events) :=
  (after_sound events).conserved

end NetworkLab.ArpCache
