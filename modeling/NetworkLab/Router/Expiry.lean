import NetworkLab.Router.ArpCache

/-!
# The lock of the ARP cache and requests without a reply

A request is asked for once when it is made and once in every round of the sweep that finds
it overdue; its count of retries lags one behind.  When the count is past five, the sweep
answers the pending packets while it holds the lock, and comes back to the lock.
-/
set_option autoImplicit false

namespace NetworkLab.Router

open NetworkLab.ArpCache (Mac ARP_REQUEST_MAX_RETRIES ICMP_DEST_UNREACH ICMP_HOST_UNREACH)
open Lib.Run

def Effect.requests (n : Nat) : Effect → Bool
  | .arpSendRequest req _ _ => req = n
  | _ => false

def Effect.answers (serial : Nat) : Effect → Bool
  | .answered other type code =>
    other = serial && type = ICMP_DEST_UNREACH && code = ICMP_HOST_UNREACH
  | _ => false

def ArpCache.requests (cache : ArpCache) (n : Nat) : Nat :=
  cache.log.countP (Effect.requests n)

def ArpCache.answers (cache : ArpCache) (serial : Nat) : Nat :=
  cache.log.countP (Effect.answers serial)

/-- What holds of a cache that is used with discipline, when an operation has returned. -/
structure Disciplined (cache : ArpCache) : Prop where
  free : cache.lock = false
  requests : ∀ n, cache.requests n ≤ ARP_REQUEST_MAX_RETRIES
  answered : ∀ n pkts, Effect.expired n pkts ∈ cache.log →
    ∀ pkt ∈ pkts, cache.answers pkt.serial = 1

/-- No overdue request that a round of the sweep finds was asked for
`ARP_REQUEST_MAX_RETRIES` times. -/
def NoneExhausted (cache : ArpCache) : Event → Prop
  | .sweep _ later => ∀ n ∈ cache.reqList, ∀ req, cache.reqs n = some req →
      1 < later - req.sent → req.retries + 1 < ARP_REQUEST_MAX_RETRIES
  | _ => True

/-- No request that a round of the sweep finds has expired. -/
def NoneExpired (cache : ArpCache) : Event → Prop
  | .sweep _ _ => ∀ n ∈ cache.reqList, ∀ req, cache.reqs n = some req → req.retries ≤ 5
  | _ => True

/-! ## The invariant -/

structure Waiting (cache : ArpCache) (n : Nat) (req : ArpReq) : Prop where
  known : n < cache.nextReq
  asked : cache.requests n = req.retries + 1
  pending : req.cachedPackets ≠ []

structure Kept (cache : ArpCache) : Prop where
  distinct : cache.reqList.Nodup
  live : ∀ n ∈ cache.reqList, ∃ req, cache.reqs n = some req ∧ Waiting cache n req
  unborn : ∀ n, cache.nextReq ≤ n → cache.requests n = 0
  unexpired : ∀ n pkts, Effect.expired n pkts ∉ cache.log

structure Resting (cache : ArpCache) : Prop where
  kept : Kept cache
  free : cache.lock = false

theorem resting_init : Resting arpcacheInit where
  kept := ⟨List.nodup_nil, nofun, fun _ _ => rfl, nofun⟩
  free := rfl

section Frame

variable {cache after : ArpCache}

theorem Kept.frame (kept : Kept cache) (reqList : after.reqList = cache.reqList)
    (reqs : after.reqs = cache.reqs) (nextReq : after.nextReq = cache.nextReq)
    (log : after.log = cache.log) : Kept after where
  distinct := reqList ▸ kept.distinct
  live n member := by
    rw [reqList] at member
    obtain ⟨req, found, waiting⟩ := kept.live n member
    refine ⟨req, by rw [reqs, found], by rw [nextReq]; exact waiting.known, ?_, waiting.pending⟩
    rw [ArpCache.requests, log]
    exact waiting.asked
  unborn n later := by
    rw [nextReq] at later
    rw [ArpCache.requests, log]
    exact kept.unborn n later
  unexpired := log ▸ kept.unexpired

theorem Kept.readable (kept : Kept cache) : ∀ n ∈ cache.reqList, ∃ req, cache.reqs n = some req := by
  intro n member
  obtain ⟨req, found, -⟩ := kept.live n member
  exact ⟨req, found⟩

theorem acquire_of_free (free : cache.lock = false) :
    cache.acquire = .ok { cache with lock := true } := by
  rw [ArpCache.acquire, free]
  rfl

theorem acquire_of_held (held : cache.lock = true) : cache.acquire = .error .lockHeld := by
  rw [ArpCache.acquire, held]
  rfl

theorem readReq_of_live {n : Nat} {req : ArpReq} (found : cache.reqs n = some req) :
    cache.readReq n = .ok req := by
  rw [ArpCache.readReq, found]

theorem requests_record (effects : List Effect) (n : Nat) :
    (cache.record effects).requests n =
      cache.requests n + effects.countP (Effect.requests n) :=
  List.countP_append

theorem requests_request (m : Nat) (iface : IfaceInfo) (ip4 : UInt32) (n : Nat) :
    (cache.record [.arpSendRequest m iface ip4]).requests n =
      cache.requests n + if m = n then 1 else 0 := by
  rw [requests_record, List.countP_singleton]
  simp [Effect.requests]

end Frame

/-! ## Appending a packet -/

section Append

variable {cache : ArpCache}

theorem findReq_spec (index : Nat) (ip4 : UInt32) {list : List Nat}
    (live : ∀ n ∈ list, ∃ req, cache.reqs n = some req) :
    cache.findReq index ip4 list = .ok none ∨
      ∃ n req, cache.findReq index ip4 list = .ok (some (n, req)) ∧ n ∈ list ∧
        cache.reqs n = some req := by
  induction list with
  | nil => exact .inl rfl
  | cons n rest ih =>
      obtain ⟨req, found⟩ := live n List.mem_cons_self
      simp only [ArpCache.findReq, readReq_of_live found, bind, Except.bind]
      by_cases same : req.iface.index = index ∧ req.ip4 = ip4
      · rw [if_pos same]
        exact .inr ⟨n, req, rfl, List.mem_cons_self, found⟩
      · rw [if_neg same]
        cases ih fun m member => live m (List.mem_cons_of_mem _ member) with
        | inl absent => exact .inl absent
        | inr present =>
            obtain ⟨m, other, result, member, behind⟩ := present
            exact .inr ⟨m, other, result, List.mem_cons_of_mem _ member, behind⟩

/-- A packet that joins a request changes nothing that the invariant says of it. -/
theorem Kept.join {n : Nat} {req : ArpReq} (kept : Kept cache) (found : cache.reqs n = some req)
    (pkt : CachedPkt) :
    Kept (cache.writeReq n { req with cachedPackets := req.cachedPackets ++ [pkt] }) where
  distinct := kept.distinct
  live m member := by
    obtain ⟨other, present, waiting⟩ := kept.live m member
    by_cases same : m = n
    · subst same
      obtain rfl : other = req := Option.some.inj (present.symm.trans found)
      refine ⟨_, Function.update_self .., waiting.known, waiting.asked, ?_⟩
      exact List.append_ne_nil_of_right_ne_nil _ (List.cons_ne_nil _ _)
    · refine ⟨other, ?_, waiting.known, waiting.asked, waiting.pending⟩
      exact (Function.update_of_ne same ..).trans present
  unborn := kept.unborn
  unexpired := kept.unexpired

theorem Kept.grow (kept : Kept cache) (now : Int) (iface : IfaceInfo) (ip4 : UInt32)
    (pkt : CachedPkt) :
    Kept (ArpCache.record [.arpSendRequest cache.nextReq iface ip4]
      { cache.writeReq cache.nextReq
          { iface := iface, ip4 := ip4, sent := now, retries := 0, cachedPackets := [pkt] } with
        nextReq := cache.nextReq + 1
        reqList := cache.reqList ++ [cache.nextReq] }) := by
  have fresh : cache.nextReq ∉ cache.reqList := by
    intro member
    obtain ⟨req, -, waiting⟩ := kept.live _ member
    exact Nat.lt_irrefl _ waiting.known
  constructor
  · change (cache.reqList ++ [cache.nextReq]).Nodup
    rw [List.nodup_append]
    refine ⟨kept.distinct, List.nodup_singleton _, ?_⟩
    intro m member other isNew
    rw [List.mem_singleton.mp isNew]
    exact fun same => fresh (same ▸ member)
  · intro m member
    cases List.mem_append.mp member with
    | inl old =>
        obtain ⟨req, present, waiting⟩ := kept.live m old
        have different : m ≠ cache.nextReq := Nat.ne_of_lt waiting.known
        refine ⟨req, (Function.update_of_ne different ..).trans present,
          Nat.lt_succ_of_lt waiting.known, ?_, waiting.pending⟩
        rw [requests_request, if_neg different.symm]
        exact waiting.asked
    | inr new =>
        rw [List.mem_singleton.mp new]
        refine ⟨_, Function.update_self .., Nat.lt_succ_self _, ?_, List.cons_ne_nil _ _⟩
        rw [requests_request, if_pos rfl]
        exact congrArg (· + 1) (kept.unborn _ (Nat.le_refl _))
  · intro m later
    have bound : cache.nextReq + 1 ≤ m := later
    rw [requests_request, if_neg (by omega)]
    exact kept.unborn m (by omega)
  · intro m pkts member
    cases List.mem_append.mp member with
    | inl old => exact kept.unexpired m pkts old
    | inr new => cases List.mem_singleton.mp new

/-- What an operation other than the sweep does: it returns, and asks at most for a request
that it makes. -/
def Returns (before : ArpCache) (result : Except Fault ArpCache) : Prop :=
  ∃ after, result = .ok after ∧ Resting after ∧
    ∀ n, after.requests n ≤ max (before.requests n) 1

theorem arpcacheAppendPacket_returns (resting : Resting cache) (now : Int) (iface : IfaceInfo)
    (ip4 : UInt32) (packet : IpFrame) :
    Returns cache (cache.arpcacheAppendPacket now iface ip4 packet) := by
  let pkt : CachedPkt := { serial := cache.nextPkt, packet := packet }
  let taken : ArpCache := { cache with lock := true, nextPkt := cache.nextPkt + 1 }
  have kept : Kept taken := resting.kept.frame rfl rfl rfl rfl
  rw [ArpCache.arpcacheAppendPacket, acquire_of_free resting.free]
  change Returns cache (taken.findReq iface.index ip4 taken.reqList >>= _)
  cases findReq_spec iface.index ip4 kept.readable with
  | inl absent =>
      rw [absent]
      refine ⟨_, rfl, ⟨(kept.grow now iface ip4 pkt).frame rfl rfl rfl rfl, rfl⟩, ?_⟩
      intro n
      change ArpCache.requests (ArpCache.record [.arpSendRequest taken.nextReq iface ip4] taken) n ≤
        max (taken.requests n) 1
      rw [requests_request]
      by_cases new : taken.nextReq = n
      · have none : taken.requests n = 0 := kept.unborn n (Nat.le_of_eq new)
        rw [if_pos new, none]
        exact Nat.le_max_right ..
      · rw [if_neg new]
        exact Nat.le_max_left ..
  | inr present =>
      obtain ⟨n, req, result, -, found⟩ := present
      rw [result]
      have joined := kept.join found pkt
      exact ⟨_, rfl, ⟨joined.frame rfl rfl rfl rfl, rfl⟩, fun _ => Nat.le_max_left ..⟩

theorem arpcacheLookup_returns (resting : Resting cache) (ip4 : UInt32) :
    Returns cache ((cache.arpcacheLookup ip4).map Prod.snd) := by
  rw [ArpCache.arpcacheLookup, acquire_of_free resting.free]
  exact ⟨_, rfl, ⟨resting.kept.frame rfl rfl rfl rfl, rfl⟩, fun _ => Nat.le_max_left ..⟩

end Append

/-! ## Inserting an address -/

section Insert

variable {cache : ArpCache}

/-- The requests of the list that are left and of those that the scan comes to. -/
theorem Kept.free {n : Nat} (kept : Kept cache) (effects : List Effect)
    (quiet : ∀ m, effects.countP (Effect.requests m) = 0)
    (unexpired : ∀ m pkts, Effect.expired m pkts ∉ effects) :
    Kept ((cache.record effects).freeReq n) where
  distinct := kept.distinct.erase n
  live m member := by
    have inside := (kept.distinct.mem_erase_iff).mp member
    obtain ⟨req, present, waiting⟩ := kept.live m inside.2
    refine ⟨req, (Function.update_of_ne inside.1 ..).trans present, waiting.known, ?_,
      waiting.pending⟩
    change (cache.record effects).requests m = _
    rw [requests_record, quiet m]
    exact waiting.asked
  unborn m later := by
    change (cache.record effects).requests m = _
    rw [requests_record, quiet m]
    exact kept.unborn m later
  unexpired m pkts member := by
    cases List.mem_append.mp member with
    | inl old => exact kept.unexpired m pkts old
    | inr new => exact unexpired m pkts new

theorem flushReq_returns {n : Nat} {req : ArpReq} (kept : Kept cache)
    (found : cache.reqs n = some req) (ip4 : UInt32) (mac : Mac) :
    ∃ after, cache.flushReq ip4 mac n = .ok after ∧ Kept after ∧
      (∀ m, m ≠ n → after.reqs m = cache.reqs m) ∧ ∀ m, after.requests m = cache.requests m := by
  simp only [ArpCache.flushReq, readReq_of_live found, bind, Except.bind]
  by_cases same : req.ip4 = ip4
  · have quiet : ∀ m, (req.cachedPackets.map fun pkt => Effect.ifaceSendPacket req.iface
        { pkt.packet with etherDhost := mac }).countP (Effect.requests m) = 0 := by
      intro m
      rw [List.countP_map]
      exact List.countP_eq_zero.mpr fun _ _ => Bool.false_ne_true
    rw [if_pos same]
    refine ⟨_, rfl, kept.free _ quiet ?_, fun m other => Function.update_of_ne other .., ?_⟩
    · intro m pkts member
      obtain ⟨pkt, -, impossible⟩ := List.mem_map.mp member
      cases impossible
    · intro m
      exact (requests_record _ m).trans (by rw [quiet m, Nat.add_zero])
  · rw [if_neg same]
    exact ⟨cache, rfl, kept, fun _ _ => rfl, fun _ => rfl⟩

theorem flush_returns (ip4 : UInt32) (mac : Mac) {list : List Nat} (kept : Kept cache)
    (distinct : list.Nodup) (live : ∀ n ∈ list, ∃ req, cache.reqs n = some req) :
    ∃ after, list.foldlM (ArpCache.flushReq ip4 mac) cache = .ok after ∧ Kept after ∧
      ∀ m, after.requests m = cache.requests m := by
  induction list generalizing cache with
  | nil => exact ⟨cache, rfl, kept, fun _ => rfl⟩
  | cons n rest ih =>
      obtain ⟨absent, distinct⟩ := List.nodup_cons.mp distinct
      obtain ⟨req, found⟩ := live n List.mem_cons_self
      obtain ⟨middle, turn, keptMiddle, others, sameMiddle⟩ := flushReq_returns kept found ip4 mac
      have liveMiddle : ∀ m ∈ rest, ∃ req, middle.reqs m = some req := by
        intro m member
        rw [others m (ne_of_mem_of_not_mem member absent)]
        exact live m (List.mem_cons_of_mem _ member)
      obtain ⟨after, scanned, keptAfter, sameAfter⟩ := ih keptMiddle distinct liveMiddle
      refine ⟨after, ?_, keptAfter, fun m => (sameAfter m).trans (sameMiddle m)⟩
      rw [List.foldlM_cons, turn]
      exact scanned

theorem arpcacheInsert_returns (resting : Resting cache) (now : Int) (ip4 : UInt32) (mac : Mac) :
    Returns cache (cache.arpcacheInsert now ip4 mac) := by
  let held : ArpCache := { cache with lock := true }
  let entry : ArpCacheEntry := { ip4 := ip4, mac := mac, added := now, valid := true }
  have flush (i : Fin MAX_ARP_SIZE) : Returns cache
      ((held.writeEntry i entry).reqList.foldlM (ArpCache.flushReq ip4 mac)
        (held.writeEntry i entry) >>= fun cache => .ok cache.release) := by
    have kept : Kept (held.writeEntry i entry) := resting.kept.frame rfl rfl rfl rfl
    obtain ⟨after, scanned, keptAfter, same⟩ :=
      flush_returns ip4 mac kept kept.distinct kept.readable
    rw [scanned]
    refine ⟨_, rfl, ⟨keptAfter.frame rfl rfl rfl rfl, rfl⟩, fun n => ?_⟩
    exact Nat.le_trans (Nat.le_of_eq (same n)) (Nat.le_max_left ..)
  cases placed : ArpCache.insertPlace ip4 { cache with lock := true } with
  | none =>
      simp only [ArpCache.arpcacheInsert, acquire_of_free resting.free, bind, Except.bind, placed]
      exact flush 0
  | some i =>
      simp only [ArpCache.arpcacheInsert, acquire_of_free resting.free, bind, Except.bind, placed]
      by_cases valid : (cache.entries i).valid = true
      · rw [if_pos valid]
        exact ⟨_, rfl, ⟨resting.kept.frame rfl rfl rfl rfl, rfl⟩, fun _ => Nat.le_max_left ..⟩
      · rw [if_neg valid]
        exact flush i

end Insert

/-! ## A round of the sweep -/

section Sweep

variable {rtable : List RtEntry} {cache : ArpCache}

def ArpReq.overdue (later : Int) (req : ArpReq) : Bool := 1 < later - req.sent

def ArpReq.retry (later : Int) (req : ArpReq) : ArpReq :=
  if req.overdue later then { req with retries := req.retries + 1 } else req

def ArpCache.overdue (later : Int) (cache : ArpCache) (n : Nat) : Bool :=
  (cache.reqs n).any (ArpReq.overdue later)

theorem icmpSendPacket_locked (held : cache.lock = true) (now : Int) (inPkt : IpFrame)
    (type code : UInt8) :
    cache.icmpSendPacket rtable now inPkt type code =
      .error
        (if (longestPrefixMatch rtable inPkt.saddr).isSome then .lockHeld else .nullEntry) := by
  rw [ArpCache.icmpSendPacket]
  cases routed : longestPrefixMatch rtable inPkt.saddr with
  | none => rfl
  | some entry =>
      simp only [ArpCache.ipSendPacket, routed, ArpCache.ifaceSendPacketByArp,
        ArpCache.arpcacheLookup, acquire_of_held held, bind, Except.bind]
      rfl

theorem sweepReq_expired {n : Nat} {req : ArpReq} {pkt : CachedPkt} {rest : List CachedPkt}
    (held : cache.lock = true) (found : cache.reqs n = some req) (expired : 5 < req.retries)
    (pending : req.cachedPackets = pkt :: rest) (later : Int) :
    cache.sweepReq rtable later n = .error
      (if (longestPrefixMatch rtable pkt.packet.saddr).isSome then .lockHeld else .nullEntry) := by
  have held' : (cache.record [.expired n (pkt :: rest)]).lock = true := held
  simp only [ArpCache.sweepReq, readReq_of_live found, if_pos expired, pending, List.foldlM_cons,
    ArpCache.answerPkt, icmpSendPacket_locked held', bind, Except.bind]

theorem sweepReq_waiting {n : Nat} {req : ArpReq} (found : cache.reqs n = some req)
    (few : req.retries ≤ 5) (later : Int) :
    cache.sweepReq rtable later n = .ok (if req.overdue later then
      (cache.record [.arpSendRequest n req.iface req.ip4]).writeReq n
        { req with retries := req.retries + 1 } else cache) := by
  have stays : ¬ 5 < req.retries := Nat.not_lt.mpr few
  simp only [ArpCache.sweepReq, readReq_of_live found, if_neg stays, bind, Except.bind]
  by_cases due : 1 < later - req.sent
  · have overdue : req.overdue later = true := decide_eq_true due
    rw [if_pos due, if_pos overdue]
  · have notOverdue : ¬ req.overdue later = true := by simpa [ArpReq.overdue] using due
    rw [if_neg due, if_neg notOverdue]

structure Swept (later : Int) (done : List Nat) (before after : ArpCache) : Prop where
  reqList : after.reqList = before.reqList
  lock : after.lock = before.lock
  nextReq : after.nextReq = before.nextReq
  reqs : ∀ n, after.reqs n =
    if n ∈ done then (before.reqs n).map (ArpReq.retry later) else before.reqs n
  requests : ∀ n, after.requests n =
    before.requests n + if n ∈ done ∧ before.overdue later n then 1 else 0
  expired : ∀ n pkts, Effect.expired n pkts ∈ after.log → Effect.expired n pkts ∈ before.log

theorem Swept.one {n : Nat} {req : ArpReq} (found : cache.reqs n = some req)
    (few : req.retries ≤ 5) (later : Int) :
    ∃ after, cache.sweepReq rtable later n = .ok after ∧ Swept later [n] cache after := by
  refine ⟨_, sweepReq_waiting found few later, ?_⟩
  by_cases overdue : req.overdue later = true
  · rw [if_pos overdue]
    refine ⟨rfl, rfl, rfl, ?_, ?_, ?_⟩
    · intro m
      change Function.update cache.reqs n _ m = _
      by_cases same : m = n
      · subst same
        rw [Function.update_self, if_pos List.mem_cons_self, found, Option.map_some, ArpReq.retry,
          if_pos overdue]
      · rw [Function.update_of_ne same, if_neg (List.mem_singleton.not.mpr same)]
    · intro m
      change (cache.record _).requests m = _
      rw [requests_request]
      by_cases same : m = n
      · subst same
        simp [ArpCache.overdue, found, overdue]
      · simp [same, Ne.symm same]
    · intro m pkts member
      cases List.mem_append.mp member with
      | inl old => exact old
      | inr new => cases List.mem_singleton.mp new
  · rw [if_neg overdue]
    refine ⟨rfl, rfl, rfl, ?_, ?_, fun _ _ member => member⟩
    · intro m
      by_cases same : m = n
      · subst same
        rw [if_pos List.mem_cons_self, found, Option.map_some, ArpReq.retry, if_neg overdue]
      · rw [if_neg (List.mem_singleton.not.mpr same)]
    · intro m
      by_cases same : m = n
      · subst same
        simp [ArpCache.overdue, found, overdue]
      · simp [same]

theorem Swept.cons {later : Int} {n : Nat} {rest : List Nat} {before middle after : ArpCache}
    (first : Swept later [n] before middle) (scan : Swept later rest middle after)
    (absent : n ∉ rest) : Swept later (n :: rest) before after where
  reqList := scan.reqList.trans first.reqList
  lock := scan.lock.trans first.lock
  nextReq := scan.nextReq.trans first.nextReq
  reqs m := by
    rw [scan.reqs, first.reqs]
    by_cases same : m = n
    · subst same
      simp [absent]
    · simp [same]
  requests m := by
    rw [scan.requests, first.requests]
    by_cases same : m = n
    · subst same
      simp [absent]
    · have kept : middle.reqs m = before.reqs m := by
        rw [first.reqs, if_neg (List.mem_singleton.not.mpr same)]
      simp [same, ArpCache.overdue, kept]
  expired m pkts member := first.expired m pkts (scan.expired m pkts member)

theorem sweep_scan {list : List Nat} (distinct : list.Nodup)
    (few : ∀ n ∈ list, ∃ req, cache.reqs n = some req ∧ req.retries ≤ 5) (later : Int) :
    ∃ after, list.foldlM (ArpCache.sweepReq rtable later) cache = .ok after ∧
      Swept later list cache after := by
  induction list generalizing cache with
  | nil => exact ⟨cache, rfl, rfl, rfl, rfl, by simp, by simp, fun _ _ member => member⟩
  | cons n rest ih =>
      obtain ⟨absent, distinct⟩ := List.nodup_cons.mp distinct
      obtain ⟨req, found, fewHere⟩ := few n List.mem_cons_self
      obtain ⟨middle, turn, first⟩ := @Swept.one rtable cache n req found fewHere later
      have fewMiddle : ∀ m ∈ rest, ∃ req, middle.reqs m = some req ∧ req.retries ≤ 5 := by
        intro m member
        have other : m ∉ [n] := List.mem_singleton.not.mpr (ne_of_mem_of_not_mem member absent)
        rw [first.reqs, if_neg other]
        exact few m (List.mem_cons_of_mem _ member)
      obtain ⟨after, scanned, scan⟩ := ih distinct fewMiddle
      refine ⟨after, ?_, first.cons scan absent⟩
      rw [List.foldlM_cons, turn]
      exact scanned

theorem sweep_scan_expired {list : List Nat} (held : cache.lock = true) (distinct : list.Nodup)
    (live : ∀ n ∈ list, ∃ req, cache.reqs n = some req ∧ req.cachedPackets ≠ [])
    {n : Nat} {req : ArpReq} (member : n ∈ list) (found : cache.reqs n = some req)
    (expired : 5 < req.retries) (later : Int) :
    ∃ fault, list.foldlM (ArpCache.sweepReq rtable later) cache = .error fault := by
  induction list generalizing cache with
  | nil => cases member
  | cons m rest ih =>
      obtain ⟨absent, distinct⟩ := List.nodup_cons.mp distinct
      obtain ⟨other, present, pending⟩ := live m List.mem_cons_self
      by_cases few : other.retries ≤ 5
      · obtain ⟨middle, turn, first⟩ := @Swept.one rtable cache m other present few later
        have different : n ≠ m := by
          intro same
          rw [same, present] at found
          cases Option.some.inj found
          omega
        have same (k : Nat) (inside : k ∈ rest) : middle.reqs k = cache.reqs k := by
          rw [first.reqs,
            if_neg (List.mem_singleton.not.mpr (ne_of_mem_of_not_mem inside absent))]
        have behind : n ∈ rest := (List.mem_cons.mp member).resolve_left different
        obtain ⟨fault, failed⟩ := ih (first.lock.trans held) distinct
          (fun k inside => by
            rw [same k inside]
            exact live k (List.mem_cons_of_mem _ inside))
          behind ((same n behind).trans found)
        refine ⟨fault, ?_⟩
        rw [List.foldlM_cons, turn]
        exact failed
      · obtain ⟨pkt, pkts, packets⟩ := List.exists_cons_of_ne_nil pending
        rw [List.foldlM_cons, sweepReq_expired held present (Nat.not_le.mp few) packets later]
        exact ⟨_, rfl⟩

theorem Swept.kept {later : Int} {before after : ArpCache} (kept : Kept before)
    (swept : Swept later before.reqList before after) : Kept after where
  distinct := swept.reqList ▸ kept.distinct
  live n member := by
    rw [swept.reqList] at member
    obtain ⟨req, found, waiting⟩ := kept.live n member
    refine ⟨req.retry later, ?_, by rw [swept.nextReq]; exact waiting.known, ?_, ?_⟩
    · rw [swept.reqs, if_pos member, found, Option.map_some]
    · have overdue : before.overdue later n = req.overdue later := by
        rw [ArpCache.overdue, found, Option.any_some]
      rw [swept.requests, waiting.asked, overdue, ArpReq.retry]
      split_ifs with first second second
      · rfl
      · exact absurd first.2 second
      · exact absurd ⟨member, second⟩ first
      · rfl
    · rw [ArpReq.retry]
      split_ifs
      · exact waiting.pending
      · exact waiting.pending
  unborn n later' := by
    rw [swept.nextReq] at later'
    have outside : n ∉ before.reqList := by
      intro member
      obtain ⟨req, -, waiting⟩ := kept.live n member
      exact Nat.not_lt.mpr later' waiting.known
    rw [swept.requests, kept.unborn n later', if_neg (fun both => outside both.1)]
  unexpired n pkts member := kept.unexpired n pkts (swept.expired n pkts member)

theorem arpcacheSweep_ok (resting : Resting cache) (now later : Int)
    (few : ∀ n ∈ cache.reqList, ∀ req, cache.reqs n = some req → req.retries ≤ 5) :
    ∃ after, cache.arpcacheSweep rtable now later = .ok after ∧ Resting after ∧
      ∀ n, after.requests n =
        cache.requests n + if n ∈ cache.reqList ∧ cache.overdue later n then 1 else 0 := by
  let taken : ArpCache := ArpCache.expireEntries now { cache with lock := true }
  have kept : Kept taken := resting.kept.frame rfl rfl rfl rfl
  have fewTaken : ∀ n ∈ taken.reqList, ∃ req, taken.reqs n = some req ∧ req.retries ≤ 5 := by
    intro n member
    obtain ⟨req, found⟩ := kept.readable n member
    exact ⟨req, found, few n member req found⟩
  obtain ⟨after, scanned, swept⟩ := @sweep_scan rtable taken _ kept.distinct fewTaken later
  refine ⟨after.release, ?_, ⟨(swept.kept kept).frame rfl rfl rfl rfl, rfl⟩, swept.requests⟩
  rw [ArpCache.arpcacheSweep, acquire_of_free resting.free]
  change taken.reqList.foldlM (ArpCache.sweepReq rtable later) taken >>= _ = _
  rw [scanned]
  rfl

/-- A round of the sweep returns exactly when it finds no expired request. -/
theorem arpcacheSweep_returns_iff (resting : Resting cache) (now later : Int) :
    (∃ after, cache.arpcacheSweep rtable now later = .ok after) ↔
      NoneExpired cache (.sweep now later) := by
  constructor
  · intro returned
    obtain ⟨after, returned⟩ := returned
    intro n member req found
    by_contra expired
    let taken : ArpCache := ArpCache.expireEntries now { cache with lock := true }
    have live : ∀ m ∈ taken.reqList, ∃ req, taken.reqs m = some req ∧ req.cachedPackets ≠ [] := by
      intro m inside
      obtain ⟨other, present, waiting⟩ := resting.kept.live m inside
      exact ⟨other, present, waiting.pending⟩
    obtain ⟨fault, failed⟩ := @sweep_scan_expired rtable taken _ rfl resting.kept.distinct live
      n req member found (Nat.not_le.mp expired) later
    rw [ArpCache.arpcacheSweep, acquire_of_free resting.free] at returned
    change cache.reqList.foldlM (ArpCache.sweepReq rtable later) taken >>= _ = _ at returned
    rw [failed] at returned
    cases returned
  · intro few
    obtain ⟨after, returned, -⟩ := @arpcacheSweep_ok rtable cache resting now later few
    exact ⟨after, returned⟩

end Sweep

/-! ## Runs -/

section Runs

variable {rtable : List RtEntry} {cache : ArpCache}

theorem next_of_ok {event : Event} {after : ArpCache}
    (returned : cache.perform rtable event = .ok after) : cache.next rtable event = some after := by
  rw [ArpCache.next, returned]
  rfl

theorem ok_of_next {event : Event} {after : ArpCache}
    (taken : cache.next rtable event = some after) : cache.perform rtable event = .ok after := by
  rw [ArpCache.next] at taken
  cases returned : cache.perform rtable event with
  | error fault =>
      rw [returned] at taken
      cases taken
  | ok result =>
      rw [returned] at taken
      cases taken
      rfl

theorem disciplined_of_resting (resting : Resting cache)
    (bound : ∀ n, cache.requests n ≤ ARP_REQUEST_MAX_RETRIES) : Disciplined cache where
  free := resting.free
  requests := bound
  answered n pkts member := absurd member (resting.kept.unexpired n pkts)

theorem Returns.next {event : Event} (returns : Returns cache (cache.perform rtable event)) :
    ∃ after, cache.next rtable event = some after ∧ Resting after := by
  obtain ⟨after, returned, resting, -⟩ := returns
  exact ⟨after, next_of_ok returned, resting⟩

theorem Returns.disciplined {event : Event} (disciplined : Disciplined cache)
    (returns : Returns cache (cache.perform rtable event)) :
    ∃ after, cache.next rtable event = some after ∧ Disciplined after := by
  obtain ⟨after, returned, resting, requests⟩ := returns
  refine ⟨after, next_of_ok returned, disciplined_of_resting resting fun n => ?_⟩
  have once : 1 ≤ ARP_REQUEST_MAX_RETRIES := Nat.le_of_ble_eq_true rfl
  exact (requests n).trans (max_le (disciplined.requests n) once)

theorem noneExpired_of_next (resting : Resting cache) {event : Event} {after : ArpCache}
    (taken : cache.next rtable event = some after) : NoneExpired cache event := by
  cases event with
  | lookup ip4 => trivial
  | append now iface ip4 packet => trivial
  | insert now ip4 mac => trivial
  | sweep now later =>
      exact (arpcacheSweep_returns_iff resting now later).mp ⟨after, ok_of_next taken⟩

theorem next_of_noneExpired (resting : Resting cache) {event : Event}
    (few : NoneExpired cache event) :
    ∃ after, cache.next rtable event = some after ∧ Resting after := by
  cases event with
  | lookup ip4 => exact Returns.next (arpcacheLookup_returns resting ip4)
  | append now iface ip4 packet =>
      exact Returns.next (arpcacheAppendPacket_returns resting now iface ip4 packet)
  | insert now ip4 mac => exact Returns.next (arpcacheInsert_returns resting now ip4 mac)
  | sweep now later =>
      obtain ⟨after, returned, restingAfter, -⟩ := arpcacheSweep_ok resting now later few
      exact ⟨after, next_of_ok returned, restingAfter⟩

theorem resting_next (event : Event) {after : ArpCache} (resting : Resting cache)
    (taken : cache.next rtable event = some after) : Resting after := by
  have few := noneExpired_of_next resting taken
  obtain ⟨result, same, restingResult⟩ := @next_of_noneExpired rtable cache resting event few
  cases Option.some.inj (same.symm.trans taken)
  exact restingResult

theorem sweep_disciplined_iff (resting : Resting cache) (disciplined : Disciplined cache)
    (now later : Int) :
    (∃ after, cache.next rtable (.sweep now later) = some after ∧ Disciplined after) ↔
      NoneExhausted cache (.sweep now later) := by
  have counted : ∀ n ∈ cache.reqList, ∀ req, cache.reqs n = some req →
      cache.requests n = req.retries + 1 := by
    intro n member req found
    obtain ⟨other, present, waiting⟩ := resting.kept.live n member
    cases Option.some.inj (found.symm.trans present)
    exact waiting.asked
  have few : ∀ n ∈ cache.reqList, ∀ req, cache.reqs n = some req → req.retries ≤ 5 := by
    intro n member req found
    have bound := disciplined.requests n
    rw [counted n member req found, ARP_REQUEST_MAX_RETRIES] at bound
    omega
  obtain ⟨after, returned, restingAfter, requests⟩ :=
    @arpcacheSweep_ok rtable cache resting now later few
  constructor
  · intro taken
    obtain ⟨result, taken, disciplinedResult⟩ := taken
    cases Option.some.inj ((@next_of_ok _ _ (.sweep now later) _ returned).symm.trans taken)
    intro n member req found overdue
    have asked : n ∈ cache.reqList ∧ cache.overdue later n := by
      refine ⟨member, ?_⟩
      rw [ArpCache.overdue, found]
      exact decide_eq_true overdue
    have bound := disciplinedResult.requests n
    rw [requests, if_pos asked, counted n member req found] at bound
    exact bound
  · intro none
    refine ⟨after, next_of_ok returned, disciplined_of_resting restingAfter fun n => ?_⟩
    rw [requests]
    split_ifs with asked
    · obtain ⟨req, found, waiting⟩ := resting.kept.live n asked.1
      have overdue := asked.2
      rw [ArpCache.overdue, found] at overdue
      rw [waiting.asked]
      exact none n asked.1 req found (of_decide_eq_true overdue)
    · exact disciplined.requests n

theorem disciplined_next_iff (event : Event) (resting : Resting cache)
    (disciplined : Disciplined cache) :
    (∃ after, cache.next rtable event = some after ∧ Disciplined after) ↔
      NoneExhausted cache event := by
  cases event with
  | lookup ip4 =>
      exact iff_of_true (Returns.disciplined disciplined
        (arpcacheLookup_returns resting ip4)) trivial
  | append now iface ip4 packet =>
      exact iff_of_true (Returns.disciplined disciplined
        (arpcacheAppendPacket_returns resting now iface ip4 packet)) trivial
  | insert now ip4 mac =>
      exact iff_of_true (Returns.disciplined disciplined
        (arpcacheInsert_returns resting now ip4 mac)) trivial
  | sweep now later => exact sweep_disciplined_iff resting disciplined now later

/-- Every operation of a run comes back from the lock exactly when no round of the sweep finds
an expired request. -/
theorem lock_comes_back_iff (rtable : List RtEntry) (events : List Event) :
    Completes (ArpCache.next rtable) Resting arpcacheInit events ↔
      Guarded (ArpCache.next rtable) NoneExpired arpcacheInit events := by
  refine completes_iff_guarded (ArpCache.next rtable)
    (fun cache event after resting taken => resting_next event resting taken) ?_ events
    resting_init resting_init
  intro cache event resting _
  constructor
  · intro taken
    obtain ⟨after, taken, -⟩ := taken
    exact noneExpired_of_next resting taken
  · exact next_of_noneExpired resting

/-- Every operation of a run returns and leaves the cache with discipline exactly when no round
of the sweep finds an overdue request that was asked for often enough. -/
theorem expiry_discipline_iff (rtable : List RtEntry) (events : List Event) :
    Completes (ArpCache.next rtable) Disciplined arpcacheInit events ↔
      Guarded (ArpCache.next rtable) NoneExhausted arpcacheInit events := by
  have initially : Disciplined arpcacheInit :=
    disciplined_of_resting resting_init fun _ => Nat.zero_le _
  refine completes_iff_guarded (ArpCache.next rtable)
    (fun cache event after resting taken => resting_next event resting taken) ?_ events
    resting_init initially
  intro cache event resting disciplined
  exact disciplined_next_iff event resting disciplined

end Runs

section SilentHost

def routerIface : IfaceInfo := { index := 0, mac := noMac, ip := 0x0A000101 }

def routerRtable : List RtEntry :=
  [{ dest := 0x0A000100, mask := 0xFFFFFF00, gw := 0, iface := routerIface }]

def strayPacket : IpFrame :=
  { etherDhost := noMac, etherShost := noMac, saddr := 0x0A00010B, daddr := 0x0A000163,
    icmp := none }

/-- The packet waits for a host that never replies, through rounds of the sweep. -/
def unanswered (rounds : Nat) : List Event :=
  .append 0 routerIface 0x0A000163 strayPacket ::
    (List.range rounds).map fun i => .sweep (i + 2) (i + 2)

/-- The fifth round sends the sixth request, and the seventh takes the lock twice. -/
theorem silent_host_locks :
    (run (ArpCache.next routerRtable) arpcacheInit (unanswered 5)).map
        (fun cache => cache.requests 0) = some 6 ∧
      (run (ArpCache.next routerRtable) arpcacheInit (unanswered 6)).map
        (fun cache => cache.perform routerRtable (.sweep 8 8)) = some (.error .lockHeld) ∧
      ¬ Completes (ArpCache.next routerRtable) Disciplined arpcacheInit (unanswered 5) := by
  have sixth : (run (ArpCache.next routerRtable) arpcacheInit (unanswered 5)).map
      (fun cache => cache.requests 0) = some 6 := rfl
  refine ⟨sixth, rfl, ?_⟩
  intro completes
  obtain ⟨final, success, requests⟩ := Option.map_eq_some_iff.mp sixth
  have initially : Disciplined arpcacheInit :=
    disciplined_of_resting resting_init fun _ => Nat.zero_le _
  have bound := (completes_last _ _ initially completes success).requests 0
  rw [requests] at bound
  exact absurd bound (by decide)

end SilentHost

end NetworkLab.Router
