import Mathlib.Data.List.FinRange
import Mathlib.Logic.Function.Basic
import NetworkLab.ArpCache.PendingPackets
import NetworkLab.Lib.Run

/-!
# The ARP cache of the router

`08-router/arpcache.c` with the calls that `arpcache_sweep` makes while it holds the lock:
`icmp_send_packet`, `ip_send_packet` and `iface_send_packet_by_arp`, which comes back to the
cache.  An `arp_req` is an address; what is read behind an address that was freed is a fault,
and so is taking the lock twice.
-/
set_option autoImplicit false

namespace NetworkLab.Router

open NetworkLab.ArpCache (Mac ARP_REQUEST_MAX_RETRIES ICMP_DEST_UNREACH ICMP_HOST_UNREACH)

abbrev MAX_ARP_SIZE : Nat := 32

structure IfaceInfo where
  index : Nat
  mac : Mac
  ip : UInt32

structure RtEntry where
  dest : UInt32
  mask : UInt32
  gw : UInt32
  iface : IfaceInfo

/-- A frame with an IP packet, whose addresses are in host order.  An ICMP packet has its type
and code. -/
structure IpFrame where
  etherDhost : Mac
  etherShost : Mac
  saddr : UInt32
  daddr : UInt32
  icmp : Option (UInt8 × UInt8)

structure ArpCacheEntry where
  ip4 : UInt32
  mac : Mac
  added : Int
  valid : Bool

/-- `serial` stands for the address of the `cached_pkt`. -/
structure CachedPkt where
  serial : Nat
  packet : IpFrame

structure ArpReq where
  iface : IfaceInfo
  ip4 : UInt32
  sent : Int
  retries : Nat
  cachedPackets : List CachedPkt

inductive Effect
  | arpSendRequest (req : Nat) (iface : IfaceInfo) (ip4 : UInt32)
  | ifaceSendPacket (iface : IfaceInfo) (packet : IpFrame)
  | expired (req : Nat) (pkts : List CachedPkt)
  | answered (serial : Nat) (type code : UInt8)

inductive Fault
  | lockHeld
  | useAfterFree
  | nullEntry

/-- `reqs` is the memory of the requests: an address without one was freed, or is not in use
yet.  `log` tells what was sent. -/
structure ArpCache where
  entries : Fin MAX_ARP_SIZE → ArpCacheEntry
  reqList : List Nat
  reqs : Nat → Option ArpReq
  lock : Bool
  nextReq : Nat
  nextPkt : Nat
  log : List Effect

/-- The entry with the largest mask among those that match.  A mask of zero is never larger
than what the search starts from. -/
def longestPrefixMatch (rtable : List RtEntry) (dst : UInt32) : Option RtEntry :=
  (rtable.foldl
    (fun (maxlen, maxpos) pos =>
      if pos.dest &&& pos.mask = dst &&& pos.mask ∧ maxlen < pos.mask then (pos.mask, some pos)
      else (maxlen, maxpos))
    ((0 : UInt32), none)).2

namespace ArpCache

def acquire (cache : ArpCache) : Except Fault ArpCache :=
  if cache.lock then .error .lockHeld else .ok { cache with lock := true }

def release (cache : ArpCache) : ArpCache := { cache with lock := false }

def record (effects : List Effect) (cache : ArpCache) : ArpCache :=
  { cache with log := cache.log ++ effects }

def readReq (n : Nat) (cache : ArpCache) : Except Fault ArpReq :=
  match cache.reqs n with
  | none => .error .useAfterFree
  | some req => .ok req

def writeReq (n : Nat) (req : ArpReq) (cache : ArpCache) : ArpCache :=
  { cache with reqs := Function.update cache.reqs n (some req) }

def freeReq (n : Nat) (cache : ArpCache) : ArpCache :=
  { cache with reqList := cache.reqList.erase n, reqs := Function.update cache.reqs n none }

def arpcacheLookup (ip4 : UInt32) (cache : ArpCache) : Except Fault (Option Mac × ArpCache) := do
  let cache ← cache.acquire
  let found := (List.finRange MAX_ARP_SIZE).find? fun i =>
    (cache.entries i).ip4 == ip4 && (cache.entries i).valid
  .ok (found.map fun i => (cache.entries i).mac, cache.release)

def findReq (index : Nat) (ip4 : UInt32) (cache : ArpCache) :
    List Nat → Except Fault (Option (Nat × ArpReq))
  | [] => .ok none
  | n :: rest => do
    let req ← cache.readReq n
    if req.iface.index = index ∧ req.ip4 = ip4 then .ok (some (n, req))
    else findReq index ip4 cache rest

def arpcacheAppendPacket (now : Int) (iface : IfaceInfo) (ip4 : UInt32) (packet : IpFrame)
    (cache : ArpCache) : Except Fault ArpCache := do
  let cache ← cache.acquire
  let newPkt : CachedPkt := { serial := cache.nextPkt, packet := packet }
  let cache := { cache with nextPkt := cache.nextPkt + 1 }
  match ← cache.findReq iface.index ip4 cache.reqList with
  | some (n, req) =>
    .ok (cache.writeReq n { req with cachedPackets := req.cachedPackets ++ [newPkt] }).release
  | none =>
    let n := cache.nextReq
    let newRep : ArpReq :=
      { iface := iface, ip4 := ip4, sent := now, retries := 0, cachedPackets := [newPkt] }
    let cache := { cache.writeReq n newRep with
      nextReq := n + 1
      reqList := cache.reqList ++ [n] }
    .ok (cache.record [.arpSendRequest n iface ip4]).release

def flushReq (ip4 : UInt32) (mac : Mac) (cache : ArpCache) (n : Nat) : Except Fault ArpCache := do
  let req ← cache.readReq n
  if req.ip4 = ip4 then
    .ok ((cache.record (req.cachedPackets.map fun pkt =>
      .ifaceSendPacket req.iface { pkt.packet with etherDhost := mac })).freeReq n)
  else .ok cache

/-- The scan stops at the first entry that is not valid, or has the address. -/
def insertPlace (ip4 : UInt32) (cache : ArpCache) : Option (Fin MAX_ARP_SIZE) :=
  (List.finRange MAX_ARP_SIZE).find? fun i =>
    !(cache.entries i).valid || (cache.entries i).ip4 == ip4

def writeEntry (i : Fin MAX_ARP_SIZE) (entry : ArpCacheEntry) (cache : ArpCache) : ArpCache :=
  { cache with entries := Function.update cache.entries i entry }

def arpcacheInsert (now : Int) (ip4 : UInt32) (mac : Mac) (cache : ArpCache) :
    Except Fault ArpCache := do
  let cache ← cache.acquire
  let entry : ArpCacheEntry := { ip4 := ip4, mac := mac, added := now, valid := true }
  let flush (cache : ArpCache) : Except Fault ArpCache := do
    let cache ← cache.reqList.foldlM (flushReq ip4 mac) cache
    .ok cache.release
  match cache.insertPlace ip4 with
  | some i =>
    if (cache.entries i).valid then
      -- The address is known already: neither its `mac` nor the pending packets are looked at.
      .ok (cache.writeEntry i { cache.entries i with added := now }).release
    else flush (cache.writeEntry i entry)
  | none => flush (cache.writeEntry 0 entry)

def ifaceSendPacketByArp (now : Int) (iface : IfaceInfo) (dstIp : UInt32) (packet : IpFrame)
    (cache : ArpCache) : Except Fault ArpCache := do
  let packet := { packet with etherShost := iface.mac }
  let (found, cache) ← cache.arpcacheLookup dstIp
  match found with
  | some dstMac =>
    .ok (cache.record [.ifaceSendPacket iface { packet with etherDhost := dstMac }])
  | none => cache.arpcacheAppendPacket now iface dstIp packet

section Routed

variable (rtable : List RtEntry)

def ipSendPacket (now : Int) (packet : IpFrame) (cache : ArpCache) : Except Fault ArpCache :=
  match longestPrefixMatch rtable packet.daddr with
  | none => .ok cache
  | some entry =>
    let nextHop := if entry.gw = 0 then packet.daddr else entry.gw
    cache.ifaceSendPacketByArp now entry.iface nextHop
      { packet with etherShost := entry.iface.mac }

def icmpSendPacket (now : Int) (inPkt : IpFrame) (type code : UInt8) (cache : ArpCache) :
    Except Fault ArpCache :=
  match longestPrefixMatch rtable inPkt.saddr with
  | none => .error .nullEntry
  | some entry =>
    cache.ipSendPacket rtable now
      { etherDhost := inPkt.etherDhost, etherShost := inPkt.etherDhost, saddr := entry.iface.ip,
        daddr := inPkt.saddr, icmp := some (if type = 8 then (0, 0) else (type, code)) }

def answerPkt (now : Int) (cache : ArpCache) (pkt : CachedPkt) : Except Fault ArpCache := do
  let cache ← cache.icmpSendPacket rtable now pkt.packet 3 1
  .ok (cache.record [.answered pkt.serial 3 1])

/-- A turn of the scan of `req_list` in `arpcache_sweep`.  `sent` is read behind the branch that
frees the request. -/
def sweepReq (now : Int) (cache : ArpCache) (n : Nat) : Except Fault ArpCache := do
  let req ← cache.readReq n
  let cache ←
    if 5 < req.retries then do
      let cache := cache.record [.expired n req.cachedPackets]
      let cache ← req.cachedPackets.foldlM (answerPkt rtable now) cache
      .ok (cache.freeReq n)
    else .ok cache
  let req ← cache.readReq n
  if 1 < now - req.sent then
    .ok ((cache.record [.arpSendRequest n req.iface req.ip4]).writeReq n
      { req with retries := req.retries + 1 })
  else .ok cache

def expireEntries (now : Int) (cache : ArpCache) : ArpCache :=
  { cache with
    entries := fun i =>
      if 15 < now - (cache.entries i).added then { cache.entries i with valid := false }
      else cache.entries i }

def arpcacheSweep (now later : Int) (cache : ArpCache) : Except Fault ArpCache := do
  let cache ← cache.acquire
  let cache := cache.expireEntries now
  -- The scan takes requests out of the list; what adds one to it needs the lock.
  let cache ← cache.reqList.foldlM (sweepReq rtable later) cache
  .ok cache.release

end Routed

end ArpCache

/-! ## Runs -/

def noMac : Mac := Vector.replicate 6 0

def arpcacheInit : ArpCache where
  entries _ := { ip4 := 0, mac := noMac, added := 0, valid := false }
  reqList := []
  reqs _ := none
  lock := false
  nextReq := 0
  nextPkt := 0
  log := []

inductive Event
  | lookup (ip4 : UInt32)
  | append (now : Int) (iface : IfaceInfo) (ip4 : UInt32) (packet : IpFrame)
  | insert (now : Int) (ip4 : UInt32) (mac : Mac)
  | sweep (now later : Int)

def ArpCache.perform (rtable : List RtEntry) (cache : ArpCache) : Event → Except Fault ArpCache
  | .lookup ip4 => (cache.arpcacheLookup ip4).map Prod.snd
  | .append now iface ip4 packet => cache.arpcacheAppendPacket now iface ip4 packet
  | .insert now ip4 mac => cache.arpcacheInsert now ip4 mac
  | .sweep now later => cache.arpcacheSweep rtable now later

/-- An operation that returns; one with a fault does not. -/
def ArpCache.next (rtable : List RtEntry) (cache : ArpCache) (event : Event) : Option ArpCache :=
  (cache.perform rtable event).toOption

end NetworkLab.Router
