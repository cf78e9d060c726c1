import NetworkLab.Mospf.Database
import NetworkLab.Mospf.HopDistances

/-!
# The threads of the mOSPF daemon

One round of each thread body of `mospf_daemon.c` and the two packet handlers, as steps
on the daemon's state.  `mospf_lock` is not recursive; `none` stands for a step that does
not return: it blocks, runs without end, fails an assertion or leaves an array.
-/
set_option autoImplicit false

namespace NetworkLab.Mospf

def MOSPF_DEFAULT_HELLOINT : UInt8 := 5
def MOSPF_ALLSPFRouters : UInt32 := 0xe0000005
def MOSPF_MAX_LSU_TTL : UInt8 := 255

/-- `iface_info_t` with the fields that the other threads use. -/
structure Interface extends IfaceInfo where
  mask : UInt32
  name : String
  numNbr : Int
deriving DecidableEq

/-- `iface` is the `index` of the interface. -/
structure RtEntry where
  dest : UInt32
  mask : UInt32
  gw : UInt32
  ifName : String
  iface : Nat
deriving DecidableEq

/-- A hello packet: the source address and the `rid` and `mask` of its headers. -/
structure MospfHello where
  saddr : UInt32
  rid : UInt32
  mask : UInt32
deriving DecidableEq

inductive Sent where
  | hello (daddr : UInt32) (hello : MospfHello)
  | lsu (copy : LsuCopy)
deriving DecidableEq

structure Daemon where
  routerId : UInt32
  sequenceNum : UInt16
  ifaceList : List Interface
  mospfDb : List MospfDbEntry
  rtable : List RtEntry
  globals : Globals
  mospfLock : Bool

def Daemon.router (daemon : Daemon) : Router :=
  { routerId := daemon.routerId, ifaceList := daemon.ifaceList.map Interface.toIfaceInfo,
    mospfDb := daemon.mospfDb, mospfLock := daemon.mospfLock }

section Neighbours

def sendingMospfHello (daemon : Daemon) : List Sent :=
  daemon.ifaceList.map fun iface =>
    .hello MOSPF_ALLSPFRouters { saddr := iface.ip, rid := daemon.routerId, mask := iface.mask }

def heardHello (hello : MospfHello) (iface : Interface) : Interface :=
  let nbrList := iface.nbrList.map fun nbr =>
    if nbr.nbrIp = hello.saddr then { nbr with alive := 0 } else nbr
  if iface.nbrList.any fun nbr => nbr.nbrIp == hello.saddr then { iface with nbrList := nbrList }
  else
    { iface with
      nbrList := nbrList ++
        [{ nbrId := hello.rid, nbrIp := hello.saddr, nbrMask := hello.mask, alive := 0 }],
      numNbr := iface.numNbr + 1 }

def handleMospfHello (daemon : Daemon) (index : Nat) (hello : MospfHello) : Daemon :=
  { daemon with
    ifaceList := daemon.ifaceList.map fun iface =>
      if iface.index = index then heardHello hello iface else iface }

def agedNbrs (iface : Interface) : Interface :=
  let lost := iface.nbrList.filter fun nbr => 3 * MOSPF_DEFAULT_HELLOINT < nbr.alive
  let kept := iface.nbrList.filter fun nbr => ¬ 3 * MOSPF_DEFAULT_HELLOINT < nbr.alive
  { iface with
    nbrList := kept.map fun nbr => { nbr with alive := nbr.alive + 1 },
    numNbr := iface.numNbr - lost.length }

def checkingNbr (daemon : Daemon) : Daemon :=
  { daemon with ifaceList := daemon.ifaceList.map agedNbrs }

end Neighbours

section Databases

/-- An expired entry takes all routes through gateways with it. -/
def checkDbEntry (now : Int) (daemon : Daemon) (entry : MospfDbEntry) : Daemon :=
  if 35 ≤ now - entry.addTime then
    { daemon with rtable := daemon.rtable.filter fun route => route.gw = 0 }
  else { daemon with mospfDb := daemon.mospfDb ++ [entry] }

def checkingDatabase (now : Int) (daemon : Daemon) : Daemon :=
  daemon.mospfDb.foldl (checkDbEntry now) { daemon with mospfDb := [] }

def advertisedLsas (iface : Interface) : List MospfLsa :=
  if iface.numNbr = 0 then
    [{ subnet := iface.ip &&& iface.mask, mask := iface.mask, rid := 0 }]
  else iface.nbrList.map fun nbr =>
    { subnet := nbr.nbrIp &&& nbr.nbrMask, mask := nbr.nbrMask, rid := nbr.nbrId }

/-- `num_adv`, for which the LSU has space. -/
def numAdv (ifaceList : List Interface) : Int :=
  (ifaceList.map fun iface => if iface.numNbr = 0 then 1 else iface.numNbr).sum

def sendingMospfLsu (daemon : Daemon) : Option (Daemon × List Sent) :=
  let lsas := daemon.ifaceList.flatMap advertisedLsas
  if lsas.length = numAdv daemon.ifaceList then
    let lsu : MospfLsu :=
      { rid := daemon.routerId, seq := daemon.sequenceNum, ttl := MOSPF_MAX_LSU_TTL,
        nadv := UInt32.ofNat lsas.length, lsas := lsas }
    some ({ daemon with sequenceNum := daemon.sequenceNum + 1 },
      daemon.ifaceList.flatMap fun iface => iface.nbrList.map fun nbr =>
        .lsu { saddr := iface.ip, daddr := nbr.nbrIp, lsu := lsu })
  else none

end Databases

section Routes

structure Ranking where
  dist : Nat → UInt32
  distRank : List Nat

def rankRound (j : Nat) (ranking : Ranking) : Option Ranking := do
  let here ← readAt ranking.dist j
  let next ← readAt ranking.dist (j + 1)
  if here > next then
    let rankHere ← ranking.distRank[j]?
    let rankNext ← ranking.distRank[j + 1]?
    some
      { dist := Function.update (Function.update ranking.dist j next) (j + 1) here,
        distRank := (ranking.distRank.set j rankNext).set (j + 1) rankHere }
  else some ranking

/-- The inner loop from `j` on; its condition does not mention `j`.  After `left` more
rounds `j + 1` is past the end of `Dist`. -/
def rankFrom (nodeNum i : Nat) : Nat → Nat → Ranking → Option Ranking
  | left, j, ranking =>
    if (i : Int) ≠ nodeNum - i - 1 then
      match left with
      | 0 => none
      | left + 1 => (rankRound j ranking).bind (rankFrom nodeNum i left (j + 1))
    else some ranking

def rankNodes (nodeNum : Nat) (dist : Nat → UInt32) : Option Ranking :=
  (List.range (nodeNum - 1)).foldlM (fun ranking i => rankFrom nodeNum i (MAX_NUM - 1) 0 ranking)
    { dist := dist, distRank := List.range nodeNum }

def isInRtable (rtable : List RtEntry) (subnet : UInt32) : Bool :=
  rtable.any fun route => route.dest &&& route.mask == subnet

/-- `iface_addr` is a pointer to a pointer: the outer `none` is NULL. -/
def getIfaceAndGw (ifaceList : List Interface) (rid : UInt32)
    (ifaceAddr : Option (Option Interface)) (gw : UInt32) :
    Option (Option (Option Interface) × UInt32) :=
  let heard := ifaceList.flatMap fun iface => iface.nbrList.map fun nbr => (iface, nbr)
  match heard.find? fun pair => pair.2.nbrId == rid with
  | some pair => ifaceAddr.map fun _ => (some (some pair.1), pair.2.nbrIp)
  | none => some (ifaceAddr, gw)

def newRtEntry (dest mask gw : UInt32) (iface : Interface) : RtEntry :=
  { dest := dest, mask := mask, gw := gw, ifName := iface.name, iface := iface.index }

/-- `while (Prev[hop]) hop = Prev[hop]` with at most `left` tests. -/
def firstHop (prev : Nat → UInt32) : Nat → Nat → Option Nat
  | 0, _ => none
  | left + 1, hop => do
    let next ← readAt prev hop
    if next = 0 then some hop else firstHop prev left next.toNat

/-- The local `gw`, which starts uninitialised, and the routing table. -/
structure Routing where
  gw : UInt32
  rtable : List RtEntry

def installLsa (nodeNum : Nat) (globals : Globals) (ifaceList : List Interface) (rid : UInt32)
    (routing : Routing) (lsa : MospfLsa) : Option Routing :=
  if isInRtable routing.rtable lsa.subnet then some routing
  else do
    let node ← getNode globals.node rid nodeNum
    let hop ← firstHop globals.prev MAX_NUM node
    let hopRid ← readAt globals.node hop
    -- `iface_addr` is NULL from its declaration on
    let (ifaceAddr, gw) ← getIfaceAndGw ifaceList hopRid none routing.gw
    let iface ← ifaceAddr.join
    some { gw := gw, rtable := routing.rtable ++ [newRtEntry lsa.subnet iface.mask gw iface] }

def installEntry (nodeNum : Nat) (globals : Globals) (ifaceList : List Interface)
    (routing : Routing) (entry : MospfDbEntry) : Option Routing := do
  let lsas ← entry.lsas
  lsas.foldlM (installLsa nodeNum globals ifaceList entry.rid) routing

def installNode (nodeNum : Nat) (globals : Globals) (ifaceList : List Interface)
    (db : List MospfDbEntry) (routing : Routing) (node : Nat) : Option Routing := do
  let prev ← readAt globals.prev node
  if prev ≠ -1 ∧ db ≠ [] then db.foldlM (installEntry nodeNum globals ifaceList) routing
  else some routing

/-- The loops of `caculate_rtable_thread` over `Dist_rank`, the database and its LSAs. -/
def installRoutes (nodeNum : Nat) (globals : Globals) (ifaceList : List Interface)
    (db : List MospfDbEntry) (distRank : List Nat) (routing : Routing) : Option Routing :=
  distRank.foldlM (installNode nodeNum globals ifaceList db) routing

def caculateRtable (gw : UInt32) (daemon : Daemon) : Option Daemon := do
  let (nodeNum, globals) ← caculatePaths daemon.routerId daemon.mospfDb daemon.globals
  let ranking ← rankNodes nodeNum globals.dist
  let globals := { globals with dist := ranking.dist }
  let routing ← installRoutes nodeNum globals daemon.ifaceList daemon.mospfDb ranking.distRank
    { gw := gw, rtable := daemon.rtable }
  some { daemon with globals := globals, rtable := routing.rtable }

end Routes

/-- A round of a thread, or a packet that arrives; `caculateRtable` comes with what the
uninitialised `gw` holds. -/
inductive Activity where
  | sendHello
  | hello (index : Nat) (packet : MospfHello)
  | checkNbr
  | checkDatabase (now : Int)
  | sendLsu
  | lsu (arrival : Arrival)
  | caculateRtable (gw : UInt32)

/-- A body between `pthread_mutex_lock` and `pthread_mutex_unlock`. -/
def Daemon.locked (daemon : Daemon) (body : Daemon → Option (Daemon × List Sent)) :
    Option (Daemon × List Sent) :=
  if daemon.mospfLock then none
  else (body { daemon with mospfLock := true }).map fun done =>
    ({ done.1 with mospfLock := false }, done.2)

def Daemon.handleLsu (daemon : Daemon) (arrival : Arrival) : Option (Daemon × List Sent) :=
  (handleMospfLsu daemon.router arrival.index arrival.lsu arrival.now).map fun done =>
    ({ daemon with mospfDb := done.1.mospfDb, mospfLock := done.1.mospfLock },
      done.2.map Sent.lsu)

def Daemon.act (daemon : Daemon) : Activity → Option (Daemon × List Sent)
  | .sendHello => daemon.locked fun held => some (held, sendingMospfHello held)
  | .hello index packet => daemon.locked fun held => some (handleMospfHello held index packet, [])
  | .checkNbr => daemon.locked fun held => some (checkingNbr held, [])
  | .checkDatabase now => daemon.locked fun held => some (checkingDatabase now held, [])
  | .sendLsu => daemon.locked sendingMospfLsu
  | .lsu arrival => daemon.handleLsu arrival
  | .caculateRtable gw => daemon.locked fun held => (caculateRtable gw held).map fun done => (done, [])

def Daemon.next (daemon : Daemon) (activity : Activity) : Option Daemon :=
  (daemon.act activity).map Prod.fst

structure Booted (daemon : Daemon) : Prop where
  free : daemon.mospfLock = false
  empty : daemon.mospfDb = []
  alone : ∀ iface ∈ daemon.ifaceList, iface.nbrList = [] ∧ iface.numNbr = 0

end NetworkLab.Mospf
