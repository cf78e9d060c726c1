import NetworkLab.Checksum
import NetworkLab.Mospf.Consistency

/-!
# Packets of the mOSPF daemon

The buffers that `sending_mospf_lsu_thread` fills and `handle_mospf_packet` reads and
forwards.  `none` stands for a byte outside a buffer and for a thread that blocks on
`mospf_lock`.  What `malloc` finds in memory and what `rand` returns are given.
-/
set_option autoImplicit false

namespace NetworkLab.Mospf

open Lib.Bytes

def ETHER_HDR_SIZE : Nat := 14
def IP_BASE_HDR_SIZE : Nat := 20
def MOSPF_HDR_SIZE : Nat := 16
def MOSPF_LSU_SIZE : Nat := 8
def MOSPF_LSA_SIZE : Nat := 12

def ETH_P_IP : UInt16 := 0x0800
def IP_DF : UInt16 := 0x4000
def DEFAULT_TTL : UInt8 := 64
def IPPROTO_MOSPF : UInt8 := 90
def MOSPF_VERSION : UInt8 := 2
def MOSPF_TYPE_HELLO : UInt8 := 1
def MOSPF_TYPE_LSU : UInt8 := 4

/-- `area_id`, which only `mospf_init` sets. -/
def AREA_ID : UInt32 := 0

/-- Where the mOSPF header lies in the packets that the daemon fills, and where
`handle_mospf_lsu` takes it to be. -/
def MOSPF_OFFSET : Nat := ETHER_HDR_SIZE + IP_BASE_HDR_SIZE
def LSU_OFFSET : Nat := MOSPF_OFFSET + MOSPF_HDR_SIZE
def LSA_OFFSET : Nat := LSU_OFFSET + MOSPF_LSU_SIZE

/-! ## Headers -/

section Headers

def ipChecksum (packet : List UInt8) : Option UInt16 := do
  let ihl ← read8 packet ETHER_HDR_SIZE
  let cleared ← write packet (ETHER_HDR_SIZE + 10) (bytes16 0)
  checksum cleared ETHER_HDR_SIZE (ihl.toNat % 16 * 4) 0

/-- `id` is what `rand` returns. -/
def ipInitHdr (saddr daddr : UInt32) (len : UInt16) (proto : UInt8) (id : UInt16)
    (packet : List UInt8) : Option (List UInt8) := do
  let packet ← write packet ETHER_HDR_SIZE
    ([0x45, 0] ++ bytes16 len ++ bytes16 id ++ bytes16 IP_DF ++ [DEFAULT_TTL, proto])
  let packet ← write packet (ETHER_HDR_SIZE + 12) (bytes32 saddr ++ bytes32 daddr)
  let sum ← ipChecksum packet
  write packet (ETHER_HDR_SIZE + 10) (bytes16Little sum)

/-- `mospf` is the offset of the header. -/
def mospfChecksum (mospf : Nat) (packet : List UInt8) : Option UInt16 := do
  let len ← read16 packet (mospf + 2)
  let cleared ← write packet (mospf + 12) (bytes16 0)
  checksum cleared mospf len.toNat 0

def setMospfChecksum (mospf : Nat) (packet : List UInt8) : Option (List UInt8) := do
  let sum ← mospfChecksum mospf packet
  write packet (mospf + 12) (bytes16Little sum)

def mospfInitHdr (mospf : Nat) (type : UInt8) (len : UInt16) (rid aid : UInt32)
    (packet : List UInt8) : Option (List UInt8) := do
  let packet ← write packet mospf
    ([MOSPF_VERSION, type] ++ bytes16 len ++ bytes32 rid ++ bytes32 aid)
  write packet (mospf + 14) (bytes16 0)

def mospfInitLsu (lsu : Nat) (seq : UInt16) (nadv : UInt32) (packet : List UInt8) :
    Option (List UInt8) :=
  write packet lsu (bytes16 seq ++ [MOSPF_MAX_LSU_TTL, 0] ++ bytes32 nadv)

def ipHeader (saddr daddr : UInt32) (len : UInt16) (proto : UInt8) (id sum : UInt16) :
    List UInt8 :=
  ([0x45, 0] ++ bytes16 len ++ bytes16 id ++ bytes16 IP_DF ++ [DEFAULT_TTL, proto]) ++
    (bytes16Little sum ++ (bytes32 saddr ++ bytes32 daddr))

theorem exists_ipChecksum {front : List UInt8} (rest : List UInt8)
    (ether : front.length = ETHER_HDR_SIZE) (size : 19 ≤ rest.length) :
    ∃ sum, ipChecksum (front ++ (0x45 :: rest)) = some sum := by
  have length : (front ++ (0x45 :: rest)).length = ETHER_HDR_SIZE + (rest.length + 1) := by
    rw [List.length_append, ether, List.length_cons]
  have first : read8 (front ++ (0x45 :: rest)) ETHER_HDR_SIZE = some 0x45 := by
    rw [read8_append front _ ether.le, ether, Nat.sub_self, read8_cons]
  have words : (0x45 : UInt8).toNat % 16 * 4 = 20 := by decide
  obtain ⟨cleared, written⟩ := (exists_write_iff (front ++ (0x45 :: rest))
    (ETHER_HDR_SIZE + 10) (bytes16 0)).mpr (by rw [length, length_bytes16]; omega)
  obtain ⟨sum, summed⟩ := (exists_checksum_iff cleared ETHER_HDR_SIZE 20 0).mpr
    (.inr (by rw [length_write written, length]; omega))
  refine ⟨sum, ?_⟩
  simp only [ipChecksum, first, Option.bind_eq_bind, Option.bind_some, written, words, summed]

theorem exists_ipInitHdr (saddr daddr : UInt32) (len : UInt16) (proto : UInt8) (id : UInt16)
    {front old : List UInt8} (rest : List UInt8) (ether : front.length = ETHER_HDR_SIZE)
    (size : old.length = IP_BASE_HDR_SIZE) :
    ∃ sum, ipInitHdr saddr daddr len proto id (front ++ (old ++ rest)) =
      some (front ++ (ipHeader saddr daddr len proto id sum ++ rest)) := by
  obtain ⟨start, more, rfl, startSize⟩ := exists_cut old 10 (by rw [size]; decide)
  obtain ⟨field, addresses, rfl, fieldSize⟩ := exists_cut more 2 (by
    rw [List.length_append, startSize, IP_BASE_HDR_SIZE] at size
    omega)
  simp only [List.length_append, startSize, fieldSize, IP_BASE_HDR_SIZE] at size
  unfold ipInitHdr ipHeader
  generalize startIs : [0x45, 0] ++ bytes16 len ++ bytes16 id ++ bytes16 IP_DF ++
    [DEFAULT_TTL, proto] = filled
  obtain ⟨tail, filledIs, tailSize⟩ : ∃ tail, filled = 0x45 :: tail ∧ tail.length = 9 :=
    ⟨_, startIs.symm, rfl⟩
  have filledSize : filled.length = 10 := by rw [filledIs, List.length_cons, tailSize]
  have first := write_append front start filled (field ++ (addresses ++ rest)) ETHER_HDR_SIZE
    ether (startSize.trans filledSize.symm)
  have second := write_append (front ++ (filled ++ field)) addresses
    (bytes32 saddr ++ bytes32 daddr) rest (ETHER_HDR_SIZE + 12)
    (by simp only [List.length_append, ether, filledSize, fieldSize]) (by
      rw [List.length_append, length_bytes32, length_bytes32]
      omega)
  obtain ⟨sum, summed⟩ : ∃ sum, ipChecksum
      (front ++ (filled ++ (field ++ ((bytes32 saddr ++ bytes32 daddr) ++ rest)))) = some sum := by
    rw [filledIs, List.cons_append]
    apply exists_ipChecksum _ ether
    simp only [List.length_append, tailSize, length_bytes32, fieldSize]
    omega
  have third := write_append (front ++ filled) field (bytes16Little sum)
    ((bytes32 saddr ++ bytes32 daddr) ++ rest) (ETHER_HDR_SIZE + 10)
    (by simp only [List.length_append, ether, filledSize])
    (fieldSize.trans (length_bytes16Little sum).symm)
  refine ⟨sum, ?_⟩
  simp only [List.append_assoc] at first second third summed ⊢
  simp only [first, second, summed, third, Option.bind_eq_bind, Option.bind_some]

theorem exists_mospfChecksum_iff (mospf : Nat) (packet : List UInt8) :
    (∃ sum, mospfChecksum mospf packet = some sum) ↔
      ∃ len, read16 packet (mospf + 2) = some len ∧ mospf + 14 ≤ packet.length ∧
        (len.toNat = 0 ∨ mospf + len.toNat ≤ packet.length) := by
  unfold mospfChecksum
  cases found : read16 packet (mospf + 2) with
  | none => simp
  | some len =>
    have writes := exists_write_iff packet (mospf + 12) (bytes16 0)
    rw [length_bytes16] at writes
    cases written : write packet (mospf + 12) (bytes16 0) with
    | none =>
      simp only [written, reduceCtorEq, exists_false, false_iff] at writes
      apply iff_of_false
      · simp
      · intro inside
        obtain ⟨_, _, fits, _⟩ := inside
        omega
    | some cleared =>
      have fits := writes.mp ⟨cleared, written⟩
      have sums := exists_checksum_iff cleared mospf len.toNat 0
      rw [length_write written] at sums
      simp only [Option.bind_eq_bind, Option.bind_some, sums, Option.some.injEq, exists_eq_left']
      exact (and_iff_right (by omega)).symm

theorem exists_mospfChecksum_front {mospf : Nat} {front front' : List UInt8} (rest : List UInt8)
    (place : front.length = mospf) (place' : front'.length = mospf) :
    (∃ sum, mospfChecksum mospf (front ++ rest) = some sum) ↔
      ∃ sum, mospfChecksum mospf (front' ++ rest) = some sum := by
  rw [exists_mospfChecksum_iff, exists_mospfChecksum_iff, read16_behind _ _ 2 place,
    read16_behind _ _ 2 place', List.length_append, List.length_append, place, place']

/-- The checksum is taken as if its field were zero. -/
theorem mospfChecksum_field {mospf : Nat} {front field field' : List UInt8} (rest : List UInt8)
    (place : front.length = mospf + 12) (size : field.length = 2) (size' : field'.length = 2) :
    mospfChecksum mospf (front ++ (field ++ rest)) =
      mospfChecksum mospf (front ++ (field' ++ rest)) := by
  have len : read16 (front ++ (field ++ rest)) (mospf + 2) =
      read16 (front ++ (field' ++ rest)) (mospf + 2) :=
    (stable_read16 (mospf + 2)).front_eq
      ((exists_read16_iff front (mospf + 2)).mpr (by omega)) _ _
  unfold mospfChecksum
  rw [len, write_append front field (bytes16 0) rest _ place size,
    write_append front field' (bytes16 0) rest _ place size']

theorem setMospfChecksum_field {mospf : Nat} {front field : List UInt8} (rest : List UInt8)
    (place : front.length = mospf + 12) (size : field.length = 2) {sum : UInt16}
    (summed : mospfChecksum mospf (front ++ (field ++ rest)) = some sum) :
    setMospfChecksum mospf (front ++ (field ++ rest)) =
        some (front ++ (bytes16Little sum ++ rest)) ∧
      mospfChecksum mospf (front ++ (bytes16Little sum ++ rest)) = some sum := by
  constructor
  · rw [setMospfChecksum, summed, Option.bind_eq_bind, Option.bind_some,
      write_append front field (bytes16Little sum) rest _ place size]
  · rw [← summed]
    exact mospfChecksum_field rest place rfl size

theorem exists_headers (packet : List UInt8) (fits : LSU_OFFSET ≤ packet.length) :
    ∃ dhost shost type ip mospf rest,
      packet = dhost ++ (shost ++ (type ++ (ip ++ (mospf ++ rest)))) ∧
      dhost.length = 6 ∧ shost.length = 6 ∧ type.length = 2 ∧ ip.length = IP_BASE_HDR_SIZE ∧
      mospf.length = MOSPF_HDR_SIZE := by
  have offset : LSU_OFFSET = 6 + (6 + (2 + (IP_BASE_HDR_SIZE + MOSPF_HDR_SIZE))) := rfl
  rw [offset] at fits
  obtain ⟨dhost, packet, rfl, dhostSize⟩ := exists_cut packet 6 (by omega)
  rw [List.length_append] at fits
  obtain ⟨shost, packet, rfl, shostSize⟩ := exists_cut packet 6 (by omega)
  rw [List.length_append] at fits
  obtain ⟨type, packet, rfl, typeSize⟩ := exists_cut packet 2 (by omega)
  rw [List.length_append] at fits
  obtain ⟨ip, packet, rfl, ipSize⟩ := exists_cut packet IP_BASE_HDR_SIZE (by omega)
  rw [List.length_append] at fits
  obtain ⟨mospf, rest, rfl, mospfSize⟩ := exists_cut packet MOSPF_HDR_SIZE (by omega)
  exact ⟨dhost, shost, type, ip, mospf, rest, rfl, dhostSize, shostSize, typeSize, ipSize,
    mospfSize⟩

end Headers

/-! ## The sending thread -/

section Sending

def MospfLsa.bytes (lsa : MospfLsa) : List UInt8 :=
  bytes32 lsa.subnet ++ (bytes32 lsa.mask ++ bytes32 lsa.rid)

def pacLen (numAdv : Int) : Int :=
  ETHER_HDR_SIZE + IP_BASE_HDR_SIZE + MOSPF_HDR_SIZE + MOSPF_LSU_SIZE + numAdv * MOSPF_LSA_SIZE

def writeLsas (numAdv : Int) : Int → List MospfLsa → List UInt8 → Option (List UInt8)
  | _, [], packet => some packet
  | i, lsa :: rest, packet => do
    let packet ← write packet (pacLen numAdv - (numAdv - i) * MOSPF_LSA_SIZE).toNat lsa.bytes
    writeLsas numAdv (i + 1) rest packet

/-- The buffer whose copies become the packets; `memory` is what `malloc` returns. -/
def lsuBuffer (ifaceList : List Interface) (memory : List UInt8) : Option (List UInt8) :=
  writeLsas (numAdv ifaceList) 0 (ifaceList.flatMap advertisedLsas) memory

abbrev Mac := Interface → Vector UInt8 6

def lsuPacket (mac : Mac) (daemon : Daemon) (packet : List UInt8) (iface : Interface)
    (nbr : MospfNbr) (id : UInt16) : Option (List UInt8) := do
  let len := packet.length
  let packet ← write packet 12 (bytes16 ETH_P_IP)
  let packet ← write packet 6 (mac iface).toList
  let packet ← ipInitHdr iface.ip nbr.nbrIp (UInt16.ofNat (len - ETHER_HDR_SIZE)) IPPROTO_MOSPF
    id packet
  let packet ← mospfInitHdr MOSPF_OFFSET MOSPF_TYPE_LSU (UInt16.ofNat (len - MOSPF_OFFSET))
    daemon.routerId AREA_ID packet
  let packet ← mospfInitLsu LSU_OFFSET daemon.sequenceNum
    (UInt32.ofInt (numAdv daemon.ifaceList)) packet
  setMospfChecksum MOSPF_OFFSET packet

/-- The neighbours in the order of the loops, with the interfaces that they are on. -/
def neighbours (ifaceList : List Interface) : List (Interface × MospfNbr) :=
  ifaceList.flatMap fun iface => iface.nbrList.map fun nbr => (iface, nbr)

/-- The packets that one round of `sending_mospf_lsu_thread` hands to `ip_send_packet`. -/
def lsuPackets (mac : Mac) (rand : Nat → UInt16) (memory : List UInt8) (daemon : Daemon) :
    Option (List (List UInt8)) := do
  let packet ← lsuBuffer daemon.ifaceList memory
  (neighbours daemon.ifaceList).zipIdx.mapM fun round =>
    lsuPacket mac daemon packet round.1.1 round.1.2 (rand round.2)

end Sending

/-! ## Sending a packet of the router -/

section IpSend

def betterRoute (dst : UInt32) (selected : Option RtEntry) (entry : RtEntry) : Option RtEntry :=
  if dst &&& entry.mask = entry.dest &&& entry.mask then
    match selected with
    | none => some entry
    | some best => if best.mask < entry.mask then some entry else selected
  else selected

def longestPrefixMatch (rtable : List RtEntry) (dst : UInt32) : Option RtEntry :=
  rtable.foldl (betterRoute dst) none

def getNextHop (entry : RtEntry) (dst : UInt32) : UInt32 := if entry.gw ≠ 0 then entry.gw else dst

structure IpSent where
  iface : Nat
  nextHop : UInt32
  packet : List UInt8

def ipSendPacket (rtable : List RtEntry) (packet : List UInt8) : Option (List IpSent) := do
  let dst ← read32 packet (ETHER_HDR_SIZE + 16)
  match longestPrefixMatch rtable dst with
  | none => some []
  | some entry =>
    some [{ iface := entry.iface, nextHop := getNextHop entry dst, packet := packet }]

end IpSend

/-! ## Handling a packet -/

section Handling

def readLsa (packet : List UInt8) (offset : Nat) : Option MospfLsa := do
  let subnet ← read32 packet offset
  let mask ← read32 packet (offset + 4)
  let rid ← read32 packet (offset + 8)
  some { subnet := subnet, mask := mask, rid := rid }

def readLsasAt (packet : List UInt8) : Nat → Nat → Option (List MospfLsa)
  | _, 0 => some []
  | offset, count + 1 => do
    let lsa ← readLsa packet offset
    let rest ← readLsasAt packet (offset + MOSPF_LSA_SIZE) count
    some (lsa :: rest)

/-- The LSU of a packet, with the LSAs for which the packet has space. -/
def readLsu (packet : List UInt8) : Option MospfLsu := do
  let rid ← read32 packet (MOSPF_OFFSET + 4)
  let seq ← read16 packet LSU_OFFSET
  let ttl ← read8 packet (LSU_OFFSET + 2)
  let nadv ← read32 packet (LSU_OFFSET + 4)
  let lsas ← readLsasAt packet LSA_OFFSET ((packet.length - LSA_OFFSET) / MOSPF_LSA_SIZE)
  some { rid := rid, seq := seq, ttl := ttl, nadv := nadv, lsas := lsas }

/-- The headers of a copy for a neighbour; `len` is the length of the packet. -/
def copyHeaders (mac : Mac) (len : Nat) (copy : List UInt8) (iface : Interface) (nbr : MospfNbr)
    (id : UInt16) : Option (List UInt8) := do
  let copy ← write copy 6 (mac iface).toList
  let copy ← setMospfChecksum MOSPF_OFFSET copy
  ipInitHdr iface.ip nbr.nbrIp (UInt16.ofNat (len - ETHER_HDR_SIZE)) IPPROTO_MOSPF id copy

def forwardedCopy (mac : Mac) (packet : List UInt8) (iface : Interface) (nbr : MospfNbr)
    (id : UInt16) : Option (List UInt8) :=
  copyHeaders mac packet.length packet iface nbr id

def forwardRound (mac : Mac) (rand : Nat → UInt16) (rtable : List RtEntry) (packet : List UInt8)
    (round : (Interface × MospfNbr) × Nat) : Option (List IpSent) := do
  let copy ← forwardedCopy mac packet round.1.1 round.1.2 (rand round.2)
  ipSendPacket rtable copy

def forwardLsu (mac : Mac) (rand : Nat → UInt16) (daemon : Daemon) (index : Nat)
    (packet : List UInt8) : Option (List IpSent) :=
  let others := daemon.ifaceList.filter fun iface => iface.index != index
  ((neighbours others).zipIdx.mapM (forwardRound mac rand daemon.rtable packet)).map List.flatten

/-- The end of `handle_mospf_lsu`: `ttl` is decremented in the packet received. -/
def floodPacket (mac : Mac) (rand : Nat → UInt16) (daemon : Daemon) (index : Nat) (ttl : UInt8)
    (packet : List UInt8) : Option (List IpSent) := do
  let packet ← write packet (LSU_OFFSET + 2) [ttl - 1]
  if 0 < ttl - 1 then forwardLsu mac rand daemon index packet else some []

def handleLsuPacket (mac : Mac) (rand : Nat → UInt16) (daemon : Daemon) (index : Nat)
    (packet : List UInt8) (now : Int) : Option (Daemon × List IpSent) :=
  if daemon.mospfLock then none
  else do
    let rid ← read32 packet (MOSPF_OFFSET + 4)
    if daemon.routerId = rid then
      -- the early return leaves the lock held
      some ({ daemon with mospfLock := true }, [])
    else do
      let lsu ← readLsu packet
      let db ← recordLsu lsu now daemon.mospfDb
      let sent ← floodPacket mac rand daemon index lsu.ttl packet
      some ({ daemon with mospfDb := db }, sent)

def handleHelloPacket (daemon : Daemon) (index : Nat) (packet : List UInt8) : Option Daemon :=
  if daemon.mospfLock then none
  else do
    let saddr ← read32 packet (ETHER_HDR_SIZE + 12)
    let rid ← read32 packet (MOSPF_OFFSET + 4)
    let mask ← read32 packet LSU_OFFSET
    some (handleMospfHello daemon index { saddr := saddr, rid := rid, mask := mask })

/-- The checks of `handle_mospf_packet`: whether they pass. -/
def passesChecks (mospf : Nat) (packet : List UInt8) : Option Bool := do
  let version ← read8 packet mospf
  if version ≠ MOSPF_VERSION then some false
  else do
    let stored ← read16Little packet (mospf + 12)
    let sum ← mospfChecksum mospf packet
    if stored ≠ sum then some false
    else do
      let aid ← read32 packet (mospf + 8)
      some (aid == AREA_ID)

def handleMospfPacket (mac : Mac) (rand : Nat → UInt16) (daemon : Daemon) (index : Nat)
    (packet : List UInt8) (now : Int) : Option (Daemon × List IpSent) := do
  let ihl ← read8 packet ETHER_HDR_SIZE
  let mospf := ETHER_HDR_SIZE + ihl.toNat % 16 * 4
  let passed ← passesChecks mospf packet
  if passed then do
    let type ← read8 packet (mospf + 1)
    if type = MOSPF_TYPE_HELLO then
      (handleHelloPacket daemon index packet).map fun next => (next, [])
    else if type = MOSPF_TYPE_LSU then handleLsuPacket mac rand daemon index packet now
    else some (daemon, [])
  else some (daemon, [])

theorem readLsu_fields {packet : List UInt8} {lsu : MospfLsu}
    (read : readLsu packet = some lsu) :
    read32 packet (MOSPF_OFFSET + 4) = some lsu.rid ∧
      read8 packet (LSU_OFFSET + 2) = some lsu.ttl ∧ LSU_OFFSET + 8 ≤ packet.length := by
  obtain ⟨rid, isRid, read⟩ := Option.bind_eq_some_iff.mp read
  obtain ⟨seq, -, read⟩ := Option.bind_eq_some_iff.mp read
  obtain ⟨ttl, isTtl, read⟩ := Option.bind_eq_some_iff.mp read
  obtain ⟨nadv, isNadv, read⟩ := Option.bind_eq_some_iff.mp read
  obtain ⟨lsas, -, read⟩ := Option.bind_eq_some_iff.mp read
  rw [← Option.some.inj read]
  exact ⟨isRid, isTtl, (exists_read32_iff packet _).mp ⟨nadv, isNadv⟩⟩

theorem exists_readLsa (packet : List UInt8) {offset : Nat}
    (fits : offset + MOSPF_LSA_SIZE ≤ packet.length) : ∃ lsa, readLsa packet offset = some lsa := by
  rw [MOSPF_LSA_SIZE] at fits
  cases (exists_read32_iff packet offset).mpr (by omega) with
  | intro subnet isSubnet =>
    cases (exists_read32_iff packet (offset + 4)).mpr (by omega) with
    | intro mask isMask =>
      cases (exists_read32_iff packet (offset + 8)).mpr (by omega) with
      | intro rid isRid =>
        refine ⟨{ subnet := subnet, mask := mask, rid := rid }, ?_⟩
        simp only [readLsa, isSubnet, isMask, isRid, Option.bind_eq_bind, Option.bind_some]

theorem exists_readLsasAt (packet : List UInt8) (count : Nat) {offset : Nat}
    (fits : offset + count * MOSPF_LSA_SIZE ≤ packet.length) :
    ∃ lsas, readLsasAt packet offset count = some lsas := by
  induction count generalizing offset with
  | zero => exact ⟨[], rfl⟩
  | succ count ih =>
    rw [Nat.succ_mul] at fits
    cases exists_readLsa packet (by omega : offset + MOSPF_LSA_SIZE ≤ packet.length) with
    | intro lsa first =>
      cases ih (by omega : offset + MOSPF_LSA_SIZE + count * MOSPF_LSA_SIZE ≤ packet.length) with
      | intro rest later =>
        refine ⟨lsa :: rest, ?_⟩
        simp only [readLsasAt, first, later, Option.bind_eq_bind, Option.bind_some]

theorem exists_readLsu_iff (packet : List UInt8) :
    (∃ lsu, readLsu packet = some lsu) ↔ LSA_OFFSET ≤ packet.length := by
  constructor
  · intro exists_lsu
    cases exists_lsu with
    | intro lsu read => exact (readLsu_fields read).2.2
  · intro fits
    have offset : LSA_OFFSET = LSU_OFFSET + 8 := rfl
    have header : MOSPF_OFFSET + 8 ≤ LSU_OFFSET := by decide
    cases (exists_read32_iff packet (MOSPF_OFFSET + 4)).mpr (by omega) with
    | intro rid isRid =>
      cases (exists_read16_iff packet LSU_OFFSET).mpr (by omega) with
      | intro seq isSeq =>
        cases (exists_read8_iff packet (LSU_OFFSET + 2)).mpr (by omega) with
        | intro ttl isTtl =>
          cases (exists_read32_iff packet (LSU_OFFSET + 4)).mpr (by omega) with
          | intro nadv isNadv =>
            have enough : LSA_OFFSET + (packet.length - LSA_OFFSET) / MOSPF_LSA_SIZE *
                MOSPF_LSA_SIZE ≤ packet.length := by
              have := Nat.div_mul_le_self (packet.length - LSA_OFFSET) MOSPF_LSA_SIZE
              omega
            cases exists_readLsasAt packet _ enough with
            | intro lsas isLsas =>
              refine ⟨{ rid := rid, seq := seq, ttl := ttl, nadv := nadv, lsas := lsas }, ?_⟩
              simp only [readLsu, isRid, isSeq, isTtl, isNadv, isLsas, Option.bind_eq_bind,
                Option.bind_some]

theorem length_readLsasAt {packet : List UInt8} {offset count : Nat} {lsas : List MospfLsa}
    (read : readLsasAt packet offset count = some lsas) : lsas.length = count := by
  induction count generalizing offset lsas with
  | zero =>
    rw [← Option.some.inj read]
    rfl
  | succ count ih =>
    obtain ⟨lsa, -, read⟩ := Option.bind_eq_some_iff.mp read
    obtain ⟨rest, later, read⟩ := Option.bind_eq_some_iff.mp read
    rw [← Option.some.inj read, List.length_cons, ih later]

theorem length_readLsu {packet : List UInt8} {lsu : MospfLsu} (read : readLsu packet = some lsu) :
    lsu.lsas.length = (packet.length - LSA_OFFSET) / MOSPF_LSA_SIZE := by
  obtain ⟨rid, -, read⟩ := Option.bind_eq_some_iff.mp read
  obtain ⟨seq, -, read⟩ := Option.bind_eq_some_iff.mp read
  obtain ⟨ttl, -, read⟩ := Option.bind_eq_some_iff.mp read
  obtain ⟨nadv, -, read⟩ := Option.bind_eq_some_iff.mp read
  obtain ⟨lsas, isLsas, read⟩ := Option.bind_eq_some_iff.mp read
  rw [← Option.some.inj read]
  exact length_readLsasAt isLsas

structure ForwardedFrom (packet : List UInt8) (nbr : MospfNbr) (copy : List UInt8) : Prop where
  length : copy.length = packet.length
  ttl : read8 copy (LSU_OFFSET + 2) = read8 packet (LSU_OFFSET + 2)
  daddr : read32 copy (ETHER_HDR_SIZE + 16) = some nbr.nbrIp

theorem forwardedFrom_front {front front' : List UInt8} (rest : List UInt8) (nbr : MospfNbr)
    (place : front.length = LSU_OFFSET) (place' : front'.length = LSU_OFFSET)
    (daddr : read32 (front' ++ rest) (ETHER_HDR_SIZE + 16) = some nbr.nbrIp) :
    ForwardedFrom (front ++ rest) nbr (front' ++ rest) where
  length := by rw [List.length_append, List.length_append, place, place']
  ttl := by rw [read8_behind _ _ 2 place, read8_behind _ _ 2 place']
  daddr := daddr

theorem forwardedFrom_headers {dhost shost source type ip start field padding : List UInt8}
    (rest : List UInt8) (iface : Interface) (nbr : MospfNbr) (len id ipSum sum : UInt16)
    (dhostSize : dhost.length = 6) (shostSize : shost.length = 6) (sourceSize : source.length = 6)
    (typeSize : type.length = 2) (ipSize : ip.length = IP_BASE_HDR_SIZE)
    (startSize : start.length = 12) (fieldSize : field.length = 2)
    (mospfSize : (start ++ (field ++ padding)).length = MOSPF_HDR_SIZE) :
    ForwardedFrom (dhost ++ (shost ++ (type ++ (ip ++ (start ++ (field ++ (padding ++ rest)))))))
      nbr (dhost ++ (source ++ (type ++ (ipHeader iface.ip nbr.nbrIp len IPPROTO_MOSPF id ipSum ++
        (start ++ (bytes16Little sum ++ (padding ++ rest))))))) := by
  have before : (dhost ++ (shost ++ (type ++ (ip ++ (start ++ (field ++ padding)))))).length =
      LSU_OFFSET := by
    simp only [List.length_append] at mospfSize ⊢
    rw [dhostSize, shostSize, typeSize, ipSize, mospfSize]
    rfl
  have header : (ipHeader iface.ip nbr.nbrIp len IPPROTO_MOSPF id ipSum).length =
      IP_BASE_HDR_SIZE := rfl
  have after : (dhost ++ (source ++ (type ++ (ipHeader iface.ip nbr.nbrIp len IPPROTO_MOSPF id
      ipSum ++ (start ++ (bytes16Little sum ++ padding)))))).length = LSU_OFFSET := by
    simp only [List.length_append, dhostSize, shostSize, typeSize, ipSize, startSize,
      fieldSize, sourceSize, header, length_bytes16Little] at before ⊢
    exact before
  have ether : (dhost ++ (source ++ type)).length = ETHER_HDR_SIZE := by
    simp only [List.length_append, dhostSize, sourceSize, typeSize]
    rfl
  have daddr : read32 ((dhost ++ (source ++ type)) ++ (ipHeader iface.ip nbr.nbrIp len
      IPPROTO_MOSPF id ipSum ++ (start ++ (bytes16Little sum ++ (padding ++ rest)))))
        (ETHER_HDR_SIZE + 16) = some nbr.nbrIp := by
    rw [read32_behind _ _ 16 ether]
    exact congrArg some (join32 nbr.nbrIp)
  have copied := forwardedFrom_front rest nbr before after (by
    simp only [List.append_assoc] at daddr ⊢
    exact daddr)
  simp only [List.append_assoc] at copied
  exact copied

/-- A copy is made if and only if the checksum stays inside the packet. -/
theorem copyHeaders_cases (mac : Mac) (len : Nat) {packet : List UInt8} (iface : Interface)
    (nbr : MospfNbr) (id : UInt16) (fits : LSU_OFFSET ≤ packet.length) :
    ((∃ sum, mospfChecksum MOSPF_OFFSET packet = some sum) ∧
      ∃ copy, copyHeaders mac len packet iface nbr id = some copy ∧
        ForwardedFrom packet nbr copy) ∨
    ((¬ ∃ sum, mospfChecksum MOSPF_OFFSET packet = some sum) ∧
      copyHeaders mac len packet iface nbr id = none) := by
  unfold copyHeaders
  generalize len - ETHER_HDR_SIZE = len
  obtain ⟨dhost, shost, type, ip, mospf, rest, rfl, dhostSize, shostSize, typeSize, ipSize,
    mospfSize⟩ := exists_headers packet fits
  have macSize : (mac iface).toList.length = 6 := Vector.length_toList
  have first := write_append dhost shost (mac iface).toList
    (type ++ (ip ++ (mospf ++ rest))) 6 dhostSize (shostSize.trans macSize.symm)
  have front : (dhost ++ (shost ++ (type ++ ip))).length = MOSPF_OFFSET := by
    simp only [List.length_append, dhostSize, shostSize, typeSize, ipSize]
    rfl
  have front' : (dhost ++ ((mac iface).toList ++ (type ++ ip))).length = MOSPF_OFFSET := by
    simp only [List.length_append, dhostSize, macSize, typeSize, ipSize]
    rfl
  have same := exists_mospfChecksum_front (mospf ++ rest) front front'
  simp only [List.append_assoc] at same
  rw [same, first, Option.bind_eq_bind, Option.bind_some]
  by_cases summed : ∃ sum, mospfChecksum MOSPF_OFFSET
      (dhost ++ ((mac iface).toList ++ (type ++ (ip ++ (mospf ++ rest))))) = some sum
  · left
    refine ⟨summed, ?_⟩
    obtain ⟨sum, summed⟩ := summed
    obtain ⟨start, more, rfl, startSize⟩ := exists_cut mospf 12 (by rw [mospfSize]; decide)
    obtain ⟨field, padding, rfl, fieldSize⟩ := exists_cut more 2 (by
      rw [List.length_append, startSize, MOSPF_HDR_SIZE] at mospfSize
      omega)
    have place : ((dhost ++ ((mac iface).toList ++ (type ++ ip))) ++ start).length =
        MOSPF_OFFSET + 12 := by rw [List.length_append, front', startSize]
    obtain ⟨second, -⟩ := setMospfChecksum_field (padding ++ rest) place fieldSize (by
      simp only [List.append_assoc] at summed ⊢
      exact summed)
    have ether : (dhost ++ ((mac iface).toList ++ type)).length = ETHER_HDR_SIZE := by
      simp only [List.length_append, dhostSize, macSize, typeSize]
      rfl
    obtain ⟨ipSum, third⟩ := exists_ipInitHdr iface.ip nbr.nbrIp (UInt16.ofNat len) IPPROTO_MOSPF
      id (start ++ (bytes16Little sum ++ (padding ++ rest))) ether ipSize
    refine ⟨(dhost ++ ((mac iface).toList ++ type)) ++ (ipHeader iface.ip nbr.nbrIp
      (UInt16.ofNat len) IPPROTO_MOSPF id ipSum ++ (start ++ (bytes16Little sum ++
        (padding ++ rest)))), ?_, ?_⟩
    · simp only [List.append_assoc] at second third ⊢
      rw [second, Option.bind_some, third]
    · have copied := forwardedFrom_headers rest iface nbr (UInt16.ofNat len) id ipSum sum dhostSize
        shostSize macSize typeSize ipSize startSize fieldSize mospfSize
      simp only [List.append_assoc] at copied ⊢
      exact copied
  · right
    refine ⟨summed, ?_⟩
    rw [setMospfChecksum, Option.eq_none_iff_forall_ne_some.mpr fun sum found =>
      summed ⟨sum, found⟩]
    rfl

theorem exists_mospfChecksum_write {packet next bytes : List UInt8} {offset : Nat}
    (behind : LSU_OFFSET ≤ offset) (written : write packet offset bytes = some next) :
    (∃ sum, mospfChecksum MOSPF_OFFSET next = some sum) ↔
      ∃ sum, mospfChecksum MOSPF_OFFSET packet = some sum := by
  have fits := (exists_write_iff packet offset bytes).mp ⟨next, written⟩
  have len : read16 next (MOSPF_OFFSET + 2) = read16 packet (MOSPF_OFFSET + 2) := by
    apply (stable_read16 _).before_write _ written
    rw [exists_read16_iff, List.length_take_of_le (Nat.le_of_add_right_le fits)]
    simp only [LSU_OFFSET, MOSPF_HDR_SIZE] at behind
    omega
  rw [exists_mospfChecksum_iff, exists_mospfChecksum_iff, len, length_write written]

theorem ipSendPacket_forwarded (rtable : List RtEntry) {packet copy : List UInt8} {nbr : MospfNbr}
    (copied : ForwardedFrom packet nbr copy) :
    ipSendPacket rtable copy = some ((longestPrefixMatch rtable nbr.nbrIp).toList.map fun entry =>
      { iface := entry.iface, nextHop := getNextHop entry nbr.nbrIp, packet := copy }) := by
  rw [ipSendPacket, copied.daddr, Option.bind_eq_bind, Option.bind_some]
  cases longestPrefixMatch rtable nbr.nbrIp <;> rfl

variable {mac : Mac} {rand : Nat → UInt16} {daemon : Daemon} {index : Nat} {packet : List UInt8}

/-- The copy of one round goes where the route of its neighbour leads. -/
theorem forwardRound_cases (mac : Mac) (rand : Nat → UInt16) (rtable : List RtEntry)
    (round : (Interface × MospfNbr) × Nat) (fits : LSU_OFFSET ≤ packet.length) :
    ((∃ sum, mospfChecksum MOSPF_OFFSET packet = some sum) ∧
      ∃ copy, ForwardedFrom packet round.1.2 copy ∧
        forwardRound mac rand rtable packet round =
          some ((longestPrefixMatch rtable round.1.2.nbrIp).toList.map fun entry =>
            { iface := entry.iface, nextHop := getNextHop entry round.1.2.nbrIp,
              packet := copy })) ∨
    ((¬ ∃ sum, mospfChecksum MOSPF_OFFSET packet = some sum) ∧
      forwardRound mac rand rtable packet round = none) := by
  rcases copyHeaders_cases mac packet.length round.1.1 round.1.2 (rand round.2) fits with
    ⟨summed, copy, made, copied⟩ | ⟨outside, failed⟩
  · left
    refine ⟨summed, copy, copied, ?_⟩
    rw [forwardRound, forwardedCopy, made, Option.bind_eq_bind, Option.bind_some,
      ipSendPacket_forwarded rtable copied]
  · right
    refine ⟨outside, ?_⟩
    rw [forwardRound, forwardedCopy, failed]
    rfl

theorem exists_forwardLsu (summed : ∃ sum, mospfChecksum MOSPF_OFFSET packet = some sum)
    (fits : LSU_OFFSET ≤ packet.length) :
    ∃ sent, forwardLsu mac rand daemon index packet = some sent := by
  have each : ∀ round ∈ (neighbours (daemon.ifaceList.filter fun iface =>
      iface.index != index)).zipIdx, (forwardRound mac rand daemon.rtable packet round).isSome := by
    intro round _
    rcases forwardRound_cases mac rand daemon.rtable round fits with
      ⟨-, copy, -, sent⟩ | ⟨outside, -⟩
    · rw [sent]
      rfl
    · exact absurd summed outside
  obtain ⟨sent, done⟩ := Option.isSome_iff_exists.mp ((mapM_isSome _).mpr each)
  refine ⟨sent.flatten, ?_⟩
  rw [forwardLsu, done]
  rfl

theorem exists_floodPacket (ttl : UInt8)
    (summed : ∃ sum, mospfChecksum MOSPF_OFFSET packet = some sum)
    (fits : LSU_OFFSET + 3 ≤ packet.length) :
    ∃ sent, floodPacket mac rand daemon index ttl packet = some sent := by
  obtain ⟨next, written⟩ := (exists_write_iff packet (LSU_OFFSET + 2) [ttl - 1]).mpr fits
  have summed := (exists_mospfChecksum_write (Nat.le_add_right _ 2) written).mpr summed
  rw [floodPacket, written, Option.bind_eq_bind, Option.bind_some]
  split_ifs
  · apply exists_forwardLsu summed
    rw [length_write written]
    omega
  · exact ⟨[], rfl⟩

theorem mem_neighbours {ifaceList : List Interface} {pair : Interface × MospfNbr} :
    pair ∈ neighbours ifaceList ↔ pair.1 ∈ ifaceList ∧ pair.2 ∈ pair.1.nbrList := by
  obtain ⟨iface, nbr⟩ := pair
  simp only [neighbours, List.mem_flatMap, List.mem_map, Prod.mk.injEq]
  constructor
  · rintro ⟨_, member, _, isNbr, rfl, rfl⟩
    exact ⟨member, isNbr⟩
  · rintro ⟨member, isNbr⟩
    exact ⟨iface, member, nbr, isNbr, rfl, rfl⟩

end Handling

end NetworkLab.Mospf
