import NetworkLab.Mospf.Consistency
import NetworkLab.Mospf.Packets

/-!
# An LSU from router to router

`sending_mospf_lsu_thread` places the LSAs backwards from the end of the packet,
`handle_mospf_lsu` reads them forwards from its headers.  Both are compared with the packet
that carries an LSU.
-/
set_option autoImplicit false

namespace NetworkLab.Mospf

open Lib.Bytes

def originatedLsu (daemon : Daemon) : MospfLsu :=
  { rid := daemon.routerId, seq := daemon.sequenceNum, ttl := MOSPF_MAX_LSU_TTL,
    nadv := UInt32.ofInt (numAdv daemon.ifaceList),
    lsas := daemon.ifaceList.flatMap advertisedLsas }

def mospfStart (type : UInt8) (len : UInt16) (rid aid : UInt32) : List UInt8 :=
  [MOSPF_VERSION, type] ++ bytes16 len ++ bytes32 rid ++ bytes32 aid

def lsuStart (seq : UInt16) (ttl : UInt8) (nadv : UInt32) : List UInt8 :=
  bytes16 seq ++ [ttl, 0] ++ bytes32 nadv

def mospfPart (lsu : MospfLsu) (len sum : UInt16) : List UInt8 :=
  mospfStart MOSPF_TYPE_LSU len lsu.rid AREA_ID ++ (bytes16Little sum ++ (bytes16 0 ++
    (lsuStart lsu.seq lsu.ttl lsu.nadv ++ lsu.lsas.flatMap MospfLsa.bytes)))

/-- A packet that carries an LSU as the daemon writes it, with the right checksum. -/
def Carries (packet : List UInt8) (lsu : MospfLsu) : Prop :=
  ∃ ether ip len sum, packet = ether ++ ((0x45 :: ip) ++ mospfPart lsu len sum) ∧
    ether.length = ETHER_HDR_SIZE ∧ (0x45 :: ip).length = IP_BASE_HDR_SIZE ∧
    MOSPF_OFFSET + len.toNat ≤ packet.length ∧ mospfChecksum MOSPF_OFFSET packet = some sum

theorem length_lsa_bytes (lsa : MospfLsa) : lsa.bytes.length = MOSPF_LSA_SIZE := rfl

theorem length_lsas_bytes (lsas : List MospfLsa) :
    (lsas.flatMap MospfLsa.bytes).length = lsas.length * MOSPF_LSA_SIZE := by
  induction lsas with
  | nil => rfl
  | cons lsa rest ih =>
    rw [List.flatMap_cons, List.length_append, ih, length_lsa_bytes, List.length_cons,
      Nat.succ_mul, Nat.add_comm]

theorem length_mospfPart (lsu : MospfLsu) (len sum : UInt16) :
    (mospfPart lsu len sum).length =
      MOSPF_HDR_SIZE + MOSPF_LSU_SIZE + lsu.lsas.length * MOSPF_LSA_SIZE := by
  rw [← length_lsas_bytes]
  simp only [mospfPart, mospfStart, lsuStart, List.length_append, List.length_cons,
    List.length_nil, length_bytes16, length_bytes16Little, length_bytes32, MOSPF_HDR_SIZE,
    MOSPF_LSU_SIZE]
  omega

/-! ## Writing -/

section Writing

theorem writeLsas_eq {numAdv : Int} (lsas : List MospfLsa) {i : Int} {front old : List UInt8}
    (counted : numAdv - i = lsas.length) (start : (front.length : Int) = pacLen i)
    (size : old.length = lsas.length * MOSPF_LSA_SIZE) :
    writeLsas numAdv i lsas (front ++ old) = some (front ++ lsas.flatMap MospfLsa.bytes) := by
  induction lsas generalizing i front old with
  | nil =>
    rw [List.length_nil, Nat.zero_mul, List.length_eq_zero_iff] at size
    rw [size]
    rfl
  | cons lsa rest ih =>
    rw [List.length_cons] at counted size
    have offset : front.length = (pacLen numAdv - (numAdv - i) * MOSPF_LSA_SIZE).toNat := by
      unfold pacLen at start ⊢
      simp only [MOSPF_LSA_SIZE] at start ⊢
      omega
    obtain ⟨here, later, rfl, hereSize⟩ := exists_cut old MOSPF_LSA_SIZE (by
      rw [size]
      exact Nat.le_mul_of_pos_left _ (Nat.succ_pos _))
    have written := write_append front here lsa.bytes later _ offset hereSize
    have next : writeLsas numAdv (i + 1) rest ((front ++ lsa.bytes) ++ later) =
        some ((front ++ lsa.bytes) ++ rest.flatMap MospfLsa.bytes) := by
      apply ih
      · omega
      · rw [List.length_append, length_lsa_bytes, Int.natCast_add, start]
        simp only [pacLen, MOSPF_LSA_SIZE]
        omega
      · rw [List.length_append, hereSize, Nat.succ_mul] at size
        omega
    rw [writeLsas, written, Option.bind_eq_bind, Option.bind_some, ← List.append_assoc, next,
      List.flatMap_cons, List.append_assoc]

theorem lsuBuffer_eq {ifaceList : List Interface} {memory : List UInt8}
    (counted : ∀ iface ∈ ifaceList, iface.numNbr = iface.nbrList.length)
    (size : (memory.length : Int) = pacLen (numAdv ifaceList)) :
    ∃ front, front.length = LSA_OFFSET ∧ lsuBuffer ifaceList memory =
      some (front ++ (ifaceList.flatMap advertisedLsas).flatMap MospfLsa.bytes) := by
  have lsas := lsas_length counted
  have total : memory.length =
      LSA_OFFSET + (ifaceList.flatMap advertisedLsas).length * MOSPF_LSA_SIZE := by
    rw [← lsas] at size
    simp only [pacLen, LSA_OFFSET, LSU_OFFSET, MOSPF_OFFSET, ETHER_HDR_SIZE, IP_BASE_HDR_SIZE,
      MOSPF_HDR_SIZE, MOSPF_LSU_SIZE, MOSPF_LSA_SIZE] at size ⊢
    omega
  obtain ⟨front, old, rfl, frontSize⟩ := exists_cut memory LSA_OFFSET (by omega)
  refine ⟨front, frontSize, ?_⟩
  apply writeLsas_eq
  · rw [Int.sub_zero, lsas]
  · rw [frontSize]
    rfl
  · rw [List.length_append, frontSize] at total
    omega

theorem exists_mospfInitHdr (type : UInt8) (len : UInt16) (rid aid : UInt32)
    (front rest : List UInt8) {old : List UInt8} (place : front.length = MOSPF_OFFSET)
    (size : old.length = MOSPF_HDR_SIZE) :
    ∃ field, field.length = 2 ∧
      mospfInitHdr MOSPF_OFFSET type len rid aid (front ++ (old ++ rest)) =
        some (front ++ (mospfStart type len rid aid ++ (field ++ (bytes16 0 ++ rest)))) := by
  obtain ⟨start, more, rfl, startSize⟩ := exists_cut old 12 (by rw [size]; decide)
  obtain ⟨field, padding, rfl, fieldSize⟩ := exists_cut more 2 (by
    rw [List.length_append, startSize, MOSPF_HDR_SIZE] at size
    omega)
  simp only [List.length_append, startSize, fieldSize, MOSPF_HDR_SIZE] at size
  refine ⟨field, fieldSize, ?_⟩
  have filledSize : (mospfStart type len rid aid).length = 12 := rfl
  have first := write_append front start (mospfStart type len rid aid)
    (field ++ (padding ++ rest)) MOSPF_OFFSET place (startSize.trans filledSize.symm)
  have second := write_append (front ++ (mospfStart type len rid aid ++ field)) padding
    (bytes16 0) rest (MOSPF_OFFSET + 14)
    (by simp only [List.length_append, place, filledSize, fieldSize])
    (by rw [length_bytes16]; omega)
  simp only [List.append_assoc] at first second ⊢
  rw [mospfInitHdr]
  unfold mospfStart at first second ⊢
  rw [first, Option.bind_eq_bind, Option.bind_some, second]

variable {mac : Mac} {daemon : Daemon}

theorem exists_carries (lsu : MospfLsu) (len : UInt16) {ether ip field : List UInt8}
    (etherSize : ether.length = ETHER_HDR_SIZE) (ipSize : (0x45 :: ip).length = IP_BASE_HDR_SIZE)
    (fieldSize : field.length = 2)
    (fits : len.toNat ≤ MOSPF_HDR_SIZE + MOSPF_LSU_SIZE + lsu.lsas.length * MOSPF_LSA_SIZE) :
    ∃ packet, setMospfChecksum MOSPF_OFFSET (ether ++ ((0x45 :: ip) ++
        (mospfStart MOSPF_TYPE_LSU len lsu.rid AREA_ID ++ (field ++ (bytes16 0 ++
          (lsuStart lsu.seq lsu.ttl lsu.nadv ++ lsu.lsas.flatMap MospfLsa.bytes)))))) =
        some packet ∧ Carries packet lsu := by
  generalize restIs : bytes16 0 ++
    (lsuStart lsu.seq lsu.ttl lsu.nadv ++ lsu.lsas.flatMap MospfLsa.bytes) = rest
  have place : (ether ++ (0x45 :: ip)).length = MOSPF_OFFSET := by
    rw [List.length_append, etherSize, ipSize, MOSPF_OFFSET]
  have part : ∀ sum : List UInt8, sum.length = 2 →
      (mospfStart MOSPF_TYPE_LSU len lsu.rid AREA_ID ++ (sum ++ rest)).length =
        MOSPF_HDR_SIZE + MOSPF_LSU_SIZE + lsu.lsas.length * MOSPF_LSA_SIZE := by
    intro sum size
    have whole := length_mospfPart lsu len 0
    rw [mospfPart, restIs] at whole
    simp only [List.length_append, length_bytes16Little] at whole ⊢
    rw [size]
    exact whole
  have start : ((ether ++ (0x45 :: ip)) ++ mospfStart MOSPF_TYPE_LSU len lsu.rid AREA_ID).length =
      MOSPF_OFFSET + 12 := by
    rw [List.length_append, place]
    rfl
  obtain ⟨sum, summed⟩ := (exists_mospfChecksum_iff MOSPF_OFFSET
      ((ether ++ (0x45 :: ip)) ++ (mospfStart MOSPF_TYPE_LSU len lsu.rid AREA_ID ++
        (field ++ rest)))).mpr (by
    refine ⟨len, ?_, ?_, .inr ?_⟩
    · rw [read16_behind _ _ 2 place]
      exact congrArg some (join16 len)
    · rw [List.length_append, place, part field fieldSize]
      simp only [MOSPF_HDR_SIZE]
      omega
    · rw [List.length_append, place, part field fieldSize]
      omega)
  rw [← List.append_assoc] at summed
  obtain ⟨set, matched⟩ := setMospfChecksum_field rest start fieldSize summed
  simp only [List.append_assoc] at set matched
  refine ⟨_, set, ether, ip, len, sum, ?_, etherSize, ipSize, ?_, matched⟩
  · rw [mospfPart, restIs]
  · rw [← List.append_assoc, List.length_append, place, part _ (length_bytes16Little sum)]
    omega

theorem exists_lsuPacket {front : List UInt8} (iface : Interface) (nbr : MospfNbr) (id : UInt16)
    (place : front.length = LSA_OFFSET) :
    ∃ packet, lsuPacket mac daemon
        (front ++ (originatedLsu daemon).lsas.flatMap MospfLsa.bytes) iface nbr id = some packet ∧
      Carries packet (originatedLsu daemon) := by
  have lsas := length_lsas_bytes (originatedLsu daemon).lsas
  unfold lsuPacket
  generalize total : (front ++ (originatedLsu daemon).lsas.flatMap MospfLsa.bytes).length = len
  rw [List.length_append, place, lsas] at total
  obtain ⟨dhost, shost, type, ip, mospf, lsu, rfl, dhostSize, shostSize, typeSize, ipSize,
    mospfSize⟩ := exists_headers front (by rw [place]; decide)
  have lsuSize : lsu.length = MOSPF_LSU_SIZE := by
    simp only [List.length_append, dhostSize, shostSize, typeSize, ipSize, mospfSize] at place
    simp only [LSA_OFFSET, LSU_OFFSET, MOSPF_OFFSET, ETHER_HDR_SIZE] at place
    omega
  generalize tailIs : (originatedLsu daemon).lsas.flatMap MospfLsa.bytes = tail
  have first := write_append (dhost ++ shost) type (bytes16 ETH_P_IP)
    (ip ++ (mospf ++ (lsu ++ tail))) 12
    (by rw [List.length_append, dhostSize, shostSize]) typeSize
  have second := write_append dhost shost (mac iface).toList
    (bytes16 ETH_P_IP ++ (ip ++ (mospf ++ (lsu ++ tail)))) 6 dhostSize
    (shostSize.trans (mac iface).size_toArray.symm)
  obtain ⟨ether, etherIs⟩ : ∃ ether, dhost ++ ((mac iface).toList ++ bytes16 ETH_P_IP) = ether :=
    ⟨_, rfl⟩
  have etherSize : ether.length = ETHER_HDR_SIZE := by
    rw [← etherIs, List.length_append, List.length_append, dhostSize, Vector.length_toList]
    rfl
  obtain ⟨ipSum, third⟩ := exists_ipInitHdr iface.ip nbr.nbrIp
    (UInt16.ofNat (len - ETHER_HDR_SIZE)) IPPROTO_MOSPF id (mospf ++ (lsu ++ tail)) etherSize ipSize
  obtain ⟨ipTail, ipIs, ipTailSize⟩ : ∃ ipTail, ipHeader iface.ip nbr.nbrIp
      (UInt16.ofNat (len - ETHER_HDR_SIZE)) IPPROTO_MOSPF id ipSum = 0x45 :: ipTail ∧
        (0x45 :: ipTail).length = IP_BASE_HDR_SIZE := ⟨_, rfl, rfl⟩
  rw [ipIs] at third
  have headers : (ether ++ (0x45 :: ipTail)).length = MOSPF_OFFSET := by
    rw [List.length_append, etherSize, ipTailSize, MOSPF_OFFSET]
  obtain ⟨field, fieldSize, fourth⟩ := exists_mospfInitHdr MOSPF_TYPE_LSU
    (UInt16.ofNat (len - MOSPF_OFFSET)) daemon.routerId AREA_ID (ether ++ (0x45 :: ipTail))
    (lsu ++ tail) headers mospfSize
  have fifth := write_append ((ether ++ (0x45 :: ipTail)) ++
    (mospfStart MOSPF_TYPE_LSU (UInt16.ofNat (len - MOSPF_OFFSET)) daemon.routerId AREA_ID ++
      (field ++ bytes16 0))) lsu
    (lsuStart daemon.sequenceNum MOSPF_MAX_LSU_TTL (UInt32.ofInt (numAdv daemon.ifaceList)))
    tail LSU_OFFSET (by
      rw [List.length_append, headers, List.length_append, List.length_append, fieldSize]
      rfl) lsuSize
  obtain ⟨packet, sixth, carries⟩ := exists_carries (originatedLsu daemon)
    (UInt16.ofNat (len - MOSPF_OFFSET)) etherSize ipTailSize fieldSize (by
      rw [UInt16.toNat_ofNat', ← total]
      apply (Nat.mod_le _ _).trans
      simp only [LSA_OFFSET, LSU_OFFSET]
      omega)
  refine ⟨packet, ?_, carries⟩
  rw [tailIs] at sixth
  simp only [← etherIs, List.append_assoc] at first second third fourth fifth sixth ⊢
  simp only [first, second, third, fourth, mospfInitLsu, Option.bind_eq_bind, Option.bind_some]
  rw [lsuStart] at fifth
  rw [fifth, Option.bind_some]
  exact sixth

end Writing

/-! ## Reading -/

section Reading

theorem readLsa_bytes (lsa : MospfLsa) (rest : List UInt8) :
    readLsa (lsa.bytes ++ rest) 0 = some lsa := by
  have subnet : read32 (lsa.bytes ++ rest) 0 = some lsa.subnet := read32_bytes32 _ _
  have mask : read32 (lsa.bytes ++ rest) (0 + 4) = some lsa.mask :=
    congrArg some (join32 lsa.mask)
  have rid : read32 (lsa.bytes ++ rest) (0 + 8) = some lsa.rid := congrArg some (join32 lsa.rid)
  rw [readLsa, subnet, mask, rid]
  rfl

theorem readLsa_behind (front rest : List UInt8) (offset : Nat) (place : front.length = offset) :
    readLsa (front ++ rest) offset = readLsa rest 0 := by
  have first := read32_behind front rest 0 place
  rw [Nat.add_zero] at first
  rw [readLsa, first, read32_behind front rest 4 place, read32_behind front rest 8 place, readLsa]

/-- The loop of `handle_mospf_lsu` reads what the loop of the sending thread wrote. -/
theorem readLsasAt_eq (lsas : List MospfLsa) {front : List UInt8} {offset : Nat}
    (place : front.length = offset) :
    readLsasAt (front ++ lsas.flatMap MospfLsa.bytes) offset lsas.length = some lsas := by
  induction lsas generalizing front offset with
  | nil => rfl
  | cons lsa rest ih =>
    have later : readLsasAt ((front ++ lsa.bytes) ++ rest.flatMap MospfLsa.bytes)
        (offset + MOSPF_LSA_SIZE) rest.length = some rest := by
      apply ih
      rw [List.length_append, place, length_lsa_bytes]
    rw [List.append_assoc] at later
    rw [List.length_cons, readLsasAt, List.flatMap_cons, readLsa_behind _ _ _ place,
      readLsa_bytes, later]
    rfl

variable {packet : List UInt8} {lsu : MospfLsu}

theorem Carries.length (carries : Carries packet lsu) :
    packet.length = LSA_OFFSET + lsu.lsas.length * MOSPF_LSA_SIZE := by
  obtain ⟨ether, ip, len, sum, rfl, etherSize, ipSize, -, -⟩ := carries
  rw [List.length_append, List.length_append, length_mospfPart, etherSize, ipSize]
  simp only [LSA_OFFSET, LSU_OFFSET, MOSPF_OFFSET]
  omega

theorem Carries.front (carries : Carries packet lsu) :
    ∃ front len sum, front.length = MOSPF_OFFSET ∧ packet = front ++ mospfPart lsu len sum ∧
      read8 packet ETHER_HDR_SIZE = some 0x45 ∧
      mospfChecksum MOSPF_OFFSET packet = some sum := by
  obtain ⟨ether, ip, len, sum, shape, etherSize, ipSize, -, summed⟩ := carries
  refine ⟨ether ++ (0x45 :: ip), len, sum, ?_, ?_, ?_, summed⟩
  · rw [List.length_append, etherSize, ipSize, MOSPF_OFFSET]
  · rw [shape, List.append_assoc]
  · rw [shape]
    exact read8_behind ether _ 0 etherSize

theorem Carries.readLsu (carries : Carries packet lsu) : readLsu packet = some lsu := by
  have size := carries.length
  obtain ⟨front, len, sum, place, shape, -, -⟩ := carries.front
  have rid : read32 packet (MOSPF_OFFSET + 4) = some lsu.rid := by
    rw [shape, read32_behind _ _ 4 place]
    exact congrArg some (join32 lsu.rid)
  have seq : read16 packet LSU_OFFSET = some lsu.seq := by
    rw [shape, LSU_OFFSET, read16_behind _ _ MOSPF_HDR_SIZE place]
    exact congrArg some (join16 lsu.seq)
  have ttl : read8 packet (LSU_OFFSET + 2) = some lsu.ttl := by
    rw [shape, LSU_OFFSET, Nat.add_assoc, read8_behind _ _ (MOSPF_HDR_SIZE + 2) place]
    rfl
  have nadv : read32 packet (LSU_OFFSET + 4) = some lsu.nadv := by
    rw [shape, LSU_OFFSET, Nat.add_assoc, read32_behind _ _ (MOSPF_HDR_SIZE + 4) place]
    exact congrArg some (join32 lsu.nadv)
  have count : (packet.length - LSA_OFFSET) / MOSPF_LSA_SIZE = lsu.lsas.length := by
    rw [size, Nat.add_sub_cancel_left]
    exact Nat.mul_div_cancel _ (by decide)
  have lsas : readLsasAt packet LSA_OFFSET lsu.lsas.length = some lsu.lsas := by
    have headers : packet = (front ++ (mospfStart MOSPF_TYPE_LSU len lsu.rid AREA_ID ++
        (bytes16Little sum ++ (bytes16 0 ++ lsuStart lsu.seq lsu.ttl lsu.nadv)))) ++
          lsu.lsas.flatMap MospfLsa.bytes := by
      rw [shape, mospfPart]
      simp only [List.append_assoc]
    rw [headers]
    apply readLsasAt_eq
    rw [List.length_append, place]
    rfl
  rw [NetworkLab.Mospf.readLsu, rid, seq, ttl, nadv, count, lsas]
  rfl

theorem Carries.passesChecks (carries : Carries packet lsu) :
    passesChecks MOSPF_OFFSET packet = some true := by
  obtain ⟨front, len, sum, place, shape, -, summed⟩ := carries.front
  have version : read8 packet MOSPF_OFFSET = some MOSPF_VERSION := by
    rw [shape]
    exact read8_behind _ _ 0 place
  have stored : read16Little packet (MOSPF_OFFSET + 12) = some sum := by
    rw [shape, read16Little_behind _ _ 12 place]
    exact congrArg some (join16 sum)
  have aid : read32 packet (MOSPF_OFFSET + 8) = some AREA_ID := by
    rw [shape, read32_behind _ _ 8 place]
    exact congrArg some (join32 AREA_ID)
  simp [NetworkLab.Mospf.passesChecks, version, stored, summed, aid]

theorem Carries.type (carries : Carries packet lsu) :
    read8 packet (MOSPF_OFFSET + 1) = some MOSPF_TYPE_LSU := by
  obtain ⟨front, len, sum, place, shape, -, -⟩ := carries.front
  rw [shape]
  exact read8_behind _ _ 1 place

theorem handleMospfPacket_carries (mac : Mac) (rand : Nat → UInt16) (daemon : Daemon)
    (index : Nat) (now : Int) (carries : Carries packet lsu) :
    handleMospfPacket mac rand daemon index packet now =
      handleLsuPacket mac rand daemon index packet now := by
  obtain ⟨-, -, -, -, -, ihl, -⟩ := carries.front
  have offset : ETHER_HDR_SIZE + (0x45 : UInt8).toNat % 16 * 4 = MOSPF_OFFSET := by decide
  have other : MOSPF_TYPE_LSU ≠ MOSPF_TYPE_HELLO := by decide
  simp only [handleMospfPacket, ihl, Option.bind_eq_bind, Option.bind_some, offset,
    carries.passesChecks, carries.type, if_true, if_neg other]

end Reading

/-! ## The round trip -/

section RoundTrip

def lsaList (iface : Interface) : List MospfLsa :=
  match iface.nbrList with
  | [] => [{ subnet := iface.ip &&& iface.mask, mask := iface.mask, rid := 0 }]
  | nbrs => nbrs.map fun nbr =>
    { subnet := nbr.nbrIp &&& nbr.nbrMask, mask := nbr.nbrMask, rid := nbr.nbrId }

theorem advertisedLsas_eq {iface : Interface} (counted : iface.numNbr = iface.nbrList.length) :
    advertisedLsas iface = lsaList iface := by
  unfold advertisedLsas lsaList
  cases found : iface.nbrList with
  | nil =>
    rw [found] at counted
    exact if_pos counted
  | cons nbr rest =>
    rw [found, List.length_cons] at counted
    exact if_neg (by omega)

variable {packet : List UInt8} {lsu : MospfLsu}

theorem Carries.drop (carries : Carries packet lsu) :
    packet.drop (packet.length - lsu.lsas.length * MOSPF_LSA_SIZE) =
      lsu.lsas.flatMap MospfLsa.bytes := by
  have size := carries.length
  obtain ⟨front, len, sum, place, shape, -, -⟩ := carries.front
  have headers : packet = (front ++ (mospfStart MOSPF_TYPE_LSU len lsu.rid AREA_ID ++
      (bytes16Little sum ++ (bytes16 0 ++ lsuStart lsu.seq lsu.ttl lsu.nadv)))) ++
        lsu.lsas.flatMap MospfLsa.bytes := by
    rw [shape, mospfPart]
    simp only [List.append_assoc]
  rw [size, Nat.add_sub_cancel, headers]
  apply List.drop_left'
  rw [List.length_append, place]
  rfl

/-- The handling of a packet from another router, whatever it carries. -/
theorem handleLsuPacket_carries (mac : Mac) (rand : Nat → UInt16) {daemon : Daemon}
    (index : Nat) (now : Int) (carries : Carries packet lsu) (wellFormed : lsu.WellFormed)
    (free : daemon.mospfLock = false) (foreign : daemon.routerId ≠ lsu.rid) :
    ∃ sent, handleLsuPacket mac rand daemon index packet now =
      some ({ daemon with mospfDb := grownDb lsu now daemon.mospfDb }, sent) := by
  have size := carries.length
  have offsets : LSA_OFFSET = LSU_OFFSET + 8 := rfl
  obtain ⟨front, len, sum, place, shape, -, summed⟩ := carries.front
  obtain ⟨sent, flooded⟩ : ∃ sent,
      floodPacket mac rand daemon index lsu.ttl packet = some sent :=
    exists_floodPacket lsu.ttl ⟨sum, summed⟩ (by omega)
  have rid : read32 packet (MOSPF_OFFSET + 4) = some lsu.rid := by
    rw [shape, read32_behind _ _ 4 place]
    exact congrArg some (join32 lsu.rid)
  refine ⟨sent, ?_⟩
  simp only [handleLsuPacket, free, rid, if_neg foreign, carries.readLsu,
    recordLsu_wellFormed wellFormed, flooded, Option.bind_eq_bind, Option.bind_some,
    Bool.false_eq_true, if_false]

theorem grownDb_new (lsu : MospfLsu) {now : Int} {db : List MospfDbEntry}
    (new : ∀ entry ∈ db, entry.rid ≠ lsu.rid) :
    grownDb lsu now db = db ++ [{ addTime := now, rid := lsu.rid, seq := lsu.seq,
                                  nadv := lsu.nadvInt, array := lsu.lsas }] := by
  have unknown : ¬ db.any fun entry => lsu.rid == entry.rid := by
    simpa using fun entry member same => new entry member same.symm
  have kept : db.map (refreshed lsu now) = db := by
    apply (List.map_congr_left ?_).trans (List.map_id db)
    intro entry member
    exact if_neg fun newer => new entry member newer.1.symm
  rw [grownDb, if_neg unknown, kept]

variable {sender : Daemon}

theorem ofInt_natCast (n : Nat) : UInt32.ofInt n = UInt32.ofNat n := by
  apply UInt32.toNat_inj.mp
  rw [UInt32.ofInt, UInt32.toNat_ofNat', UInt32.toNat_ofNat']
  omega

theorem originatedLsu_wellFormed
    (counted : ∀ iface ∈ sender.ifaceList, iface.numNbr = iface.nbrList.length)
    (few : (sender.ifaceList.flatMap advertisedLsas).length < 2147483648) :
    (originatedLsu sender).WellFormed := by
  have lsas := lsas_length counted
  unfold MospfLsu.WellFormed MospfLsu.nadvInt originatedLsu
  dsimp only
  generalize (sender.ifaceList.flatMap advertisedLsas).length = n at lsas few
  have nat : (UInt32.ofInt (n : Int)).toNat = n := by
    rw [ofInt_natCast, UInt32.toNat_ofNat']
    omega
  rw [← lsas, BitVec.toInt_eq_toNat_of_lt, UInt32.toNat_toBitVec, nat]
  rw [UInt32.toNat_toBitVec, nat]
  omega

theorem sendingMospfLsu_originated
    (counted : ∀ iface ∈ sender.ifaceList, iface.numNbr = iface.nbrList.length) :
    sendingMospfLsu sender = some ({ sender with sequenceNum := sender.sequenceNum + 1 },
      (neighbours sender.ifaceList).map fun pair =>
        .lsu { saddr := pair.1.ip, daddr := pair.2.nbrIp, lsu := originatedLsu sender }) := by
  have lsas := lsas_length counted
  have nadv : UInt32.ofInt (numAdv sender.ifaceList) =
      UInt32.ofNat (sender.ifaceList.flatMap advertisedLsas).length := by
    rw [← lsas, ofInt_natCast]
  rw [sendingMospfLsu, if_pos lsas, originatedLsu, nadv, neighbours, List.map_flatMap]
  simp only [List.map_map]
  rfl

theorem exists_lsuPackets (mac : Mac) (rand : Nat → UInt16) {memory : List UInt8}
    (counted : ∀ iface ∈ sender.ifaceList, iface.numNbr = iface.nbrList.length)
    (allocated : (memory.length : Int) = pacLen (numAdv sender.ifaceList)) :
    ∃ packets, lsuPackets mac rand memory sender = some packets ∧
      packets.length = (neighbours sender.ifaceList).length ∧
      ∀ packet ∈ packets, Carries packet (originatedLsu sender) := by
  obtain ⟨front, place, buffer⟩ := lsuBuffer_eq counted allocated
  have each : ∀ round : (Interface × MospfNbr) × Nat, ∃ packet,
      lsuPacket mac sender (front ++ (sender.ifaceList.flatMap advertisedLsas).flatMap
        MospfLsa.bytes) round.1.1 round.1.2 (rand round.2) = some packet ∧
      Carries packet (originatedLsu sender) :=
    fun round => exists_lsuPacket round.1.1 round.1.2 (rand round.2) place
  obtain ⟨packets, made⟩ := Option.isSome_iff_exists.mp
    ((mapM_isSome (neighbours sender.ifaceList).zipIdx).mpr fun round _ => by
      obtain ⟨packet, isPacket, -⟩ := each round
      exact Option.isSome_iff_exists.mpr ⟨packet, isPacket⟩)
  refine ⟨packets, ?_, ?_, ?_⟩
  · rw [lsuPackets, buffer]
    exact made
  · have count := map_of_mapM (g := fun _ => ()) (h := fun _ => ()) (fun _ _ _ => rfl) made
    simpa using congrArg List.length count
  · apply (forall_of_mapM (P := fun packet => Carries packet (originatedLsu sender))
      (Q := fun _ => True) ?_ made).mpr fun _ _ => trivial
    intro round _ packet isPacket
    obtain ⟨same, isSame, carries⟩ := each round
    rw [isSame] at isPacket
    rw [← Option.some.inj isPacket]
    exact iff_of_true carries trivial

/-- Every LSU packet is filled to its end by the LSAs of the interfaces and neighbours in
their order, and a router new to the sender records exactly these. -/
theorem lsu_round_trip (sender : Daemon) (mac mac' : Mac) (rand rand' : Nat → UInt16)
    (memory : List UInt8)
    (counted : ∀ iface ∈ sender.ifaceList, iface.numNbr = iface.nbrList.length)
    (short : pacLen (numAdv sender.ifaceList) < 65536)
    (allocated : (memory.length : Int) = pacLen (numAdv sender.ifaceList)) :
    ((sender.ifaceList.flatMap lsaList).length : Int) = numAdv sender.ifaceList ∧
    ∃ packets, lsuPackets mac rand memory sender = some packets ∧
      packets.length = (neighbours sender.ifaceList).length ∧
      ∀ packet ∈ packets,
        (packet.length : Int) = pacLen (numAdv sender.ifaceList) ∧
        packet.drop (packet.length - (numAdv sender.ifaceList).toNat * MOSPF_LSA_SIZE) =
          (sender.ifaceList.flatMap lsaList).flatMap MospfLsa.bytes ∧
        ∀ receiver index now, receiver.mospfLock = false →
          receiver.routerId ≠ sender.routerId →
          (∀ entry ∈ receiver.mospfDb, entry.rid ≠ sender.routerId) →
          ∃ next sent, handleMospfPacket mac' rand' receiver index packet now =
              some (next, sent) ∧
            next.mospfDb = receiver.mospfDb ++
              [{ addTime := now, rid := sender.routerId, seq := sender.sequenceNum,
                 nadv := numAdv sender.ifaceList,
                 array := sender.ifaceList.flatMap lsaList }] := by
  have advertised : sender.ifaceList.flatMap advertisedLsas = sender.ifaceList.flatMap lsaList :=
    List.flatMap_congr fun iface member => advertisedLsas_eq (counted iface member)
  have lsas := lsas_length counted
  have few : (sender.ifaceList.flatMap advertisedLsas).length < 2147483648 := by
    simp only [pacLen, ETHER_HDR_SIZE, IP_BASE_HDR_SIZE, MOSPF_HDR_SIZE, MOSPF_LSU_SIZE,
      MOSPF_LSA_SIZE, ← lsas] at short
    omega
  have wellFormed := originatedLsu_wellFormed counted few
  obtain ⟨packets, made, count, carry⟩ := exists_lsuPackets mac rand counted allocated
  refine ⟨by rw [← advertised, lsas], packets, made, count, ?_⟩
  intro packet member
  have carries := carry packet member
  have adv : (numAdv sender.ifaceList).toNat = (originatedLsu sender).lsas.length := by
    rw [← lsas, Int.toNat_natCast]
    rfl
  refine ⟨?_, ?_, ?_⟩
  · rw [carries.length, originatedLsu, ← lsas]
    simp only [pacLen, LSA_OFFSET, LSU_OFFSET, MOSPF_OFFSET]
    omega
  · rw [adv, carries.drop, ← advertised]
    rfl
  · intro receiver index now free foreign new
    obtain ⟨sent, handled⟩ :=
      handleLsuPacket_carries mac' rand' index now carries wellFormed free foreign
    rw [handleMospfPacket_carries mac' rand' receiver index now carries]
    refine ⟨_, sent, handled, ?_⟩
    show grownDb (originatedLsu sender) now receiver.mospfDb = _
    have nadv : (originatedLsu sender).nadvInt = numAdv sender.ifaceList := by
      rw [wellFormed, ← lsas]
      rfl
    rw [grownDb_new (originatedLsu sender) new, nadv, ← advertised]
    rfl

def leafRouter : Daemon :=
  { routerId := 0x0a000101, sequenceNum := 7,
    ifaceList :=
      [{ index := 0, ip := 0x0a000101, mask := 0xffffff00, name := "r1-eth0", numNbr := 1,
         nbrList :=
           [{ nbrId := 0x0a000102, nbrIp := 0x0a000102, nbrMask := 0xffffff00, alive := 0 }] },
       { index := 1, ip := 0x0a000201, mask := 0xffffff00, name := "r1-eth1", numNbr := 0,
         nbrList := [] }],
    mospfDb := [], rtable := [], globals := zeroGlobals, mospfLock := false }

theorem lsu_round_trip_leafRouter :
    ∃ packets, lsuPackets (fun _ => Vector.replicate 6 0) (fun _ => 0) (List.replicate 82 0)
        leafRouter = some packets ∧
      packets.length = 1 ∧ ∀ packet ∈ packets, packet.length = 82 ∧ packet.drop 58 =
        [10, 0, 1, 0, 255, 255, 255, 0, 10, 0, 1, 2,
         10, 0, 2, 0, 255, 255, 255, 0, 0, 0, 0, 0] := by
  obtain ⟨-, packets, made, count, each⟩ := lsu_round_trip leafRouter
    (fun _ => Vector.replicate 6 0) (fun _ => Vector.replicate 6 0) (fun _ => 0) (fun _ => 0)
    (List.replicate 82 0) (by decide) (by decide) (by decide)
  refine ⟨packets, made, count, ?_⟩
  intro packet member
  obtain ⟨size, filled, -⟩ := each packet member
  have length : packet.length = 82 := Int.ofNat.inj size
  rw [length] at filled
  exact ⟨length, filled⟩

end RoundTrip

end NetworkLab.Mospf
