import NetworkLab.Tcp.Malformed

/-!
# The checksum of a segment

`tcp_checksum` adds the pseudo-header and the segment in 32 bits and the odd byte behind the
folding.  It is the Internet checksum exactly where neither addition loses a carry.
-/
set_option autoImplicit false

namespace NetworkLab.Tcp

open Lib.Bytes Lib.OnesComplement

/-- A packet whose lengths agree with the bytes that it has. -/
structure SegmentFrame where
  packet : List UInt8
  tcp : Nat
  totLen : UInt16
  protocol : UInt8
  readsTcp : packetToTcpHdr packet = some tcp
  readsTotLen : ipTotLen packet = some totLen
  readsProtocol : ipProtocol packet = some protocol
  ipHeader : ETHER_HDR_SIZE + IP_BASE_HDR_SIZE ≤ tcp
  tcpField : tcp + 18 ≤ packet.length
  notNegative : tcp ≤ ETHER_HDR_SIZE + totLen.toNat
  complete : ETHER_HDR_SIZE + totLen.toNat ≤ packet.length

namespace SegmentFrame

variable (frame : SegmentFrame)

def tcpLen : Nat := ETHER_HDR_SIZE + frame.totLen.toNat - frame.tcp

def pseudoHeader : List UInt8 :=
  (frame.packet.drop (ETHER_HDR_SIZE + 12)).take 4 ++
    ((frame.packet.drop (ETHER_HDR_SIZE + 16)).take 4 ++
      ([0, frame.protocol] ++ Lib.Bytes.bytes16 (UInt16.ofNat frame.tcpLen)))

def segment : List UInt8 :=
  ((clearChecksum frame.packet frame.tcp).drop frame.tcp).take frame.tcpLen

/-- What `tcp_checksum` should return: the bytes of the checksum in network order. -/
def rfcChecksum : UInt16 :=
  htons (UInt16.ofNat (internetChecksum (frame.pseudoHeader ++ frame.segment)))

/-- The addresses as the machine loads them, the protocol and the length. -/
def pseudoSum : Nat :=
  ((read32Little frame.packet (ETHER_HDR_SIZE + 12)).getD 0).toNat +
    ((read32Little frame.packet (ETHER_HDR_SIZE + 16)).getD 0).toNat +
    (htons frame.protocol.toUInt16).toNat + (htons (UInt16.ofNat frame.tcpLen)).toNat

/-- No carry leaves the 32 bits of `sum`, or the low half where the odd byte is added. -/
def KeepsCarries : Prop :=
  frame.pseudoSum + wholeWords frame.segment < 4294967296 ∧
    folded 65535 (frame.pseudoSum + wholeWords frame.segment) + oddByte frame.segment < 65536

instance : Decidable frame.KeepsCarries := inferInstanceAs (Decidable (_ ∧ _))

end SegmentFrame

/-! ## The sums -/

theorem toNat_htons (n : UInt16) : (htons n).toNat = swap 256 n.toNat := by
  have small := n.toNat_lt
  rw [htons, UInt16.toNat_ofNat', swap]
  omega

/-- Neither a carry out of the 32 bits nor one of the odd byte is made up for later. -/
theorem lost_carry_iff {sum odd : Nat} (sumSmall : sum < 4 * 4294967296) (oddSmall : odd < 256) :
    (folded 65535 (sum % 4294967296) + odd) % 65536 = folded 65535 (sum + odd) ↔
      sum < 4294967296 ∧ folded 65535 sum + odd < 65536 := by
  constructor
  · intro same
    have small := folded_le (m := 65535) (by decide) (sum % 4294967296)
    have carries : folded 65535 (sum % 4294967296) + odd + sum / 4294967296 ≡
        (folded 65535 (sum % 4294967296) + odd) % 65536 [MOD 65535] := by
      rw [same]
      apply (((folded_modEq _).add_right odd).add_right _).trans
      apply Nat.ModEq.trans _ (folded_modEq (sum + odd)).symm
      rw [Nat.ModEq]
      omega
    rcases Nat.lt_or_ge (folded 65535 (sum % 4294967296) + odd) 65536 with fits | carry
    · rw [Nat.mod_eq_of_lt fits, Nat.add_modEq_left_iff] at carries
      have inside : sum < 4294967296 := by omega
      rw [Nat.mod_eq_of_lt inside] at fits
      exact ⟨inside, fits⟩
    · obtain ⟨rest, restIs⟩ := Nat.exists_eq_add_of_le carry
      have below : (folded 65535 (sum % 4294967296) + odd) % 65536 = rest := by omega
      rw [below, restIs, show 65536 + rest + sum / 4294967296 =
        rest + (65536 + sum / 4294967296) by omega, Nat.add_modEq_left_iff] at carries
      omega
  · intro keeps
    rw [Nat.mod_eq_of_lt keeps.1, Nat.mod_eq_of_lt keeps.2]
    have zero := folded_eq_zero (m := 65535) (n := sum)
    exact eq_folded (by decide) (by omega) ((folded_modEq sum).add_right odd) (by omega)

namespace SegmentFrame

variable (frame : SegmentFrame)

theorem size : ipHdrSize frame.packet = some (frame.tcp - ETHER_HDR_SIZE) := by
  obtain ⟨size, found, place⟩ := Option.map_eq_some_iff.mp frame.readsTcp
  rw [found, ← place, Nat.add_sub_cancel_left]

theorem tcpLen_small : frame.tcpLen < 65536 := by
  have small := frame.totLen.toNat_lt
  have behind := frame.ipHeader
  unfold tcpLen
  omega

theorem length_segment : frame.segment.length = frame.tcpLen := by
  have complete := frame.complete
  have behind := frame.notNegative
  rw [segment, List.length_take, List.length_drop, length_clearChecksum, tcpLen]
  omega

/-- The two words of an address, which the code adds as one number. -/
theorem address_words (offset : Nat) (inside : offset + 4 ≤ frame.tcp) :
    ∃ address : UInt32, read32Little frame.packet offset = some address ∧
      read32Little (clearChecksum frame.packet frame.tcp) offset = some address ∧
      ((frame.packet.drop offset).take 4).length = 4 ∧
      folded 65535 (memoryWords ((frame.packet.drop offset).take 4)).sum =
        folded 65535 address.toNat := by
  have field := frame.tcpField
  obtain ⟨address, found⟩ := (exists_read32Little_iff frame.packet offset).mpr (by omega)
  obtain ⟨b0, b1, b2, b3, bytes, value⟩ := take_of_read32Little found
  refine ⟨address, found, ?_, ?_, ?_⟩
  · rw [← found]
    unfold read32Little read16Little
    rw [read8_clearChecksum (by omega), read8_clearChecksum (by omega),
      read8_clearChecksum (by omega), read8_clearChecksum (by omega)]
  · rw [bytes]
    rfl
  · have words : (memoryWords [b0, b1, b2, b3]).sum =
        (b1.toNat * 256 + b0.toNat) + (b3.toNat * 256 + b2.toNat) := by
      simp only [sum_memoryWords, wholeWords, oddByte, Nat.add_zero]
    rw [bytes, words, value]
    apply eq_folded (by decide) (folded_le (by decide) _)
    · apply (folded_modEq _).trans
      rw [Nat.ModEq]
      omega
    · rw [folded_eq_zero]
      omega

theorem words_pseudoHeader (frame : SegmentFrame) :
    frame.pseudoHeader.length % 2 = 0 ∧
      folded 65535 (memoryWords frame.pseudoHeader).sum = folded 65535 frame.pseudoSum := by
  have behind := frame.ipHeader
  unfold ETHER_HDR_SIZE IP_BASE_HDR_SIZE at behind
  obtain ⟨saddr, readsSaddr, -, saddrSize, saddrWords⟩ :=
    frame.address_words (ETHER_HDR_SIZE + 12) (by unfold ETHER_HDR_SIZE; omega)
  obtain ⟨daddr, readsDaddr, -, daddrSize, daddrWords⟩ :=
    frame.address_words (ETHER_HDR_SIZE + 16) (by unfold ETHER_HDR_SIZE; omega)
  have rest : (memoryWords ([0, frame.protocol] ++ Lib.Bytes.bytes16 (UInt16.ofNat frame.tcpLen))).sum =
      (htons frame.protocol.toUInt16).toNat + (htons (UInt16.ofNat frame.tcpLen)).toNat := by
    have lenSmall := (UInt16.ofNat frame.tcpLen).toNat_lt
    have protocolSmall := frame.protocol.toNat_lt
    have words : networkWords ([0, frame.protocol] ++ Lib.Bytes.bytes16 (UInt16.ofNat frame.tcpLen)) =
        [frame.protocol.toUInt16.toNat, (UInt16.ofNat frame.tcpLen).toNat] := by
      simp only [Lib.Bytes.bytes16, List.cons_append, List.nil_append, networkWords, UInt8.toNat_ofNat',
        UInt8.toNat_toUInt16, UInt8.toNat_zero, Nat.zero_mul, Nat.zero_add, List.cons.injEq, true_and,
        and_true]
      omega
    rw [memoryWords, words, toNat_htons, toNat_htons, List.map_cons, List.map_cons, List.map_nil,
      List.sum_cons, List.sum_cons, List.sum_nil, Nat.add_zero]
  constructor
  · simp only [pseudoHeader, List.length_append, saddrSize, daddrSize,
      length_bytes16, List.length_cons, List.length_nil]
  · have split : (memoryWords frame.pseudoHeader).sum =
        (memoryWords ((frame.packet.drop (ETHER_HDR_SIZE + 12)).take 4)).sum +
          (memoryWords ((frame.packet.drop (ETHER_HDR_SIZE + 16)).take 4)).sum +
          ((htons frame.protocol.toUInt16).toNat + (htons (UInt16.ofNat frame.tcpLen)).toNat) := by
      rw [pseudoHeader, memoryWords_append _ (by rw [saddrSize]), List.sum_append,
        memoryWords_append _ (by rw [daddrSize]), List.sum_append, rest, Nat.add_assoc]
    rw [split, pseudoSum, readsSaddr, readsDaddr, Nat.add_assoc (_ + _)]
    exact folded_add (by decide) (folded_add (by decide) saddrWords daddrWords) rfl

/-- What should be returned, as the complement of the words that the machine loads. -/
theorem toNat_rfcChecksum : frame.rfcChecksum.toNat = 65535 - folded 65535
    (frame.pseudoSum + wholeWords frame.segment + oddByte frame.segment) := by
  obtain ⟨even, pseudo⟩ := frame.words_pseudoHeader
  have words : folded 65535 (memoryWords (frame.pseudoHeader ++ frame.segment)).sum =
      folded 65535 (frame.pseudoSum + wholeWords frame.segment + oddByte frame.segment) := by
    rw [memoryWords_append _ even, List.sum_append, sum_memoryWords frame.segment, Nat.add_assoc]
    exact folded_add (by decide) pseudo rfl
  rw [← words, folded_memoryWords, rfcChecksum, toNat_htons, internetChecksum_eq,
    UInt16.toNat_ofNat']
  have small := folded_le (m := 65535) (by decide)
    (networkWords (frame.pseudoHeader ++ frame.segment)).sum
  unfold swap
  omega

theorem sum_small : frame.pseudoSum + wholeWords frame.segment < 4 * 4294967296 := by
  have words := wholeWords_le frame.segment
  have short := frame.tcpLen_small
  rw [frame.length_segment] at words
  have saddr := ((read32Little frame.packet (ETHER_HDR_SIZE + 12)).getD 0).toNat_lt
  have daddr := ((read32Little frame.packet (ETHER_HDR_SIZE + 16)).getD 0).toNat_lt
  have protocol := (htons frame.protocol.toUInt16).toNat_lt
  have length := (htons (UInt16.ofNat frame.tcpLen)).toNat_lt
  unfold pseudoSum
  omega

theorem ofInt_tcpLen :
    UInt16.ofInt (frame.totLen.toNat - (frame.tcp - ETHER_HDR_SIZE : Nat)) =
      UInt16.ofNat frame.tcpLen := by
  have behind := frame.ipHeader
  have complete := frame.complete
  have notNegative := frame.notNegative
  have small := frame.tcpLen_small
  unfold ETHER_HDR_SIZE IP_BASE_HDR_SIZE at *
  unfold tcpLen ETHER_HDR_SIZE at *
  apply UInt16.toNat_inj.mp
  simp only [UInt16.ofInt, UInt16.toNat_ofNat']
  omega

theorem toNat_tcpLen : (UInt16.ofNat frame.tcpLen).toNat = frame.segment.length := by
  rw [UInt16.toNat_ofNat', frame.length_segment]
  exact Nat.mod_eq_of_lt frame.tcpLen_small

/-- The checksum over the segment, from any sum that the code starts with. -/
theorem checksum_segment (sum : UInt32) :
    ∃ result, checksum (clearChecksum frame.packet frame.tcp) frame.tcp frame.segment.length sum =
        some result ∧
      result.toNat = 65535 - (folded 65535 ((sum.toNat + wholeWords frame.segment) % 4294967296) +
        oddByte frame.segment) % 65536 := by
  have complete := frame.complete
  have notNegative := frame.notNegative
  have place : ((clearChecksum frame.packet frame.tcp).take frame.tcp).length = frame.tcp := by
    rw [List.length_take, length_clearChecksum]
    omega
  have cut : clearChecksum frame.packet frame.tcp =
      (clearChecksum frame.packet frame.tcp).take frame.tcp ++ (frame.segment ++
        ((clearChecksum frame.packet frame.tcp).drop frame.tcp).drop frame.tcpLen) := by
    rw [segment, List.take_append_drop, List.take_append_drop]
  have summed := checksum_eq _ frame.segment
    (((clearChecksum frame.packet frame.tcp).drop frame.tcp).drop frame.tcpLen) frame.tcp sum place
  rw [← cut] at summed
  exact summed

/-- What is returned: the sum is cut to 32 bits, and that with the odd byte to 16. -/
theorem tcpChecksum_eq : ∃ result, tcpChecksum frame.packet frame.tcp = some result ∧
    result.toNat = 65535 - (folded 65535
      ((frame.pseudoSum + wholeWords frame.segment) % 4294967296) + oddByte frame.segment) %
        65536 := by
  have behind := frame.ipHeader
  unfold ETHER_HDR_SIZE IP_BASE_HDR_SIZE at behind
  have behindEther : ETHER_HDR_SIZE ≤ frame.tcp := by
    unfold ETHER_HDR_SIZE
    omega
  obtain ⟨field, readsField⟩ :=
    (exists_read16Little_iff frame.packet (frame.tcp + 16)).mpr frame.tcpField
  obtain ⟨saddr, readsSaddr, clearSaddr, -, -⟩ :=
    frame.address_words (ETHER_HDR_SIZE + 12) (by unfold ETHER_HDR_SIZE; omega)
  obtain ⟨daddr, readsDaddr, clearDaddr, -, -⟩ :=
    frame.address_words (ETHER_HDR_SIZE + 16) (by unfold ETHER_HDR_SIZE; omega)
  have protocol : ipProtocol (clearChecksum frame.packet frame.tcp) = some frame.protocol := by
    rw [← frame.readsProtocol]
    exact read8_clearChecksum (by unfold ETHER_HDR_SIZE; omega)
  have total := (ipTotLen_clearChecksum behindEther).trans frame.readsTotLen
  have size := (ipHdrSize_clearChecksum behindEther).trans frame.size
  obtain ⟨result, success, value⟩ := frame.checksum_segment
    (saddr + daddr + (htons frame.protocol.toUInt16).toUInt32 +
      (htons (UInt16.ofNat frame.tcpLen)).toUInt32)
  refine ⟨result, ?_, ?_⟩
  · simp only [tcpChecksum, readsField, clearedChecksum, protocol, total, size, clearSaddr,
      clearDaddr, Option.bind_eq_bind, Option.bind_some, frame.ofInt_tcpLen, frame.toNat_tcpLen,
      success]
  · have sum : (saddr + daddr + (htons frame.protocol.toUInt16).toUInt32 +
        (htons (UInt16.ofNat frame.tcpLen)).toUInt32).toNat % 4294967296 =
          frame.pseudoSum % 4294967296 := by
      rw [pseudoSum, readsSaddr, readsDaddr]
      simp only [UInt32.toNat_add, UInt16.toNat_toUInt32, Option.getD_some]
      omega
    have sums : _ % 4294967296 = _ % 4294967296 :=
      Nat.ModEq.add_right (wholeWords frame.segment) sum
    rw [value, sums]

/-- The checksum of a segment is that of RFC 793 if and only if no carry is lost. -/
theorem tcp_checksum_iff (frame : SegmentFrame) :
    tcpChecksum frame.packet frame.tcp = some frame.rfcChecksum ↔ frame.KeepsCarries := by
  obtain ⟨result, success, value⟩ := frame.tcpChecksum_eq
  have whole := folded_le (m := 65535) (by decide)
    (frame.pseudoSum + wholeWords frame.segment + oddByte frame.segment)
  have carries := lost_carry_iff frame.sum_small (oddByte_lt frame.segment)
  rw [KeepsCarries, ← carries, success, Option.some.injEq, ← UInt16.toNat_inj, value,
    frame.toNat_rfcChecksum]
  omega

end SegmentFrame

def oneByteSegment : SegmentFrame where
  packet := List.replicate ETHER_HDR_SIZE 0 ++
    [0x45, 0, 0, 41, 0, 1, 0x40, 0, 64, 6, 0, 0, 10, 0, 0, 1, 10, 0, 0, 2] ++
    [0x30, 0x39, 0x27, 0x11, 0, 0, 0, 1, 0, 0, 0, 1, 0x50, 0x18, 0xff, 0xff, 0, 0, 0, 0, 7]
  tcp := 34
  totLen := 41
  protocol := 6
  readsTcp := by decide
  readsTotLen := by decide
  readsProtocol := by decide
  ipHeader := by decide
  tcpField := by decide
  notNegative := by decide
  complete := by decide

theorem tcp_checksum_odd :
    tcpChecksum oneByteSegment.packet oneByteSegment.tcp = some oneByteSegment.rfcChecksum :=
  (SegmentFrame.tcp_checksum_iff oneByteSegment).mpr (by decide)

def synBetweenHosts : List UInt8 :=
  List.replicate ETHER_HDR_SIZE 0 ++
    [0x45, 0, 0, 40, 0, 1, 0x40, 0, 64, 6, 0, 0, 192, 168, 1, 200, 192, 168, 1, 100] ++
    [0x30, 0x39, 0x27, 0x11, 0, 0, 0, 0, 0, 0, 0, 0, 0x50, 2, 0xff, 0xff, 0, 0, 0, 0]

theorem lost_carry :
    ∃ frame : SegmentFrame, frame.packet = synBetweenHosts ∧
      tcpChecksum frame.packet frame.tcp = some 0x1bd5 ∧ frame.rfcChecksum = 0x1bd4 :=
  ⟨{  packet        := synBetweenHosts
      tcp           := 34
      totLen        := 40
      protocol      := 6
      readsTcp      := by decide
      readsTotLen   := by decide
      readsProtocol := by decide
      ipHeader      := by decide
      tcpField      := by decide
      notNegative   := by decide
      complete      := by decide }, rfl, by decide, by decide⟩

end NetworkLab.Tcp
