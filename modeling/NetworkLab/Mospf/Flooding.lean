import NetworkLab.Mospf.Packets

/-!
# Flooding

The copies that `handle_mospf_lsu` makes of an LSU packet, at one router and from router to
router.  The handler decrements `ttl` before it compares it with zero, and `ip_send_packet`
chooses the interface of a copy by the routing table.  Neither the count of the LSU nor the
length in the mOSPF header is compared with the length of the packet, so the handler reads on
in the memory behind the packet and behind its copies, and the copies are made all the same.
-/
set_option autoImplicit false

namespace NetworkLab.Mospf

open Lib.Bytes

/-- The packet passes the checks of `handle_mospf_packet` and is an LSU. -/
def AcceptedLsu (packet : List UInt8) : Prop :=
  ∃ ihl, read8 packet ETHER_HDR_SIZE = some ihl ∧
    passesChecks (ETHER_HDR_SIZE + ihl.toNat % 16 * 4) packet = some true ∧
    read8 packet (ETHER_HDR_SIZE + ihl.toNat % 16 * 4 + 1) = some MOSPF_TYPE_LSU

theorem handleMospfPacket_accepted {mac : Mac} {rand : Nat → UInt16} {daemon : Daemon}
    {index : Nat} {packet : List UInt8} {now : Int} (accepted : AcceptedLsu packet) :
    handleMospfPacket mac rand daemon index packet now =
      handleLsuPacket mac rand daemon index packet now := by
  obtain ⟨ihl, isIhl, passes, isType⟩ := accepted
  have other : MOSPF_TYPE_LSU ≠ MOSPF_TYPE_HELLO := by decide
  simp only [handleMospfPacket, isIhl, Option.bind_eq_bind, Option.bind_some, passes, isType,
    if_true, if_neg other]

/-- A router as it is when a packet arrives on its interface `index`, and the bytes that can be
read behind the packet and behind the copy of each round. -/
structure Receipt where
  mac : Mac
  rand : Nat → UInt16
  daemon : Daemon
  index : Nat
  now : Int
  behind : List UInt8
  behindCopy : Nat → List UInt8

namespace Receipt

def memory (receipt : Receipt) (packet : List UInt8) : List UInt8 := packet ++ receipt.behind

def rounds (receipt : Receipt) : List ((Interface × MospfNbr) × Nat) :=
  (neighbours (receipt.daemon.ifaceList.filter fun iface => iface.index != receipt.index)).zipIdx

def forwardRound (receipt : Receipt) (packet : List UInt8)
    (round : (Interface × MospfNbr) × Nat) : Option (List IpSent) := do
  let copy ← copyHeaders receipt.mac packet.length (packet ++ receipt.behindCopy round.2)
    round.1.1 round.1.2 (receipt.rand round.2)
  ipSendPacket receipt.daemon.rtable (copy.take packet.length)

/-- What is sent up to the first round that reads where there is no memory. -/
def forwardRounds (receipt : Receipt) (packet : List UInt8) :
    List ((Interface × MospfNbr) × Nat) → List IpSent
  | [] => []
  | round :: rest =>
    match receipt.forwardRound packet round with
    | none => []
    | some sent => sent ++ receipt.forwardRounds packet rest

/-- What `handle_mospf_lsu` sends before it returns, blocks or reads where there is no memory. -/
def handleLsu (receipt : Receipt) (packet : List UInt8) : List IpSent :=
  if receipt.daemon.mospfLock then []
  else Option.getD (do
    let rid ← read32 (receipt.memory packet) (MOSPF_OFFSET + 4)
    if receipt.daemon.routerId = rid then some []
    else do
      let lsu ← readLsu (receipt.memory packet)
      let _ ← recordLsu lsu receipt.now receipt.daemon.mospfDb
      let changed ← write packet (LSU_OFFSET + 2) [lsu.ttl - 1]
      some (if 0 < lsu.ttl - 1 then receipt.forwardRounds changed receipt.rounds else [])) []

/-- What `handle_mospf_packet` sends; only LSUs are answered. -/
def handle (receipt : Receipt) (packet : List UInt8) : List IpSent :=
  Option.getD (do
    let ihl ← read8 (receipt.memory packet) ETHER_HDR_SIZE
    let mospf := ETHER_HDR_SIZE + ihl.toNat % 16 * 4
    let passed ← passesChecks mospf (receipt.memory packet)
    if passed then do
      let type ← read8 (receipt.memory packet) (mospf + 1)
      some (if type = MOSPF_TYPE_LSU then receipt.handleLsu packet else [])
    else some []) []

/-! ## What a router needs for a copy -/

def Accepts (receipt : Receipt) (packet : List UInt8) : Prop :=
  AcceptedLsu (receipt.memory packet)

/-- The handler returns before it looks at the LSU. -/
def Own (receipt : Receipt) (packet : List UInt8) : Prop :=
  read32 packet (MOSPF_OFFSET + 4) = some receipt.daemon.routerId

/-- The memory holds the count of the LSU and as many LSAs, if they are copied to the database. -/
structure HoldsLsas (receipt : Receipt) (packet : List UInt8) : Prop where
  header : LSA_OFFSET ≤ (receipt.memory packet).length
  lsas : ∀ lsu, readLsu (receipt.memory packet) = some lsu → Takes lsu receipt.daemon.mospfDb →
    LSA_OFFSET + lsu.nadvInt.toNat * MOSPF_LSA_SIZE ≤ (receipt.memory packet).length

/-- The memory of the copy of round `k` holds as many bytes as the mOSPF header says. -/
def HoldsCopy (receipt : Receipt) (packet : List UInt8) (k : Nat) : Prop :=
  ∀ len, read16 packet (MOSPF_OFFSET + 2) = some len →
    MOSPF_OFFSET + len.toNat ≤ packet.length + (receipt.behindCopy k).length

/-- The router gets as far as a neighbour with a route that meets `condition`, whatever the
`ttl`. -/
structure Copies (receipt : Receipt) (packet : List UInt8) (condition : RtEntry → Prop) :
    Prop where
  free : receipt.daemon.mospfLock = false
  foreign : ¬ receipt.Own packet
  lsas : receipt.HoldsLsas packet
  round : ∃ round ∈ receipt.rounds, (∀ k ≤ round.2, receipt.HoldsCopy packet k) ∧
    ∃ entry, longestPrefixMatch receipt.daemon.rtable round.1.2.nbrIp = some entry ∧
      condition entry

end Receipt

/-- Every copy has a `ttl` that is not zero and smaller than `ttl`. -/
def TtlShrinks (ttl : UInt8) (sent : List IpSent) : Prop :=
  ∀ copy ∈ sent, ∃ copied, read8 copy.packet (LSU_OFFSET + 2) = some copied ∧
    0 < copied ∧ copied < ttl

def NotBack (index : Nat) (sent : List IpSent) : Prop := ∀ copy ∈ sent, copy.iface ≠ index

/-! ## With nothing behind the buffers -/

section Alone

variable {receipt : Receipt} {packet : List UInt8} {next : Daemon} {sent : List IpSent}

theorem Receipt.forwardRound_alone (alone : ∀ k, receipt.behindCopy k = [])
    (fits : LSU_OFFSET ≤ packet.length) (round : (Interface × MospfNbr) × Nat) :
    receipt.forwardRound packet round =
      Mospf.forwardRound receipt.mac receipt.rand receipt.daemon.rtable packet round := by
  rw [forwardRound, Mospf.forwardRound, forwardedCopy, alone round.2, List.append_nil]
  rcases copyHeaders_cases receipt.mac packet.length round.1.1 round.1.2 (receipt.rand round.2)
    fits with ⟨-, copy, made, copied⟩ | ⟨-, failed⟩
  · rw [made, Option.bind_eq_bind, Option.bind_some, ← copied.length, List.take_length]
    rfl
  · rw [failed]
    rfl

theorem Receipt.forwardRounds_alone (alone : ∀ k, receipt.behindCopy k = [])
    (fits : LSU_OFFSET ≤ packet.length) {rounds : List ((Interface × MospfNbr) × Nat)}
    {lists : List (List IpSent)} (done : rounds.mapM (Mospf.forwardRound receipt.mac receipt.rand
      receipt.daemon.rtable packet) = some lists) :
    receipt.forwardRounds packet rounds = lists.flatten := by
  induction rounds generalizing lists with
  | nil =>
      rw [List.mapM_nil] at done
      cases Option.some.inj done
      rfl
  | cons round rest ih =>
      rw [List.mapM_cons] at done
      obtain ⟨first, isFirst, done⟩ := Option.bind_eq_some_iff.mp done
      obtain ⟨later, isLater, done⟩ := Option.bind_eq_some_iff.mp done
      cases Option.some.inj done
      rw [← receipt.forwardRound_alone alone fits] at isFirst
      simp only [forwardRounds, isFirst, ih isLater, List.flatten_cons]

theorem Receipt.handleLsu_alone (alone : receipt.behind = [])
    (copiesAlone : ∀ k, receipt.behindCopy k = [])
    (handled : handleLsuPacket receipt.mac receipt.rand receipt.daemon receipt.index packet
      receipt.now = some (next, sent)) : receipt.handleLsu packet = sent := by
  have whole : receipt.memory packet = packet := by rw [memory, alone, List.append_nil]
  unfold handleLsuPacket at handled
  unfold handleLsu
  rw [whole]
  split_ifs at handled ⊢ with locked
  obtain ⟨rid, isRid, handled⟩ := Option.bind_eq_some_iff.mp handled
  split_ifs at handled with own
  · obtain ⟨-, rfl⟩ := Prod.mk.inj (Option.some.inj handled)
    simp [isRid, own]
  obtain ⟨lsu, read, handled⟩ := Option.bind_eq_some_iff.mp handled
  obtain ⟨db, recorded, handled⟩ := Option.bind_eq_some_iff.mp handled
  obtain ⟨copies, flooded, handled⟩ := Option.bind_eq_some_iff.mp handled
  obtain ⟨-, rfl⟩ := Prod.mk.inj (Option.some.inj handled)
  obtain ⟨changed, written, flooded⟩ := Option.bind_eq_some_iff.mp flooded
  simp only [isRid, own, read, recorded, written, Option.bind_eq_bind, Option.bind_some,
    Option.getD_some, if_false]
  split_ifs at flooded ⊢ with positive
  · have fits : LSU_OFFSET ≤ changed.length := by
      have header := (readLsu_fields read).2.2
      rw [length_write written]
      omega
    obtain ⟨lists, done, rfl⟩ := Option.map_eq_some_iff.mp flooded
    exact receipt.forwardRounds_alone copiesAlone fits done
  · exact Option.some.inj flooded

/-- Where the handling stays inside the packet and its copies, it sends what
`handleMospfPacket` says. -/
theorem Receipt.handle_alone (alone : receipt.behind = [])
    (copiesAlone : ∀ k, receipt.behindCopy k = [])
    (handled : handleMospfPacket receipt.mac receipt.rand receipt.daemon receipt.index packet
      receipt.now = some (next, sent)) : receipt.handle packet = sent := by
  have whole : receipt.memory packet = packet := by rw [memory, alone, List.append_nil]
  unfold handleMospfPacket at handled
  unfold handle
  rw [whole]
  obtain ⟨ihl, isIhl, handled⟩ := Option.bind_eq_some_iff.mp handled
  obtain ⟨passed, passes, handled⟩ := Option.bind_eq_some_iff.mp handled
  simp only [isIhl, passes, Option.bind_eq_bind, Option.bind_some]
  split_ifs at handled ⊢ with accepted
  · obtain ⟨type, isType, handled⟩ := Option.bind_eq_some_iff.mp handled
    rw [isType, Option.bind_some, Option.getD_some]
    by_cases hello : type = MOSPF_TYPE_HELLO
    · have notLsu : type ≠ MOSPF_TYPE_LSU := by
        rw [hello]
        decide
      rw [if_pos hello] at handled
      rw [if_neg notLsu]
      obtain ⟨daemon, -, result⟩ := Option.map_eq_some_iff.mp handled
      exact (Prod.mk.inj result).2
    rw [if_neg hello] at handled
    split_ifs at handled ⊢ with isLsu
    · exact receipt.handleLsu_alone alone copiesAlone handled
    · exact (Prod.mk.inj (Option.some.inj handled)).2
  · exact (Prod.mk.inj (Option.some.inj handled)).2

end Alone

/-! ## One round -/

section Rounds

variable {receipt : Receipt} {packet : List UInt8}

theorem ForwardedFrom.take {behind copy : List UInt8} {nbr : MospfNbr}
    (fits : LSU_OFFSET + 3 ≤ packet.length)
    (copied : ForwardedFrom (packet ++ behind) nbr copy) :
    ForwardedFrom packet nbr (copy.take packet.length) where
  length := by
    rw [List.length_take, copied.length, List.length_append]
    omega
  ttl := by
    have inside : LSU_OFFSET + 2 < packet.length := by omega
    have kept := copied.ttl
    unfold read8 at kept ⊢
    rw [List.getElem?_take_of_lt inside, kept, List.getElem?_append_left inside]
  daddr := by
    have size : packet.length ≤ copy.length := by
      rw [copied.length, List.length_append]
      omega
    have offset : ETHER_HDR_SIZE + 16 + 4 ≤ LSU_OFFSET + 3 := by decide
    obtain ⟨daddr, found⟩ := (exists_read32_iff (copy.take packet.length)
      (ETHER_HDR_SIZE + 16)).mpr (by rw [List.length_take_of_le size]; omega)
    have isDaddr := copied.daddr
    rw [← List.take_append_drop packet.length copy] at isDaddr
    rw [found, (stable_read32 (ETHER_HDR_SIZE + 16)).eq found isDaddr]

theorem Receipt.holdsCopy_iff (fits : LSU_OFFSET + 3 ≤ packet.length) (k : Nat) :
    (∃ sum, mospfChecksum MOSPF_OFFSET (packet ++ receipt.behindCopy k) = some sum) ↔
      receipt.HoldsCopy packet k := by
  have offset : MOSPF_OFFSET + 14 ≤ LSU_OFFSET := by decide
  obtain ⟨len, isLen⟩ := (exists_read16_iff packet (MOSPF_OFFSET + 2)).mpr (by omega)
  have behind := stable_read16 (MOSPF_OFFSET + 2) packet (receipt.behindCopy k) len isLen
  dsimp only at behind
  rw [exists_mospfChecksum_iff, behind, Receipt.HoldsCopy, isLen, List.length_append]
  simp only [Option.some.injEq, exists_eq_left', forall_eq']
  omega

/-- The copy of one round goes where the route of its neighbour leads. -/
theorem Receipt.forwardRound_cases (round : (Interface × MospfNbr) × Nat)
    (fits : LSU_OFFSET + 3 ≤ packet.length) :
    (receipt.HoldsCopy packet round.2 ∧ ∃ copy, ForwardedFrom packet round.1.2 copy ∧
      receipt.forwardRound packet round =
        some ((longestPrefixMatch receipt.daemon.rtable round.1.2.nbrIp).toList.map fun entry =>
          { iface := entry.iface, nextHop := getNextHop entry round.1.2.nbrIp,
            packet := copy })) ∨
    (¬ receipt.HoldsCopy packet round.2 ∧ receipt.forwardRound packet round = none) := by
  have whole : LSU_OFFSET ≤ (packet ++ receipt.behindCopy round.2).length := by
    rw [List.length_append]
    omega
  rcases copyHeaders_cases receipt.mac packet.length round.1.1 round.1.2 (receipt.rand round.2)
    whole with ⟨summed, copy, made, copied⟩ | ⟨outside, failed⟩
  · have inside := copied.take fits
    refine .inl ⟨(receipt.holdsCopy_iff fits round.2).mp summed, _, inside, ?_⟩
    rw [forwardRound, made, Option.bind_eq_bind, Option.bind_some,
      ipSendPacket_forwarded receipt.daemon.rtable inside]
  · refine .inr ⟨fun holds => outside ((receipt.holdsCopy_iff fits round.2).mpr holds), ?_⟩
    rw [forwardRound, failed]
    rfl

/-- A property of the copies sent, as a property of the routes of the rounds that are reached. -/
theorem Receipt.forall_forwardRounds {P : IpSent → Prop} {Q : RtEntry → Prop}
    (fits : LSU_OFFSET + 3 ≤ packet.length)
    (each : ∀ entry nextHop nbr copy, ForwardedFrom packet nbr copy →
      (P { iface := entry.iface, nextHop := nextHop, packet := copy } ↔ Q entry))
    (pairs : List (Interface × MospfNbr)) (start : Nat) :
    (∀ copy ∈ receipt.forwardRounds packet (pairs.zipIdx start), P copy) ↔
      ∀ round ∈ pairs.zipIdx start,
        (∀ k, start ≤ k → k ≤ round.2 → receipt.HoldsCopy packet k) →
        ∀ entry, longestPrefixMatch receipt.daemon.rtable round.1.2.nbrIp = some entry →
          Q entry := by
  induction pairs generalizing start with
  | nil => simp [forwardRounds]
  | cons pair rest ih =>
      rw [List.zipIdx_cons]
      rcases receipt.forwardRound_cases (pair, start) fits with
        ⟨holds, copy, copied, sent⟩ | ⟨outside, failed⟩
      · have first : (∀ done ∈ (longestPrefixMatch receipt.daemon.rtable pair.2.nbrIp).toList.map
              (fun entry => IpSent.mk entry.iface (getNextHop entry pair.2.nbrIp) copy), P done) ↔
            ∀ entry, longestPrefixMatch receipt.daemon.rtable pair.2.nbrIp = some entry →
              Q entry := by
          cases longestPrefixMatch receipt.daemon.rtable pair.2.nbrIp with
          | none => simp
          | some entry => simp [each entry _ _ copy copied]
        have reached : ∀ last, (∀ k, start ≤ k → k ≤ last → receipt.HoldsCopy packet k) ↔
            ∀ k, start + 1 ≤ k → k ≤ last → receipt.HoldsCopy packet k := by
          intro last
          constructor
          · exact fun all k late early => all k (by omega) early
          · intro later k late early
            by_cases isFirst : k = start
            · exact isFirst ▸ holds
            · exact later k (by omega) early
        simp only [forwardRounds, sent, List.forall_mem_append, List.forall_mem_cons, first, ih,
          reached]
        apply and_congr_left
        intro _
        rw [forall_prop_of_true (fun k late early => absurd early (by omega))]
      · simp only [forwardRounds, failed]
        apply iff_of_true
        · exact fun copy member => absurd member List.not_mem_nil
        · intro round member reached
          rw [← List.zipIdx_cons] at member
          exact absurd (reached start (le_refl _) (List.mem_zipIdx member).1) outside

end Rounds

/-! ## One router -/

section OneRouter

variable {receipt : Receipt} {packet : List UInt8} {ttl : UInt8}

theorem ttl_sub_one_pos_iff : 0 < ttl - 1 ↔ ttl ≠ 1 := by
  rw [UInt8.pos_iff_ne_zero, Ne, Ne, UInt8.sub_eq_iff_eq_add, UInt8.zero_add]

theorem Receipt.holdsLsas_iff {lsu : MospfLsu}
    (read : readLsu (receipt.memory packet) = some lsu) :
    receipt.HoldsLsas packet ↔ (recordLsu lsu receipt.now receipt.daemon.mospfDb).isSome := by
  have header : LSA_OFFSET ≤ (receipt.memory packet).length := (readLsu_fields read).2.2
  have positive : 0 < MOSPF_LSA_SIZE := by decide
  rw [recordLsu_isSome_iff, length_readLsu read, Nat.le_div_iff_mul_le positive]
  constructor
  · intro holds takes
    have bound := holds.lsas lsu read takes
    omega
  · intro enough
    refine ⟨header, ?_⟩
    intro other again takes
    cases Option.some.inj (read.symm.trans again)
    have bound := enough takes
    omega

theorem Receipt.holdsCopy_write {changed : List UInt8} {byte : UInt8}
    (written : write packet (LSU_OFFSET + 2) [byte] = some changed) (k : Nat) :
    receipt.HoldsCopy changed k ↔ receipt.HoldsCopy packet k := by
  have fits := (exists_write_iff packet (LSU_OFFSET + 2) [byte]).mp ⟨changed, written⟩
  have len : read16 changed (MOSPF_OFFSET + 2) = read16 packet (MOSPF_OFFSET + 2) := by
    apply (stable_read16 _).before_write _ written
    rw [exists_read16_iff, List.length_take_of_le (Nat.le_of_add_right_le fits)]
    decide
  rw [HoldsCopy, HoldsCopy, len, length_write written]

theorem Receipt.handleLsu_cases (isTtl : read8 packet (LSU_OFFSET + 2) = some ttl) :
    (receipt.daemon.mospfLock = false ∧ ¬ receipt.Own packet ∧ receipt.HoldsLsas packet ∧
      ∃ changed, write packet (LSU_OFFSET + 2) [ttl - 1] = some changed ∧
        receipt.handleLsu packet =
          if 0 < ttl - 1 then receipt.forwardRounds changed receipt.rounds else []) ∨
    ((receipt.daemon.mospfLock = false → ¬ receipt.Own packet →
      ¬ receipt.HoldsLsas packet) ∧ receipt.handleLsu packet = []) := by
  have size : LSU_OFFSET + 2 + 1 ≤ packet.length := (exists_read8_iff packet _).mp ⟨ttl, isTtl⟩
  have offset : MOSPF_OFFSET + 8 ≤ LSU_OFFSET := by decide
  obtain ⟨rid, isRid⟩ := (exists_read32_iff packet (MOSPF_OFFSET + 4)).mpr (by omega)
  obtain ⟨changed, written⟩ := (exists_write_iff packet (LSU_OFFSET + 2) [ttl - 1]).mpr size
  have inMemory := stable_read32 (MOSPF_OFFSET + 4) packet receipt.behind rid isRid
  dsimp only at inMemory
  unfold handleLsu
  cases lock : receipt.daemon.mospfLock with
  | true => exact .inr ⟨fun free => by simp at free, by simp⟩
  | false =>
    rw [memory, inMemory]
    by_cases own : receipt.daemon.routerId = rid
    · refine .inr ⟨fun _ foreign => absurd ?_ foreign, by simp [own]⟩
      rw [Own, isRid, own]
    have foreign : ¬ receipt.Own packet := by
      rw [Own, isRid]
      exact fun same => own (Option.some.inj same).symm
    cases read : readLsu (packet ++ receipt.behind) with
    | none =>
      refine .inr ⟨fun _ _ holds => ?_, by simp [own]⟩
      obtain ⟨lsu, found⟩ := (exists_readLsu_iff _).mpr holds.header
      rw [memory, read] at found
      cases found
    | some lsu =>
      have sameTtl : lsu.ttl = ttl :=
        ((stable_read8 (LSU_OFFSET + 2)).eq isTtl (readLsu_fields read).2.1).symm
      have holds := receipt.holdsLsas_iff read
      cases recorded : recordLsu lsu receipt.now receipt.daemon.mospfDb with
      | none =>
        rw [recorded] at holds
        exact .inr ⟨fun _ _ => by simpa using holds, by simp [own, recorded]⟩
      | some db =>
        rw [recorded] at holds
        refine .inl ⟨rfl, foreign, holds.mpr rfl, changed, written, ?_⟩
        simp [own, recorded, sameTtl, written]

/-- A property of the copies made of a packet, as a property of the routes that are used. -/
theorem Receipt.forall_handleLsu {P : IpSent → Prop} {Q : RtEntry → Prop}
    (isTtl : read8 packet (LSU_OFFSET + 2) = some ttl)
    (each : ∀ entry nextHop copy, read8 copy (LSU_OFFSET + 2) = some (ttl - 1) →
      (P { iface := entry.iface, nextHop := nextHop, packet := copy } ↔ Q entry)) :
    (∀ copy ∈ receipt.handleLsu packet, P copy) ↔
      ttl = 1 ∨ ¬ receipt.Copies packet fun entry => ¬ Q entry := by
  rcases receipt.handleLsu_cases isTtl with
    ⟨free, foreign, lsas, changed, written, sent⟩ | ⟨stops, sent⟩
  · rw [sent]
    by_cases expired : ttl = 1
    · rw [if_neg (fun positive => ttl_sub_one_pos_iff.mp positive expired)]
      exact iff_of_true (fun copy member => absurd member List.not_mem_nil) (.inl expired)
    · have fits : LSU_OFFSET + 3 ≤ changed.length := by
        rw [length_write written]
        exact (exists_read8_iff packet _).mp ⟨ttl, isTtl⟩
      have copies := receipt.forall_forwardRounds fits (fun entry nextHop nbr copy copied =>
        each entry nextHop copy (copied.ttl.trans (read8_write written)))
        (neighbours (receipt.daemon.ifaceList.filter fun iface => iface.index != receipt.index)) 0
      rw [if_pos (ttl_sub_one_pos_iff.mpr expired), rounds, copies, or_iff_right expired]
      simp only [holdsCopy_write written, Nat.zero_le, forall_const]
      constructor
      · rintro every ⟨-, -, -, round, member, reached, entry, found, fails⟩
        exact fails (every round member reached entry found)
      · intro none round member reached entry found
        by_contra fails
        exact none ⟨free, foreign, lsas, round, member, reached, entry, found, fails⟩
  · rw [sent]
    apply iff_of_true
    · exact fun copy member => absurd member List.not_mem_nil
    · exact .inr fun copies => stops copies.free copies.foreign copies.lsas

theorem Receipt.handle_accepted (accepted : receipt.Accepts packet) :
    receipt.handle packet = receipt.handleLsu packet := by
  obtain ⟨ihl, isIhl, passes, isType⟩ := accepted
  simp [handle, isIhl, passes, isType]

theorem Receipt.accepts_of_mem {copy : IpSent} (sent : copy ∈ receipt.handle packet) :
    receipt.Accepts packet := by
  unfold handle at sent
  cases isIhl : read8 (receipt.memory packet) ETHER_HDR_SIZE with
  | none => simp [isIhl] at sent
  | some ihl =>
    cases passes : passesChecks (ETHER_HDR_SIZE + ihl.toNat % 16 * 4) (receipt.memory packet) with
    | none => simp [isIhl, passes] at sent
    | some passed =>
      cases isType : read8 (receipt.memory packet) (ETHER_HDR_SIZE + ihl.toNat % 16 * 4 + 1) with
      | none =>
        cases passed with
        | false => simp [isIhl, passes] at sent
        | true => simp [isIhl, passes, isType] at sent
      | some type =>
        simp only [isIhl, passes, isType, Option.bind_eq_bind, Option.bind_some] at sent
        split_ifs at sent with passed isLsu
        · exact ⟨ihl, isIhl, passed ▸ passes, isLsu ▸ isType⟩
        · simp at sent
        · simp at sent

theorem ttl_sub_one_lt_iff : ttl - 1 < ttl ↔ ttl ≠ 0 := by
  have below := ttl.toNat_lt
  rw [UInt8.lt_iff_toNat_lt, UInt8.toNat_sub, Ne, ← UInt8.toNat_inj, UInt8.toNat_one,
    UInt8.toNat_zero]
  omega

theorem Receipt.ttlShrinks_iff (accepted : receipt.Accepts packet)
    (isTtl : read8 packet (LSU_OFFSET + 2) = some ttl) :
    TtlShrinks ttl (receipt.handle packet) ↔
      ttl ≠ 0 ∨ ¬ receipt.Copies packet fun _ => True := by
  have each : ∀ (entry : RtEntry) (nextHop : UInt32) (copy : List UInt8),
      read8 copy (LSU_OFFSET + 2) = some (ttl - 1) →
      ((∃ copied, read8 copy (LSU_OFFSET + 2) = some copied ∧ 0 < copied ∧ copied < ttl) ↔
        0 < ttl - 1 ∧ ttl - 1 < ttl) := by
    intro entry nextHop copy isCopied
    rw [isCopied]
    simp
  rw [TtlShrinks, handle_accepted accepted,
    receipt.forall_handleLsu (Q := fun _ => 0 < ttl - 1 ∧ ttl - 1 < ttl) isTtl each]
  rw [ttl_sub_one_pos_iff, ttl_sub_one_lt_iff]
  by_cases zero : ttl = 0
  · subst zero
    simp
  · apply iff_of_true _ (.inl zero)
    by_cases one : ttl = 1
    · exact .inl one
    · right
      rintro ⟨-, -, -, round, -, -, entry, -, fails⟩
      exact fails ⟨one, zero⟩

theorem Receipt.notBack_iff (accepted : receipt.Accepts packet)
    (isTtl : read8 packet (LSU_OFFSET + 2) = some ttl) :
    NotBack receipt.index (receipt.handle packet) ↔
      ttl = 1 ∨ ¬ receipt.Copies packet fun entry => entry.iface = receipt.index := by
  rw [NotBack, handle_accepted accepted,
    receipt.forall_handleLsu (Q := fun entry => entry.iface ≠ receipt.index) isTtl
      (fun entry nextHop copy _ => Iff.rfl)]
  simp only [not_not]

theorem Receipt.handle_eq_nil_iff (accepted : receipt.Accepts packet)
    (isTtl : read8 packet (LSU_OFFSET + 2) = some ttl) :
    receipt.handle packet = [] ↔ ttl = 1 ∨ ¬ receipt.Copies packet fun _ => True := by
  rw [List.eq_nil_iff_forall_not_mem, handle_accepted accepted,
    receipt.forall_handleLsu (P := fun _ => False) (Q := fun _ => False) isTtl
      (fun entry nextHop copy _ => Iff.rfl)]
  simp only [not_false_eq_true]

end OneRouter

/-! ## From router to router -/

section Chains

/-- A packet that arrives at one of the routers leaves it and arrives at the next; only the
headers before the mOSPF part are written on the way. -/
def Forwards (network : Receipt → Prop) (packet arrived : List UInt8) : Prop :=
  ∃ receipt, network receipt ∧ ∃ copy ∈ receipt.handle packet,
    arrived.drop MOSPF_OFFSET = copy.packet.drop MOSPF_OFFSET

def Chain (network : Receipt → Prop) : Nat → List UInt8 → Prop
  | 0, _ => True
  | n + 1, packet => ∃ arrived, Forwards network packet arrived ∧ Chain network n arrived

/-- A router of the network accepts the packet and gets as far as a copy. -/
def Emits (network : Receipt → Prop) (packet : List UInt8) : Prop :=
  ∃ receipt, network receipt ∧ receipt.Accepts packet ∧ receipt.Copies packet fun _ => True

variable {network : Receipt → Prop} {packet arrived : List UInt8} {ttl : UInt8}

theorem read8_of_drop {copy : List UInt8}
    (same : arrived.drop MOSPF_OFFSET = copy.drop MOSPF_OFFSET) :
    read8 arrived (LSU_OFFSET + 2) = read8 copy (LSU_OFFSET + 2) := by
  have offset : LSU_OFFSET + 2 = MOSPF_OFFSET + 18 := rfl
  simp only [read8]
  rw [offset, ← List.getElem?_drop, ← List.getElem?_drop, same]

theorem forwards_ttl (isTtl : read8 packet (LSU_OFFSET + 2) = some ttl) (positive : ttl ≠ 0)
    (forwards : Forwards network packet arrived) :
    ∃ copied, read8 arrived (LSU_OFFSET + 2) = some copied ∧ copied ≠ 0 ∧ copied < ttl := by
  obtain ⟨receipt, -, copy, sent, same⟩ := forwards
  have shrinks := (Receipt.ttlShrinks_iff (Receipt.accepts_of_mem sent) isTtl).mpr (.inl positive)
  obtain ⟨copied, isCopied, nonzero, less⟩ := shrinks copy sent
  refine ⟨copied, ?_, UInt8.pos_iff_ne_zero.mp nonzero, less⟩
  rw [read8_of_drop same, isCopied]

theorem chain_lt (n : Nat) (isTtl : read8 packet (LSU_OFFSET + 2) = some ttl)
    (positive : ttl ≠ 0) (chain : Chain network n packet) : n < ttl.toNat := by
  induction n generalizing packet ttl with
  | zero =>
    have : 0 < ttl := UInt8.pos_iff_ne_zero.mpr positive
    exact UInt8.lt_iff_toNat_lt.mp this
  | succ n ih =>
    obtain ⟨arrived, forwards, later⟩ := chain
    obtain ⟨copied, isCopied, nonzero, less⟩ := forwards_ttl isTtl positive forwards
    have bound := ih isCopied nonzero later
    have shrunk := UInt8.lt_iff_toNat_lt.mp less
    omega

/-- Every chain is shorter than the `ttl` of the first packet, if that is not zero. -/
theorem chains_bounded_iff (isTtl : read8 packet (LSU_OFFSET + 2) = some ttl) :
    (∀ n, 0 < n → Chain network n packet → n < ttl.toNat) ↔
      ttl ≠ 0 ∨ ¬ Emits network packet := by
  constructor
  · intro bounded
    by_contra neither
    obtain ⟨zero, emits⟩ := not_or.mp neither
    obtain ⟨receipt, member, accepted, copies⟩ := not_not.mp emits
    have isZero := not_not.mp zero
    have sends : receipt.handle packet ≠ [] := by
      rw [Ne, Receipt.handle_eq_nil_iff accepted isTtl, isZero]
      simp [copies]
    obtain ⟨copy, sent⟩ := List.exists_mem_of_ne_nil _ sends
    have short := bounded 1 Nat.one_pos ⟨copy.packet, ⟨receipt, member, copy, sent, rfl⟩, trivial⟩
    rw [isZero] at short
    exact absurd short (Nat.not_lt_zero 1)
  · rintro (positive | silent) n nonempty chain
    · exact chain_lt n isTtl positive chain
    · obtain ⟨length, rfl⟩ := Nat.exists_eq_add_of_lt nonempty
      rw [Nat.zero_add] at chain
      obtain ⟨arrived, ⟨receipt, member, copy, sent, -⟩, -⟩ := chain
      have accepted := Receipt.accepts_of_mem sent
      have sends := List.ne_nil_of_mem sent
      rw [Ne, Receipt.handle_eq_nil_iff accepted isTtl] at sends
      obtain ⟨-, copies⟩ := not_or.mp sends
      exact absurd ⟨receipt, member, accepted, not_not.mp copies⟩ silent

/-- At every router the copies of an LSU have smaller `ttl`s that are not zero, unless it
arrives with `ttl` zero and is copied, and none goes back unless a route leads there.  A flood
is as short as the first `ttl` under the same condition. -/
theorem flooding_bounded (isTtl : read8 packet (LSU_OFFSET + 2) = some ttl) :
    (∀ receipt : Receipt, receipt.Accepts packet →
      (TtlShrinks ttl (receipt.handle packet) ↔
        ttl ≠ 0 ∨ ¬ receipt.Copies packet fun _ => True) ∧
      (NotBack receipt.index (receipt.handle packet) ↔
        ttl = 1 ∨ ¬ receipt.Copies packet fun entry => entry.iface = receipt.index)) ∧
    ∀ network, (∀ n, 0 < n → Chain network n packet → n < ttl.toNat) ↔
      ttl ≠ 0 ∨ ¬ Emits network packet := by
  refine ⟨?_, fun network => chains_bounded_iff isTtl⟩
  intro receipt accepted
  exact ⟨Receipt.ttlShrinks_iff accepted isTtl, Receipt.notBack_iff accepted isTtl⟩

def emptyLsu (ttl nadv : UInt8) : List UInt8 :=
  List.replicate 14 0 ++ (0x45 :: List.replicate 19 0) ++
    [2, 4, 0, 24, 10, 0, 3, 3, 0, 0, 0, 0, 0xf0 - ttl, 0xdf - nadv, 0, 0] ++
    [0, 1, ttl, 0, 0, 0, 0, nadv]

def middleRouter (behind : List UInt8) : Receipt :=
  { mac := fun _ => Vector.replicate 6 0, rand := fun _ => 0, index := 0, now := 100,
    behind := behind, behindCopy := fun _ => [],
    daemon :=
      { routerId := 0x0a000101, sequenceNum := 0,
        ifaceList :=
          [{ index := 0, ip := 0x0a000101, mask := 0xffffff00, name := "r1-eth0", numNbr := 0,
             nbrList := [] },
           { index := 1, ip := 0x0a000201, mask := 0xffffff00, name := "r1-eth1", numNbr := 1,
             nbrList :=
               [{ nbrId := 0x0a000202, nbrIp := 0x0a000202, nbrMask := 0xffffff00,
                  alive := 0 }] }],
        mospfDb := [],
        rtable :=
          [{ dest := 0x0a000200, mask := 0xffffff00, gw := 0, ifName := "r1-eth1", iface := 1 }],
        globals := zeroGlobals, mospfLock := false } }

/-- An LSU that arrives with `ttl` zero is flooded with `ttl` 255. -/
theorem zero_ttl_flooded : (middleRouter []).Accepts (emptyLsu 0 0) ∧
    read8 (emptyLsu 0 0) (LSU_OFFSET + 2) = some 0 ∧
    ((middleRouter []).handle (emptyLsu 0 0)).map
      (fun copy => (copy.iface, read8 copy.packet (LSU_OFFSET + 2))) = [(1, some 255)] ∧
    ¬ TtlShrinks 0 ((middleRouter []).handle (emptyLsu 0 0)) := by
  have ttls : ((middleRouter []).handle (emptyLsu 0 0)).map
      (fun copy => (copy.iface, read8 copy.packet (LSU_OFFSET + 2))) = [(1, some 255)] := by decide
  refine ⟨⟨0x45, by decide⟩, by decide, ttls, ?_⟩
  intro shrinks
  obtain ⟨copy, member, same⟩ := List.mem_map.mp (ttls ▸ List.mem_singleton_self (1, some 255))
  obtain ⟨copied, -, -, less⟩ := shrinks copy member
  exact absurd less UInt8.not_lt_zero

/-- So is one whose LSA is read from behind the packet. -/
example : ((middleRouter (List.replicate 12 0)).handle (emptyLsu 0 1)).map
    (fun copy => (copy.iface, read8 copy.packet (LSU_OFFSET + 2))) = [(1, some 255)] := by
  decide

theorem flooding_bounded_three : (middleRouter []).Accepts (emptyLsu 3 0) ∧
    TtlShrinks 3 ((middleRouter []).handle (emptyLsu 3 0)) ∧
    ∀ network n, 0 < n → Chain network n (emptyLsu 3 0) → n < 3 := by
  have isTtl : read8 (emptyLsu 3 0) (LSU_OFFSET + 2) = some 3 := by decide
  have accepted : (middleRouter []).Accepts (emptyLsu 3 0) := ⟨0x45, by decide⟩
  have bounded := flooding_bounded isTtl
  refine ⟨accepted, ((bounded.1 _ accepted).1).mpr (.inl (by decide)), ?_⟩
  intro network
  exact (bounded.2 network).mpr (.inl (by decide))

end Chains

end NetworkLab.Mospf
