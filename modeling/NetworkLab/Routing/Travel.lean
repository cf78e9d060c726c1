import NetworkLab.Icmp.Stack

/-!
# Packets on their way

Stacks that run `ip_forward_packet`, with any routing tables.  A packet goes along the routes to
its destination for as many hops as its `ttl` allows, and arrives as it was sent.
-/
set_option autoImplicit false

namespace NetworkLab.Routing

open Lib Lib.Bytes Lib.OnesComplement Icmp
open NetworkLab.Mospf (ETHER_HDR_SIZE RtEntry IpSent longestPrefixMatch getNextHop lowerTtl
  ipChecksum ipTtl headerWords)

/-- `receiver` is the stack that has the address of the next hop on the link of an interface,
as ARP finds it, and `ether` the header that a frame leaves with. -/
structure Internet (ρ : Type) where
  rtable : ρ → List RtEntry
  receiver : ρ → Nat → UInt32 → Option ρ
  ether : ρ → IpSent → Vector UInt8 14

structure Arrival (ρ : Type) where
  host : ρ
  ip : UInt32
  packet : List UInt8

variable {ρ : Type}

/-- A forwarded packet with the Ethernet header that it leaves with. -/
def Internet.received (net : Internet ρ) (r : ρ) (copy : IpSent) : List UInt8 :=
  (net.ether r copy).toList ++ copy.packet.drop ETHER_HDR_SIZE

/-- Where a packet comes to that arrives and is forwarded fewer than `left` times, and what
becomes of it there.  A forwarded packet stays where no stack has the next hop. -/
def Internet.travel (net : Internet ρ) : Nat → Arrival ρ → Option (Arrival ρ × Disposal)
  | 0, _ => none
  | left + 1, arrival => do
    let disposal ← handleIpPacket arrival.ip (net.rtable arrival.host) arrival.packet
    match disposal with
    | .forwarded copy =>
      match net.receiver arrival.host copy.iface copy.nextHop with
      | some next =>
        net.travel left
          { host := next, ip := copy.nextHop, packet := net.received arrival.host copy }
      | none => some (arrival, disposal)
    | _ => some (arrival, disposal)

/-- The routing table of a stack leads to the next one. -/
def Internet.Leads (net : Internet ρ) (dst : UInt32) (r : ρ) (there : ρ × UInt32) : Prop :=
  ∃ entry, longestPrefixMatch (net.rtable r) dst = some entry ∧
    there.2 = getNextHop entry dst ∧ net.receiver r entry.iface there.2 = some there.1

/-- A stack passes the packet on that has arrived on the interface with an address. -/
def Internet.Hop (net : Internet ρ) (dst : UInt32) (here there : ρ × UInt32) : Prop :=
  here.2 ≠ dst ∧ net.Leads dst here.1 there

/-- The packet has its IP header, with this destination, and something behind it. -/
structure Headed (dst : UInt32) (packet : List UInt8) : Prop where
  daddr : read32 packet (ETHER_HDR_SIZE + 16) = some dst
  whole : ETHER_HDR_SIZE + ipHdrSize packet < packet.length

structure Carried (n : Nat) (packet arrived : List UInt8) : Prop where
  marked : Marked packet arrived
  ttl : ipTtl arrived + n = ipTtl packet
  checksum : 0 < n → onesSum 65535 (headerWords arrived) = 0xffff

section Reads

variable {packet copy : List UInt8} {dst : UInt32}

theorem Headed.inside (headed : Headed dst packet) : ETHER_HDR_SIZE + 20 ≤ packet.length :=
  (exists_read32_iff packet (ETHER_HDR_SIZE + 16)).mp ⟨dst, headed.daddr⟩

theorem Headed.exists_ttl (headed : Headed dst packet) :
    ∃ ttl, read8 packet (ETHER_HDR_SIZE + 8) = some ttl ∧ ipTtl packet = ttl.toNat := by
  have inside := headed.inside
  obtain ⟨ttl, readsTtl⟩ := (exists_read8_iff packet (ETHER_HDR_SIZE + 8)).mpr (by omega)
  exact ⟨ttl, readsTtl, by rw [ipTtl, readsTtl, Option.getD_some]⟩

theorem Headed.congr (headed : Headed dst packet) (marked : Marked packet copy) :
    Headed dst copy := by
  constructor
  · rw [← headed.daddr]
    simp only [read32, read16]
    rw [marked.kept _ (by omega) (by omega) (by omega) (by omega),
      marked.kept _ (by omega) (by omega) (by omega) (by omega),
      marked.kept _ (by omega) (by omega) (by omega) (by omega),
      marked.kept _ (by omega) (by omega) (by omega) (by omega)]
  · rw [marked.ipHdrSize_eq, marked.length]
    exact headed.whole

theorem Carried.trans {n m : Nat} {arrived : List UInt8} (first : Carried n packet copy)
    (second : Carried (m + 1) copy arrived) : Carried (n + (m + 1)) packet arrived where
  marked := first.marked.trans second.marked
  ttl := by
    have before := first.ttl
    have after := second.ttl
    omega
  checksum _ := second.checksum (Nat.succ_pos m)

/-- Only the header checksum can fail to be computed, and it does not. -/
theorem Headed.exists_lowerTtl (headed : Headed dst packet) (ttl : UInt8) :
    ∃ lowered, lowerTtl ttl packet = some lowered := by
  have inside := headed.inside
  obtain ⟨aged, isAged⟩ := (exists_write_iff packet (ETHER_HDR_SIZE + 8) [ttl - 1]).mpr
    (by rw [List.length_singleton]; omega)
  have marked : Marked packet aged := .of_write isAged (.inr (.inl ⟨rfl, rfl⟩))
  have again := headed.congr marked
  obtain ⟨ihl, readsIhl⟩ := (exists_read8_iff aged ETHER_HDR_SIZE).mpr (by
    rw [marked.length]
    omega)
  obtain ⟨cleared, isCleared⟩ := (exists_write_iff aged (ETHER_HDR_SIZE + 10) (bytes16 0)).mpr (by
    rw [marked.length, length_bytes16]
    omega)
  have fits := again.whole
  rw [ipHdrSize_of_read8 readsIhl] at fits
  obtain ⟨sum, summed⟩ := (exists_checksum_iff cleared ETHER_HDR_SIZE (ihl.toNat % 16 * 4) 0).mpr
    (.inr (by rw [length_write isCleared]; omega))
  obtain ⟨lowered, isLowered⟩ :=
    (exists_write_iff aged (ETHER_HDR_SIZE + 10) (bytes16Little sum)).mpr (by
      rw [marked.length, length_bytes16Little]
      omega)
  refine ⟨lowered, ?_⟩
  simp only [lowerTtl, isAged, ipChecksum, readsIhl, isCleared, summed, isLowered,
    Option.bind_eq_bind, Option.bind_some]

end Reads

/-! ## One stack -/

section OneStack

variable {packet : List UInt8} {dst ip : UInt32} (headed : Headed dst packet)
variable (rtable : List RtEntry)

include headed

theorem Headed.passed_on (other : ip ≠ dst) :
    handleIpPacket ip rtable packet = ipForwardPacket rtable dst packet := by
  simp only [handleIpPacket, headed.daddr, Option.bind_eq_bind, Option.bind_some,
    if_neg (Ne.symm other)]

theorem Headed.expired (other : ip ≠ dst) (old : ipTtl packet ≤ 1) :
    handleIpPacket ip rtable packet =
      some (.answered ICMP_TIME_EXCEEDED ICMP_EXC_TTL packet) := by
  obtain ⟨ttl, readsTtl, isTtl⟩ := headed.exists_ttl
  have last : ttl ≤ 1 := UInt8.le_iff_toNat_le.mpr (isTtl ▸ old)
  rw [headed.passed_on rtable other]
  simp only [ipForwardPacket, readsTtl, Option.bind_eq_bind, Option.bind_some, if_pos last]

/-- With a `ttl` above one a packet is forwarded, or there is no route. -/
theorem Headed.lowered (other : ip ≠ dst) (alive : 1 < ipTtl packet) :
    ∃ lowered, Carried 1 packet lowered ∧ handleIpPacket ip rtable packet =
      match longestPrefixMatch rtable dst with
      | none => some (.answered ICMP_DEST_UNREACH ICMP_NET_UNREACH lowered)
      | some entry => some (.forwarded
          { iface := entry.iface, nextHop := getNextHop entry dst, packet := lowered }) := by
  obtain ⟨ttl, readsTtl, isTtl⟩ := headed.exists_ttl
  rw [isTtl] at alive
  obtain ⟨lowered, lowers⟩ := headed.exists_lowerTtl ttl
  have young : ¬ ttl ≤ 1 := UInt8.not_le.mpr (UInt8.lt_iff_toNat_lt.mpr alive)
  refine ⟨lowered, ⟨marked_lowerTtl lowers, ?_, fun _ => Mospf.headerWords_lowerTtl lowers⟩, ?_⟩
  · have small := ttl.toNat_lt
    rw [Mospf.ipTtl_lowerTtl lowers, isTtl, UInt8.toNat_sub]
    change (256 - 1 + ttl.toNat) % 256 + 1 = ttl.toNat
    omega
  · rw [headed.passed_on rtable other]
    cases route : longestPrefixMatch rtable dst with
    | none =>
      simp only [ipForwardPacket, readsTtl, Option.bind_eq_bind, Option.bind_some, if_neg young,
        lowers, route]
    | some entry =>
      simp only [ipForwardPacket, readsTtl, Option.bind_eq_bind, Option.bind_some, if_neg young,
        lowers, route]

/-- The stack that the packet is for keeps it, or answers an echo request. -/
theorem Headed.kept :
    ∃ disposal, handleIpPacket dst rtable packet = some disposal ∧
      ∀ copy, disposal ≠ .forwarded copy := by
  have inside := headed.inside
  have whole := headed.whole
  obtain ⟨protocol, readsProtocol⟩ := (exists_read8_iff packet (ETHER_HDR_SIZE + 9)).mpr (by omega)
  obtain ⟨ihl, readsIhl⟩ := (exists_read8_iff packet ETHER_HDR_SIZE).mpr (by omega)
  rw [ipHdrSize_of_read8 readsIhl] at whole
  obtain ⟨type, readsType⟩ :=
    (exists_read8_iff packet (ETHER_HDR_SIZE + ihl.toNat % 16 * 4)).mpr whole
  simp only [handleIpPacket, headed.daddr, readsProtocol, readsIhl, readsType, Option.bind_eq_bind,
    Option.bind_some, if_true]
  split_ifs
  · exact ⟨_, rfl, nofun⟩
  · exact ⟨_, rfl, nofun⟩
  · exact ⟨_, rfl, nofun⟩

end OneStack

/-! ## From stack to stack -/

section Stacks

variable {net : Internet ρ} {packet : List UInt8} {dst : UInt32} {u v : ρ × UInt32}

theorem Carried.received {n : Nat} {copy : IpSent} (carried : Carried n packet copy.packet)
    (inside : ETHER_HDR_SIZE ≤ copy.packet.length) (r : ρ) :
    Carried n packet (net.received r copy) := by
  have ether : (net.ether r copy).toList.length = ETHER_HDR_SIZE := (net.ether r copy).length_toList
  have same : (net.received r copy).drop ETHER_HDR_SIZE = copy.packet.drop ETHER_HDR_SIZE :=
    List.drop_left' ether
  have length : (net.received r copy).length = copy.packet.length := by
    rw [Internet.received, List.length_append, ether, List.length_drop]
    omega
  have reads : ∀ place, ETHER_HDR_SIZE ≤ place →
      read8 (net.received r copy) place = read8 copy.packet place := by
    intro place behind
    obtain ⟨offset, rfl⟩ := Nat.exists_eq_add_of_le behind
    unfold read8
    rw [← List.getElem?_drop, ← List.getElem?_drop, same]
  refine ⟨⟨length.trans carried.marked.length, ?_⟩, ?_, ?_⟩
  · intro place behind ttl high low
    rw [reads place behind]
    exact carried.marked.kept place behind ttl high low
  · rw [ipTtl, reads _ (Nat.le_add_right ..)]
    exact carried.ttl
  · intro positive
    have sized : Mospf.ipHdrSize (net.received r copy) = Mospf.ipHdrSize copy.packet := by
      rw [Mospf.ipHdrSize, reads _ le_rfl, Mospf.ipHdrSize]
    rw [headerWords, sized, ← List.drop_drop, same, List.drop_drop, ← headerWords]
    exact carried.checksum positive

theorem Carried.refl (packet : List UInt8) : Carried 0 packet packet where
  marked := .refl packet
  ttl := rfl
  checksum positive := absurd positive (lt_irrefl 0)

theorem travel_hop (headed : Headed dst packet) (alive : 1 < ipTtl packet) (hop : net.Hop dst u v)
    (left : Nat) :
    ∃ arrived, Carried 1 packet arrived ∧
      net.travel (left + 1) { host := u.1, ip := u.2, packet := packet } =
        net.travel left { host := v.1, ip := v.2, packet := arrived } := by
  obtain ⟨other, entry, route, nextHop, receiver⟩ := hop
  obtain ⟨lowered, carried, handled⟩ := headed.lowered (net.rtable u.1) other alive
  have inside := headed.inside
  have bound : ETHER_HDR_SIZE ≤ lowered.length := by
    rw [carried.marked.length]
    omega
  refine ⟨net.received u.1 { iface := entry.iface, nextHop := v.2, packet := lowered },
    carried.received bound u.1, ?_⟩
  rw [route] at handled
  rw [Internet.travel, handled]
  simp only [Option.bind_eq_bind, Option.bind_some]
  rw [← nextHop, receiver]

theorem travel_way {n : Nat} (headed : Headed dst packet) (way : Walk (net.Hop dst) n u v)
    (young : n = 0 ∨ n < ipTtl packet) (left : Nat) :
    ∃ arrived, Carried n packet arrived ∧
      net.travel (left + n) { host := u.1, ip := u.2, packet := packet } =
        net.travel left { host := v.1, ip := v.2, packet := arrived } := by
  induction n generalizing v left with
  | zero =>
      obtain rfl := way
      exact ⟨packet, .refl packet, rfl⟩
  | succ n ih =>
      obtain ⟨w, front, hop⟩ := way.last_step
      obtain ⟨copy, first, goes⟩ := ih front (by omega) (left + 1)
      have aged := first.ttl
      obtain ⟨arrived, last, comes⟩ :=
        travel_hop (headed.congr first.marked) (by omega) hop left
      refine ⟨arrived, first.trans last, ?_⟩
      have count : left + (n + 1) = left + 1 + n := by omega
      rw [count, goes, comes]

theorem exists_travel {left : Nat} {arrival : Arrival ρ} (headed : Headed dst arrival.packet)
    (enough : ipTtl arrival.packet < left) :
    ∃ result, net.travel left arrival = some result := by
  induction left generalizing arrival with
  | zero => exact absurd enough (Nat.not_lt_zero _)
  | succ left ih =>
      rw [Internet.travel]
      by_cases own : arrival.ip = dst
      · obtain ⟨disposal, handled, kept⟩ := headed.kept (net.rtable arrival.host)
        rw [own, handled]
        cases disposal with
        | delivered => exact ⟨_, rfl⟩
        | answered type code memory => exact ⟨_, rfl⟩
        | forwarded copy => exact absurd rfl (kept copy)
      by_cases alive : 1 < ipTtl arrival.packet
      · obtain ⟨lowered, carried, handled⟩ :=
          headed.lowered (net.rtable arrival.host) own alive
        rw [handled]
        cases longestPrefixMatch (net.rtable arrival.host) dst with
        | none => exact ⟨_, rfl⟩
        | some entry =>
            simp only [Option.bind_eq_bind, Option.bind_some]
            cases net.receiver arrival.host entry.iface (getNextHop entry dst) with
            | none => exact ⟨_, rfl⟩
            | some next =>
                have inside := headed.inside
                have comes : Carried 1 arrival.packet (net.received arrival.host
                    { iface := entry.iface, nextHop := getNextHop entry dst, packet := lowered }) :=
                  carried.received (by dsimp only; rw [carried.marked.length]; omega) _
                have aged := comes.ttl
                exact ih (headed.congr comes.marked) (by dsimp only; omega)
      · rw [headed.expired _ own (Nat.le_of_not_lt alive)]
        exact ⟨_, rfl⟩

theorem travel_arrives {n : Nat} (headed : Headed dst packet) (way : Walk (net.Hop dst) n u v)
    (arrives : v.2 = dst) (young : n = 0 ∨ n < ipTtl packet) :
    ∃ arrived disposal, Carried n packet arrived ∧
      handleIpPacket dst (net.rtable v.1) arrived = some disposal ∧
      (∀ copy, disposal ≠ .forwarded copy) ∧
      net.travel 256 { host := u.1, ip := u.2, packet := packet } =
        some ({ host := v.1, ip := v.2, packet := arrived }, disposal) := by
  obtain ⟨ttl, -, isTtl⟩ := headed.exists_ttl
  have small := ttl.toNat_lt
  obtain ⟨left, count⟩ : ∃ left, 256 = left + 1 + n := ⟨255 - n, by omega⟩
  obtain ⟨arrived, carried, goes⟩ := travel_way headed way young (left + 1)
  obtain ⟨disposal, handled, kept⟩ := (headed.congr carried.marked).kept (net.rtable v.1)
  refine ⟨arrived, disposal, carried, handled, kept, ?_⟩
  rw [count, goes, Internet.travel, arrives, handled]
  cases disposal with
  | delivered => rfl
  | answered type code memory => rfl
  | forwarded copy => exact absurd rfl (kept copy)

theorem travel_expires {n : Nat} (headed : Headed dst packet) (way : Walk (net.Hop dst) n u v)
    (positive : 0 < n) (old : ipTtl packet ≤ n) :
    ∃ w arrived, Walk (net.Hop dst) (ipTtl packet - 1) u w ∧
      Carried (ipTtl packet - 1) packet arrived ∧
      net.travel 256 { host := u.1, ip := u.2, packet := packet } =
        some ({ host := w.1, ip := w.2, packet := arrived },
          .answered ICMP_TIME_EXCEEDED ICMP_EXC_TTL arrived) := by
  obtain ⟨ttl, -, isTtl⟩ := headed.exists_ttl
  have small := ttl.toNat_lt
  obtain ⟨more, split⟩ : ∃ more, n = ipTtl packet - 1 + (more + 1) :=
    ⟨n - 1 - (ipTtl packet - 1), by omega⟩
  rw [split] at way
  obtain ⟨w, front, x, hop, -⟩ := Walk.cut way
  obtain ⟨left, count⟩ : ∃ left, 256 = left + 1 + (ipTtl packet - 1) :=
    ⟨255 - (ipTtl packet - 1), by omega⟩
  obtain ⟨arrived, carried, goes⟩ := travel_way headed front (by omega) (left + 1)
  have aged := carried.ttl
  refine ⟨w, arrived, front, carried, ?_⟩
  rw [count, goes, Internet.travel,
    (headed.congr carried.marked).expired _ hop.1 (by omega)]
  rfl

end Stacks

/-- Every packet comes to an end.  Where the tables lead it to its destination in `n` hops, it
arrives if its `ttl` is greater, unchanged but for `ttl` and checksum; where they lead it further
than its `ttl`, the stack that it then comes to answers that the time is exceeded. -/
theorem packets_travel (net : Internet ρ) (dst : UInt32) (packet : List UInt8)
    (headed : Headed dst packet) (u : ρ × UInt32) :
    (∃ result, net.travel 256 { host := u.1, ip := u.2, packet := packet } = some result) ∧
    ∀ n v, Walk (net.Hop dst) n u v →
      (v.2 = dst → n = 0 ∨ n < ipTtl packet →
        ∃ arrived disposal, Carried n packet arrived ∧
          handleIpPacket dst (net.rtable v.1) arrived = some disposal ∧
          (∀ copy, disposal ≠ .forwarded copy) ∧
          net.travel 256 { host := u.1, ip := u.2, packet := packet } =
            some ({ host := v.1, ip := v.2, packet := arrived }, disposal)) ∧
      (0 < n → ipTtl packet ≤ n →
        ∃ w arrived, Walk (net.Hop dst) (ipTtl packet - 1) u w ∧
          Carried (ipTtl packet - 1) packet arrived ∧
          net.travel 256 { host := u.1, ip := u.2, packet := packet } =
            some ({ host := w.1, ip := w.2, packet := arrived },
              .answered ICMP_TIME_EXCEEDED ICMP_EXC_TTL arrived)) := by
  obtain ⟨ttl, -, isTtl⟩ := headed.exists_ttl
  have small := ttl.toNat_lt
  refine ⟨exists_travel headed (by dsimp only; omega), ?_⟩
  intro n v way
  exact ⟨travel_arrives headed way, travel_expires headed way⟩

def lineRoute : RtEntry :=
  { dest := 0x0a000100, mask := 0xffffff00, gw := 0, ifName := "r-eth1", iface := 1 }

def lineNet : Internet Bool where
  rtable isHost := if isHost then [] else [lineRoute]
  receiver isHost iface nextHop :=
    if isHost = false ∧ iface = 1 ∧ nextHop = 0x0a000102 then some true else none
  ether _ _ := Vector.replicate 14 0

def linePacket (ttl : UInt8) : List UInt8 :=
  List.replicate ETHER_HDR_SIZE 0 ++
    [0x45, 0, 0, 21, 0, 1, 0x40, 0, ttl, 17, 0, 0, 10, 0, 0, 2, 10, 0, 1, 2, 7]

theorem packets_travel_line :
    (∃ arrived disposal, lineNet.travel 256
        { host := false, ip := 0x0a000001, packet := linePacket 2 } =
      some ({ host := true, ip := 0x0a000102, packet := arrived }, disposal)) ∧
    ∃ w arrived, lineNet.travel 256 { host := false, ip := 0x0a000001, packet := linePacket 1 } =
      some ({ host := w, ip := 0x0a000001, packet := arrived },
        .answered ICMP_TIME_EXCEEDED ICMP_EXC_TTL arrived) := by
  have headed : ∀ ttl, Headed 0x0a000102 (linePacket ttl) := by
    intro ttl
    have ihl : read8 (linePacket ttl) ETHER_HDR_SIZE = some 0x45 := rfl
    have length : (linePacket ttl).length = 35 := rfl
    exact ⟨rfl, by rw [ipHdrSize_of_read8 ihl, length]; decide⟩
  have way : Walk (lineNet.Hop 0x0a000102) 1 (false, 0x0a000001) (true, 0x0a000102) :=
    ⟨(true, 0x0a000102), ⟨by decide, lineRoute, by decide, rfl, by decide⟩, rfl⟩
  constructor
  · obtain ⟨arrived, disposal, -, -, -, goes⟩ := ((packets_travel lineNet 0x0a000102 (linePacket 2)
      (headed 2) (false, 0x0a000001)).2 1 _ way).1 rfl (.inr (by decide))
    exact ⟨arrived, disposal, goes⟩
  · obtain ⟨w, arrived, start, -, goes⟩ := ((packets_travel lineNet 0x0a000102 (linePacket 1)
      (headed 1) (false, 0x0a000001)).2 1 _ way).2 Nat.one_pos (by decide)
    obtain rfl : (false, 0x0a000001) = w := start
    exact ⟨_, arrived, goes⟩

end NetworkLab.Routing
