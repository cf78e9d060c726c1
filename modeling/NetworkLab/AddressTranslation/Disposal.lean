import NetworkLab.AddressTranslation.Table
import NetworkLab.Checksum

/-!
# What becomes of a packet

`nat_translate_packet` and the functions under it, with the life of the packet buffer.  The
buffer is gone when it was freed or handed to `ip_send_packet`; what touches it then, and
what follows a NULL routing entry, is a fault.  `icmp_send_packet` reads the packet.
-/
set_option autoImplicit false

namespace NetworkLab.AddressTranslation

open Lib Lib.Bytes

def IPPROTO_TCP : UInt8 := 6

/-- An IP packet, in host order but for the checksums, which are kept as the machine stores
them.  The fields of the TCP header mean something only when the protocol is TCP, and the
segment is complete then. -/
structure Datagram where
  versionIhl : UInt8
  tos : UInt8
  totLen : UInt16
  id : UInt16
  fragOff : UInt16
  ttl : UInt8
  protocol : UInt8
  ipSum : UInt16
  addresses : Packet
  options : List UInt8
  seqToWindow : List UInt8
  tcpSum : UInt16
  behindSum : List UInt8
  hdrSize : 20 + options.length = versionIhl.toNat % 16 * 4
  complete : protocol = IPPROTO_TCP → seqToWindow.length = 12 ∧
    20 + options.length ≤ totLen.toNat ∧
    totLen.toNat ≤ 20 + options.length + 18 + behindSum.length

namespace Datagram

variable (d : Datagram)

def ipHdrSize : Nat := d.versionIhl.toNat % 16 * 4

def ipHeader : List UInt8 :=
  [d.versionIhl, d.tos] ++ bytes16 d.totLen ++ bytes16 d.id ++ bytes16 d.fragOff ++
    [d.ttl, d.protocol, 0, 0] ++ bytes32 d.addresses.saddr ++ bytes32 d.addresses.daddr ++ d.options

def tcpSegment : List UInt8 :=
  bytes16 d.addresses.sport ++ bytes16 d.addresses.dport ++ d.seqToWindow ++ [0, 0] ++ d.behindSum

def ipChecksum : Option UInt16 := checksum d.ipHeader 0 d.ipHdrSize 0

/-- The addresses are added as the machine loads them. -/
def tcpChecksum : Option UInt16 := do
  let tcpLen := UInt16.ofInt (d.totLen.toNat - d.ipHdrSize)
  let saddr ← read32Little (bytes32 d.addresses.saddr) 0
  let daddr ← read32Little (bytes32 d.addresses.daddr) 0
  let proto ← read16Little (bytes16 d.protocol.toUInt16) 0
  let len ← read16Little (bytes16 tcpLen) 0
  checksum d.tcpSegment 0 tcpLen.toNat (saddr + daddr + proto.toUInt32 + len.toUInt32)

def readdress (change : Packet → Packet) : Datagram :=
  { d with addresses := change d.addresses }

end Datagram

inductive Fault
  | nullEntry
  | bufferGone
  | outside

structure Handling where
  nat : NatTable
  buffer : Option Datagram
  freed : Nat
  sent : List Datagram

structure NatInterfaces where
  internal : IfaceInfo
  external : IfaceInfo
  apart : internal.index ≠ external.index

def RtEntry.follow : Option RtEntry → Except Fault IfaceInfo
  | none => .error .nullEntry
  | some entry => .ok entry.iface

namespace Handling

def packet (handling : Handling) : Except Fault Datagram :=
  match handling.buffer with
  | none => .error .bufferGone
  | some d => .ok d

/-- A store to the packet of what is computed from it. -/
def store (change : Datagram → Option Datagram) (handling : Handling) : Except Fault Handling := do
  let d ← handling.packet
  match change d with
  | none => .error .outside
  | some changed => .ok { handling with buffer := some changed }

def icmpSendPacket (handling : Handling) : Except Fault Handling := do
  let _ ← handling.packet
  .ok handling

def free (handling : Handling) : Except Fault Handling := do
  let _ ← handling.packet
  .ok { handling with buffer := none, freed := handling.freed + 1 }

def ipSendPacket (handling : Handling) : Except Fault Handling := do
  let d ← handling.packet
  .ok { handling with buffer := none, sent := handling.sent ++ [d] }

def storeIpChecksum : Handling → Except Fault Handling :=
  store fun d => d.ipChecksum.map fun sum => { d with ipSum := sum }

def storeTcpChecksum : Handling → Except Fault Handling :=
  store fun d => d.tcpChecksum.map fun sum => { d with tcpSum := sum }

def touch (head : UInt8) (found : NatMapping → Bool) (now : Int) (handling : Handling) :
    Handling :=
  { handling with nat := handling.nat.touchFirst head found now }

def readdress (change : Packet → Packet) : Handling → Except Fault Handling :=
  store fun d => some (d.readdress change)

/-- The stores of an address, of a port and of the checksums behind each. -/
def rewrite (address port : Packet → Packet) (handling : Handling) : Except Fault Handling := do
  let handling ← handling.readdress address
  let handling ← handling.storeIpChecksum
  let handling ← handling.readdress port
  handling.storeTcpChecksum

def rewriteIn (natEntry : NatMapping) : Handling → Except Fault Handling :=
  rewrite (fun addresses => { addresses with daddr := natEntry.internalIp })
    (fun addresses => { addresses with dport := natEntry.internalPort })

def rewriteOut (natEntry : NatMapping) : Handling → Except Fault Handling :=
  rewrite (fun addresses => { addresses with saddr := natEntry.externalIp })
    (fun addresses => { addresses with sport := natEntry.externalPort })

end Handling

section Translation

variable (longestPrefixMatch : UInt32 → Option RtEntry) (ifaces : NatInterfaces)

def getPacketDirection (handling : Handling) : Except Fault PacketDir := do
  let d ← handling.packet
  let src ← RtEntry.follow (longestPrefixMatch d.addresses.saddr)
  let out ← if src.index = ifaces.internal.index then do
      let dest ← RtEntry.follow (longestPrefixMatch d.addresses.daddr)
      .ok (decide (dest.index = ifaces.external.index))
    else .ok false
  if out then .ok .dirOut
  else if src.index = ifaces.external.index ∧ d.addresses.daddr = ifaces.external.ip then .ok .dirIn
  else .ok .dirInvalid

/-- The branches of `do_translation`.  Both come to the call of `ip_send_packet` behind them,
also when the packet was freed. -/
def translateBranch (dir : PacketDir) (now : Int) (handling : Handling) :
    Except Fault Handling := do
  let d ← handling.packet
  if dir = .dirIn then
    let head := hash8 d.addresses.saddr
    let found := matchesExternal d.addresses.daddr d.addresses.dport
    match (handling.nat.natMappingList head).find? found with
    | none =>
      let handling ← handling.icmpSendPacket
      handling.free
    | some natEntry =>
      let handling ← handling.rewriteIn natEntry
      .ok (handling.touch head found now)
  else
    let head := hash8 d.addresses.daddr
    let found := matchesInternal d.addresses.saddr d.addresses.sport
    match (handling.nat.natMappingList head).find? found with
    | none =>
      match insertNatEntry longestPrefixMatch handling.nat d.addresses.saddr d.addresses.sport
          d.addresses.daddr head with
      | none => .error .nullEntry
      | some (natEntry, nat) =>
        let handling ← { handling with nat := nat }.rewriteOut natEntry
        .ok (handling.touch head found now)
    | some natEntry =>
      let handling ← handling.rewriteOut natEntry
      .ok (handling.touch head found now)

def natTranslatePacket (now : Int) (handling : Handling) : Except Fault Handling := do
  let dir ← getPacketDirection longestPrefixMatch ifaces handling
  if dir = .dirInvalid then
    let handling ← handling.icmpSendPacket
    handling.free
  else
    let ip ← handling.packet
    if ip.protocol ≠ IPPROTO_TCP then handling.free
    else
      let handling ← translateBranch longestPrefixMatch dir now handling
      handling.ipSendPacket

end Translation

/-- A packet as it is handed to `nat_translate_packet`. -/
def receive (nat : NatTable) (d : Datagram) : Handling :=
  { nat := nat, buffer := some d, freed := 0, sent := [] }

structure Rewritten (d : Datagram) (m : NatMapping) (p : Datagram) : Prop where
  rest : p = { d with addresses := p.addresses, ipSum := p.ipSum, tcpSum := p.tcpSum }
  addresses :
    m.external = (d.addresses.daddr, d.addresses.dport) ∧
        p.addresses = { d.addresses with daddr := m.internalIp, dport := m.internalPort } ∨
      m.internal = (d.addresses.saddr, d.addresses.sport) ∧
        p.addresses = { d.addresses with saddr := m.externalIp, sport := m.externalPort }
  ipSum : p.ipChecksum = some p.ipSum
  tcpSum : p.tcpChecksum = some p.tcpSum

/-- The buffer was freed once, or it was sent once, rewritten through a mapping of the
table; there was no fault on the way. -/
def Disposed (d : Datagram) (result : Except Fault Handling) : Prop :=
  ∃ final, result = .ok final ∧ final.buffer = none ∧
    (final.freed = 1 ∧ final.sent = [] ∨
      final.freed = 0 ∧ ∃ p m, final.sent = [p] ∧ final.nat.natMappingList.Member m ∧
        Rewritten d m p)

/-- The source has a route; where this goes to the inside the destination has one; and a TCP
packet from outside to the NAT finds its mapping. -/
def CanDispose (longestPrefixMatch : UInt32 → Option RtEntry) (ifaces : NatInterfaces)
    (nat : NatTable) (d : Datagram) : Prop :=
  ∃ src, longestPrefixMatch d.addresses.saddr = some src ∧
    (src.iface.index = ifaces.internal.index →
      ∃ dest, longestPrefixMatch d.addresses.daddr = some dest) ∧
    (src.iface.index = ifaces.external.index → d.addresses.daddr = ifaces.external.ip →
      d.protocol = IPPROTO_TCP →
        ∃ m ∈ nat.natMappingList (hash8 d.addresses.saddr),
          m.external = (d.addresses.daddr, d.addresses.dport))

/-! ## The checksums -/

namespace Datagram

variable (d : Datagram)

theorem length_ipHeader : d.ipHeader.length = 20 + d.options.length := by
  simp [ipHeader, bytes16, bytes32]
  omega

theorem exists_ipChecksum : ∃ sum, d.ipChecksum = some sum := by
  apply (exists_checksum_iff d.ipHeader 0 d.ipHdrSize 0).mpr
  rw [d.length_ipHeader, ipHdrSize, d.hdrSize]
  omega

theorem exists_tcpChecksum (tcp : d.protocol = IPPROTO_TCP) : ∃ sum, d.tcpChecksum = some sum := by
  obtain ⟨middle, notNegative, inside⟩ := d.complete tcp
  have header := d.hdrSize
  have length : d.tcpSegment.length = 18 + d.behindSum.length := by
    simp [tcpSegment, bytes16, middle]
    omega
  have small := d.totLen.toNat_lt
  have tcpLen : (UInt16.ofInt (d.totLen.toNat - d.ipHdrSize)).toNat =
      d.totLen.toNat - d.ipHdrSize := by
    simp only [UInt16.ofInt, UInt16.toNat_ofNat']
    rw [ipHdrSize]
    omega
  refine (exists_checksum_iff _ _ _ _).mpr (.inr ?_)
  rw [length, tcpLen, ipHdrSize]
  omega

end Datagram

/-! ## The rewriting -/

section Rewriting

variable {handling : Handling} {d : Datagram}

theorem store_ok {change : Datagram → Option Datagram} {changed : Datagram}
    (held : handling.buffer = some d) (stored : change d = some changed) :
    handling.store change = .ok { handling with buffer := some changed } := by
  simp [Handling.store, Handling.packet, held, stored, bind, Except.bind]

theorem storeIpChecksum_ok {sum : UInt16} (held : handling.buffer = some d)
    (summed : d.ipChecksum = some sum) :
    handling.storeIpChecksum =
      .ok { handling with buffer := some { d with ipSum := sum } } :=
  store_ok held (by rw [summed, Option.map_some])

theorem storeTcpChecksum_ok {sum : UInt16} (held : handling.buffer = some d)
    (summed : d.tcpChecksum = some sum) :
    handling.storeTcpChecksum =
      .ok { handling with buffer := some { d with tcpSum := sum } } :=
  store_ok held (by rw [summed, Option.map_some])

theorem readdress_ok (change : Packet → Packet) (held : handling.buffer = some d) :
    handling.readdress change = .ok { handling with buffer := some (d.readdress change) } :=
  store_ok held rfl

theorem rewrite_spec (address port : Packet → Packet) (held : handling.buffer = some d)
    (tcp : d.protocol = IPPROTO_TCP) :
    ∃ p, handling.rewrite address port = .ok { handling with buffer := some p } ∧
      p.addresses = port (address d.addresses) ∧
      p = { d with addresses := p.addresses, ipSum := p.ipSum, tcpSum := p.tcpSum } ∧
      ((d.readdress address).ipChecksum = some p.ipSum ∧ p.tcpChecksum = some p.tcpSum) := by
  obtain ⟨ipSum, isIpSum⟩ := (d.readdress address).exists_ipChecksum
  let summed : Datagram := { d.readdress address with ipSum := ipSum }
  obtain ⟨tcpSum, isTcpSum⟩ := (summed.readdress port).exists_tcpChecksum tcp
  refine ⟨{ summed.readdress port with tcpSum := tcpSum }, ?_, rfl, rfl, isIpSum, isTcpSum⟩
  calc handling.rewrite address port
      = Handling.storeIpChecksum { handling with buffer := some (d.readdress address) } >>=
          fun handling => handling.readdress port >>= Handling.storeTcpChecksum := by
        rw [Handling.rewrite, readdress_ok address held]
        rfl
    _ = Handling.readdress port { handling with buffer := some summed } >>=
          Handling.storeTcpChecksum := by
        rw [storeIpChecksum_ok rfl isIpSum]
        rfl
    _ = Handling.storeTcpChecksum { handling with buffer := some (summed.readdress port) } := by
        rw [readdress_ok port rfl]
        rfl
    _ = _ := storeTcpChecksum_ok rfl isTcpSum

theorem rewriteIn_spec (held : handling.buffer = some d) (tcp : d.protocol = IPPROTO_TCP)
    {m : NatMapping} (maps : m.external = (d.addresses.daddr, d.addresses.dport)) :
    ∃ p, handling.rewriteIn m = .ok { handling with buffer := some p } ∧
      p.addresses = { d.addresses with daddr := m.internalIp, dport := m.internalPort } ∧
      Rewritten d m p := by
  obtain ⟨p, rewritten, addresses, rest, ipSum, tcpSum⟩ := rewrite_spec _ _ held tcp
  refine ⟨p, rewritten, addresses, rest, .inl ⟨maps, addresses⟩, ?_, tcpSum⟩
  rw [← ipSum, Datagram.ipChecksum, Datagram.ipHeader, addresses, rest]
  rfl

theorem rewriteOut_spec (held : handling.buffer = some d) (tcp : d.protocol = IPPROTO_TCP)
    {m : NatMapping} (maps : m.internal = (d.addresses.saddr, d.addresses.sport)) :
    ∃ p, handling.rewriteOut m = .ok { handling with buffer := some p } ∧
      p.addresses = { d.addresses with saddr := m.externalIp, sport := m.externalPort } ∧
      Rewritten d m p := by
  obtain ⟨p, rewritten, addresses, rest, ipSum, tcpSum⟩ := rewrite_spec _ _ held tcp
  refine ⟨p, rewritten, addresses, rest, .inr ⟨maps, addresses⟩, ?_, tcpSum⟩
  rw [← ipSum, Datagram.ipChecksum, Datagram.ipHeader, addresses, rest]
  rfl

end Rewriting

/-! ## The ways through `nat_translate_packet` -/

section Ways

variable {longestPrefixMatch : UInt32 → Option RtEntry} {ifaces : NatInterfaces}
variable {nat : NatTable} {d : Datagram} {now : Int}

theorem direction_unrouted (unrouted : longestPrefixMatch d.addresses.saddr = none) :
    getPacketDirection longestPrefixMatch ifaces (receive nat d) = .error .nullEntry := by
  simp [getPacketDirection, Handling.packet, receive, RtEntry.follow, unrouted, bind, Except.bind]

section Routed

variable {src : RtEntry} (routed : longestPrefixMatch d.addresses.saddr = some src)

include routed

theorem direction_inside_unrouted (inside : src.iface.index = ifaces.internal.index)
    (unrouted : longestPrefixMatch d.addresses.daddr = none) :
    getPacketDirection longestPrefixMatch ifaces (receive nat d) = .error .nullEntry := by
  simp [getPacketDirection, Handling.packet, receive, RtEntry.follow, routed, inside, unrouted,
    bind, Except.bind]

theorem direction_inside {dest : RtEntry} (inside : src.iface.index = ifaces.internal.index)
    (reached : longestPrefixMatch d.addresses.daddr = some dest) :
    getPacketDirection longestPrefixMatch ifaces (receive nat d) =
      .ok (if dest.iface.index = ifaces.external.index then .dirOut else .dirInvalid) := by
  have apart := ifaces.apart
  by_cases outward : dest.iface.index = ifaces.external.index
  · simp [getPacketDirection, Handling.packet, receive, RtEntry.follow, routed, inside, reached,
      outward, bind, Except.bind]
  · simp [getPacketDirection, Handling.packet, receive, RtEntry.follow, routed, inside, reached,
      outward, apart, bind, Except.bind]

theorem direction_elsewhere (elsewhere : src.iface.index ≠ ifaces.internal.index) :
    getPacketDirection longestPrefixMatch ifaces (receive nat d) =
      .ok (if src.iface.index = ifaces.external.index ∧ d.addresses.daddr = ifaces.external.ip
        then .dirIn else .dirInvalid) := by
  by_cases inward : src.iface.index = ifaces.external.index ∧
      d.addresses.daddr = ifaces.external.ip
  · simp [getPacketDirection, Handling.packet, receive, RtEntry.follow, routed, inward,
      ifaces.apart.symm, bind, Except.bind]
  · simp [getPacketDirection, Handling.packet, receive, RtEntry.follow, routed, elsewhere, inward,
      bind, Except.bind]

end Routed

theorem not_disposed_of_error {fault : Fault} : ¬ Disposed d (.error fault) := by
  intro disposed
  obtain ⟨final, done, -⟩ := disposed
  cases done

theorem not_disposed_of_direction {fault : Fault}
    (heading : getPacketDirection longestPrefixMatch ifaces (receive nat d) = .error fault) :
    ¬ Disposed d (natTranslatePacket longestPrefixMatch ifaces now (receive nat d)) := by
  rw [natTranslatePacket, heading]
  exact not_disposed_of_error

theorem disposed_of_invalid
    (heading : getPacketDirection longestPrefixMatch ifaces (receive nat d) = .ok .dirInvalid) :
    Disposed d (natTranslatePacket longestPrefixMatch ifaces now (receive nat d)) := by
  rw [natTranslatePacket, heading]
  exact ⟨_, rfl, rfl, .inl ⟨rfl, rfl⟩⟩

/-- The branch rewrites the packet through a mapping, and leaves the table that
`doTranslation` leaves. -/
def ThroughMapping (longestPrefixMatch : UInt32 → Option RtEntry) (dir : PacketDir) (now : Int)
    (nat : NatTable) (d : Datagram) : Prop :=
  ∃ after p m, translateBranch longestPrefixMatch dir now (receive nat d) =
      .ok { nat := after, buffer := some p, freed := 0, sent := [] } ∧
    doTranslation longestPrefixMatch nat d.addresses dir now =
      some (after, [.ipSendPacket p.addresses]) ∧
    after.natMappingList.Member m ∧ Rewritten d m p

section Valid

variable {dir : PacketDir} (valid : dir ≠ .dirInvalid)
variable (heading : getPacketDirection longestPrefixMatch ifaces (receive nat d) = .ok dir)

include valid heading

theorem disposed_of_not_tcp (other : d.protocol ≠ IPPROTO_TCP) :
    Disposed d (natTranslatePacket longestPrefixMatch ifaces now (receive nat d)) := by
  refine ⟨{ nat := nat, buffer := none, freed := 1, sent := [] }, ?_, rfl, .inl ⟨rfl, rfl⟩⟩
  rw [natTranslatePacket, heading]
  change (if dir = .dirInvalid then _ else _) = _
  rw [if_neg valid]
  change (if d.protocol ≠ IPPROTO_TCP then _ else _) = _
  rw [if_pos other]
  rfl

/-- A TCP packet with a direction comes to the call behind the branches. -/
theorem natTranslatePacket_of_tcp (tcp : d.protocol = IPPROTO_TCP) :
    natTranslatePacket longestPrefixMatch ifaces now (receive nat d) =
      translateBranch longestPrefixMatch dir now (receive nat d) >>= Handling.ipSendPacket := by
  rw [natTranslatePacket, heading]
  change (if dir = .dirInvalid then _ else _) = _
  rw [if_neg valid]
  change (if d.protocol ≠ IPPROTO_TCP then _ else _) = _
  rw [if_neg (not_not.mpr tcp)]

/-- What a branch has rewritten through a mapping of the table is sent. -/
theorem disposed_of_through (tcp : d.protocol = IPPROTO_TCP)
    (through : ThroughMapping longestPrefixMatch dir now nat d) :
    Disposed d (natTranslatePacket longestPrefixMatch ifaces now (receive nat d)) := by
  obtain ⟨after, p, m, branch, -, member, rewritten⟩ := through
  refine ⟨{ nat := after, buffer := none, freed := 0, sent := [p] }, ?_, rfl,
    .inr ⟨rfl, p, m, rfl, member, rewritten⟩⟩
  rw [natTranslatePacket_of_tcp valid heading tcp, branch]
  rfl

end Valid

theorem touched_member {b : UInt8} {p : NatMapping → Bool} {m : NatMapping}
    (found : (nat.natMappingList b).find? p = some m) :
    (nat.touchFirst b p now).natMappingList.Member (m.touch now) := by
  use b
  change _ ∈ Function.update nat.natMappingList b _ b
  rw [Function.update_self]
  exact changed_mem_updateFirst _ found

theorem Rewritten.touch {m : NatMapping} {p : Datagram} (rewritten : Rewritten d m p) :
    Rewritten d (m.touch now) p where
  rest := rewritten.rest
  addresses := rewritten.addresses
  ipSum := rewritten.ipSum
  tcpSum := rewritten.tcpSum

section Branches

theorem inbound_mapped (tcp : d.protocol = IPPROTO_TCP) {m : NatMapping}
    (found : (nat.natMappingList (hash8 d.addresses.saddr)).find?
      (matchesExternal d.addresses.daddr d.addresses.dport) = some m) :
    ThroughMapping longestPrefixMatch .dirIn now nat d := by
  have maps := matchesExternal_iff.mp (List.find?_some found)
  have held : (receive nat d).buffer = some d := rfl
  obtain ⟨p, stored, addresses, rewritten⟩ := rewriteIn_spec held tcp maps
  refine ⟨nat.touchFirst (hash8 d.addresses.saddr) _ now, p, m.touch now, ?_, ?_,
    touched_member found, rewritten.touch⟩
  · simp only [translateBranch, Handling.packet, receive, if_pos, found, bind, Except.bind]
    rw [receive] at stored
    rw [stored]
    rfl
  · simp only [doTranslation, if_pos, found, addresses]

theorem inbound_unmapped
    (unmapped : (nat.natMappingList (hash8 d.addresses.saddr)).find?
      (matchesExternal d.addresses.daddr d.addresses.dport) = none) :
    translateBranch longestPrefixMatch .dirIn now (receive nat d) =
      .ok { nat := nat, buffer := none, freed := 1, sent := [] } := by
  simp only [translateBranch, Handling.packet, receive, if_pos, unmapped, bind, Except.bind]
  rfl

theorem outbound_mapped (tcp : d.protocol = IPPROTO_TCP) {m : NatMapping}
    (found : (nat.natMappingList (hash8 d.addresses.daddr)).find?
      (matchesInternal d.addresses.saddr d.addresses.sport) = some m) :
    ThroughMapping longestPrefixMatch .dirOut now nat d := by
  have maps := matchesInternal_iff.mp (List.find?_some found)
  have held : (receive nat d).buffer = some d := rfl
  obtain ⟨p, stored, addresses, rewritten⟩ := rewriteOut_spec held tcp maps
  refine ⟨nat.touchFirst (hash8 d.addresses.daddr) _ now, p, m.touch now, ?_, ?_,
    touched_member found, rewritten.touch⟩
  · simp only [translateBranch, Handling.packet, receive, if_neg dirOut_ne_dirIn, found, bind,
      Except.bind]
    rw [receive] at stored
    rw [stored]
    rfl
  · simp only [doTranslation, if_neg dirOut_ne_dirIn, found, addresses]

theorem outbound_unmapped (tcp : d.protocol = IPPROTO_TCP) {dest : RtEntry}
    (reached : longestPrefixMatch d.addresses.daddr = some dest)
    (unmapped : Unmapped nat d.addresses) :
    ThroughMapping longestPrefixMatch .dirOut now nat d := by
  let m := newMapping nat d.addresses dest
  have found := @find?_grow nat d.addresses dest unmapped
  have inserted : insertNatEntry longestPrefixMatch nat d.addresses.saddr d.addresses.sport
      d.addresses.daddr (hash8 d.addresses.daddr) = some (m, nat.grow d.addresses dest) := by
    rw [insertNatEntry, reached]
    rfl
  have maps : m.internal = (d.addresses.saddr, d.addresses.sport) := rfl
  have held : (receive (nat.grow d.addresses dest) d).buffer = some d := rfl
  obtain ⟨p, stored, addresses, rewritten⟩ := rewriteOut_spec held tcp maps
  refine ⟨(nat.grow d.addresses dest).touchFirst (hash8 d.addresses.daddr) _ now, p, m.touch now,
    ?_, ?_, touched_member found, rewritten.touch⟩
  · unfold Unmapped at unmapped
    simp only [translateBranch, Handling.packet, receive, if_neg dirOut_ne_dirIn, unmapped,
      inserted, bind, Except.bind]
    rw [receive] at stored
    rw [stored]
    rfl
  · rw [doTranslation_unmapped now dirOut_ne_dirIn unmapped reached, addresses]
    rfl

end Branches

theorem disposed_outbound
    (heading : getPacketDirection longestPrefixMatch ifaces (receive nat d) = .ok .dirOut)
    (tcp : d.protocol = IPPROTO_TCP) {dest : RtEntry}
    (reached : longestPrefixMatch d.addresses.daddr = some dest) :
    Disposed d (natTranslatePacket longestPrefixMatch ifaces now (receive nat d)) := by
  have valid : PacketDir.dirOut ≠ .dirInvalid := by decide
  cases found : (nat.natMappingList (hash8 d.addresses.daddr)).find?
      (matchesInternal d.addresses.saddr d.addresses.sport) with
  | none =>
      exact disposed_of_through valid heading tcp (outbound_unmapped tcp reached found)
  | some m => exact disposed_of_through valid heading tcp (outbound_mapped tcp found)

theorem disposed_inbound_iff
    (heading : getPacketDirection longestPrefixMatch ifaces (receive nat d) = .ok .dirIn)
    (tcp : d.protocol = IPPROTO_TCP) :
    Disposed d (natTranslatePacket longestPrefixMatch ifaces now (receive nat d)) ↔
      ∃ m ∈ nat.natMappingList (hash8 d.addresses.saddr),
        m.external = (d.addresses.daddr, d.addresses.dport) := by
  have valid : PacketDir.dirIn ≠ .dirInvalid := by decide
  cases found : (nat.natMappingList (hash8 d.addresses.saddr)).find?
      (matchesExternal d.addresses.daddr d.addresses.dport) with
  | none =>
      -- the branch has freed the packet that is sent behind it
      have absent := List.find?_eq_none.mp found
      rw [natTranslatePacket_of_tcp valid heading tcp, inbound_unmapped found]
      apply iff_of_false not_disposed_of_error
      intro mapped
      obtain ⟨m, member, maps⟩ := mapped
      exact absent m member (matchesExternal_iff.mpr maps)
  | some m =>
      apply iff_of_true (disposed_of_through valid heading tcp (inbound_mapped tcp found))
      exact ⟨m, List.mem_of_find?_eq_some found, matchesExternal_iff.mp (List.find?_some found)⟩

/-- A packet from the inside needs a route to its destination, and no more. -/
theorem disposed_inside_iff {src : RtEntry}
    (routed : longestPrefixMatch d.addresses.saddr = some src)
    (inside : src.iface.index = ifaces.internal.index) :
    Disposed d (natTranslatePacket longestPrefixMatch ifaces now (receive nat d)) ↔
      ∃ dest, longestPrefixMatch d.addresses.daddr = some dest := by
  cases reached : longestPrefixMatch d.addresses.daddr with
  | none =>
      apply iff_of_false
      · exact not_disposed_of_direction (direction_inside_unrouted routed inside reached)
      · simp
  | some dest =>
      apply iff_of_true _ ⟨dest, rfl⟩
      have heading := @direction_inside _ ifaces nat d src routed dest inside reached
      split_ifs at heading with outward
      · by_cases tcp : d.protocol = IPPROTO_TCP
        · exact disposed_outbound heading tcp reached
        · exact disposed_of_not_tcp (by decide) heading tcp
      · exact disposed_of_invalid heading

/-- Any other packet needs a mapping where it is a TCP packet from outside to the NAT. -/
theorem disposed_elsewhere_iff {src : RtEntry}
    (routed : longestPrefixMatch d.addresses.saddr = some src)
    (elsewhere : src.iface.index ≠ ifaces.internal.index) :
    Disposed d (natTranslatePacket longestPrefixMatch ifaces now (receive nat d)) ↔
      (src.iface.index = ifaces.external.index → d.addresses.daddr = ifaces.external.ip →
        d.protocol = IPPROTO_TCP →
          ∃ m ∈ nat.natMappingList (hash8 d.addresses.saddr),
            m.external = (d.addresses.daddr, d.addresses.dport)) := by
  have heading := @direction_elsewhere _ ifaces nat d src routed elsewhere
  split_ifs at heading with inward
  · by_cases tcp : d.protocol = IPPROTO_TCP
    · rw [disposed_inbound_iff heading tcp]
      exact ⟨fun mapped _ _ _ => mapped, fun mapped => mapped inward.1 inward.2 tcp⟩
    · apply iff_of_true (disposed_of_not_tcp (by decide) heading tcp)
      exact fun _ _ isTcp => absurd isTcp tcp
  · apply iff_of_true (disposed_of_invalid heading)
    exact fun outside toNat => absurd ⟨outside, toNat⟩ inward

end Ways

/-- What becomes of a packet, for every routing table, NAT table and packet. -/
theorem nat_disposes_iff (longestPrefixMatch : UInt32 → Option RtEntry) (ifaces : NatInterfaces)
    (nat : NatTable) (d : Datagram) (now : Int) :
    Disposed d (natTranslatePacket longestPrefixMatch ifaces now (receive nat d)) ↔
      CanDispose longestPrefixMatch ifaces nat d := by
  unfold CanDispose
  cases routed : longestPrefixMatch d.addresses.saddr with
  | none =>
      apply iff_of_false (not_disposed_of_direction (direction_unrouted routed))
      simp
  | some src =>
      simp only [Option.some.injEq, exists_eq_left']
      by_cases inside : src.iface.index = ifaces.internal.index
      · rw [disposed_inside_iff routed inside]
        simp [inside, ifaces.apart]
      · rw [disposed_elsewhere_iff routed inside]
        simp [inside]

section UnknownFlow

def natIfaces : NatInterfaces where
  internal := { index := 0, ip := 0x0A150001 }
  external := { index := 1, ip := 0x9FE2270B }
  apart := Nat.zero_ne_one

def unknownSegment : Datagram where
  versionIhl := 0x45
  tos := 0
  totLen := 40
  id := 0
  fragOff := 0
  ttl := 64
  protocol := IPPROTO_TCP
  ipSum := 0
  addresses := { saddr := 0x9FE22701, daddr := 0x9FE2270B, sport := 8000, dport := 12345 }
  options := []
  seqToWindow := [0, 0, 0, 1, 0, 0, 0, 0, 0x50, 2, 0xFF, 0xFF]
  tcpSum := 0
  behindSum := [0, 0]
  hdrSize := rfl
  complete := fun _ => ⟨rfl, Nat.le_of_ble_eq_true rfl, Nat.le_of_ble_eq_true rfl⟩

/-- The packet that finds no mapping is freed, and then handed to `ip_send_packet`. -/
theorem unknown_segment_sent_after_free :
    natTranslatePacket (fun _ => some { iface := natIfaces.external }) natIfaces 0
        (receive natTableInit unknownSegment) = .error .bufferGone ∧
      ¬ Disposed unknownSegment
        (natTranslatePacket (fun _ => some { iface := natIfaces.external }) natIfaces 0
          (receive natTableInit unknownSegment)) := by
  have fault : natTranslatePacket (fun _ => some { iface := natIfaces.external }) natIfaces 0
      (receive natTableInit unknownSegment) = .error .bufferGone := rfl
  refine ⟨fault, ?_⟩
  rw [fault]
  exact not_disposed_of_error

end UnknownFlow

end NetworkLab.AddressTranslation
