import NetworkLab.ArpCache.Insertion
import NetworkLab.Lib.Bytes

/-!
# ARP messages

`arp.c` of `12-mospf` and `17-tcp_stack`: the bytes of requests and replies, what
`handle_arp_packet` does with them, and `iface_send_packet_by_arp` up to the call that it ends
with.
-/
set_option autoImplicit false

namespace NetworkLab.ArpCache

open Lib.Bytes

def ETHER_HDR_SIZE : Nat := 14

def ETH_P_IP : UInt16 := 0x0800
def ETH_P_ARP : UInt16 := 0x0806

def ARPHRD_ETHER : UInt16 := 1
def ARPOP_REQUEST : UInt16 := 1
def ARPOP_REPLY : UInt16 := 2

def ETHER_SHOST : Nat := ETH_ALEN
def ETHER_TYPE : Nat := ETH_ALEN + ETH_ALEN

def ARP_OP : Nat := ETHER_HDR_SIZE + 6
def ARP_SHA : Nat := ETHER_HDR_SIZE + 8
def ARP_SPA : Nat := ETHER_HDR_SIZE + 14
def ARP_TPA : Nat := ETHER_HDR_SIZE + 24

def bcMac : Mac := Vector.replicate ETH_ALEN 255

structure Interface extends IfaceInfo where
  ip : UInt32
deriving DecidableEq

structure EtherArp where
  op : UInt16
  sha : Mac
  spa : UInt32
  tha : Mac
  tpa : UInt32

def EtherArp.bytes (arp : EtherArp) : List UInt8 :=
  bytes16 ARPHRD_ETHER ++ (bytes16 ETH_P_IP ++ ([UInt8.ofNat ETH_ALEN, 4] ++ (bytes16 arp.op ++
    (arp.sha.toList ++ (bytes32 arp.spa ++ (arp.tha.toList ++ bytes32 arp.tpa))))))

def etherHeader (dhost shost : Mac) (type : UInt16) : List UInt8 :=
  dhost.toList ++ (shost.toList ++ bytes16 type)

def readMac (packet : List UInt8) (offset : Nat) : Option Mac :=
  if inside : ((packet.drop offset).take ETH_ALEN).length = ETH_ALEN then
    some ⟨((packet.drop offset).take ETH_ALEN).toArray, inside⟩
  else none

def arpSendRequest (iface : Interface) (dstIp : UInt32) : List UInt8 :=
  etherHeader bcMac iface.mac ETH_P_ARP ++ EtherArp.bytes
    { op := ARPOP_REQUEST, sha := iface.mac, spa := iface.ip, tha := zeroMac, tpa := dstIp }

def arpSendReply (iface : Interface) (request : List UInt8) : Option (List UInt8) := do
  let sha ← readMac request ARP_SHA
  let spa ← read32 request ARP_SPA
  some (etherHeader sha iface.mac ETH_P_ARP ++ EtherArp.bytes
    { op := ARPOP_REPLY, sha := iface.mac, spa := iface.ip, tha := sha, tpa := spa })

def handleArpPacket (now : Int) (rand : Nat) (iface : Interface) (packet : List UInt8)
    (cache : Cache) : Option (List (List UInt8) × Outcome) := do
  let srcIp ← read32 packet ARP_SPA
  let dstIp ← read32 packet ARP_TPA
  let op ← read16 packet ARP_OP
  if op = ARPOP_REQUEST then
    if iface.ip = dstIp then
      let reply ← arpSendReply iface packet
      let sha ← readMac packet ARP_SHA
      some ([reply], arpcacheInsert now srcIp sha rand cache)
    else some ([], ⟨cache, [], []⟩)
  else if op = ARPOP_REPLY then
    if iface.ip = dstIp then
      let sha ← readMac packet ARP_SHA
      some ([], arpcacheInsert now srcIp sha rand cache)
    else some ([], ⟨cache, [], []⟩)
  else some ([], ⟨cache, [], []⟩)

inductive ByArp where
  | ifaceSendPacket (frame : List UInt8)
  | arpcacheAppendPacket (packet : List UInt8)

def ifaceSendPacketByArp (iface : Interface) (dstIp : UInt32) (packet : List UInt8)
    (cache : Cache) : Option ByArp := do
  let packet ← write packet ETHER_SHOST iface.mac.toList
  let packet ← write packet ETHER_TYPE (bytes16 ETH_P_IP)
  match arpcacheLookup dstIp cache with
  | some dstMac => (write packet 0 dstMac.toList).map .ifaceSendPacket
  | none => some (.arpcacheAppendPacket packet)

/-! ## What the fields are read as -/

section Read

theorem length_mac (mac : Mac) : mac.toList.length = 6 := Vector.length_toList

theorem length_etherHeader (dhost shost : Mac) (type : UInt16) :
    (etherHeader dhost shost type).length = ETHER_HDR_SIZE := by
  simp only [etherHeader, List.length_append, length_mac, length_bytes16]
  rfl

theorem readMac_behind (front rest : List UInt8) (mac : Mac) {offset : Nat}
    (place : front.length = offset) :
    readMac (front ++ (mac.toList ++ rest)) offset = some mac := by
  have bytes : ((front ++ (mac.toList ++ rest)).drop offset).take ETH_ALEN = mac.toList := by
    rw [← place, List.drop_left]
    exact List.take_left' (length_mac mac)
  unfold readMac
  simp only [bytes]
  rw [dif_pos (show mac.toList.length = ETH_ALEN from length_mac mac)]
  exact congrArg some (Vector.toList_inj.mp rfl)

variable (header : List UInt8) (place : header.length = ETHER_HDR_SIZE) (arp : EtherArp)

include place

theorem read16_arpOp : read16 (header ++ arp.bytes) ARP_OP = some arp.op := by
  rw [ARP_OP, read16_behind _ _ _ place]
  exact congrArg some (join16 arp.op)

theorem readMac_arpSha : readMac (header ++ arp.bytes) ARP_SHA = some arp.sha := by
  have front : (header ++ (bytes16 ARPHRD_ETHER ++ (bytes16 ETH_P_IP ++ ([UInt8.ofNat ETH_ALEN, 4] ++
      bytes16 arp.op)))).length = ARP_SHA := by
    rw [List.length_append, place]
    rfl
  rw [← readMac_behind _ (bytes32 arp.spa ++ (arp.tha.toList ++ bytes32 arp.tpa)) arp.sha front]
  simp only [EtherArp.bytes, List.append_assoc]

theorem read32_arpSpa : read32 (header ++ arp.bytes) ARP_SPA = some arp.spa := by
  have front : (header ++ (bytes16 ARPHRD_ETHER ++ (bytes16 ETH_P_IP ++ ([UInt8.ofNat ETH_ALEN, 4] ++
      (bytes16 arp.op ++ arp.sha.toList))))).length = ARP_SPA := by
    simp only [List.length_append, place, length_mac, length_bytes16]
    rfl
  rw [← read32_bytes32 arp.spa (arp.tha.toList ++ bytes32 arp.tpa),
    ← read32_behind _ _ 0 front]
  simp only [EtherArp.bytes, List.append_assoc, Nat.add_zero]

theorem read32_arpTpa : read32 (header ++ arp.bytes) ARP_TPA = some arp.tpa := by
  have front : (header ++ (bytes16 ARPHRD_ETHER ++ (bytes16 ETH_P_IP ++ ([UInt8.ofNat ETH_ALEN, 4] ++
      (bytes16 arp.op ++ (arp.sha.toList ++ (bytes32 arp.spa ++ arp.tha.toList))))))).length =
      ARP_TPA := by
    simp only [List.length_append, place, length_mac, length_bytes16, length_bytes32]
    rfl
  rw [← read32_bytes32 arp.tpa [], ← read32_behind _ _ 0 front]
  simp only [EtherArp.bytes, List.append_assoc, Nat.add_zero, List.append_nil]

end Read

theorem read16_etherType (dhost shost : Mac) (type : UInt16) (rest : List UInt8) :
    read16 (etherHeader dhost shost type ++ rest) ETHER_TYPE = some type := by
  have front : (dhost.toList ++ shost.toList).length = ETHER_TYPE := by
    rw [List.length_append, length_mac, length_mac]
    rfl
  have same : read16 (bytes16 type ++ rest) 0 = some type := congrArg some (join16 type)
  rw [← same, ← read16_behind _ _ 0 front]
  simp only [etherHeader, List.append_assoc, Nat.add_zero]

theorem readMac_etherDhost (dhost shost : Mac) (type : UInt16) (rest : List UInt8) :
    readMac (etherHeader dhost shost type ++ rest) 0 = some dhost := by
  rw [etherHeader, List.append_assoc]
  exact readMac_behind [] _ dhost rfl

/-! ## Handling -/

section Handle

variable (now : Int) (rand : Nat) (iface : Interface) (dhost shost : Mac) (cache : Cache)

/-- A request for the interface is answered, and teaches its sender's address. -/
theorem handleArpPacket_request (sha tha : Mac) (spa tpa : UInt32) :
    handleArpPacket now rand iface
      (etherHeader dhost shost ETH_P_ARP ++ EtherArp.bytes ⟨ARPOP_REQUEST, sha, spa, tha, tpa⟩) cache =
    some (if iface.ip = tpa then
      ([etherHeader sha iface.mac ETH_P_ARP ++
          EtherArp.bytes ⟨ARPOP_REPLY, iface.mac, iface.ip, sha, spa⟩],
        arpcacheInsert now spa sha rand cache)
      else ([], ⟨cache, [], []⟩)) := by
  have place := length_etherHeader dhost shost ETH_P_ARP
  simp only [handleArpPacket, arpSendReply, Option.bind_eq_bind, read32_arpSpa _ place,
    read32_arpTpa _ place, read16_arpOp _ place, readMac_arpSha _ place, Option.bind_some]
  split_ifs <;> rfl

theorem handleArpPacket_reply (sha tha : Mac) (spa tpa : UInt32) :
    handleArpPacket now rand iface
      (etherHeader dhost shost ETH_P_ARP ++ EtherArp.bytes ⟨ARPOP_REPLY, sha, spa, tha, tpa⟩) cache =
    some ([], if iface.ip = tpa then arpcacheInsert now spa sha rand cache
      else ⟨cache, [], []⟩) := by
  have place := length_etherHeader dhost shost ETH_P_ARP
  have other : ARPOP_REPLY ≠ ARPOP_REQUEST := by decide
  simp only [handleArpPacket, Option.bind_eq_bind, read32_arpSpa _ place, read32_arpTpa _ place,
    read16_arpOp _ place, readMac_arpSha _ place, Option.bind_some, other, if_false]
  split_ifs <;> rfl

end Handle

/-! ## The frame that a packet becomes -/

def ipFrame (dstMac srcMac : Mac) (packet : List UInt8) : List UInt8 :=
  etherHeader dstMac srcMac ETH_P_IP ++ packet.drop ETHER_HDR_SIZE

/-- Both ways of `iface_send_packet_by_arp` make the same frame: at once, or when
`arpcache_insert` fills in the header of the pending packet. -/
theorem ifaceSendPacketByArp_frame {iface : Interface} {dstIp : UInt32} {packet : List UInt8}
    {cache : Cache} {call : ByArp}
    (success : ifaceSendPacketByArp iface dstIp packet cache = some call) :
    match arpcacheLookup dstIp cache with
    | some dstMac => call = .ifaceSendPacket (ipFrame dstMac iface.mac packet)
    | none => ∃ pending, call = .arpcacheAppendPacket pending ∧
        ∀ mac, fillHeader mac iface.mac pending = ipFrame mac iface.mac packet := by
  simp only [ifaceSendPacketByArp, Option.bind_eq_bind, Option.bind_eq_some_iff] at success
  obtain ⟨sourced, shost, typed, type, success⟩ := success
  obtain ⟨old, behind, rfl, size⟩ : ∃ old behind, packet = old ++ behind ∧
      old.length = ETHER_HDR_SIZE := by
    have inside := (exists_write_iff _ _ _).mp ⟨_, type⟩
    rw [length_write shost] at inside
    exact exists_cut packet ETHER_HDR_SIZE inside
  obtain ⟨dhost, rest, rfl, dhostSize⟩ := exists_cut old ETH_ALEN (by rw [size]; decide)
  obtain ⟨source, oldType, rfl, sourceSize⟩ := exists_cut rest ETH_ALEN (by
    rw [List.length_append, dhostSize] at size
    simp only [ETH_ALEN, ETHER_HDR_SIZE] at size ⊢
    omega)
  have typeSize : oldType.length = (bytes16 ETH_P_IP).length := by
    rw [List.length_append, List.length_append, dhostSize, sourceSize] at size
    simp only [ETH_ALEN, ETHER_HDR_SIZE, length_bytes16] at size ⊢
    omega
  have isSourced : sourced = dhost ++ (iface.mac.toList ++ (oldType ++ behind)) := by
    have written := write_append dhost source iface.mac.toList (oldType ++ behind) ETHER_SHOST
      dhostSize (sourceSize.trans (length_mac iface.mac).symm)
    rw [← List.append_assoc source, ← List.append_assoc dhost, shost] at written
    exact Option.some.inj written
  have isTyped : typed = dhost ++ (iface.mac.toList ++ (bytes16 ETH_P_IP ++ behind)) := by
    have written := write_append (dhost ++ iface.mac.toList) oldType (bytes16 ETH_P_IP) behind
      ETHER_TYPE (by rw [List.length_append, dhostSize, length_mac]; rfl) typeSize
    rw [List.append_assoc, ← isSourced, type, List.append_assoc] at written
    exact Option.some.inj written
  have frame (mac : Mac) : ipFrame mac iface.mac ((dhost ++ (source ++ oldType)) ++ behind) =
      mac.toList ++ (iface.mac.toList ++ (bytes16 ETH_P_IP ++ behind)) := by
    rw [ipFrame, List.drop_left' size, etherHeader, List.append_assoc, List.append_assoc]
  cases known : arpcacheLookup dstIp cache with
  | some dstMac =>
      rw [known] at success
      obtain ⟨sent, written, rfl⟩ := Option.map_eq_some_iff.mp success
      have overwritten := write_append [] dhost dstMac.toList
        (iface.mac.toList ++ (bytes16 ETH_P_IP ++ behind)) 0 rfl
        (dhostSize.trans (length_mac dstMac).symm)
      rw [List.nil_append, ← isTyped, written] at overwritten
      simp only [frame, Option.some.inj overwritten, List.nil_append]
  | none =>
      rw [known] at success
      refine ⟨typed, (Option.some.inj success).symm, fun mac => ?_⟩
      have bothMacs : (dhost ++ iface.mac.toList).length = ETH_ALEN + ETH_ALEN := by
        rw [List.length_append, dhostSize, length_mac]
        rfl
      rw [frame, fillHeader, isTyped, ← List.append_assoc dhost, List.drop_left' bothMacs]

end NetworkLab.ArpCache
