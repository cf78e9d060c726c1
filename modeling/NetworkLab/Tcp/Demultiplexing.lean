import NetworkLab.Tcp.RefCounts

/-!
# Which socket a segment is for

`tcp_hash` and `tcp_unhash` against `tcp_sock_lookup`.  A socket is hashed while it is not
hashed, unhashed while it is, and keeps its addresses, and whether it listens, in between.
-/
set_option autoImplicit false

namespace NetworkLab.Tcp

open Lib.Run

variable {ι : Type} [DecidableEq ι]

/-- The sockets, and when `tcp_hash` was called last for each. -/
structure Filing (ι : Type) where
  sockets : Sockets ι
  clock : Nat
  hashedAt : ι → Nat

/-- `change` is what the other functions do to a socket, that of a new one included. -/
inductive FilingEvent (ι : Type)
  | change (s : ι) (tsk : TcpSock) (refCnt : Int)
  | hash (s : ι)
  | unhash (s : ι)

def Sockets.changed (s : ι) (tsk : TcpSock) (refCnt : Int) (sockets : Sockets ι) : Sockets ι :=
  sockets.put s
    { (sockets.socket s).getD (Socket.fresh tsk none) with tsk := tsk, refCnt := refCnt }

/-- The same addresses and ports, and the same table. -/
structure SamePlace (before after : TcpSock) : Prop where
  localAddr : after.localAddr = before.localAddr
  peer : after.peer = before.peer
  listens : after.state = .listen ↔ before.state = .listen

instance (before after : TcpSock) : Decidable (SamePlace before after) :=
  decidable_of_iff (after.localAddr = before.localAddr ∧ after.peer = before.peer ∧
    (after.state = .listen ↔ before.state = .listen))
    ⟨fun ⟨a, b, c⟩ => ⟨a, b, c⟩, fun ⟨a, b, c⟩ => ⟨a, b, c⟩⟩

def Disciplined (filing : Filing ι) : FilingEvent ι → Prop
  | .change s tsk _ => filing.sockets.Hashed s →
      ∀ sock ∈ filing.sockets.socket s, SamePlace sock.tsk tsk
  | .hash s => ¬ filing.sockets.Hashed s
  | .unhash s => filing.sockets.Hashed s

instance (filing : Filing ι) : ∀ event, Decidable (Disciplined filing event)
  | .change s tsk _ => inferInstanceAs (Decidable (filing.sockets.Hashed s →
      ∀ sock ∈ filing.sockets.socket s, SamePlace sock.tsk tsk))
  | .hash s => inferInstanceAs (Decidable (¬ filing.sockets.Hashed s))
  | .unhash s => inferInstanceAs (Decidable (filing.sockets.Hashed s))

namespace Sockets

variable (sockets : Sockets ι)

def Established (localAddr peer : SockAddr) (s : ι) : Prop :=
  sockets.establishedTable.Linked s ∧ sockets.hasTuple localAddr peer s = true

end Sockets

section Tables

variable {sockets next : Sockets ι} {s t : ι} {tsk : TcpSock} {localAddr peer : SockAddr}

def Sockets.tskOf (sockets : Sockets ι) (s : ι) : Option TcpSock :=
  (sockets.socket s).map Socket.tsk

omit [DecidableEq ι] in
theorem hasTuple_iff : sockets.hasTuple localAddr peer s = true ↔
    ∃ tsk, sockets.tskOf s = some tsk ∧ tsk.localAddr = localAddr ∧ tsk.peer = peer := by
  unfold Sockets.hasTuple Sockets.tskOf
  cases sockets.socket s <;> simp

def TcpSock.tupleHash (tsk : TcpSock) : UInt8 :=
  tcpHashFunction tsk.localAddr.ip tsk.peer.ip tsk.localAddr.port tsk.peer.port

def TcpSock.portHash (tsk : TcpSock) : UInt8 := tcpHashFunction 0 0 tsk.localAddr.port 0

omit [DecidableEq ι] in
theorem linked_of_mem {table : HashTable ι} {entry : UInt8 × ι} (member : entry ∈ table) :
    table.Linked entry.2 := List.mem_map_of_mem member

end Tables

/-- Every hashed socket is in the list of its addresses, no two have the same ones, and the
listening sockets are in the order in which they were hashed. -/
structure Filed (filing : Filing ι) : Prop where
  established : ∀ entry ∈ filing.sockets.establishedTable, ∃ tsk,
    filing.sockets.tskOf entry.2 = some tsk ∧ tsk.state ≠ .listen ∧ entry.1 = tsk.tupleHash
  listening : ∀ entry ∈ filing.sockets.listenTable, ∃ tsk,
    filing.sockets.tskOf entry.2 = some tsk ∧ tsk.state = .listen ∧ entry.1 = tsk.portHash
  distinct : ∀ localAddr peer s t, filing.sockets.Established localAddr peer s →
    filing.sockets.Established localAddr peer t → s = t
  newest : filing.sockets.listenTable.Pairwise fun entry later =>
    filing.hashedAt later.2 < filing.hashedAt entry.2
  past : ∀ entry ∈ filing.sockets.listenTable, filing.hashedAt entry.2 < filing.clock

section Lookups

variable {filing : Filing ι} {s : ι}

end Lookups

section Steps

variable {filing : Filing ι} {next sockets : Sockets ι} {s : ι} {tsk : TcpSock}

omit [DecidableEq ι] in
/-- Sockets may go, and the hashed ones keep their place. -/
theorem Filed.shrink (filed : Filed filing)
    (established : next.establishedTable.Sublist filing.sockets.establishedTable)
    (listening : next.listenTable.Sublist filing.sockets.listenTable)
    (places : ∀ t before, next.Hashed t → filing.sockets.tskOf t = some before →
      ∃ after, next.tskOf t = some after ∧ SamePlace before after) :
    Filed { filing with sockets := next } := by
  have before : ∀ localAddr peer t, next.Established localAddr peer t →
      filing.sockets.Established localAddr peer t := by
    intro localAddr peer t tuple
    obtain ⟨entry, member, rfl⟩ := List.mem_map.mp tuple.1
    obtain ⟨tsk, live, -⟩ := filed.established entry (established.subset member)
    obtain ⟨after, liveAfter, same⟩ := places entry.2 tsk (.inr tuple.1) live
    obtain ⟨found, liveFound, localAddr', peer'⟩ := hasTuple_iff.mp tuple.2
    obtain rfl := Option.some.inj (liveAfter.symm.trans liveFound)
    refine ⟨linked_of_mem (established.subset member), hasTuple_iff.mpr ⟨tsk, live, ?_, ?_⟩⟩
    · exact same.localAddr.symm.trans localAddr'
    · exact same.peer.symm.trans peer'
  constructor
  · intro entry member
    obtain ⟨tsk, live, state, hash⟩ := filed.established entry (established.subset member)
    obtain ⟨after, liveAfter, same⟩ := places entry.2 tsk (.inr (linked_of_mem member)) live
    refine ⟨after, liveAfter, fun listens => state (same.listens.mp listens), ?_⟩
    rw [hash, TcpSock.tupleHash, TcpSock.tupleHash, same.localAddr, same.peer]
  · intro entry member
    obtain ⟨tsk, live, state, hash⟩ := filed.listening entry (listening.subset member)
    obtain ⟨after, liveAfter, same⟩ := places entry.2 tsk (.inl (linked_of_mem member)) live
    refine ⟨after, liveAfter, same.listens.mpr state, ?_⟩
    rw [hash, TcpSock.portHash, TcpSock.portHash, same.localAddr]
  · intro localAddr peer t u first second
    exact filed.distinct localAddr peer t u (before _ _ t first) (before _ _ u second)
  · exact filed.newest.sublist listening
  · exact fun entry member => filed.past entry (listening.subset member)

theorem tskOf_put (sock : Socket ι) (t : ι) :
    (sockets.put s sock).tskOf t = if t = s then some sock.tsk else sockets.tskOf t := by
  unfold Sockets.tskOf
  rw [put_socket]
  split_ifs <;> rfl

theorem Filed.change (filed : Filed filing) (refCnt : Int)
    (disciplined : Disciplined filing (.change s tsk refCnt)) :
    Filed { filing with sockets := filing.sockets.changed s tsk refCnt } := by
  refine filed.shrink ?_ ?_ ?_
  · exact List.Sublist.refl _
  · exact List.Sublist.refl _
  intro t before hashed live
  unfold Sockets.changed
  rw [tskOf_put]
  by_cases same : t = s
  · rw [if_pos same]
    obtain ⟨sock, stored, rfl⟩ := Option.map_eq_some_iff.mp live
    rw [same] at hashed stored
    exact ⟨tsk, rfl, disciplined hashed sock stored⟩
  · rw [if_neg same]
    exact ⟨before, live, rfl, rfl, Iff.rfl⟩

theorem unlink_sublist (table : HashTable ι) : (table.unlink s).Sublist table :=
  List.filter_sublist

theorem Filed.unhash (filed : Filed filing) (success : filing.sockets.tcpUnhash s = some next) :
    Filed { filing with sockets := next } := by
  obtain ⟨sock, live, success⟩ := Option.bind_eq_some_iff.mp success
  split_ifs at success
  obtain ⟨stored, -, rfl⟩ := Option.map_eq_some_iff.mp success
  apply filed.shrink (unlink_sublist _) (unlink_sublist _)
  intro t before hashed liveBefore
  have other : t ≠ s := by
    rcases hashed with listening | established
    · exact (linked_unlink.mp listening).1
    · exact (linked_unlink.mp established).1
  refine ⟨before, ?_, rfl, rfl, Iff.rfl⟩
  rw [← liveBefore]
  simp [Sockets.tskOf, Sockets.deleteHashList, other]

/-- What `tcp_hash` does to an unhashed socket: nothing, or it goes to the front of the list
of its port or of its addresses, which no hashed socket has. -/
theorem tcpHash_files (success : sockets.tcpHash s = some next) :
    next = sockets ∨
      ∃ sock, sockets.socket s = some sock ∧
        let hashed := sockets.put s { sock with refCnt := sock.refCnt + 1, hashListSet := true }
        (sock.tsk.state = .listen ∧
          next = { hashed with listenTable := (sock.tsk.portHash, s) :: sockets.listenTable }) ∨
        (sock.tsk.state ≠ .listen ∧
          (∀ entry ∈ sockets.establishedTable, entry.1 = sock.tsk.tupleHash →
            ¬ sockets.hasTuple sock.tsk.localAddr sock.tsk.peer entry.2) ∧
          next = { hashed with
            establishedTable := (sock.tsk.tupleHash, s) :: sockets.establishedTable }) := by
  obtain ⟨sock, live, success⟩ := Option.bind_eq_some_iff.mp success
  by_cases closed : sock.tsk.state = .closed
  · rw [if_pos closed] at success
    exact .inl (Option.some.inj success).symm
  rw [if_neg closed] at success
  obtain ⟨hashed, stores, success⟩ := Option.bind_eq_some_iff.mp success
  obtain ⟨sock', live', rfl⟩ := update_some stores
  obtain rfl := Option.some.inj (live.symm.trans live')
  by_cases listening : sock.tsk.state = .listen
  · rw [if_pos listening] at success
    exact .inr ⟨sock, live, .inl ⟨listening, (Option.some.inj success).symm⟩⟩
  rw [if_neg listening] at success
  dsimp only at success
  split_ifs at success with occupied
  · exact .inl (Option.some.inj success).symm
  · refine .inr ⟨sock, live, .inr ⟨listening, ?_, (Option.some.inj success).symm⟩⟩
    intro entry member hash has
    exact occupied (List.any_eq_true.mpr ⟨entry, member, decide_eq_true ⟨hash, has⟩⟩)

theorem tskOf_hashed {sock : Socket ι} (live : sockets.socket s = some sock) (t : ι) :
    (sockets.put s { sock with refCnt := sock.refCnt + 1, hashListSet := true }).tskOf t =
      sockets.tskOf t := by
  rw [tskOf_put]
  split_ifs with same
  · rw [same, Sockets.tskOf, live]
    rfl
  · rfl

omit [DecidableEq ι] in
theorem hasTuple_congr {t : ι} (same : next.tskOf t = sockets.tskOf t)
    (localAddr peer : SockAddr) :
    next.hasTuple localAddr peer t = sockets.hasTuple localAddr peer t := by
  rw [Bool.eq_iff_iff, hasTuple_iff, hasTuple_iff, same]

/-- The filing when `tcp_hash` has left the sockets as `next`. -/
def Filing.stamp (filing : Filing ι) (s : ι) (next : Sockets ι) : Filing ι :=
  { sockets := next, clock := filing.clock + 1,
    hashedAt := Function.update filing.hashedAt s filing.clock }

section Hash

variable {sock : Socket ι}

theorem stamp_self : (filing.stamp s next).hashedAt s = filing.clock := Function.update_self ..

theorem stamp_of_listed (unhashed : ¬ filing.sockets.Hashed s) {entry : UInt8 × ι}
    (member : entry ∈ filing.sockets.listenTable) :
    (filing.stamp s next).hashedAt entry.2 = filing.hashedAt entry.2 := by
  apply Function.update_of_ne
  intro same
  exact unhashed (.inl (same ▸ linked_of_mem member))

theorem Filed.newest_stamp (filed : Filed filing) (unhashed : ¬ filing.sockets.Hashed s) :
    filing.sockets.listenTable.Pairwise fun entry later =>
      (filing.stamp s next).hashedAt later.2 < (filing.stamp s next).hashedAt entry.2 := by
  apply filed.newest.imp_of_mem
  intro entry later member laterMember before
  rw [stamp_of_listed unhashed member, stamp_of_listed unhashed laterMember]
  exact before

theorem Filed.past_stamp (filed : Filed filing) (unhashed : ¬ filing.sockets.Hashed s) :
    ∀ entry ∈ filing.sockets.listenTable,
      (filing.stamp s next).hashedAt entry.2 < filing.clock + 1 := by
  intro entry member
  rw [stamp_of_listed unhashed member]
  exact Nat.lt_succ_of_lt (filed.past entry member)

theorem Filed.listens (filed : Filed filing) (unhashed : ¬ filing.sockets.Hashed s)
    (live : filing.sockets.socket s = some sock) (state : sock.tsk.state = .listen) :
    Filed (filing.stamp s
      { filing.sockets.put s { sock with refCnt := sock.refCnt + 1, hashListSet := true } with
        listenTable := (sock.tsk.portHash, s) :: filing.sockets.listenTable }) := by
  have same := tskOf_hashed live
  have isSock : filing.sockets.tskOf s = some sock.tsk := by simp [Sockets.tskOf, live]
  constructor
  · intro entry member
    obtain ⟨tsk, liveEntry, rest⟩ := filed.established entry member
    exact ⟨tsk, (same _).trans liveEntry, rest⟩
  · intro entry member
    cases List.mem_cons.mp member with
    | inl new =>
        subst new
        exact ⟨sock.tsk, (same s).trans isSock, state, rfl⟩
    | inr old =>
        obtain ⟨tsk, liveEntry, rest⟩ := filed.listening entry old
        exact ⟨tsk, (same _).trans liveEntry, rest⟩
  · intro localAddr peer t u first second
    apply filed.distinct localAddr peer t u
    · exact ⟨first.1, (hasTuple_congr (same t) localAddr peer).symm.trans first.2⟩
    · exact ⟨second.1, (hasTuple_congr (same u) localAddr peer).symm.trans second.2⟩
  · refine List.pairwise_cons.mpr ⟨fun later member => ?_, filed.newest_stamp unhashed⟩
    rw [stamp_self, stamp_of_listed unhashed member]
    exact filed.past later member
  · intro entry member
    cases List.mem_cons.mp member with
    | inl new =>
        subst new
        exact stamp_self.trans_lt (Nat.lt_succ_self _)
    | inr old => exact filed.past_stamp unhashed entry old

omit [DecidableEq ι] in
/-- A hashed socket with the addresses of `sock` would be in the list that `tcp_hash` went
over. -/
theorem Filed.no_clash (filed : Filed filing)
    (free : ∀ entry ∈ filing.sockets.establishedTable, entry.1 = sock.tsk.tupleHash →
      ¬ filing.sockets.hasTuple sock.tsk.localAddr sock.tsk.peer entry.2)
    {t : ι} (linked : filing.sockets.establishedTable.Linked t) {tsk : TcpSock}
    (live : filing.sockets.tskOf t = some tsk) :
    ¬ (tsk.localAddr = sock.tsk.localAddr ∧ tsk.peer = sock.tsk.peer) := by
  intro sameTuple
  obtain ⟨entry, member, rfl⟩ := List.mem_map.mp linked
  obtain ⟨other, liveEntry, -, hash⟩ := filed.established entry member
  cases Option.some.inj (live.symm.trans liveEntry)
  refine free entry member ?_ (hasTuple_iff.mpr ⟨tsk, live, sameTuple.1, sameTuple.2⟩)
  rw [hash, TcpSock.tupleHash, TcpSock.tupleHash, sameTuple.1, sameTuple.2]

/-- Any other socket goes to the front of the list of its addresses, which nobody has yet. -/
theorem Filed.connects (filed : Filed filing) (unhashed : ¬ filing.sockets.Hashed s)
    (live : filing.sockets.socket s = some sock) (state : sock.tsk.state ≠ .listen)
    (free : ∀ entry ∈ filing.sockets.establishedTable, entry.1 = sock.tsk.tupleHash →
      ¬ filing.sockets.hasTuple sock.tsk.localAddr sock.tsk.peer entry.2) :
    Filed (filing.stamp s
      { filing.sockets.put s { sock with refCnt := sock.refCnt + 1, hashListSet := true } with
        establishedTable := (sock.tsk.tupleHash, s) :: filing.sockets.establishedTable }) := by
  have same := tskOf_hashed live
  have isSock : filing.sockets.tskOf s = some sock.tsk := by simp [Sockets.tskOf, live]
  constructor
  · intro entry member
    cases List.mem_cons.mp member with
    | inl new =>
        subst new
        exact ⟨sock.tsk, (same s).trans isSock, state, rfl⟩
    | inr old =>
        obtain ⟨tsk, liveEntry, rest⟩ := filed.established entry old
        exact ⟨tsk, (same _).trans liveEntry, rest⟩
  · intro entry member
    obtain ⟨tsk, liveEntry, rest⟩ := filed.listening entry member
    exact ⟨tsk, (same _).trans liveEntry, rest⟩
  · intro localAddr peer t u first second
    obtain ⟨tsk, storedT, localT, peerT⟩ := hasTuple_iff.mp first.2
    obtain ⟨usk, storedU, localU, peerU⟩ := hasTuple_iff.mp second.2
    have liveT := (same t).symm.trans storedT
    have liveU := (same u).symm.trans storedU
    rcases linked_cons.mp first.1 with isT | oldT
    · rw [isT] at liveT
      obtain rfl := Option.some.inj (isSock.symm.trans liveT)
      rcases linked_cons.mp second.1 with isU | oldU
      · exact isT.trans isU.symm
      · exact absurd ⟨localU.trans localT.symm, peerU.trans peerT.symm⟩
          (filed.no_clash free oldU liveU)
    · rcases linked_cons.mp second.1 with isU | oldU
      · rw [isU] at liveU
        obtain rfl := Option.some.inj (isSock.symm.trans liveU)
        exact absurd ⟨localT.trans localU.symm, peerT.trans peerU.symm⟩
          (filed.no_clash free oldT liveT)
      · apply filed.distinct localAddr peer t u
        · exact ⟨oldT, hasTuple_iff.mpr ⟨tsk, liveT, localT, peerT⟩⟩
        · exact ⟨oldU, hasTuple_iff.mpr ⟨usk, liveU, localU, peerU⟩⟩
  · exact filed.newest_stamp unhashed
  · exact filed.past_stamp unhashed

end Hash

theorem Filed.hash (filed : Filed filing) (unhashed : ¬ filing.sockets.Hashed s)
    (success : filing.sockets.tcpHash s = some next) :
    Filed { sockets := next, clock := filing.clock + 1,
            hashedAt := Function.update filing.hashedAt s filing.clock : Filing ι } := by
  rcases tcpHash_files success with rfl | ⟨sock, live, ⟨state, rfl⟩ | ⟨state, free, rfl⟩⟩
  · exact ⟨filed.established, filed.listening, filed.distinct, filed.newest_stamp unhashed,
      filed.past_stamp unhashed⟩
  · exact filed.listens unhashed live state
  · exact filed.connects unhashed live state free

end Steps

end NetworkLab.Tcp
