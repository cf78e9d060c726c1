import NetworkLab.Tcp.Calls

/-!
# Reference counts

`ref_cnt` is the number of places that hold a socket: `bind_table`, the table of its
state, and `timer_list`.  Inside a call the count of its socket may be ahead of the
places by a few, and every `free_tcp_sock` takes one off.
-/
set_option autoImplicit false

namespace NetworkLab.Tcp

open Lib.Run

variable {ι : Type} [DecidableEq ι]

section Statement

variable (sockets : Sockets ι)

omit [DecidableEq ι] in
def Sockets.Hashed (s : ι) : Prop :=
  sockets.listenTable.Linked s ∨ sockets.establishedTable.Linked s

instance (s : ι) : Decidable (sockets.Hashed s) := inferInstanceAs (Decidable (_ ∨ _))

/-- How many places hold a socket. -/
def Sockets.places (s : ι) : Nat :=
  (if sockets.bindTable.Linked s then 1 else 0) + (if sockets.Hashed s then 1 else 0) +
    if s ∈ sockets.timewait then 1 else 0

structure Accounted : Prop where
  live : ∀ s sock, sockets.socket s = some sock → sock.refCnt = sockets.places s
  released : ∀ s, sockets.socket s = none → sockets.places s = 0

/-- `tcp_sock_set_sport` returns -1. -/
def PortFails (inUse : UInt16 → Bool) (port : UInt16) : Prop :=
  (port ≠ 0 ∧ inUse port) ∨ (if port = 0 then tcpGetPort inUse else port) = 0

instance (inUse : UInt16 → Bool) (port : UInt16) : Decidable (PortFails inUse port) :=
  inferInstanceAs (Decidable (_ ∨ _))

/-- `tcp_hash` returns -1 for `s`, which may be in the table itself. -/
def Sockets.TupleTaken (s : ι) (localAddr peer : SockAddr) : Prop :=
  ∃ entry ∈ sockets.establishedTable,
    entry.1 = tcpHashFunction localAddr.ip peer.ip localAddr.port peer.port ∧
      (entry.2 = s ∨ sockets.hasTuple localAddr peer entry.2)

instance (s : ι) (localAddr peer : SockAddr) : Decidable (sockets.TupleTaken s localAddr peer) :=
  inferInstanceAs (Decidable (∃ entry ∈ sockets.establishedTable, _))

/-- A listening socket has no child in `SYN_RECV` in its `listen_queue`. -/
def ClosesQuietly (s : ι) : Prop :=
  ∀ sock ∈ sockets.socket s, sock.tsk.state = .listen → ∀ child ∈ sock.listenQueue,
    ∀ lsnTsk ∈ sockets.socket child, lsnTsk.tsk.state ≠ .synRecv

/-- The calls that link only what is not linked, and release only through the tables. -/
def Balanced : SocketsEvent ι → Prop
  | .bind s port inUse => PortFails inUse port ∨ ¬ sockets.bindTable.Linked s
  | .listen s _ => ¬ sockets.Hashed s
  | .connect s ip skaddr _ inUse => PortFails inUse (tcpGetPort inUse) ∨
      ¬ sockets.bindTable.Linked s ∧
        (¬ sockets.Hashed s ∨ sockets.TupleTaken s ⟨ip, tcpGetPort inUse⟩ skaddr)
  | .close s => ClosesQuietly sockets s
  | .givesUp s => ClosesQuietly sockets s
  | .packet cb _ _ _ => ∀ s ∈ sockets.tcpSockLookup cb, ∀ sock ∈ sockets.socket s,
      (Open sock.tsk → hasFlag cb.flags TCP_RST = false) ∧
        (sock.tsk.state = .finWait2 → cb.flags = TCP_ACK ||| TCP_FIN → s ∉ sockets.timewait)
  | .alloc _ => True
  | .accept _ => True
  | .send _ _ => True
  | .timewaitExpires _ => True

instance (s : ι) : Decidable (ClosesQuietly sockets s) :=
  inferInstanceAs (Decidable (∀ sock ∈ sockets.socket s, sock.tsk.state = .listen →
    ∀ child ∈ sock.listenQueue, ∀ lsnTsk ∈ sockets.socket child, lsnTsk.tsk.state ≠ .synRecv))

instance : ∀ event, Decidable (Balanced sockets event)
  | .bind _ _ _ => inferInstanceAs (Decidable (_ ∨ _))
  | .listen _ _ => inferInstanceAs (Decidable (¬ _))
  | .connect _ _ _ _ _ => inferInstanceAs (Decidable (_ ∨ _ ∧ (_ ∨ _)))
  | .close s => inferInstanceAs (Decidable (ClosesQuietly sockets s))
  | .givesUp s => inferInstanceAs (Decidable (ClosesQuietly sockets s))
  | .packet cb _ _ _ => inferInstanceAs (Decidable (∀ s ∈ sockets.tcpSockLookup cb,
      ∀ sock ∈ sockets.socket s,
        ((sock.tsk.state ≠ .closed ∧ sock.tsk.state ≠ .listen ∧ sock.tsk.state ≠ .synSent) →
          hasFlag cb.flags TCP_RST = false) ∧
        (sock.tsk.state = .finWait2 → cb.flags = TCP_ACK ||| TCP_FIN → s ∉ sockets.timewait)))
  | .alloc _ => isTrue trivial
  | .accept _ => isTrue trivial
  | .send _ _ => isTrue trivial
  | .timewaitExpires _ => isTrue trivial

end Statement

section Invariant

variable {sockets next : Sockets ι} {s : ι} {sock new : Socket ι} {n m : Nat}

/-- A socket that is in an accept queue keeps its parent. -/
def Parented (sockets : Sockets ι) (c : ι) : Prop :=
  sockets.used c ∧ ∀ sock, sockets.socket c = some sock → sock.parent ≠ none

/-- Why the nodes that a call takes out of a table are in it. -/
structure Placed (sockets : Sockets ι) (s : ι) (sock : Socket ι) : Prop where
  used : sockets.used s
  listening : sock.tsk.state = .listen → sockets.Hashed s
  bound : sock.parent = none → s ∈ sockets.timewait ∨ Connected sock.tsk →
    sockets.bindTable.Linked s
  accepted : ∀ c ∈ sock.acceptQueue, Parented sockets c

/-- The invariant; the count of `s` is ahead of its places by `n`. -/
structure Kept (sockets : Sockets ι) (s : ι) (n : Nat) : Prop where
  live : ∀ t sock, sockets.socket t = some sock →
    sock.refCnt = (sockets.places t + if t = s then n else 0 : Nat)
  released : ∀ t, sockets.socket t = none → sockets.places t = 0
  placed : ∀ t sock, sockets.socket t = some sock → Placed sockets t sock

theorem Kept.accounted (kept : Kept sockets s 0) : Accounted sockets := by
  refine ⟨fun t sock live => ?_, kept.released⟩
  have count := kept.live t sock live
  simpa using count

theorem Kept.rebase (kept : Kept sockets s 0) (t : ι) : Kept sockets t 0 := by
  refine ⟨fun u sock live => ?_, kept.released, kept.placed⟩
  have count := kept.live u sock live
  simpa using count

structure SameLinks (sockets next : Sockets ι) (t : ι) : Prop where
  bind : next.bindTable.Linked t ↔ sockets.bindTable.Linked t
  hash : next.Hashed t ↔ sockets.Hashed t
  timer : t ∈ next.timewait ↔ t ∈ sockets.timewait

theorem SameLinks.places {t : ι} (same : SameLinks sockets next t) :
    next.places t = sockets.places t := by
  simp only [Sockets.places, same.bind, same.hash, same.timer]

theorem Kept.change (kept : Kept sockets s n) (live : sockets.socket s = some sock)
    (socket : next.socket = Function.update sockets.socket s (some new))
    (used : next.used = sockets.used) (others : ∀ t, t ≠ s → SameLinks sockets next t)
    (count : new.refCnt = (next.places s + m : Nat))
    (parent : new.parent = none → sock.parent = none)
    (listening : new.tsk.state = .listen → next.Hashed s)
    (bound : new.parent = none → s ∈ next.timewait ∨ Connected new.tsk →
      next.bindTable.Linked s)
    (accepted : ∀ c ∈ new.acceptQueue, Parented sockets c) : Kept next s m := by
  have here : next.socket s = some new := by rw [socket, Function.update_self]
  have there : ∀ t, t ≠ s → next.socket t = sockets.socket t := fun t other => by
    rw [socket, Function.update_of_ne other]
  have parented : ∀ c, Parented sockets c → Parented next c := by
    rintro c ⟨isUsed, keeps⟩
    refine ⟨by rw [used]; exact isUsed, fun sock' live' => ?_⟩
    by_cases same : c = s
    · subst same
      obtain rfl := Option.some.inj (here.symm.trans live')
      exact fun none => keeps sock live (parent none)
    · exact keeps sock' ((there c same).symm.trans live')
  refine ⟨fun t sock' live' => ?_, fun t gone => ?_, fun t sock' live' => ?_⟩
  · by_cases same : t = s
    · subst same
      obtain rfl := Option.some.inj (here.symm.trans live')
      rw [if_pos rfl]
      exact count
    · have before := kept.live t sock' ((there t same).symm.trans live')
      rw [if_neg same] at before ⊢
      rw [(others t same).places]
      exact before
  · have other : t ≠ s := by
      rintro rfl
      rw [here] at gone
      cases gone
    rw [(others t other).places]
    exact kept.released t ((there t other).symm.trans gone)
  · by_cases same : t = s
    · subst same
      obtain rfl := Option.some.inj (here.symm.trans live')
      refine ⟨?_, listening, bound, fun c member => parented c (accepted c member)⟩
      rw [used]
      exact (kept.placed t sock live).used
    · obtain ⟨isUsed, listens, isBound, accepts⟩ :=
        kept.placed t sock' ((there t same).symm.trans live')
      obtain ⟨bind, hash, timer⟩ := others t same
      refine ⟨by rw [used]; exact isUsed, fun state => hash.mpr (listens state), ?_,
        fun c member => parented c (accepts c member)⟩
      rw [timer, bind]
      exact isBound

theorem Kept.count (kept : Kept sockets s n) (live : sockets.socket s = some sock) :
    sock.refCnt = (sockets.places s + n : Nat) := by
  have count := kept.live s sock live
  rwa [if_pos rfl] at count

theorem Kept.put (kept : Kept sockets s n) (live : sockets.socket s = some sock)
    (refCnt : new.refCnt = sock.refCnt)
    (parent : new.parent = none → sock.parent = none)
    (listening : new.tsk.state = .listen → sockets.Hashed s)
    (bound : new.parent = none → Connected new.tsk → sockets.bindTable.Linked s)
    (accepted : ∀ c ∈ new.acceptQueue, Parented sockets c) :
    Kept (sockets.put s new) s n := by
  refine kept.change live rfl rfl (fun t _ => ⟨Iff.rfl, Iff.rfl, Iff.rfl⟩) ?_ parent listening ?_
    accepted
  · rw [refCnt]
    exact kept.count live
  · intro none held
    rcases held with timer | connected
    · exact (kept.placed s sock live).bound (parent none) (.inl timer)
    · exact bound none connected

theorem Kept.free (kept : Kept sockets s (n + 1)) (success : sockets.freeTcpSock s = some next) :
    Kept next s n := by
  obtain ⟨sock, live, rfl⟩ := Option.map_eq_some_iff.mp success
  have count := kept.count live
  have placed := kept.placed s sock live
  by_cases last : sock.refCnt - 1 ≤ 0
  · simp only [if_pos last]
    have unheld : sockets.places s = 0 := by omega
    have left : ∀ t sock', Function.update sockets.socket s none t = some sock' →
        t ≠ s ∧ sockets.socket t = some sock' := by
      intro t sock' live'
      rw [Function.update_apply] at live'
      split_ifs at live' with same
      exact ⟨same, live'⟩
    refine ⟨fun t sock' live' => ?_, fun t gone => ?_, fun t sock' live' => ?_⟩
    · obtain ⟨other, before⟩ := left t sock' live'
      have count' := kept.live t sock' before
      rw [if_neg other] at count' ⊢
      exact count'
    · by_cases same : t = s
      · rw [same]
        exact unheld
      · refine kept.released t ?_
        rw [← gone]
        exact (Function.update_of_ne same ..).symm
    · obtain ⟨isUsed, listens, isBound, accepts⟩ := kept.placed t sock' (left t sock' live').2
      refine ⟨isUsed, listens, isBound, fun c member => ⟨(accepts c member).1, ?_⟩⟩
      exact fun sock'' live'' => (accepts c member).2 sock'' (left c sock'' live'').2
  · simp only [if_neg last]
    refine kept.change live rfl rfl (fun t _ => ⟨Iff.rfl, Iff.rfl, Iff.rfl⟩) ?_ id placed.listening
      placed.bound placed.accepted
    change sock.refCnt - 1 = (sockets.places s + n : Nat)
    omega

end Invariant

section Links

variable {sockets next : Sockets ι} {s : ι} {sock : Socket ι} {n : Nat}

omit [DecidableEq ι] in
theorem linked_cons {table : HashTable ι} {hash : UInt8} {t : ι} :
    HashTable.Linked ((hash, s) :: table) t ↔ t = s ∨ table.Linked t := List.mem_cons

theorem linked_unlink {table : HashTable ι} {t : ι} :
    (table.unlink s).Linked t ↔ t ≠ s ∧ table.Linked t := by
  simp only [HashTable.Linked, HashTable.unlink, List.mem_map, List.mem_filter, decide_eq_true_eq]
  constructor
  · rintro ⟨entry, ⟨member, other⟩, rfl⟩
    exact ⟨other, entry, member, rfl⟩
  · rintro ⟨other, entry, member, rfl⟩
    exact ⟨entry, ⟨member, other⟩, rfl⟩

theorem places_bind (after : next.bindTable.Linked s) (before : ¬ sockets.bindTable.Linked s)
    (hash : next.Hashed s ↔ sockets.Hashed s)
    (timer : s ∈ next.timewait ↔ s ∈ sockets.timewait) :
    next.places s = sockets.places s + 1 := by
  simp only [Sockets.places, after, before, hash, timer, if_true, if_false]
  omega

theorem places_hash (bind : next.bindTable.Linked s ↔ sockets.bindTable.Linked s)
    (after : next.Hashed s) (before : ¬ sockets.Hashed s)
    (timer : s ∈ next.timewait ↔ s ∈ sockets.timewait) :
    next.places s = sockets.places s + 1 := by
  simp only [Sockets.places, after, before, bind, timer, if_true, if_false]
  omega

theorem places_timer (bind : next.bindTable.Linked s ↔ sockets.bindTable.Linked s)
    (hash : next.Hashed s ↔ sockets.Hashed s) (after : s ∈ next.timewait)
    (before : s ∉ sockets.timewait) : next.places s = sockets.places s + 1 := by
  simp only [Sockets.places, after, before, bind, hash, if_true, if_false]

theorem tcpBindHash_some (success : sockets.tcpBindHash s = some next) :
    ∃ sock hash, sockets.socket s = some sock ∧
      next = { sockets.put s { sock with refCnt := sock.refCnt + 1, bindHashListSet := true } with
        bindTable := (hash, s) :: sockets.bindTable } := by
  obtain ⟨sock, live, success⟩ := Option.bind_eq_some_iff.mp success
  obtain ⟨stored, stores, result⟩ := Option.bind_eq_some_iff.mp success
  obtain ⟨sock', live', rfl⟩ := update_some stores
  obtain rfl := Option.some.inj (live.symm.trans live')
  exact ⟨sock, _, live, (Option.some.inj result).symm⟩

theorem Kept.tcpBindHash (kept : Kept sockets s n) (unlinked : ¬ sockets.bindTable.Linked s)
    (success : sockets.tcpBindHash s = some next) : Kept next s n := by
  obtain ⟨sock, hash, live, same⟩ := tcpBindHash_some success
  have placed := kept.placed s sock live
  have count := kept.count live
  have added : next.places s = sockets.places s + 1 := by
    rw [same]
    exact places_bind (linked_cons.mpr (.inl rfl)) unlinked Iff.rfl Iff.rfl
  have socket : next.socket = Function.update sockets.socket s
      (some { sock with refCnt := sock.refCnt + 1, bindHashListSet := true }) := by
    rw [same]
    rfl
  have used : next.used = sockets.used := by
    rw [same]
    rfl
  refine kept.change live socket used ?_ ?_ id ?_ ?_ placed.accepted
  · intro t other
    rw [same]
    refine ⟨?_, Iff.rfl, Iff.rfl⟩
    simp [linked_cons, other]
  · change sock.refCnt + 1 = _
    omega
  · rw [same]
    exact placed.listening
  · rw [same]
    exact fun _ _ => linked_cons.mpr (.inl rfl)

theorem tcpHash_some (live : sockets.socket s = some sock)
    (success : sockets.tcpHash s = some next) :
    let hashed := sockets.put s { sock with refCnt := sock.refCnt + 1, hashListSet := true }
    (sock.tsk.state = .closed ∧ next = sockets) ∨
    (sock.tsk.state = .listen ∧
      ∃ hash, next = { hashed with listenTable := (hash, s) :: sockets.listenTable }) ∨
    (Connected sock.tsk ∧ sockets.TupleTaken s sock.tsk.localAddr sock.tsk.peer ∧
      next = sockets) ∨
    (Connected sock.tsk ∧ ¬ sockets.TupleTaken s sock.tsk.localAddr sock.tsk.peer ∧
      ∃ hash, next = { hashed with
        establishedTable := (hash, s) :: sockets.establishedTable }) := by
  obtain ⟨sock', live', success⟩ := Option.bind_eq_some_iff.mp success
  obtain rfl := Option.some.inj (live.symm.trans live')
  have self : sockets.hasTuple sock.tsk.localAddr sock.tsk.peer s := by
    simp [Sockets.hasTuple, live]
  by_cases closed : sock.tsk.state = .closed
  · rw [if_pos closed] at success
    exact .inl ⟨closed, (Option.some.inj success).symm⟩
  rw [if_neg closed] at success
  obtain ⟨hashed, stores, success⟩ := Option.bind_eq_some_iff.mp success
  obtain ⟨sock'', live'', rfl⟩ := update_some stores
  obtain rfl := Option.some.inj (live.symm.trans live'')
  by_cases listening : sock.tsk.state = .listen
  · rw [if_pos listening] at success
    exact .inr (.inl ⟨listening, _, (Option.some.inj success).symm⟩)
  rw [if_neg listening] at success
  have taken_iff : (sockets.establishedTable.any fun entry =>
      entry.1 = tcpHashFunction sock.tsk.localAddr.ip sock.tsk.peer.ip sock.tsk.localAddr.port
        sock.tsk.peer.port ∧ sockets.hasTuple sock.tsk.localAddr sock.tsk.peer entry.2) = true ↔
      sockets.TupleTaken s sock.tsk.localAddr sock.tsk.peer := by
    simp only [List.any_eq_true, decide_eq_true_eq, Sockets.TupleTaken]
    refine exists_congr fun entry => and_congr_right fun _ => and_congr_right fun _ => ?_
    constructor
    · exact .inr
    · rintro (isSelf | has)
      · rw [isSelf]
        exact self
      · exact has
  dsimp only at success
  split_ifs at success with occupied
  · exact .inr (.inr (.inl ⟨⟨closed, listening⟩, taken_iff.mp occupied,
      (Option.some.inj success).symm⟩))
  · exact .inr (.inr (.inr ⟨⟨closed, listening⟩, fun taken => occupied (taken_iff.mpr taken), _,
      (Option.some.inj success).symm⟩))

@[simp] theorem put_put (first second : Socket ι) :
    (sockets.put s first).put s second = sockets.put s second := by
  simp [Sockets.put]

theorem put_self (live : sockets.socket s = some sock) : sockets.put s sock = sockets := by
  rw [Sockets.put, ← live, Function.update_eq_self]

variable {new : Socket ι}

/-- `s` is linked into the table of its state, and counted once more. -/
theorem Kept.hash (kept : Kept sockets s n) (live : sockets.socket s = some sock)
    (unhashed : ¬ sockets.Hashed s)
    (socket : next.socket = Function.update sockets.socket s (some new))
    (used : next.used = sockets.used) (bind : next.bindTable = sockets.bindTable)
    (timewait : next.timewait = sockets.timewait)
    (hashed : ∀ t, next.Hashed t ↔ t = s ∨ sockets.Hashed t)
    (refCnt : new.refCnt = sock.refCnt + 1) (parent : new.parent = none → sock.parent = none)
    (bound : new.parent = none → Connected new.tsk → sockets.bindTable.Linked s)
    (accepted : ∀ c ∈ new.acceptQueue, Parented sockets c) : Kept next s n := by
  have count := kept.count live
  have added : next.places s = sockets.places s + 1 :=
    places_hash (by rw [bind]) ((hashed s).mpr (.inl rfl)) unhashed (by rw [timewait])
  refine kept.change live socket used (fun t other => ⟨by rw [bind], ?_, by rw [timewait]⟩) ?_
    parent (fun _ => (hashed s).mpr (.inl rfl)) ?_ accepted
  · rw [hashed]
    exact or_iff_right other
  · omega
  · rw [bind, timewait]
    rintro none (timer | connected)
    · exact (kept.placed s sock live).bound (parent none) (.inl timer)
    · exact bound none connected

theorem Kept.tcpHash (kept : Kept sockets s n) (live : sockets.socket s = some sock)
    (refCnt : new.refCnt = sock.refCnt) (parent : new.parent = none → sock.parent = none)
    (bound : new.parent = none → Connected new.tsk → sockets.bindTable.Linked s)
    (accepted : ∀ c ∈ new.acceptQueue, Parented sockets c) (opened : new.tsk.state ≠ .closed)
    (unhashed : ¬ sockets.Hashed s ∨ new.tsk.state ≠ .listen ∧
      (sockets.put s new).TupleTaken s new.tsk.localAddr new.tsk.peer)
    (success : (sockets.put s new).tcpHash s = some next) : Kept next s n := by
  have plusOne : new.refCnt + 1 = sock.refCnt + 1 := by rw [refCnt]
  rcases tcpHash_some (put_same new) success with
    ⟨closed, -⟩ | ⟨listening, hash, rfl⟩ | ⟨connected, -, rfl⟩ | ⟨-, notTaken, hash, rfl⟩
  · exact absurd closed opened
  · have notHashed := unhashed.resolve_right fun other => other.1 listening
    rw [put_put]
    refine kept.hash live notHashed rfl rfl rfl rfl (fun t => ?_) plusOne parent bound accepted
    simp only [Sockets.Hashed, linked_cons, or_assoc]
    rfl
  · exact kept.put live refCnt parent (fun listening => absurd listening connected.2) bound accepted
  · have notHashed := unhashed.resolve_right fun other => notTaken other.2
    rw [put_put]
    refine kept.hash live notHashed rfl rfl rfl rfl (fun t => ?_) plusOne parent bound accepted
    simp only [Sockets.Hashed, linked_cons]
    exact or_left_comm

theorem Kept.relink {m : Nat} (kept : Kept sockets s n) (live : sockets.socket s = some sock)
    (socket : next.socket = sockets.socket) (used : next.used = sockets.used)
    (others : ∀ t, t ≠ s → SameLinks sockets next t)
    (count : next.places s + m = sockets.places s + n)
    (listening : sock.tsk.state = .listen → next.Hashed s)
    (bound : sock.parent = none → s ∈ next.timewait ∨ Connected sock.tsk →
      next.bindTable.Linked s) : Kept next s m := by
  have same : next.socket = Function.update sockets.socket s (some sock) := by
    rw [socket, ← live, Function.update_eq_self]
  refine kept.change live same used others ?_ id listening bound (kept.placed s sock live).accepted
  rw [kept.count live, count]

theorem Kept.deleteHashList (kept : Kept sockets s n) (live : sockets.socket s = some sock)
    (hashed : sockets.Hashed s) (notListening : sock.tsk.state ≠ .listen) :
    Kept (sockets.deleteHashList s) s (n + 1) := by
  have notHashed : ∀ t, (sockets.deleteHashList s).Hashed t ↔ t ≠ s ∧ sockets.Hashed t := by
    intro t
    simp only [Sockets.Hashed, Sockets.deleteHashList, linked_unlink]
    exact and_or_left.symm
  have gone : ¬ (sockets.deleteHashList s).Hashed s := fun still => ((notHashed s).mp still).1 rfl
  have removed : sockets.places s = (sockets.deleteHashList s).places s + 1 :=
    places_hash Iff.rfl hashed gone Iff.rfl
  refine kept.relink live rfl rfl (fun t other => ⟨Iff.rfl, ?_, Iff.rfl⟩) ?_
    (fun listening => absurd listening notListening) (kept.placed s sock live).bound
  · rw [notHashed]
    exact and_iff_right other
  · omega

theorem Kept.deleteBindHashList (kept : Kept sockets s n) (live : sockets.socket s = some sock)
    (linked : sockets.bindTable.Linked s) (noTimer : s ∉ sockets.timewait)
    (closed : ¬ Connected sock.tsk) : Kept (sockets.deleteBindHashList s) s (n + 1) := by
  have gone : ¬ (sockets.bindTable.unlink s).Linked s := by simp [linked_unlink]
  have removed : sockets.places s = (sockets.deleteBindHashList s).places s + 1 :=
    places_bind linked gone Iff.rfl Iff.rfl
  refine kept.relink live rfl rfl (fun t other => ⟨?_, Iff.rfl, Iff.rfl⟩) ?_
    (kept.placed s sock live).listening ?_
  · simp [Sockets.deleteBindHashList, linked_unlink, other]
  · omega
  · rintro - (timer | connected)
    · exact absurd timer noTimer
    · exact absurd connected closed

theorem Kept.deleteTimewait (kept : Kept sockets s n) (live : sockets.socket s = some sock)
    (pending : s ∈ sockets.timewait) : Kept (sockets.deleteTimewait s) s (n + 1) := by
  have gone : s ∉ sockets.timewait.filter (· ≠ s) := by simp
  have removed : sockets.places s = (sockets.deleteTimewait s).places s + 1 :=
    places_timer Iff.rfl Iff.rfl pending gone
  have placed := kept.placed s sock live
  refine kept.relink live rfl rfl (fun t other => ⟨Iff.rfl, Iff.rfl, ?_⟩) ?_ placed.listening ?_
  · simp [Sockets.deleteTimewait, other]
  · omega
  · rintro none (timer | connected)
    · exact absurd timer gone
    · exact placed.bound none (.inr connected)

theorem Kept.tcpUnhash (kept : Kept sockets s n) (live : sockets.socket s = some sock)
    (hashed : sockets.Hashed s) (notListening : sock.tsk.state ≠ .listen)
    (success : sockets.tcpUnhash s = some next) : Kept next s n := by
  obtain ⟨sock', -, success⟩ := Option.bind_eq_some_iff.mp success
  split_ifs at success
  exact (kept.deleteHashList live hashed notListening).free success

theorem Kept.tcpSetTimewaitTimer (kept : Kept sockets s n) (live : sockets.socket s = some sock)
    (connected : Connected sock.tsk) (noTimer : s ∉ sockets.timewait)
    (success : sockets.tcpSetTimewaitTimer s = some next) : Kept next s n := by
  obtain ⟨stored, stores, result⟩ := Option.bind_eq_some_iff.mp success
  obtain ⟨sock', live', rfl⟩ := update_some stores
  obtain rfl := Option.some.inj (live.symm.trans live')
  have placed := kept.placed s sock live
  have count := kept.count live
  have added : next.places s = sockets.places s + 1 := by
    rw [← Option.some.inj result]
    exact places_timer Iff.rfl Iff.rfl (by simp) noTimer
  have socket : next.socket = Function.update sockets.socket s
      (some { sock with refCnt := sock.refCnt + 1 }) := by
    rw [← Option.some.inj result]
    rfl
  rw [← Option.some.inj result] at added socket ⊢
  refine kept.change live socket rfl (fun t other => ⟨Iff.rfl, Iff.rfl, ?_⟩) ?_ id placed.listening
    (fun none _ => placed.bound none (.inr connected)) placed.accepted
  · simp [Sockets.put, other]
  · change sock.refCnt + 1 = _
    omega

end Links

section Operations

variable {sockets next : Sockets ι} {s child : ι} {sock : Socket ι} {n : Nat}
  {inUse : UInt16 → Bool} {outcome : Outcome}

theorem Kept.sent (kept : Kept sockets s n) (sent : List (Sent ι)) :
    Kept { sockets with sent := sent } s n :=
  ⟨kept.live, kept.released, fun t sock live =>
    let placed := kept.placed t sock live
    ⟨placed.used, placed.listening, placed.bound, placed.accepted⟩⟩

theorem Kept.putTsk (kept : Kept sockets s n) (live : sockets.socket s = some sock)
    {tsk : TcpSock} (state : StateKept sock.tsk tsk) :
    Kept (sockets.put s { sock with tsk := tsk }) s n := by
  have placed := kept.placed s sock live
  refine kept.put live rfl id (fun listening => ?_) (fun none connected => ?_) placed.accepted
  · rcases state with same | ⟨-, connected, -⟩
    · exact placed.listening (same.symm.trans listening)
    · exact absurd listening connected.2
  · rcases state with same | ⟨connectedBefore, -⟩
    · refine placed.bound none (.inr ?_)
      rw [Connected, ← same]
      exact connected
    · exact placed.bound none (.inr connectedBefore)

theorem Kept.quiet (kept : Kept sockets s 0) (live : sockets.socket s = some sock)
    (quiet : outcome.Quiet) (state : StateKept sock.tsk outcome.tsk)
    (success : sockets.applyOutcome inUse s child outcome = some next) : Kept next s 0 := by
  obtain ⟨sock', sent, live', rfl⟩ := applyOutcome_quiet quiet success
  obtain rfl := Option.some.inj (live.symm.trans live')
  exact (kept.putTsk live state).sent sent

theorem tcpSockSetSport_some {port : UInt16} {flag : Bool}
    (success : sockets.tcpSockSetSport inUse s port = some (next, flag)) :
    (PortFails inUse port ∧ next = sockets ∧ flag = false) ∨
    (¬ PortFails inUse port ∧ flag = true ∧ ∃ sock hash, sockets.socket s = some sock ∧
      next = { sockets.put s { sock with
          tsk := { sock.tsk with
            localAddr := { sock.tsk.localAddr with
              port := if port = 0 then tcpGetPort inUse else port } },
          refCnt := sock.refCnt + 1, bindHashListSet := true } with
        bindTable := (hash, s) :: sockets.bindTable }) := by
  by_cases fails : PortFails inUse port
  · rw [show sockets.tcpSockSetSport inUse s port = _ from if_pos fails] at success
    obtain ⟨rfl, rfl⟩ := Prod.mk.inj (Option.some.inj success)
    exact .inl ⟨fails, rfl, rfl⟩
  · rw [show sockets.tcpSockSetSport inUse s port = _ from if_neg fails] at success
    obtain ⟨stored, stores, success⟩ := Option.bind_eq_some_iff.mp success
    obtain ⟨bound, binds, result⟩ := Option.bind_eq_some_iff.mp success
    obtain ⟨rfl, rfl⟩ := Prod.mk.inj (Option.some.inj result)
    obtain ⟨sock, live, rfl⟩ := update_some stores
    obtain ⟨sock', hash, live', rfl⟩ := tcpBindHash_some binds
    obtain rfl := Option.some.inj ((put_same _).symm.trans live')
    exact .inr ⟨fails, rfl, sock, hash, live, by rw [put_put]; rfl⟩

theorem Kept.tcpSockSetSport (kept : Kept sockets s n) {port : UInt16} {flag : Bool}
    (unlinked : PortFails inUse port ∨ ¬ sockets.bindTable.Linked s)
    (success : sockets.tcpSockSetSport inUse s port = some (next, flag)) : Kept next s n := by
  by_cases fails : PortFails inUse port
  · rw [show sockets.tcpSockSetSport inUse s port = _ from if_pos fails] at success
    obtain ⟨rfl, rfl⟩ := Prod.mk.inj (Option.some.inj success)
    exact kept
  · rw [show sockets.tcpSockSetSport inUse s port = _ from if_neg fails] at success
    obtain ⟨stored, stores, success⟩ := Option.bind_eq_some_iff.mp success
    obtain ⟨bound, binds, result⟩ := Option.bind_eq_some_iff.mp success
    obtain ⟨rfl, rfl⟩ := Prod.mk.inj (Option.some.inj result)
    obtain ⟨sock, live, rfl⟩ := update_some stores
    refine Kept.tcpBindHash ?_ ?_ binds
    · exact kept.putTsk live (.inl rfl)
    · exact unlinked.resolve_left fails

theorem Kept.allocTcpSock (kept : Kept sockets s 0) {tsk : TcpSock} {parent : Option ι}
    (notListening : tsk.state ≠ .listen) (bound : parent = none → ¬ Connected tsk)
    (success : sockets.allocTcpSock child tsk parent = some next) :
    Kept next child 0 ∧ sockets.used child = false ∧ next.places child = 0 ∧
      (∃ sock, next.socket child = some sock ∧ sock.tsk = tsk ∧ sock.parent = parent) ∧
      ∀ t, t ≠ child → next.socket t = sockets.socket t := by
  unfold Sockets.allocTcpSock at success
  split_ifs at success with isUsed
  obtain rfl := Option.some.inj success
  have fresh : sockets.socket child = none := by
    cases live : sockets.socket child with
    | none => rfl
    | some sock => exact absurd (kept.placed child sock live).used isUsed
  have unheld := kept.released child fresh
  have noTimer : child ∉ sockets.timewait := by
    intro pending
    simp only [Sockets.places, pending, if_true] at unheld
    omega
  have others : ∀ t, t ≠ child → Function.update sockets.socket child
      (some (Socket.fresh tsk parent)) t = sockets.socket t :=
    fun t other => Function.update_of_ne other ..
  refine ⟨⟨fun t sock' live' => ?_, fun t gone => ?_, fun t sock' live' => ?_⟩, by simpa using isUsed,
    unheld, ⟨_, put_same _, rfl, rfl⟩, others⟩
  · by_cases same : t = child
    · subst same
      obtain rfl := Option.some.inj ((put_same _).symm.trans live')
      rw [if_pos rfl]
      change (0 : Int) = (sockets.places t + 0 : Nat)
      omega
    · have count := (kept.rebase child).live t sock' ((others t same).symm.trans live')
      rw [if_neg same] at count ⊢
      exact count
  · by_cases same : t = child
    · rw [same]
      exact unheld
    · exact kept.released t ((others t same).symm.trans gone)
  · have parented : ∀ c, Parented sockets c → Function.update sockets.used child true c ∧
        ∀ sock, Function.update sockets.socket child (some (Socket.fresh tsk parent)) c =
          some sock → sock.parent ≠ none := by
      rintro c ⟨usedBefore, keeps⟩
      have other : c ≠ child := by
        rintro rfl
        exact isUsed usedBefore
      refine ⟨by rw [Function.update_of_ne other]; exact usedBefore, fun sock'' live'' => ?_⟩
      exact keeps sock'' ((others c other).symm.trans live'')
    by_cases same : t = child
    · subst same
      obtain rfl := Option.some.inj ((put_same _).symm.trans live')
      refine ⟨Function.update_self .., fun listening => absurd listening notListening, ?_,
        fun c member => absurd member List.not_mem_nil⟩
      rintro none (timer | connected)
      · exact absurd timer noTimer
      · exact absurd connected (bound none)
    · obtain ⟨usedBefore, listens, isBound, accepts⟩ :=
        kept.placed t sock' ((others t same).symm.trans live')
      refine ⟨?_, listens, isBound, fun c member => parented c (accepts c member)⟩
      exact (Function.update_of_ne same ..).trans usedBefore

theorem Kept.newChild (kept : Kept sockets s 0) {tsk : TcpSock} (state : tsk.state = .synRecv)
    (success : sockets.newChild inUse s child tsk = some next) :
    Kept next child 0 ∧ ¬ next.Hashed child ∧
      ∃ sock, next.socket child = some sock ∧ sock.tsk.state = .synRecv ∧ sock.parent = some s := by
  obtain ⟨allocated, bound', flag, listener, allocates, sets, liveListener, rfl⟩ :=
    newChild_some success
  obtain ⟨keptFirst, unused, unheld, ⟨sock, live, rfl, parent⟩, others⟩ :=
    kept.allocTcpSock (by simp [state]) (fun none => absurd none (by simp)) allocates
  have notBound : ¬ allocated.bindTable.Linked child := by
    intro linked
    simp only [Sockets.places, linked, if_true] at unheld
    omega
  have notHashed : ¬ allocated.Hashed child := by
    intro hashed
    simp only [Sockets.places, hashed, if_true] at unheld
    omega
  have keptBound := keptFirst.tcpSockSetSport (.inr notBound) sets
  obtain ⟨hashedSame, sock', live', state', parent'⟩ :
      (bound'.Hashed child ↔ allocated.Hashed child) ∧
      ∃ sock', bound'.socket child = some sock' ∧ sock'.tsk.state = sock.tsk.state ∧
        sock'.parent = sock.parent := by
    rcases tcpSockSetSport_some sets with ⟨-, rfl, -⟩ | ⟨-, -, sock', hash, live', rfl⟩
    · exact ⟨Iff.rfl, sock, live, rfl, rfl⟩
    · obtain rfl := Option.some.inj (live.symm.trans live')
      exact ⟨Iff.rfl, _, put_same _, rfl, rfl⟩
  have placed := keptBound.placed s listener liveListener
  have keptQueued : Kept (bound'.put s { listener with
      listenQueue := listener.listenQueue ++ [child] }) s 0 :=
    (keptBound.rebase s).put liveListener rfl id placed.listening
      (fun none connected => placed.bound none (.inr connected)) placed.accepted
  refine ⟨keptQueued.rebase child, fun hashed => notHashed (hashedSame.mp hashed), ?_⟩
  by_cases same : child = s
  · subst same
    obtain rfl := Option.some.inj (live'.symm.trans liveListener)
    exact ⟨_, put_same _, state'.trans state, parent'.trans parent⟩
  · refine ⟨sock', ?_, state'.trans state, parent'.trans parent⟩
    rw [put_socket, if_neg same]
    exact live'

/-- Clearing a queue without children in `SYN_RECV` only empties it. -/
theorem Kept.clearListenQueue (kept : Kept sockets s n) (live : sockets.socket s = some sock)
    {queue : List ι} (quiet : ∀ c ∈ queue, ∀ lsnTsk, sockets.socket c = some lsnTsk →
      lsnTsk.tsk.state ≠ .synRecv)
    (success : sockets.clearListenQueue s queue = some next) :
    Kept next s n ∧ (next.Hashed s ↔ sockets.Hashed s) ∧
      ∃ sock', next.socket s = some sock' ∧ sock'.tsk = sock.tsk := by
  induction queue generalizing sockets sock with
  | nil =>
      obtain rfl := Option.some.inj success
      exact ⟨kept, Iff.rfl, sock, live, rfl⟩
  | cons c rest ih =>
      obtain ⟨sock', lsnTsk, live', liveChild, way⟩ := clearListenQueue_cons success
      obtain rfl := Option.some.inj (live.symm.trans live')
      have before : ∀ c lsnTsk,
          (sockets.put s { sock with listenQueue := rest }).socket c = some lsnTsk →
            ∃ old, sockets.socket c = some old ∧ old.tsk = lsnTsk.tsk := by
        intro c lsnTsk stored
        rw [put_socket] at stored
        split_ifs at stored with same
        · obtain rfl := Option.some.inj stored
          exact ⟨sock, by rw [same]; exact live, rfl⟩
        · exact ⟨lsnTsk, stored, rfl⟩
      have stays : ∀ c ∈ rest, ∀ lsnTsk,
          (sockets.put s { sock with listenQueue := rest }).socket c = some lsnTsk →
            lsnTsk.tsk.state ≠ .synRecv := by
        intro c member lsnTsk stored
        obtain ⟨old, liveOld, same⟩ := before c lsnTsk stored
        rw [← same]
        exact quiet c (List.mem_cons_of_mem _ member) old liveOld
      have notSynRecv : lsnTsk.tsk.state ≠ .synRecv := by
        obtain ⟨old, liveOld, same⟩ := before c lsnTsk liveChild
        rw [← same]
        exact quiet c List.mem_cons_self old liveOld
      have later := (way.resolve_right fun waits => notSynRecv waits.1).2
      have placed := kept.placed s sock live
      have keptStored : Kept (sockets.put s { sock with listenQueue := rest }) s n :=
        kept.put live rfl id placed.listening
          (fun none connected => placed.bound none (.inr connected)) placed.accepted
      have cleared := ih keptStored (put_same _) stays later
      exact cleared

/-- Within a call the fields of a queue may change. -/
theorem Kept.putQueue (kept : Kept sockets s n) (live : sockets.socket s = some sock)
    {new : Socket ι} (tsk : new.tsk = sock.tsk) (parent : new.parent = sock.parent)
    (refCnt : new.refCnt = sock.refCnt) (accepted : ∀ c ∈ new.acceptQueue, Parented sockets c) :
    Kept (sockets.put s new) s n := by
  have placed := kept.placed s sock live
  refine kept.put live refCnt (fun none => by rw [← parent, none]) ?_ ?_ accepted
  · rw [tsk]
    exact placed.listening
  · rw [tsk, parent]
    exact fun none connected => placed.bound none (.inr connected)

theorem Kept.tcpSockAcceptEnqueue (kept : Kept sockets s 0)
    (success : sockets.tcpSockAcceptEnqueue s = some next) : Kept next s 0 := by
  obtain ⟨sock, live, success⟩ := Option.bind_eq_some_iff.mp success
  obtain ⟨p, parent, queues⟩ := Option.bind_eq_some_iff.mp success
  obtain ⟨listener, liveListener, rfl⟩ := update_some queues
  refine Kept.rebase (s := p) ?_ s
  refine (kept.rebase p).putQueue liveListener ?_ ?_ ?_ fun c member => ?_
  · rfl
  · rfl
  · rfl
  rcases List.mem_append.mp member with old | new
  · exact (kept.placed p listener liveListener).accepted c (List.mem_of_mem_filter old)
  · rw [List.mem_singleton.mp new]
    refine ⟨(kept.placed s sock live).used, fun sock' live' => ?_⟩
    obtain rfl := Option.some.inj (live.symm.trans live')
    simp [parent]

theorem Kept.tcpSockAccept (kept : Kept sockets s 0)
    (success : sockets.tcpSockAccept s = some next) : Kept next s 0 := by
  rcases tcpSockAccept_some success with
    rfl | ⟨sock, c, rest, acceptTsk, live, queue, liveChild, rfl⟩
  · exact kept
  · have placed := kept.placed s sock live
    have keptStored : Kept (sockets.put s { sock with
        acceptQueue := rest, acceptBacklog := sock.acceptBacklog - 1 }) s 0 := by
      refine kept.putQueue live rfl rfl rfl fun c member => placed.accepted c ?_
      rw [queue]
      exact List.mem_cons_of_mem _ member
    have hasParent : acceptTsk.parent ≠ none := by
      have parented := placed.accepted c (by rw [queue]; exact List.mem_cons_self)
      rw [put_socket] at liveChild
      split_ifs at liveChild with same
      · obtain rfl := Option.some.inj liveChild
        exact parented.2 sock (by rw [same]; exact live)
      · exact parented.2 acceptTsk liveChild
    have keptChild := keptStored.rebase c
    refine Kept.rebase (s := c) ?_ s
    refine keptChild.put liveChild ?_ ?_ ?_ ?_ ?_
    · rfl
    · exact id
    · simp [tcpSetState]
    · exact fun orphan => absurd orphan hasParent
    · exact (keptChild.placed c acceptTsk liveChild).accepted

/-- `tcp_sock_close`, when no child in `SYN_RECV` waits. -/
theorem Kept.tcpSockClose (kept : Kept sockets s 0) (live : sockets.socket s = some sock)
    (quietly : ClosesQuietly sockets s)
    (success : sockets.applyOutcome inUse s child (tcpSockClose sock.tsk) = some next) :
    Kept next s 0 := by
  by_cases listening : sock.tsk.state = .listen
  · obtain ⟨cleared, clears, taken⟩ := tcpSockClose_listening live listening success
    have placed := kept.placed s sock live
    have keptClosed : Kept (sockets.put s { sock with tsk := tcpSetState .closed sock.tsk }) s 0 := by
      refine kept.put live rfl id ?_ ?_ placed.accepted
      · simp [tcpSetState]
      · exact fun _ connected => absurd rfl connected.1
    have quiet : ∀ c ∈ sock.listenQueue, ∀ lsnTsk,
        (sockets.put s { sock with tsk := tcpSetState .closed sock.tsk }).socket c = some lsnTsk →
          lsnTsk.tsk.state ≠ .synRecv := by
      intro c member lsnTsk liveChild
      rw [put_socket] at liveChild
      split_ifs at liveChild
      · obtain rfl := Option.some.inj liveChild
        simp [tcpSetState]
      · exact quietly sock live listening c member lsnTsk liveChild
    obtain ⟨keptCleared, hashed, sock', live'', same⟩ :=
      keptClosed.clearListenQueue (put_same _) quiet clears
    refine keptCleared.tcpUnhash live'' (hashed.mpr (placed.listening listening)) ?_ taken
    rw [same]
    simp [tcpSetState]
  · exact kept.quiet live (quiet_tcpSockClose listening) (tcpSockClose_kept listening) success

theorem Kept.tcpSockListen (kept : Kept sockets s 0) {backlog : Int}
    (unhashed : ¬ sockets.Hashed s) (success : sockets.tcpSockListen s backlog = some next) :
    Kept next s 0 := by
  obtain ⟨stored, stores, hashes⟩ := Option.bind_eq_some_iff.mp success
  obtain ⟨sock, live, rfl⟩ := update_some stores
  refine kept.tcpHash live ?_ ?_ ?_ ?_ ?_ (.inl unhashed) hashes
  · rfl
  · exact id
  · exact fun _ connected => absurd rfl connected.2
  · exact (kept.placed s sock live).accepted
  · simp [tcpSetState]

/-- A tuple is taken by other sockets, or by the socket itself. -/
theorem Sockets.TupleTaken.of_others {localAddr peer : SockAddr} (taken : sockets.TupleTaken s localAddr peer)
    (table : next.establishedTable = sockets.establishedTable)
    (others : ∀ t, t ≠ s → next.socket t = sockets.socket t) :
    next.TupleTaken s localAddr peer := by
  obtain ⟨entry, member, hash, holds⟩ := taken
  refine ⟨entry, by rw [table]; exact member, hash, ?_⟩
  by_cases same : entry.2 = s
  · exact .inl same
  · right
    rw [Sockets.hasTuple, others entry.2 same]
    exact holds.resolve_left same

theorem Kept.tcpSockConnect (kept : Kept sockets s 0) {ip iss : UInt32} {skaddr : SockAddr}
    (free : PortFails inUse (tcpGetPort inUse) ∨ ¬ sockets.bindTable.Linked s ∧
      (¬ sockets.Hashed s ∨ sockets.TupleTaken s ⟨ip, tcpGetPort inUse⟩ skaddr))
    (success : sockets.tcpSockConnect inUse s ip skaddr iss = some next) : Kept next s 0 := by
  obtain ⟨sock, bound, flag, live, sets, way⟩ := tcpSockConnect_some success
  have keptStored : Kept (sockets.put s { sock with
      tsk := { sock.tsk with
        peer := skaddr, localAddr := { sock.tsk.localAddr with ip := ip } } }) s 0 :=
    kept.putTsk live (.inl rfl)
  have keptBound := Kept.tcpSockSetSport keptStored (free.imp_right And.left) sets
  rcases way with ⟨-, rfl⟩ | ⟨rfl, sock'', hashed, sent, liveBound, hashes, liveSent, sends⟩
  · exact keptBound
  rcases tcpSockSetSport_some sets with ⟨-, -, impossible⟩ | ⟨works, -, sock', hash, live', same⟩
  · cases impossible
  · obtain rfl := Option.some.inj ((put_same _).symm.trans live')
    obtain ⟨localAddr, peer⟩ : sock''.tsk.localAddr = ⟨ip, tcpGetPort inUse⟩ ∧
        sock''.tsk.peer = skaddr := by
      have isSock := liveBound
      rw [same] at isSock
      rw [← Option.some.inj ((put_same _).symm.trans isSock)]
      simp
    have linked : bound.bindTable.Linked s := by
      rw [same]
      exact linked_cons.mpr (.inl rfl)
    have others : ∀ t, t ≠ s → bound.socket t = sockets.socket t := by
      intro t other
      rw [same]
      exact ((put_socket _ t).trans (if_neg other)).trans ((put_socket _ t).trans (if_neg other))
    have unhashed : ¬ bound.Hashed s ∨ bound.TupleTaken s ⟨ip, tcpGetPort inUse⟩ skaddr := by
      refine (free.resolve_left works).2.imp (fun notHashed => ?_) fun taken => ?_
      · rw [same]
        exact notHashed
      · refine taken.of_others ?_ others
        rw [same]
        rfl
    have keptHashed : Kept hashed s 0 := by
      refine keptBound.tcpHash liveBound ?_ ?_ (fun _ _ => linked) ?_ ?_ ?_ hashes
      · rfl
      · exact id
      · exact (keptBound.placed s sock'' liveBound).accepted
      · simp
      · refine unhashed.imp_right fun taken => ⟨by simp, ?_⟩
        simp only [localAddr, peer]
        exact taken.of_others rfl fun t other => (put_socket _ t).trans (if_neg other)
    exact keptHashed.quiet liveSent (quiet_tcpSendControlPacket _ _)
      (.inl (tcpSendControlPacket_state _ _)) sends

/-- `tcp_process`, when it neither releases a socket by force nor sets a timer twice. -/
theorem Kept.processed {cb : TcpCb} (kept : Kept sockets s 0) (live : sockets.socket s = some sock)
    (hashed : sockets.Hashed s)
    (noReset : Open sock.tsk → hasFlag cb.flags TCP_RST = false)
    (oneTimer : sock.tsk.state = .finWait2 → cb.flags = TCP_ACK ||| TCP_FIN →
      s ∉ sockets.timewait)
    (processed : Processed cb sock.tsk outcome)
    (success : sockets.applyOutcome inUse s child outcome = some next) : Kept next s 0 := by
  cases processed with
  | quiet quiet state => exact kept.quiet live quiet state success
  | child listening tsk effects quiet state same =>
      obtain ⟨sock', live', runs⟩ := applyOutcome_run success
      obtain rfl := Option.some.inj (live.symm.trans live')
      rw [same] at runs
      rw [put_self live] at runs
      obtain ⟨queued, queues, hashes⟩ := run_cons_some _ runs
      obtain ⟨keptQueued, notHashed, childSock, liveChild, synRecv, parent⟩ :=
        kept.newChild state queues
      obtain ⟨sent, middle, sent', taken, rfl⟩ := run_amid quiet (by simp) hashes
      have unchanged : Sockets.put child childSock { queued with sent := sent } =
          { queued with sent := sent } := put_self liveChild
      have keptHashed : Kept middle child 0 := by
        refine (keptQueued.sent sent).tcpHash liveChild rfl id ?_ ?_ ?_ (.inl notHashed)
          (by rw [unchanged]; exact taken)
        · exact fun orphan => absurd orphan (by simp [parent])
        · exact ((keptQueued.sent sent).placed child childSock liveChild).accepted
        · simp [synRecv]
      exact (keptHashed.rebase s).sent sent'
  | reset opened rst same => simp [noReset opened] at rst
  | enqueue state rst syn ack acked quiet stays same =>
      obtain ⟨sock', live', runs⟩ := applyOutcome_run success
      obtain rfl := Option.some.inj (live.symm.trans live')
      have effects : outcome.effects =
          acked.effects ++ .acceptEnqueue :: [.wakeUp .parentWaitAccept] := by simp [same]
      have stateKept : StateKept sock.tsk outcome.tsk := by
        rw [same]
        exact .inl (stays.trans state.symm)
      rw [effects] at runs
      obtain ⟨sent, middle, sent', taken, rfl⟩ := run_amid quiet (by simp [Effect.quiet]) runs
      exact (((kept.putTsk live stateKept).sent sent).tcpSockAcceptEnqueue taken).sent sent'
  | timewait state flags before quiet stays same =>
      obtain ⟨sock', live', runs⟩ := applyOutcome_run success
      obtain rfl := Option.some.inj (live.symm.trans live')
      have stateKept : StateKept sock.tsk outcome.tsk := by
        rw [same]
        exact .inl (stays.trans state.symm)
      rw [same, Outcome.emit_effects] at runs
      obtain ⟨sent, middle, sent', taken, rfl⟩ := run_amid quiet (by simp) runs
      refine (((kept.putTsk live ?_).sent sent).tcpSetTimewaitTimer (put_same _) ?_
        (oneTimer state flags) taken).sent sent'
      · rw [← same]
        exact stateKept
      · simp [Connected, stays]
  | unhash state acked quiet stays same =>
      obtain ⟨sock', live', runs⟩ := applyOutcome_run success
      obtain rfl := Option.some.inj (live.symm.trans live')
      rw [same, Outcome.emit_effects] at runs
      obtain ⟨sent, middle, sent', taken, rfl⟩ := run_amid quiet (by simp) runs
      have keptClosed : Kept (sockets.put s { sock with tsk := acked.tsk }) s 0 := by
        refine kept.put live rfl id ?_ ?_ (kept.placed s sock live).accepted
        · simp [stays]
        · exact fun _ connected => absurd stays connected.1
      refine ((keptClosed.sent sent).tcpUnhash (put_same _) hashed ?_ taken).sent sent'
      simp [stays]

theorem freeTcpSock_of (live : sockets.socket s = some sock) (more : ¬ sock.refCnt - 1 ≤ 0) :
    sockets.freeTcpSock s = some (sockets.put s { sock with refCnt := sock.refCnt - 1 }) := by
  simp only [Sockets.freeTcpSock, live, Option.map_some, if_neg more, Sockets.put]

theorem freeTcpSock_live {after : Socket ι} (live : sockets.socket s = some sock)
    (success : sockets.freeTcpSock s = some next) (still : next.socket s = some after) :
    ¬ sock.refCnt - 1 ≤ 0 ∧ next = sockets.put s { sock with refCnt := sock.refCnt - 1 } := by
  by_cases last : sock.refCnt - 1 ≤ 0
  · simp only [Sockets.freeTcpSock, live, Option.map_some, if_pos last] at success
    obtain rfl := Option.some.inj success
    simp at still
  · rw [freeTcpSock_of live last] at success
    exact ⟨last, (Option.some.inj success).symm⟩

theorem release_some {before : Socket ι} (live : sockets.socket s = some before)
    (success : sockets.release s = some next) :
    (sockets.put s { before with tsk := tcpSetState .closed before.tsk }).freeTcpSock s =
      some next := by
  obtain ⟨closed, closes, frees⟩ := Option.bind_eq_some_iff.mp success
  obtain ⟨sock, live', rfl⟩ := update_some closes
  obtain rfl := Option.some.inj (live.symm.trans live')
  exact frees

theorem Kept.timewaitExpires (kept : Kept sockets s 0)
    (success : sockets.timewaitExpires s = some next) : Kept next s 0 := by
  unfold Sockets.timewaitExpires at success
  split_ifs at success with pending
  obtain ⟨sock, live, success⟩ := Option.bind_eq_some_iff.mp success
  have placed := kept.placed s sock live
  have keptClosed : Kept ((sockets.deleteTimewait s).put s
      { sock with tsk := tcpSetState .closed sock.tsk }) s 1 := by
    have keptFirst := kept.deleteTimewait live pending
    refine keptFirst.put live rfl id ?_ ?_ (keptFirst.placed s sock live).accepted
    · simp [tcpSetState]
    · exact fun _ connected => absurd rfl connected.1
  have liveFirst : (sockets.deleteTimewait s).socket s = some sock := live
  split_ifs at success with orphan
  · -- the state is set between the two releases; with it set first, both are plain
    obtain ⟨unbound, unbinds, releases⟩ := Option.bind_eq_some_iff.mp success
    obtain ⟨sock', live', frees⟩ := Option.bind_eq_some_iff.mp unbinds
    split_ifs at frees
    have linked := placed.bound (Option.isNone_iff_eq_none.mp orphan) (.inl pending)
    have keptUnlinked := keptClosed.deleteBindHashList (put_same _) linked
      (by simp [Sockets.deleteTimewait, Sockets.put]) (by simp [Connected, tcpSetState])
    obtain ⟨closed, closes, -⟩ := Option.bind_eq_some_iff.mp releases
    obtain ⟨still, liveStill, -⟩ := update_some closes
    have liveUnlinked : ((sockets.deleteTimewait s).deleteBindHashList s).socket s = some sock :=
      live
    obtain ⟨more, rfl⟩ := freeTcpSock_live liveUnlinked frees liveStill
    have keptOnce := keptUnlinked.free (freeTcpSock_of (put_same _) more)
    have last := release_some (put_same _) releases
    rw [put_put] at last
    have commutes : ∀ new : Socket ι, ((((sockets.deleteTimewait s).put s
        { sock with tsk := tcpSetState .closed sock.tsk }).deleteBindHashList s).put s new) =
        ((sockets.deleteTimewait s).deleteBindHashList s).put s new := by
      intro new
      simp [Sockets.put, Sockets.deleteBindHashList]
    rw [commutes] at keptOnce
    exact keptOnce.free last
  · exact keptClosed.free (release_some liveFirst success)

end Operations

/-- In every run whose calls are balanced, every socket is counted once for each place
that holds it, and released only when no place does. -/
theorem reference_counts (events : List (SocketsEvent ι))
    (balanced : Guarded socketsStep Balanced (noSockets : Sockets ι) events) :
    Always socketsStep Accounted (noSockets : Sockets ι) events := by
  have preserved : ∀ (sockets : Sockets ι) event next, (∀ s, Kept sockets s 0) → Balanced sockets event →
      socketsStep sockets event = some next → ∀ s, Kept next s 0 := by
    intro sockets event next kept balanced taken
    suffices some_kept : ∃ s, Kept next s 0 from fun t => some_kept.elim fun _ kept => kept.rebase t
    cases event with
    | alloc s =>
        have allocated := (kept s).allocTcpSock (by simp [allocTcpSock])
          (by simp [Connected, allocTcpSock]) taken
        exact ⟨s, allocated.1⟩
    | bind s port inUse =>
        obtain ⟨⟨bound, flag⟩, sets, rfl⟩ := Option.map_eq_some_iff.mp taken
        exact ⟨s, (kept s).tcpSockSetSport balanced sets⟩
    | listen s backlog => exact ⟨s, (kept s).tcpSockListen balanced taken⟩
    | connect s ip skaddr iss inUse => exact ⟨s, (kept s).tcpSockConnect balanced taken⟩
    | accept s => exact ⟨s, (kept s).tcpSockAccept taken⟩
    | send s payload =>
        obtain ⟨sock, live, calls⟩ := Option.bind_eq_some_iff.mp taken
        exact ⟨s, (kept s).quiet live (quiet_tcpSendPacket _ _) (.inl rfl) calls⟩
    | close s =>
        obtain ⟨sock, live, calls⟩ := Option.bind_eq_some_iff.mp taken
        exact ⟨s, (kept s).tcpSockClose live balanced calls⟩
    | packet cb child iss inUse =>
        obtain ⟨s, found, taken⟩ := Option.bind_eq_some_iff.mp taken
        obtain ⟨sock, live, taken⟩ := Option.bind_eq_some_iff.mp taken
        obtain ⟨outcome, processes, applies⟩ := Option.bind_eq_some_iff.mp taken
        obtain ⟨noReset, oneTimer⟩ := balanced s found sock live
        exact ⟨s, (kept s).processed live (lookup_mem found) noReset oneTimer
          (tcpProcess_processed processes) applies⟩
    | timewaitExpires s => exact ⟨s, (kept s).timewaitExpires taken⟩
    | givesUp s =>
        obtain ⟨sock, live, calls⟩ := Option.bind_eq_some_iff.mp taken
        exact ⟨s, (kept s).tcpSockClose live balanced calls⟩
  have start : ∀ s, Kept (noSockets : Sockets ι) s 0 := by
    intro s
    refine ⟨?_, fun t _ => ?_, ?_⟩
    · rintro t sock ⟨⟩
    · simp [Sockets.places, Sockets.Hashed, HashTable.Linked, noSockets]
    · rintro t sock ⟨⟩
  refine always_mono socketsStep (fun sockets kept => ?_) events
    (always_of_guarded socketsStep preserved events start balanced)
  exact ⟨fun s => (kept s).accounted.live s, fun s => (kept s).accounted.released s⟩

def bareSegment (flags : UInt8) (seq ack : UInt32) : TcpCb :=
  bareCb seq flags { tcpCbInit (buildSegment allocTcpSock 0 []) with
    saddr := 0x0a000001, daddr := 0x0a000002, sport := 12345, dport := 80, ack := ack }

/-- A server accepts a connection, which its client closes, and stops listening. -/
def serverCalls : List (SocketsEvent Nat) :=
  let inUse : UInt16 → Bool := fun _ => false
  [.alloc 0, .bind 0 80 inUse, .listen 0 5,
    .packet (bareSegment TCP_SYN 100 0) 1 700 inUse,
    .packet (bareSegment TCP_ACK 101 701) 1 0 inUse, .accept 0,
    .packet (bareSegment (TCP_FIN ||| TCP_ACK) 101 701) 1 0 inUse,
    .packet (bareSegment TCP_ACK 102 702) 1 0 inUse, .close 0]

theorem reference_counts_server :
    Always socketsStep Accounted (noSockets : Sockets Nat) serverCalls :=
  reference_counts serverCalls (by decide)

/-- The client of an established connection resets it: the child loses a reference, and
stays in both tables. -/
theorem reset_drops_reference : ¬ Always socketsStep Accounted (noSockets : Sockets Nat)
    (serverCalls.take 6 ++ [.packet (bareSegment TCP_RST 101 701) 1 0 fun _ => false]) := by
  intro always
  have last := (always_last socketsStep _ always rfl).live 1 _ rfl
  revert last
  decide

end NetworkLab.Tcp
