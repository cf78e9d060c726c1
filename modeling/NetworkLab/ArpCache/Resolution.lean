import NetworkLab.ArpCache.Accounts

/-!
# Packets that wait are sent in the end

The nodes of a link when no frame is lost: for every request that waits there is an ARP request
or a reply to it under way, and every packet is in one place.  Each node asks for an address by
one interface only, as its routing table says; otherwise `arpcache_insert` may answer the request
of another interface.
-/
set_option autoImplicit false

namespace NetworkLab.ArpCache

open Lib Lib.Run

def LanEvent.Keeps {Node Port Link : Type} (L : Lan Node Port Link)
    (via : Node → UInt32 → Port) : LanEvent Node Port → Prop
  | .ask p dstIp _ => p = via (L.node p) dstIp
  | .lose _ => False
  | .duplicate _ => False
  | _ => True

/-! ## The requests of a node -/

section Orderly

variable {Node Port Link : Type}

/-- At most one request for an address, by the interface that is used for it. -/
structure Orderly (L : Lan Node Port Link) (via : Node → UInt32 → Port) (n : Node)
    (reqList : List ArpReq) : Prop where
  routed : ∀ req ∈ reqList, req.iface = (L.iface (via n req.ip4)).toIfaceInfo
  single : (reqList.map ArpReq.ip4).Nodup

variable {L : Lan Node Port Link} {via : Node → UInt32 → Port} {n : Node} {reqList : List ArpReq}

theorem append_sought (now : Int) (iface : IfaceInfo) (ip4 : UInt32) (number : Nat)
    (packet : List UInt8) (reqList : List ArpReq) :
    let outcome := arpcacheAppendPacket now iface ip4 number packet reqList
    ∀ req ∈ outcome.1, (∃ old ∈ reqList, old.iface = req.iface ∧ old.ip4 = req.ip4) ∨
      ArpEffect.arpSendRequest req.number req.iface req.ip4 ∈ outcome.2 := by
  dsimp only
  unfold arpcacheAppendPacket
  intro req member
  cases joined : joinRequest iface ip4 number packet reqList with
  | some next =>
      obtain ⟨before, found, rest, rfl, -, rfl⟩ := joinRequest_some joined
      rw [joined] at member
      left
      rcases List.mem_append.mp member with earlier | later
      · exact ⟨req, by simp [earlier], rfl, rfl⟩
      rcases List.mem_cons.mp later with rfl | behind
      · exact ⟨found, by simp, rfl, rfl⟩
      · exact ⟨req, by simp [behind], rfl, rfl⟩
  | none =>
      rw [joined] at member
      rcases List.mem_cons.mp member with rfl | old
      · exact Or.inr (List.mem_singleton.mpr rfl)
      · exact Or.inl ⟨req, old, rfl, rfl⟩

theorem Orderly.append (orderly : Orderly L via n reqList) {p : Port} {ip4 : UInt32}
    (used : p = via n ip4) (now : Int) (number : Nat) (packet : List UInt8) :
    Orderly L via n
      (arpcacheAppendPacket now (L.iface p).toIfaceInfo ip4 number packet reqList).1 := by
  unfold arpcacheAppendPacket
  cases joined : joinRequest (L.iface p).toIfaceInfo ip4 number packet reqList with
  | some next =>
      obtain ⟨before, req, rest, rfl, -, rfl⟩ := joinRequest_some joined
      constructor
      · intro other member
        rcases List.mem_append.mp member with earlier | later
        · exact orderly.routed other (by simp [earlier])
        rcases List.mem_cons.mp later with rfl | behind
        · exact orderly.routed req (by simp)
        · exact orderly.routed other (by simp [behind])
      · simpa using orderly.single
  | none =>
      constructor
      · intro req member
        rcases List.mem_cons.mp member with rfl | old
        · rw [used]
        · exact orderly.routed req old
      · refine List.nodup_cons.mpr ⟨?_, orderly.single⟩
        intro again
        obtain ⟨req, member, same⟩ := List.mem_map.mp again
        have iface := orderly.routed req member
        rw [same, ← used] at iface
        exact joinRequest_none joined req member (Prod.ext (congrArg IfaceInfo.index iface) same)

theorem Orderly.sublist (orderly : Orderly L via n reqList) {rest : List ArpReq}
    (part : rest.Sublist reqList) : Orderly L via n rest :=
  ⟨fun req member => orderly.routed req (part.subset member),
    orderly.single.sublist (part.map ArpReq.ip4)⟩

theorem sweepScan_kept (now : Int) (reqList : List ArpReq) :
    ∃ kept : List ArpReq, kept.Sublist reqList ∧
      (sweepScan now reqList).1.map ArpReq.ip4 = kept.map ArpReq.ip4 ∧
      ∀ req ∈ (sweepScan now reqList).1,
        ∃ old ∈ kept, old.iface = req.iface ∧ old.ip4 = req.ip4 := by
  induction reqList with
  | nil => exact ⟨[], .slnil, rfl, fun req none => absurd none List.not_mem_nil⟩
  | cons req rest ih =>
      obtain ⟨kept, part, same, old⟩ := ih
      have later : ∀ other ∈ (sweepScan now rest).1,
          ∃ before ∈ req :: kept, before.iface = other.iface ∧ before.ip4 = other.ip4 := by
        intro other member
        obtain ⟨before, there, rest⟩ := old other member
        exact ⟨before, List.mem_cons_of_mem req there, rest⟩
      rcases sweepScan_cons now req rest with early | again | given
      · rw [early]
        refine ⟨req :: kept, part.cons_cons req, ?_, ?_⟩
        · rw [List.map_cons, List.map_cons, same]
        · exact List.forall_mem_cons.mpr ⟨⟨req, List.mem_cons_self, rfl, rfl⟩, later⟩
      · rw [again]
        refine ⟨req :: kept, part.cons_cons req, ?_, ?_⟩
        · rw [List.map_cons, List.map_cons, same]
        · exact List.forall_mem_cons.mpr ⟨⟨req, List.mem_cons_self, rfl, rfl⟩, later⟩
      · rw [given]
        exact ⟨kept, part.cons req, same, old⟩

theorem Orderly.sweep (orderly : Orderly L via n reqList) (now : Int) :
    Orderly L via n (sweepRound now reqList).1 := by
  obtain ⟨kept, part, same, old⟩ := sweepScan_kept now reqList
  constructor
  · intro req member
    obtain ⟨before, there, iface, ip4⟩ := old req member
    rw [← iface, ← ip4]
    exact orderly.routed before (part.subset there)
  · change ((sweepScan now reqList).1.map ArpReq.ip4).Nodup
    rw [same]
    exact orderly.single.sublist (part.map ArpReq.ip4)

end Orderly

/-! ## What is under way -/

section Under

variable {Node Port Link : Type} (L : Lan Node Port Link)

/-- The interface `p` asks for the address of `q`, or `q` answers `p`. -/
def Sought (p q : Port) (copy : Copy Port) : Prop :=
  (copy.port = q ∧ copy.frame = arpSendRequest (L.iface p) (L.iface q).ip) ∨
    (copy.port = p ∧ copy.frame = replyFrame (L.iface q) (L.iface p))

/-- If an interface on the link has the address that the node asks for, a frame is under way. -/
def Seeks (frames : List (Copy Port)) (n : Node) (req : ArpReq) : Prop :=
  ∀ p q, L.node p = n → req.iface = (L.iface p).toIfaceInfo → (L.iface q).ip = req.ip4 → q ≠ p →
    L.link q = L.link p → ∃ copy ∈ frames, Sought L p q copy

def Seeking (state : State Node Port) : Prop :=
  ∀ n, ∀ req ∈ (state.caches n).reqList, Seeks L state.inFlight n req

variable {L} {state next : State Node Port} {n : Node}

theorem Seeks.mono {frames more : List (Copy Port)} {req other : ArpReq}
    (seeks : Seeks L frames n req) (iface : req.iface = other.iface) (ip4 : req.ip4 = other.ip4)
    (within : ∀ copy ∈ frames, copy ∈ more) : Seeks L more n other := by
  intro p q own isIface address unlike linked
  obtain ⟨copy, member, sought⟩ :=
    seeks p q own (iface.trans isIface) (address.trans ip4.symm) unlike linked
  exact ⟨copy, within copy member, sought⟩

variable [DecidableEq Node] [DecidableEq Port] [DecidableEq Link]

theorem Seeking.settle (seeking : Seeking L state) {cache : Cache} {effects : List ArpEffect}
    (own : ∀ req ∈ cache.reqList,
      (∃ old ∈ (state.caches n).reqList, old.iface = req.iface ∧ old.ip4 = req.ip4) ∨
        ArpEffect.arpSendRequest req.number req.iface req.ip4 ∈ effects) :
    Seeking L (L.settle state n cache effects) := by
  have grows : ∀ copy ∈ state.inFlight, copy ∈ (L.settle state n cache effects).inFlight :=
    fun copy member => List.mem_append_left _ member
  intro m req member
  by_cases same : m = n
  · subst same
    simp only [Lan.settle, Function.update_self] at member
    rcases own req member with ⟨old, there, iface, ip4⟩ | sent
    · exact (seeking m old there).mono iface ip4 grows
    · intro p q onNode isIface address other linked
      have emitted : (⟨q, arpSendRequest (L.iface p) req.ip4, none⟩ : Copy Port) ∈
          L.emits m (.arpSendRequest req.number req.iface req.ip4) := by
        rw [isIface]
        simp only [Lan.emits, portOf_eq onNode, Option.toList_some, List.flatMap_singleton]
        exact mem_copies.mpr ⟨⟨other, linked⟩, rfl, rfl⟩
      exact ⟨_, List.mem_append_right _ (List.mem_flatMap.mpr ⟨_, sent, emitted⟩),
        Or.inl ⟨rfl, by rw [address]⟩⟩
  · simp only [Lan.settle, Function.update_of_ne same] at member
    exact (seeking m req member).mono rfl rfl grows

/-- The frame that was under way leads to the next one, or to the answer. -/
theorem handled_seeks {copy : Copy Port} {now : Int} {rand : Nat} {p q : Port}
    (single : ((state.caches (L.node p)).reqList.map ArpReq.ip4).Nodup)
    (handled : L.handlePacket state copy now rand = some next) (sought : Sought L p q copy)
    (other : q ≠ p) (linked : L.link q = L.link p) :
    (∃ copy ∈ next.inFlight, Sought L p q copy) ∨
      ∀ req ∈ (next.caches (L.node p)).reqList, req.ip4 ≠ (L.iface q).ip := by
  rcases sought with ⟨rfl, frame⟩ | ⟨rfl, frame⟩
  · rw [handlePacket_request now rand frame, if_pos rfl] at handled
    refine Or.inl ⟨⟨p, replyFrame (L.iface copy.port) (L.iface p), none⟩, ?_, Or.inr ⟨rfl, rfl⟩⟩
    exact (learn_progress handled).inFlight _ (List.mem_append_right _
      (mem_copies.mpr ⟨⟨Ne.symm other, linked.symm⟩, rfl, rfl⟩))
  · rw [handlePacket_reply now rand frame, if_pos rfl] at handled
    obtain ⟨cache, effects, kept, sent, -, rfl⟩ := learn_settles handled
    right
    simp only [Lan.settle, Function.update_self, kept]
    rw [insertScan_answers]
    have once := List.nodup_iff_count_le_one.mp single (L.iface q).ip
    rw [List.count, List.countP_map] at once
    exact le_trans (le_of_eq (List.countP_congr fun req _ => by simp)) once

end Under

/-! ## Steps -/

section Steps

variable {Node Port Link : Type} [DecidableEq Node] [DecidableEq Port] [DecidableEq Link]

/-- No frame is lost or doubled, so every request is answered. -/
structure Resolving (L : Lan Node Port Link) (via : Node → UInt32 → Port)
    (state : State Node Port) : Prop where
  accounted : Accounted L state
  waiting : ∀ call ∈ state.waiting, call.port = via (L.node call.port) call.dstIp
  orderly : ∀ n, Orderly L via n (state.caches n).reqList
  seeking : Seeking L state

variable {L : Lan Node Port Link} {via : Node → UInt32 → Port} {state next : State Node Port}

omit [DecidableEq Node] [DecidableEq Link] in
theorem resolving_initial : Resolving L via State.initial where
  accounted := accounted_initial
  waiting call member := by cases member
  orderly n := ⟨(fun req member => by cases member), List.nodup_nil⟩
  seeking n req member := by cases member

theorem Resolving.ask (resolving : Resolving L via state) {p : Port} {dstIp : UInt32}
    {packet : List UInt8} (used : p = via (L.node p) dstIp)
    (taken : L.step state (.ask p dstIp packet) = some next) : Resolving L via next := by
  have accounted := resolving.accounted.ask taken
  simp only [Lan.step, Option.bind_eq_bind, Option.bind_eq_some_iff] at taken
  obtain ⟨call, prepared, taken⟩ := taken
  cases call with
  | ifaceSendPacket frame =>
      rw [← Option.some.inj taken] at accounted ⊢
      refine ⟨accounted, resolving.waiting, resolving.orderly, ?_⟩
      intro n req member
      exact (resolving.seeking n req member).mono rfl rfl
        fun copy flying => List.mem_append_left _ flying
  | arpcacheAppendPacket pending =>
      rw [← Option.some.inj taken] at accounted ⊢
      refine ⟨accounted, ?_, resolving.orderly, resolving.seeking⟩
      intro call member
      rcases List.mem_append.mp member with old | new
      · exact resolving.waiting call old
      · cases List.mem_singleton.mp new
        exact used

theorem Resolving.append (resolving : Resolving L via state) {k : Nat} {now : Int}
    (taken : L.step state (.append k now) = some next) : Resolving L via next := by
  have accounted := resolving.accounted.append taken
  simp only [Lan.step, Option.bind_eq_bind, Option.bind_eq_some_iff] at taken
  obtain ⟨call, here, taken⟩ := taken
  have member := List.mem_of_getElem? here
  let reqList := (state.caches (L.node call.port)).reqList
  let rest := { state with waiting := state.waiting.eraseIdx k }
  have sought := append_sought now (L.iface call.port).toIfaceInfo call.dstIp call.serial
    call.packet reqList
  have orderly := (resolving.orderly (L.node call.port)).append (resolving.waiting call member) now
    call.serial call.packet
  rw [← Option.some.inj taken] at accounted ⊢
  refine ⟨accounted, ?_, ?_, ?_⟩
  · exact fun other later => resolving.waiting other (List.mem_of_mem_eraseIdx later)
  · intro n
    by_cases same : n = L.node call.port
    · subst same
      simp only [Lan.settle, Function.update_self]
      exact orderly
    · simp only [Lan.settle, Function.update_of_ne same]
      exact resolving.orderly n
  · have seeking : Seeking L rest := resolving.seeking
    exact seeking.settle sought

theorem Resolving.deliver (resolving : Resolving L via state) {k : Nat} {now : Int} {rand : Nat}
    (taken : L.step state (.deliver k now rand) = some next) : Resolving L via next := by
  have accounted := resolving.accounted.deliver taken
  have progress := deliver_progress resolving.accounted.truthful taken
  simp only [Lan.step, Option.bind_eq_bind, Option.bind_eq_some_iff] at taken
  obtain ⟨copy, here, handled⟩ := taken
  let rest := { state with inFlight := state.inFlight.eraseIdx k }
  refine ⟨accounted, ?_, ?_, ?_⟩
  · rw [progress.waiting]
    exact resolving.waiting
  · exact fun n => (resolving.orderly n).sublist (progress.requests n)
  · intro n req member p q own isIface address other linked
    obtain ⟨under, flying, sought⟩ := resolving.seeking n req ((progress.requests n).subset member)
      p q own isIface address other linked
    rcases mem_eraseIdx_append here flying with stays | rfl
    · exact ⟨under, progress.inFlight under stays, sought⟩
    · subst own
      have single : ((rest.caches (L.node p)).reqList.map ArpReq.ip4).Nodup :=
        (resolving.orderly (L.node p)).single
      rcases handled_seeks single handled sought other linked with goesOn | answered
      · exact goesOn
      · exact absurd address.symm (answered req member)

theorem Resolving.ignore (resolving : Resolving L via state) {k : Nat}
    (taken : L.step state (.ignore k) = some next) : Resolving L via next := by
  have spares : (LanEvent.ignore k : LanEvent Node Port).Spares state := trivial
  have accounted := step_accounted resolving.accounted spares taken
  simp only [Lan.step, Option.bind_eq_bind, Option.bind_eq_some_iff] at taken
  obtain ⟨copy, here, taken⟩ := taken
  split_ifs at taken with foreign
  rw [← Option.some.inj taken] at accounted ⊢
  refine ⟨accounted, resolving.waiting, resolving.orderly, ?_⟩
  intro n req member p q own isIface address other linked
  obtain ⟨under, flying, sought⟩ :=
    resolving.seeking n req member p q own isIface address other linked
  rcases mem_eraseIdx_append here flying with stays | rfl
  · exact ⟨under, stays, sought⟩
  -- a request goes to everyone, and a reply to the interface that asked
  · exfalso
    rcases sought with ⟨-, frame⟩ | ⟨rfl, frame⟩
    · exact foreign.2 (by rw [frame]; exact readMac_etherDhost _ _ _ _)
    · exact foreign.1 (by rw [frame]; exact readMac_etherDhost _ _ _ _)

theorem Resolving.sweep (resolving : Resolving L via state) {n : Node} {now : Int}
    (taken : L.step state (.sweep n now) = some next) : Resolving L via next := by
  have accounted := resolving.accounted.sweep taken
  rw [← Option.some.inj taken] at accounted ⊢
  refine ⟨accounted, resolving.waiting, ?_, ?_⟩
  · intro m
    by_cases same : m = n
    · subst same
      simp only [Lan.settle, Function.update_self]
      exact (resolving.orderly m).sweep now
    · simp only [Lan.settle, Function.update_of_ne same]
      exact resolving.orderly m
  · refine resolving.seeking.settle fun req member => Or.inl ?_
    obtain ⟨kept, part, -, old⟩ := sweepScan_kept now (state.caches n).reqList
    obtain ⟨before, there, same⟩ := old req member
    exact ⟨before, part.subset there, same⟩

theorem step_resolving {event : LanEvent Node Port} (resolving : Resolving L via state)
    (keeps : event.Keeps L via) (taken : L.step state event = some next) :
    Resolving L via next := by
  cases event with
  | ask p dstIp packet => exact resolving.ask keeps taken
  | append k now => exact resolving.append taken
  | deliver k now rand => exact resolving.deliver taken
  | ignore k => exact resolving.ignore taken
  | lose k => exact keeps.elim
  | duplicate k => exact keeps.elim
  | sweep n now => exact resolving.sweep taken

theorem run_resolving {final : State Node Port} (events : List (LanEvent Node Port))
    (keeps : ∀ event ∈ events, event.Keeps L via)
    (success : run L.step State.initial events = some final) : Resolving L via final :=
  invariant_guarded_run L.step
    (fun _ _ _ resolving condition taken => step_resolving resolving condition taken) events
    resolving_initial (guarded_of_forall L.step events keeps) success

omit [DecidableEq Node] [DecidableEq Link] in
/-- Nothing waits for an address on the link when no frame is under way. -/
theorem Resolving.nothing_waits (resolving : Resolving L via state) (quiet : state.inFlight = [])
    {serial : Nat} {ask : Ask Port} {q : Port} (isAsked : state.asked[serial]? = some ask)
    (meant : Meant L ask q) :
    pendingCount serial (state.caches (L.node ask.port)).reqList = 0 := by
  rw [pendingCount, List.countP_eq_zero]
  intro pkt member same
  obtain ⟨req, isReq, waits⟩ := List.mem_flatMap.mp member
  obtain ⟨p, filing⟩ := resolving.accounted.truthful.requests _ req isReq
  obtain ⟨asker, isAsker, onPort, forIp, -⟩ := filing.packets pkt waits
  rw [of_decide_eq_true same, isAsked] at isAsker
  obtain rfl := Option.some.inj isAsker
  subst onPort
  obtain ⟨under, flying, -⟩ := resolving.seeking _ req isReq ask.port q filing.node filing.iface
    (meant.address.trans forIp) meant.other meant.linked
  rw [quiet] at flying
  cases flying

end Steps

/-- When no frame is lost and every packet for an address leaves by one interface, then once
nothing is under way each packet for an interface on the link has come to it exactly once, behind
a header with the two addresses, unless the sweep has given it up, and then exactly once. -/
theorem packets_arrive_once {Node Port Link : Type} [DecidableEq Node] [DecidableEq Port]
    [DecidableEq Link] (L : Lan Node Port Link) (via : Node → UInt32 → Port)
    (events : List (LanEvent Node Port)) (keeps : ∀ event ∈ events, event.Keeps L via)
    (final : State Node Port) (success : run L.step State.initial events = some final)
    (quiet : final.inFlight = []) (settled : final.waiting = []) (serial : Nat) (ask : Ask Port)
    (isAsked : final.asked[serial]? = some ask) (q : Port) (meant : Meant L ask q) :
    final.received.countP (Copy.holds q serial) + final.refused.count serial = 1 ∧
      ∀ copy ∈ final.received, copy.holds q serial →
        copy.frame = ipFrame (L.iface q).mac (L.iface ask.port).mac ask.packet := by
  have resolving := run_resolving events keeps success
  constructor
  · have once := resolving.accounted.once serial ask q isAsked meant
    have nothing := resolving.nothing_waits quiet isAsked meant
    simp only [State.places, nothing, quiet, settled, List.countP_nil] at once
    omega
  · intro copy member holds
    have same : copy.port = q ∧ copy.serial = some serial := by simpa [Copy.holds] using holds
    obtain ⟨number, asker, target, carries⟩ := resolving.accounted.truthful.received copy member
    have isAsker := carries.isAsked
    rw [Option.some.inj (carries.numbered.symm.trans same.2), isAsked] at isAsker
    obtain rfl := Option.some.inj isAsker
    obtain rfl := L.ip_injective q target (meant.address.trans carries.address.symm)
    exact carries.frame

theorem packets_arrive_once_twoHosts :
    exchanged.received.countP (Copy.holds 1 0) + exchanged.refused.count 0 = 1 := by
  have quiet : exchanged.inFlight.length = 0 := by decide +kernel
  have settled : exchanged.waiting.length = 0 := by decide +kernel
  have asked : exchanged.asked.map (fun ask => (ask.port, ask.dstIp)) = [(0, 0x0a000002)] := by
    decide +kernel
  obtain ⟨ask, rest, isAsked, first, others⟩ := List.map_eq_cons_iff.mp asked
  have meant : Meant twoHosts ask 1 := by
    have onFirst : ask.port = 0 := congrArg Prod.fst first
    have forSecond : ask.dstIp = 0x0a000002 := congrArg Prod.snd first
    exact ⟨forSecond.symm, by rw [onFirst]; decide, rfl⟩
  exact (packets_arrive_once twoHosts (fun n _ => n) exchange
    (by simp [exchange, LanEvent.Keeps, twoHosts]) exchanged run_exchange
    (List.eq_nil_of_length_eq_zero quiet) (List.eq_nil_of_length_eq_zero settled) 0 ask
    (by rw [isAsked]; rfl) 1 meant).1

end NetworkLab.ArpCache
