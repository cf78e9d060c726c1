import NetworkLab.ArpCache.Link

/-!
# One place for every packet

The packets of a link of nodes, counted: whatever happens to ARP requests and replies, a packet
for an interface on the link is in one place as long as no frame with a packet is lost or
doubled.
-/
set_option autoImplicit false

namespace NetworkLab.ArpCache

open Lib Lib.Run

/-! ## The requests of a node -/

def ArpEffect.leaves (serial : Nat) (effect : ArpEffect) : Bool :=
  effect.left.any fun pkt => pkt.serial = serial

def pendingCount (serial : Nat) (reqList : List ArpReq) : Nat :=
  (pendingPackets reqList).countP fun pkt => pkt.serial = serial

section Count

variable (serial : Nat)

theorem pendingCount_append (before rest : List ArpReq) :
    pendingCount serial (before ++ rest) =
      pendingCount serial before + pendingCount serial rest := by
  rw [pendingCount, pendingPackets, List.flatMap_append, List.countP_append]
  rfl

theorem pendingCount_cons (req : ArpReq) (rest : List ArpReq) :
    pendingCount serial (req :: rest) =
      req.cachedPackets.countP (fun pkt => pkt.serial = serial) + pendingCount serial rest := by
  rw [pendingCount, pendingPackets, List.flatMap_cons, List.countP_append]
  rfl

theorem append_count (now : Int) (iface : IfaceInfo) (ip4 : UInt32) (number : Nat)
    (packet : List UInt8) (reqList : List ArpReq) :
    let outcome := arpcacheAppendPacket now iface ip4 number packet reqList
    pendingCount serial outcome.1 =
      pendingCount serial reqList + (if number = serial then 1 else 0) ∧
    outcome.2.countP (ArpEffect.leaves serial) = 0 := by
  dsimp only
  unfold arpcacheAppendPacket
  cases joined : joinRequest iface ip4 number packet reqList with
  | some next =>
      obtain ⟨before, req, rest, rfl, -, rfl⟩ := joinRequest_some joined
      refine ⟨?_, rfl⟩
      simp only [pendingCount_append, pendingCount_cons, List.countP_append, List.countP_singleton,
        decide_eq_true_eq]
      omega
  | none =>
      refine ⟨?_, rfl⟩
      simp only [pendingCount_cons, List.countP_singleton, decide_eq_true_eq]
      omega

theorem insert_count (ip4 : UInt32) (mac : Mac) (reqList : List ArpReq) :
    pendingCount serial reqList = pendingCount serial (insertScan ip4 mac reqList).1 +
      (insertScan ip4 mac reqList).2.countP (ArpEffect.leaves serial) := by
  rcases insertScan_cases ip4 mac reqList with none | ⟨before, req, rest, rfl, -, scanned⟩
  · rw [none]
    rfl
  · have same : (ArpEffect.leaves serial ∘ fun pkt => ArpEffect.ifaceSendPacket req.iface
        (fillHeader mac req.iface.mac pkt.packet) pkt) = fun pkt => decide (pkt.serial = serial) :=
      rfl
    rw [scanned]
    simp only [pendingCount_append, pendingCount_cons, List.countP_map, same]
    omega

theorem sweepScan_count (now : Int) (reqList : List ArpReq) :
    pendingCount serial reqList = pendingCount serial (sweepScan now reqList).1 +
        (sweepScan now reqList).2.2.countP (fun pkt => pkt.serial = serial) ∧
      (sweepScan now reqList).2.1.countP (ArpEffect.leaves serial) = 0 := by
  induction reqList with
  | nil => exact ⟨rfl, rfl⟩
  | cons req rest ih =>
      obtain ⟨stays, resent⟩ := ih
      rcases sweepScan_cons now req rest with early | again | given
      · rw [early]
        exact ⟨by simp only [pendingCount_cons]; omega, resent⟩
      · rw [again]
        refine ⟨by simp only [pendingCount_cons]; omega, ?_⟩
        rw [List.countP_cons_of_neg (by simp [ArpEffect.leaves, ArpEffect.left]), resent]
      · rw [given]
        exact ⟨by simp only [pendingCount_cons, List.countP_append]; omega, resent⟩

theorem answers_count (pktList : List CachedPkt) :
    (pktList.flatMap answer).countP (ArpEffect.leaves serial) =
      pktList.countP fun pkt => pkt.serial = serial := by
  induction pktList with
  | nil => rfl
  | cons pkt rest ih =>
      rw [List.flatMap_cons, List.countP_append, ih, List.countP_cons, Nat.add_comm]
      congr 1
      by_cases same : pkt.serial = serial <;>
        simp [answer, ArpEffect.leaves, ArpEffect.left, same]

theorem sweep_count (now : Int) (reqList : List ArpReq) :
    pendingCount serial reqList = pendingCount serial (sweepRound now reqList).1 +
      (sweepRound now reqList).2.countP (ArpEffect.leaves serial) := by
  obtain ⟨stays, resent⟩ := sweepScan_count serial now reqList
  simp only [sweepRound, List.countP_append, answers_count, resent, Nat.zero_add]
  exact stays

end Count

theorem insertScan_sublist (ip4 : UInt32) (mac : Mac) (reqList : List ArpReq) :
    (insertScan ip4 mac reqList).1.Sublist reqList := by
  rcases insertScan_cases ip4 mac reqList with none | ⟨before, req, rest, rfl, -, scanned⟩
  · rw [none]
  · rw [scanned]
    exact (List.sublist_cons_self req rest).append_left before
/-! ## Where a packet is -/

section Places

variable {Node Port Link : Type} [DecidableEq Port]

def Copy.holds (q : Port) (serial : Nat) (copy : Copy Port) : Bool :=
  copy.port = q ∧ copy.serial = some serial

/-- How often the packet of a call is half-way in a call, waits in the node, has been given up, is
on its way to the interface, or has come there. -/
def State.places (state : State Node Port) (n : Node) (q : Port) (serial : Nat) : Nat :=
  state.waiting.countP (fun call => call.serial = serial) +
    pendingCount serial (state.caches n).reqList + state.refused.count serial +
    state.inFlight.countP (Copy.holds q serial) + state.received.countP (Copy.holds q serial)

structure Meant (L : Lan Node Port Link) (ask : Ask Port) (q : Port) : Prop where
  address : (L.iface q).ip = ask.dstIp
  other : q ≠ ask.port
  linked : L.link q = L.link ask.port

variable [DecidableEq Node] [DecidableEq Link] {L : Lan Node Port Link}

omit [DecidableEq Node] in
theorem copies_count {p q : Port} (other : q ≠ p) (linked : L.link q = L.link p)
    (frame : List UInt8) (serial : Nat) :
    (L.copies p frame (some serial)).countP (Copy.holds q serial) = 1 := by
  have here : q ∈ L.ports.filter fun r => r ≠ p ∧ L.link r = L.link p :=
    List.mem_filter.mpr ⟨L.complete q, by simpa using ⟨other, linked⟩⟩
  have once := List.count_eq_one_of_mem (L.nodup.filter _) here
  rw [List.count] at once
  rw [Lan.copies, List.countP_map, ← once]
  apply List.countP_congr
  intro r member
  simp [Copy.holds]

omit [DecidableEq Node] in
theorem copies_count_other {p q : Port} {frame : List UInt8} {number : Option Nat} {serial : Nat}
    (other : number ≠ some serial) :
    (L.copies p frame number).countP (Copy.holds q serial) = 0 := by
  rw [List.countP_eq_zero]
  intro copy member holds
  obtain ⟨-, -, numbered⟩ := mem_copies.mp member
  have same : copy.port = q ∧ copy.serial = some serial := by simpa [Copy.holds] using holds
  exact other (numbered.symm.trans same.2)

omit [DecidableEq Node] in
theorem copies_count_unnumbered {p q : Port} {frame : List UInt8} {serial : Nat} :
    (L.copies p frame none).countP (Copy.holds q serial) = 0 :=
  copies_count_other (Option.some_ne_none serial).symm

/-- What leaves the cache of a node is on its way to the interface that it is meant for, or has
been given up. -/
theorem emits_count {asked : List (Ask Port)} {n : Node} {serial : Nat} {ask : Ask Port} {q : Port}
    (isAsked : asked[serial]? = some ask) (meant : Meant L ask q) (effects : List ArpEffect)
    (sincere : ∀ effect ∈ effects, Sincere L asked n effect) :
    (effects.flatMap (L.emits n)).countP (Copy.holds q serial) +
      (effects.filterMap fun effect => effect.answered.map CachedPkt.serial).count serial =
    effects.countP (ArpEffect.leaves serial) := by
  induction effects with
  | nil => rfl
  | cons effect rest ih =>
      obtain ⟨first, others⟩ := List.forall_mem_cons.mp sincere
      have later := ih others
      rw [List.flatMap_cons, List.countP_append, List.countP_cons]
      cases effect with
      | arpSendRequest number iface ip4 =>
          obtain ⟨p, own, rfl⟩ := first
          have none : (L.emits n (.arpSendRequest number (L.iface p).toIfaceInfo ip4)).countP
              (Copy.holds q serial) = 0 := by
            simp only [Lan.emits, portOf_eq own, Option.toList_some, List.flatMap_singleton]
            exact copies_count_unnumbered
          rw [none, List.filterMap_cons_none rfl, Nat.zero_add]
          exact later
      | ifaceSendPacket iface frame pkt =>
          obtain ⟨sender, target, isSender, own, rfl, -, -⟩ := first
          rw [List.filterMap_cons_none rfl]
          simp only [Lan.emits, portOf_eq own, Option.toList_some, List.flatMap_singleton]
          by_cases same : pkt.serial = serial
          · subst same
            obtain rfl := Option.some.inj (isAsked.symm.trans isSender)
            rw [copies_count meant.other meant.linked]
            simp only [ArpEffect.leaves, ArpEffect.left, Option.any_some, decide_true, if_true]
            omega
          · rw [copies_count_other fun equal => same (Option.some.inj equal)]
            simp only [ArpEffect.leaves, ArpEffect.left, Option.any_some, same, decide_false]
            exact (Nat.zero_add _).symm ▸ later
      | icmpSendPacket pkt type code =>
          have given : ((ArpEffect.icmpSendPacket pkt type code :: rest).filterMap fun effect =>
              effect.answered.map CachedPkt.serial) = pkt.serial :: rest.filterMap fun effect =>
              effect.answered.map CachedPkt.serial := rfl
          rw [given, List.count_cons]
          simp only [Lan.emits, List.countP_nil, ArpEffect.leaves, ArpEffect.left, Option.any_some,
            decide_eq_true_eq, beq_iff_eq]
          omega
      | free pkt =>
          rw [List.filterMap_cons_none rfl]
          simp only [Lan.emits, List.countP_nil, ArpEffect.leaves, ArpEffect.left, Option.any_none]
          exact (Nat.zero_add _).symm ▸ later

variable {state next : State Node Port}

omit [DecidableEq Node] [DecidableEq Port] [DecidableEq Link] in
theorem leaves_other {asked : List (Ask Port)} {n : Node} {serial : Nat} {ask : Ask Port}
    (isAsked : asked[serial]? = some ask) (other : n ≠ L.node ask.port) {effects : List ArpEffect}
    (sincere : ∀ effect ∈ effects, Sincere L asked n effect) :
    effects.countP (ArpEffect.leaves serial) = 0 := by
  rw [List.countP_eq_zero]
  intro effect member leaves
  have true := sincere effect member
  cases effect with
  | arpSendRequest number iface ip4 => cases leaves
  | ifaceSendPacket iface frame pkt =>
      obtain ⟨sender, target, isSender, own, -⟩ := true
      have same : pkt.serial = serial := by simpa [ArpEffect.leaves, ArpEffect.left] using leaves
      rw [same, isAsked] at isSender
      exact other (Option.some.inj isSender ▸ own.symm)
  | icmpSendPacket pkt type code =>
      obtain ⟨sender, isSender, own⟩ := true
      have same : pkt.serial = serial := by simpa [ArpEffect.leaves, ArpEffect.left] using leaves
      rw [same, isAsked] at isSender
      exact other (Option.some.inj isSender ▸ own.symm)
  | free pkt => cases leaves

theorem settle_places (state : State Node Port) {n : Node} (cache : Cache)
    {effects : List ArpEffect} {serial : Nat} {ask : Ask Port} {q : Port}
    (isAsked : state.asked[serial]? = some ask) (meant : Meant L ask q)
    (sincere : ∀ effect ∈ effects, Sincere L state.asked n effect) :
    (L.settle state n cache effects).places (L.node ask.port) q serial +
      (if n = L.node ask.port then pendingCount serial (state.caches n).reqList else 0) =
    state.places (L.node ask.port) q serial +
      if n = L.node ask.port then
        pendingCount serial cache.reqList + effects.countP (ArpEffect.leaves serial)
      else 0 := by
  have moved := emits_count isAsked meant effects sincere
  simp only [State.places, Lan.settle, List.countP_append, List.count_append]
  by_cases own : n = L.node ask.port
  · simp only [own, Function.update_self, if_true] at moved ⊢
    omega
  · rw [leaves_other isAsked own sincere] at moved
    rw [Function.update_of_ne (Ne.symm own), if_neg own, if_neg own]
    omega

theorem learn_places {n : Node} {p : Port} {now : Int} {rand : Nat} {serial : Nat} {ask : Ask Port}
    {q : Port} (truthful : Truthful L state) (learned : learn L state n p now rand = some next)
    (isAsked : state.asked[serial]? = some ask) (meant : Meant L ask q) :
    next.places (L.node ask.port) q serial = state.places (L.node ask.port) q serial := by
  obtain ⟨cache, effects, kept, sent, -, rfl⟩ := learn_settles learned
  obtain ⟨-, sincere⟩ := filing_insert (truthful.requests n) p
  rw [← sent] at sincere
  have count := insert_count serial (L.iface p).ip (L.iface p).mac (state.caches n).reqList
  rw [← kept, ← sent] at count
  have settled := settle_places state cache isAsked meant sincere
  rw [← count] at settled
  omega

theorem handlePacket_places {copy : Copy Port} {now : Int} {rand : Nat} {serial : Nat}
    {ask : Ask Port} {q : Port} (truthful : Truthful L state)
    (genuine : Genuine L state.asked copy)
    (handled : L.handlePacket state copy now rand = some next)
    (isAsked : state.asked[serial]? = some ask) (meant : Meant L ask q) :
    next.places (L.node ask.port) q serial = state.places (L.node ask.port) q serial +
      if copy.holds q serial then 1 else 0 := by
  have silent (unnumbered : copy.serial = none) : copy.holds q serial = false := by
    simp [Copy.holds, unnumbered]
  cases genuine with
  | request p dstIp linked unnumbered frame =>
      rw [handlePacket_request now rand frame] at handled
      rw [silent unnumbered]
      split_ifs at handled
      · have replied := replied_truthful truthful copy.port p
        rw [learn_places replied handled isAsked meant]
        simp only [State.places, List.countP_append, copies_count_unnumbered]
        rfl
      · rw [← Option.some.inj handled]
        rfl
  | reply p r linked unnumbered frame =>
      rw [handlePacket_reply now rand frame] at handled
      rw [silent unnumbered]
      split_ifs at handled
      · exact learn_places truthful handled isAsked meant
      · rw [← Option.some.inj handled]
        rfl
  | packet number asker target carries =>
      rw [handlePacket_packet now rand carries.frame] at handled
      rw [← Option.some.inj handled]
      simp only [State.places, List.countP_append, List.countP_singleton]
      omega

omit [DecidableEq Node] [DecidableEq Link] in
theorem places_fresh {n : Node} {q : Port} {serial : Nat} (truthful : Truthful L state)
    (fresh : state.asked.length ≤ serial) : state.places n q serial = 0 := by
  have absent : state.asked[serial]? = none := List.getElem?_eq_none_iff.mpr fresh
  have waiting : state.waiting.countP (fun call => call.serial = serial) = 0 := by
    rw [List.countP_eq_zero]
    intro call member same
    obtain ⟨ask, isAsked, -⟩ := truthful.waiting call member
    rw [of_decide_eq_true same, absent] at isAsked
    cases isAsked
  have pending : pendingCount serial (state.caches n).reqList = 0 := by
    rw [pendingCount, List.countP_eq_zero]
    intro pkt member same
    obtain ⟨req, isReq, waits⟩ := List.mem_flatMap.mp member
    obtain ⟨p, filing⟩ := truthful.requests n req isReq
    obtain ⟨ask, isAsked, -⟩ := filing.packets pkt waits
    rw [of_decide_eq_true same, absent] at isAsked
    cases isAsked
  have refused : state.refused.count serial = 0 := by
    rw [List.count_eq_zero]
    intro member
    have early := truthful.refused serial member
    omega
  have unknown {copy : Copy Port} {number : Nat} {ask : Ask Port} {target : Port}
      (carries : Carries L state.asked copy number ask target) : copy.holds q serial = false := by
    rw [Bool.eq_false_iff]
    intro holds
    have same : copy.port = q ∧ copy.serial = some serial := by simpa [Copy.holds] using holds
    have isAsked := carries.isAsked
    rw [Option.some.inj (carries.numbered.symm.trans same.2), absent] at isAsked
    cases isAsked
  have flying : state.inFlight.countP (Copy.holds q serial) = 0 := by
    rw [List.countP_eq_zero]
    intro copy member
    rw [Bool.not_eq_true]
    cases truthful.inFlight copy member with
    | request p dstIp linked unnumbered frame => simp [Copy.holds, unnumbered]
    | reply p r linked unnumbered frame => simp [Copy.holds, unnumbered]
    | packet number ask target carries => exact unknown carries
  have received : state.received.countP (Copy.holds q serial) = 0 := by
    rw [List.countP_eq_zero]
    intro copy member
    rw [Bool.not_eq_true]
    obtain ⟨number, ask, target, carries⟩ := truthful.received copy member
    exact unknown carries
  rw [State.places, waiting, pending, refused, flying, received]

end Places

/-! ## What handling a frame leaves alone -/

section Handling

variable {Node Port Link : Type} [DecidableEq Node] [DecidableEq Port] [DecidableEq Link]
variable {L : Lan Node Port Link} {state next : State Node Port} {n : Node}

/-- Frames are added, and requests go. -/
structure Progress (state next : State Node Port) : Prop where
  inFlight : ∀ copy ∈ state.inFlight, copy ∈ next.inFlight
  requests : ∀ m, (next.caches m).reqList.Sublist (state.caches m).reqList
  waiting : next.waiting = state.waiting
  asked : next.asked = state.asked
  received : state.received.Sublist next.received
  refused : state.refused.Sublist next.refused

theorem learn_progress {p : Port} {now : Int} {rand : Nat}
    (learned : learn L state n p now rand = some next) : Progress state next := by
  obtain ⟨cache, effects, kept, sent, -, rfl⟩ := learn_settles learned
  refine ⟨fun copy member => List.mem_append_left _ member, ?_, rfl, rfl, .refl _,
    List.sublist_append_left _ _⟩
  intro m
  by_cases same : m = n
  · subst same
    simp only [Lan.settle, Function.update_self, kept]
    exact insertScan_sublist (L.iface p).ip (L.iface p).mac _
  · simp only [Lan.settle, Function.update_of_ne same]
    exact List.Sublist.refl _

theorem handlePacket_progress {copy : Copy Port} {now : Int} {rand : Nat}
    (genuine : Genuine L state.asked copy)
    (handled : L.handlePacket state copy now rand = some next) : Progress state next := by
  have nothing : Progress state state :=
    ⟨fun _ member => member, fun _ => .refl _, rfl, rfl, .refl _, .refl _⟩
  cases genuine with
  | request p dstIp linked unnumbered frame =>
      rw [handlePacket_request now rand frame] at handled
      split_ifs at handled
      · have progress := learn_progress handled
        exact ⟨fun copy member => progress.inFlight copy (List.mem_append_left _ member),
          progress.requests, progress.waiting, progress.asked, progress.received,
          progress.refused⟩
      · exact Option.some.inj handled ▸ nothing
  | reply p r linked unnumbered frame =>
      rw [handlePacket_reply now rand frame] at handled
      split_ifs at handled
      · exact learn_progress handled
      · exact Option.some.inj handled ▸ nothing
  | packet serial ask q carries =>
      rw [handlePacket_packet now rand carries.frame] at handled
      rw [← Option.some.inj handled]
      exact ⟨fun _ member => member, fun _ => .refl _, rfl, rfl, List.sublist_append_left _ _,
        .refl _⟩

theorem deliver_progress {k : Nat} {now : Int} {rand : Nat} (truthful : Truthful L state)
    (taken : L.step state (.deliver k now rand) = some next) :
    Progress { state with inFlight := state.inFlight.eraseIdx k } next := by
  simp only [Lan.step, Option.bind_eq_bind, Option.bind_eq_some_iff] at taken
  obtain ⟨copy, here, handled⟩ := taken
  have genuine := truthful.inFlight copy (List.mem_of_getElem? here)
  have left : Genuine L { state with inFlight := state.inFlight.eraseIdx k }.asked copy := genuine
  exact handlePacket_progress left handled

end Handling

/-! ## Steps -/

section Steps

variable {Node Port Link : Type} [DecidableEq Node] [DecidableEq Port] [DecidableEq Link]

structure Accounted (L : Lan Node Port Link) (state : State Node Port) : Prop where
  truthful : Truthful L state
  once : ∀ serial ask q, state.asked[serial]? = some ask → Meant L ask q →
    state.places (L.node ask.port) q serial = 1

/-- What is lost or doubled carries no packet. -/
def LanEvent.Spares (state : State Node Port) : LanEvent Node Port → Prop
  | .lose k => ∀ copy ∈ state.inFlight[k]?, copy.serial = none
  | .duplicate k => ∀ copy ∈ state.inFlight[k]?, copy.serial = none
  | _ => True

variable {L : Lan Node Port Link} {state next : State Node Port}

omit [DecidableEq Node] [DecidableEq Link] in
theorem accounted_initial : Accounted L State.initial where
  truthful := truthful_initial L
  once serial ask q isAsked := by simp [State.initial] at isAsked

omit [DecidableEq Port] in
theorem holds_unnumbered [DecidableEq Port] {copy : Copy Port} (unnumbered : copy.serial = none)
    (q : Port) (serial : Nat) : copy.holds q serial = false := by
  simp [Copy.holds, unnumbered]

omit [DecidableEq Port] in
theorem ask_earlier {asked : List (Ask Port)} {last asker : Ask Port} {serial : Nat}
    (isAsked : (asked ++ [last])[serial]? = some asker) :
    (asked.length ≠ serial ∧ asked[serial]? = some asker) ∨
      (asked.length = serial ∧ asker = last) := by
  rcases Nat.lt_trichotomy serial asked.length with before | same | behind
  · rw [List.getElem?_append_left before] at isAsked
    exact Or.inl ⟨Nat.ne_of_gt before, isAsked⟩
  · subst same
    exact Or.inr ⟨rfl, by simpa using isAsked.symm⟩
  · rw [List.getElem?_eq_none (by simp; omega)] at isAsked
    cases isAsked

theorem Accounted.ask (accounted : Accounted L state) {p : Port} {dstIp : UInt32}
    {packet : List UInt8} (taken : L.step state (.ask p dstIp packet) = some next) :
    Accounted L next := by
  have truthful := ask_truthful accounted.truthful taken
  simp only [Lan.step, Option.bind_eq_bind, Option.bind_eq_some_iff] at taken
  obtain ⟨call, prepared, taken⟩ := taken
  have fresh {n : Node} {q : Port} : state.places n q state.asked.length = 0 :=
    places_fresh accounted.truthful (le_refl _)
  cases call with
  | ifaceSendPacket frame =>
      rw [← Option.some.inj taken] at truthful ⊢
      refine ⟨truthful, ?_⟩
      intro serial asker q isAsked meant
      rcases ask_earlier isAsked with ⟨other, before⟩ | ⟨rfl, rfl⟩
      · have same := accounted.once serial asker q before meant
        have elsewhere : some state.asked.length ≠ some serial := fun equal =>
          other (Option.some.inj equal)
        simp only [State.places, List.countP_append, copies_count_other elsewhere] at same ⊢
        omega
      · have none := fresh (n := L.node p) (q := q)
        simp only [State.places, List.countP_append, copies_count meant.other meant.linked]
          at none ⊢
        omega
  | arpcacheAppendPacket pending =>
      rw [← Option.some.inj taken] at truthful ⊢
      refine ⟨truthful, ?_⟩
      intro serial asker q isAsked meant
      rcases ask_earlier isAsked with ⟨other, before⟩ | ⟨rfl, rfl⟩
      · have same := accounted.once serial asker q before meant
        simp only [State.places, List.countP_append, List.countP_singleton, other, decide_false]
          at same ⊢
        exact same
      · have none := fresh (n := L.node p) (q := q)
        simp only [State.places, List.countP_append, List.countP_singleton, decide_true, if_true]
          at none ⊢
        omega

theorem Accounted.append (accounted : Accounted L state) {k : Nat} {now : Int}
    (taken : L.step state (.append k now) = some next) : Accounted L next := by
  have truthful := append_truthful accounted.truthful taken
  simp only [Lan.step, Option.bind_eq_bind, Option.bind_eq_some_iff] at taken
  obtain ⟨call, here, taken⟩ := taken
  have member := List.mem_of_getElem? here
  obtain ⟨sender, isSender, onPort, forIp, prepared⟩ := accounted.truthful.waiting call member
  obtain ⟨-, sincere⟩ := filing_append (accounted.truthful.requests (L.node call.port)) isSender
    (congrArg L.node onPort) prepared now
  rw [onPort, forIp] at sincere
  let reqList := (state.caches (L.node call.port)).reqList
  let rest := { state with waiting := state.waiting.eraseIdx k }
  have count := fun serial => append_count serial now (L.iface call.port).toIfaceInfo call.dstIp
    call.serial call.packet reqList
  generalize arpcacheAppendPacket now (L.iface call.port).toIfaceInfo call.dstIp call.serial
    call.packet (state.caches (L.node call.port)).reqList = outcome at *
  rw [← Option.some.inj taken] at truthful ⊢
  refine ⟨truthful, ?_⟩
  intro serial asker q isAsked meant
  have before := accounted.once serial asker q isAsked meant
  have settled := settle_places rest ⟨(state.caches (L.node call.port)).entries, outcome.1⟩
    isAsked meant sincere
  obtain ⟨grows, nothing⟩ := count serial
  have ownNode : call.serial = serial → L.node call.port = L.node asker.port := by
    rintro rfl
    rw [← onPort, Option.some.inj (isAsked.symm.trans isSender)]
  have fewer : rest.places (L.node asker.port) q serial +
      (if call.serial = serial then 1 else 0) = 1 := by
    have taken := countP_eraseIdx_add here fun call : Call Port => decide (call.serial = serial)
    simp only [decide_eq_true_eq] at taken
    simp only [State.places, rest] at before ⊢
    omega
  change (L.settle rest (L.node call.port) _ outcome.2).places (L.node asker.port) q serial = 1
  rw [grows, nothing] at settled
  by_cases same : call.serial = serial
  · simp only [same, ownNode same, if_true, rest, reqList] at settled fewer ⊢
    omega
  · simp only [same, if_false, rest, reqList] at settled fewer ⊢
    split_ifs at settled <;> omega

theorem Accounted.deliver (accounted : Accounted L state) {k : Nat} {now : Int} {rand : Nat}
    (taken : L.step state (.deliver k now rand) = some next) : Accounted L next := by
  have truthful := step_truthful accounted.truthful taken
  have progress := deliver_progress accounted.truthful taken
  simp only [Lan.step, Option.bind_eq_bind, Option.bind_eq_some_iff] at taken
  obtain ⟨copy, here, handled⟩ := taken
  have genuine := accounted.truthful.inFlight copy (List.mem_of_getElem? here)
  let rest := { state with inFlight := state.inFlight.eraseIdx k }
  have without : Truthful L rest :=
    accounted.truthful.ofSubset fun _ member => List.mem_of_mem_eraseIdx member
  have left : Genuine L rest.asked copy := genuine
  refine ⟨truthful, ?_⟩
  intro serial asker q isAsked meant
  rw [progress.asked] at isAsked
  have before := accounted.once serial asker q isAsked meant
  have taken := countP_eraseIdx_add here (Copy.holds q serial)
  rw [handlePacket_places without left handled isAsked meant]
  simp only [State.places, rest] at before ⊢
  omega

omit [DecidableEq Node] [DecidableEq Link] in
/-- A packet's frame is for the interface that the packet is meant for. -/
theorem Accounted.not_foreign (accounted : Accounted L state) {copy : Copy Port}
    (inFlight : copy ∈ state.inFlight) {serial : Nat} {ask : Ask Port} {q : Port}
    (isAsked : state.asked[serial]? = some ask) (meant : Meant L ask q)
    (holds : copy.holds q serial = true) :
    Carries L state.asked copy serial ask q ∧ ¬ L.Foreign copy := by
  have same : copy.port = q ∧ copy.serial = some serial := by simpa [Copy.holds] using holds
  cases accounted.truthful.inFlight copy inFlight with
  | request p dstIp linked unnumbered frame => rw [unnumbered] at same; cases same.2
  | reply p r linked unnumbered frame => rw [unnumbered] at same; cases same.2
  | packet number sender target carries =>
      obtain rfl := Option.some.inj (carries.numbered.symm.trans same.2)
      obtain rfl := Option.some.inj (isAsked.symm.trans carries.isAsked)
      obtain rfl := L.ip_injective q target (meant.address.trans carries.address.symm)
      exact ⟨carries, fun foreign => carries.foreign_iff.mp foreign same.1⟩

omit [DecidableEq Node] [DecidableEq Link] in
theorem Accounted.without (accounted : Accounted L state) {k : Nat} {copy : Copy Port}
    (here : state.inFlight[k]? = some copy)
    (other : ∀ serial ask q, state.asked[serial]? = some ask → Meant L ask q →
      copy.holds q serial = false) :
    Accounted L { state with inFlight := state.inFlight.eraseIdx k } := by
  refine ⟨accounted.truthful.ofSubset fun _ member => List.mem_of_mem_eraseIdx member, ?_⟩
  intro serial ask q isAsked meant
  have before := accounted.once serial ask q isAsked meant
  have taken := countP_eraseIdx_add here (Copy.holds q serial)
  rw [other serial ask q isAsked meant] at taken
  simp only [State.places] at before ⊢
  simp only [Bool.false_eq_true, if_false] at taken
  omega

theorem Accounted.sweep (accounted : Accounted L state) {n : Node} {now : Int}
    (taken : L.step state (.sweep n now) = some next) : Accounted L next := by
  have truthful := step_truthful accounted.truthful taken
  obtain ⟨-, sincere⟩ := filing_sweep (accounted.truthful.requests n) now
  rw [← Option.some.inj taken] at truthful ⊢
  refine ⟨truthful, ?_⟩
  intro serial asker q isAsked meant
  have before := accounted.once serial asker q isAsked meant
  have count := sweep_count serial now (state.caches n).reqList
  have settled := settle_places state ⟨expireEntries now (state.caches n).entries,
      (sweepRound now (state.caches n).reqList).1⟩ isAsked meant sincere
  rw [← count, before] at settled
  exact Nat.add_right_cancel settled

theorem step_accounted {event : LanEvent Node Port} (accounted : Accounted L state)
    (spares : event.Spares state) (taken : L.step state event = some next) :
    Accounted L next := by
  have truthful := step_truthful accounted.truthful taken
  cases event with
  | ask p dstIp packet => exact accounted.ask taken
  | append k now => exact accounted.append taken
  | deliver k now rand => exact accounted.deliver taken
  | ignore k =>
      simp only [Lan.step, Option.bind_eq_bind, Option.bind_eq_some_iff] at taken
      obtain ⟨copy, here, taken⟩ := taken
      split_ifs at taken with foreign
      rw [← Option.some.inj taken]
      refine accounted.without here ?_
      intro serial ask q isAsked meant
      rw [Bool.eq_false_iff]
      intro holds
      exact (accounted.not_foreign (List.mem_of_getElem? here) isAsked meant holds).2 foreign
  | lose k =>
      simp only [Lan.step, Option.bind_eq_bind, Option.bind_eq_some_iff] at taken
      obtain ⟨copy, here, taken⟩ := taken
      rw [← Option.some.inj taken]
      exact accounted.without here fun serial ask q _ _ =>
        holds_unnumbered (spares copy here) q serial
  | duplicate k =>
      simp only [Lan.step, Option.bind_eq_bind, Option.bind_eq_some_iff] at taken
      obtain ⟨copy, here, taken⟩ := taken
      rw [← Option.some.inj taken] at truthful ⊢
      refine ⟨truthful, ?_⟩
      intro serial ask q isAsked meant
      have before := accounted.once serial ask q isAsked meant
      simp only [State.places, List.countP_append, List.countP_singleton,
        holds_unnumbered (spares copy here) q serial] at before ⊢
      exact before
  | sweep n now => exact accounted.sweep taken

end Steps

end NetworkLab.ArpCache
