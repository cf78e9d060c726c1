import Mathlib.Algebra.GroupWithZero.Nat
import NetworkLab.ArpCache.Accounts
import NetworkLab.Lib.EndlessRun

/-!
# Every packet comes to an end

Runs of a link of nodes that never end.  ARP requests and replies may all be lost: as the sweeps
go on, no packet waits for a MAC address forever.
-/
set_option autoImplicit false

namespace NetworkLab.ArpCache

open Lib Lib.Run

/-! ## How long a packet can still wait -/

/-- What the packet costs its request, counted down by the sweeps. -/
def ArpReq.rank (serial : Nat) (req : ArpReq) : Nat :=
  req.cachedPackets.countP (fun pkt => pkt.serial = serial) *
    (2 + (ARP_REQUEST_MAX_RETRIES - req.retries))

def pendingRank (serial : Nat) (reqList : List ArpReq) : Nat :=
  (reqList.map (ArpReq.rank serial)).sum

section Rank

variable (serial : Nat)

theorem pendingRank_append (before rest : List ArpReq) :
    pendingRank serial (before ++ rest) =
      pendingRank serial before + pendingRank serial rest := by
  rw [pendingRank, List.map_append, List.sum_append]
  rfl

theorem pendingRank_cons (req : ArpReq) (rest : List ArpReq) :
    pendingRank serial (req :: rest) = req.rank serial + pendingRank serial rest := by
  rw [pendingRank, List.map_cons, List.sum_cons]
  rfl

theorem ArpReq.rank_bounds (req : ArpReq) :
    2 * req.cachedPackets.countP (fun pkt => pkt.serial = serial) ≤ req.rank serial ∧
      req.rank serial ≤ 7 * req.cachedPackets.countP (fun pkt => pkt.serial = serial) := by
  have left : ARP_REQUEST_MAX_RETRIES - req.retries ≤ 5 := Nat.sub_le _ _
  rw [ArpReq.rank, Nat.mul_comm 2, Nat.mul_comm 7]
  exact ⟨Nat.mul_le_mul_left _ (by omega), Nat.mul_le_mul_left _ (by omega)⟩

theorem pendingRank_bounds (reqList : List ArpReq) :
    2 * pendingCount serial reqList ≤ pendingRank serial reqList ∧
      pendingRank serial reqList ≤ 7 * pendingCount serial reqList := by
  induction reqList with
  | nil => exact ⟨le_refl _, le_refl _⟩
  | cons req rest ih =>
      have bounds := req.rank_bounds serial
      rw [pendingRank_cons, pendingCount_cons]
      omega

theorem append_rank (now : Int) (iface : IfaceInfo) (ip4 : UInt32) (number : Nat)
    (packet : List UInt8) (reqList : List ArpReq) :
    pendingRank serial (arpcacheAppendPacket now iface ip4 number packet reqList).1 ≤
      pendingRank serial reqList + if number = serial then 7 else 0 := by
  unfold arpcacheAppendPacket
  cases joined : joinRequest iface ip4 number packet reqList with
  | some next =>
      obtain ⟨before, req, rest, rfl, -, rfl⟩ := joinRequest_some joined
      have left : 2 + (ARP_REQUEST_MAX_RETRIES - req.retries) ≤ 7 := by
        have := Nat.sub_le ARP_REQUEST_MAX_RETRIES req.retries
        rw [ARP_REQUEST_MAX_RETRIES] at *
        omega
      simp only [pendingRank_append, pendingRank_cons, ArpReq.rank, List.countP_append,
        List.countP_singleton, decide_eq_true_eq, Nat.add_mul]
      split_ifs <;> omega
  | none =>
      simp only [pendingRank_cons, ArpReq.rank, List.countP_singleton, decide_eq_true_eq,
        ARP_REQUEST_MAX_RETRIES]
      split_ifs <;> omega

theorem insert_rank (ip4 : UInt32) (mac : Mac) (reqList : List ArpReq) :
    pendingRank serial (insertScan ip4 mac reqList).1 +
        (insertScan ip4 mac reqList).2.countP (ArpEffect.leaves serial) ≤
      pendingRank serial reqList := by
  rcases insertScan_cases ip4 mac reqList with none | ⟨before, req, rest, rfl, -, scanned⟩
  · rw [none]
    exact le_refl _
  · have same : (ArpEffect.leaves serial ∘ fun pkt => ArpEffect.ifaceSendPacket req.iface
        (fillHeader mac req.iface.mac pkt.packet) pkt) = fun pkt => decide (pkt.serial = serial) :=
      rfl
    have bounds := req.rank_bounds serial
    rw [scanned]
    simp only [pendingRank_append, pendingRank_cons, List.countP_map, same]
    omega

/-- A sweep never costs a packet time, and when it comes late enough it brings each one closer
to its end. -/
theorem sweepScan_rank (now : Int) (reqList : List ArpReq) :
    pendingRank serial (sweepScan now reqList).1 +
        (sweepScan now reqList).2.2.countP (fun pkt => pkt.serial = serial) ≤
      pendingRank serial reqList ∧
    ((∀ req ∈ reqList, 0 < req.rank serial → 1 ≤ now - req.sent) →
      0 < pendingRank serial reqList →
      pendingRank serial (sweepScan now reqList).1 +
          (sweepScan now reqList).2.2.countP (fun pkt => pkt.serial = serial) <
        pendingRank serial reqList) := by
  induction reqList with
  | nil => exact ⟨le_refl _, fun _ positive => absurd positive (Nat.lt_irrefl 0)⟩
  | cons req rest ih =>
      obtain ⟨stays, strict⟩ := ih
      have bounds := req.rank_bounds serial
      simp only [pendingRank_cons, List.forall_mem_cons]
      by_cases early : now - req.sent < 1
      · have scanned : sweepScan now (req :: rest) =
            (req :: (sweepScan now rest).1, (sweepScan now rest).2.1, (sweepScan now rest).2.2) :=
          if_pos early
        rw [scanned]
        simp only [pendingRank_cons]
        refine ⟨by omega, ?_⟩
        rintro ⟨late, lateRest⟩ positive
        have elsewhere : req.rank serial = 0 := by
          by_contra here
          have := late (Nat.pos_of_ne_zero here)
          omega
        have := strict lateRest (by omega)
        omega
      · by_cases fewer : req.retries < ARP_REQUEST_MAX_RETRIES
        · have scanned : sweepScan now (req :: rest) =
              ({ req with retries := req.retries + 1 } :: (sweepScan now rest).1,
                .arpSendRequest req.number req.iface req.ip4 :: (sweepScan now rest).2.1,
                (sweepScan now rest).2.2) := (if_neg early).trans (if_pos fewer)
          have counted : ArpReq.rank serial { req with retries := req.retries + 1 } +
              req.cachedPackets.countP (fun pkt => pkt.serial = serial) = req.rank serial := by
            simp only [ArpReq.rank]
            rw [← Nat.mul_succ]
            congr 1
            omega
          rw [scanned]
          simp only [pendingRank_cons]
          refine ⟨by omega, ?_⟩
          rintro ⟨-, lateRest⟩ positive
          by_cases here : req.rank serial = 0
          · have := strict lateRest (by omega)
            omega
          · omega
        · have scanned : sweepScan now (req :: rest) =
              ((sweepScan now rest).1, (sweepScan now rest).2.1,
                req.cachedPackets ++ (sweepScan now rest).2.2) :=
            (if_neg early).trans (if_neg fewer)
          rw [scanned]
          simp only [List.countP_append]
          refine ⟨by omega, ?_⟩
          rintro ⟨-, lateRest⟩ positive
          by_cases here : req.rank serial = 0
          · have := strict lateRest (by omega)
            omega
          · omega

theorem sweep_rank (now : Int) (reqList : List ArpReq) :
    pendingRank serial (sweepRound now reqList).1 +
        (sweepRound now reqList).2.countP (ArpEffect.leaves serial) ≤
      pendingRank serial reqList ∧
    ((∀ req ∈ reqList, 0 < req.rank serial → 1 ≤ now - req.sent) →
      0 < pendingRank serial reqList →
      pendingRank serial (sweepRound now reqList).1 +
          (sweepRound now reqList).2.countP (ArpEffect.leaves serial) <
        pendingRank serial reqList) := by
  obtain ⟨-, resent⟩ := sweepScan_count serial now reqList
  simp only [sweepRound, List.countP_append, answers_count, resent, Nat.zero_add]
  exact sweepScan_rank serial now reqList

omit serial in
theorem exists_time (reqList : List ArpReq) : ∃ time, ∀ req ∈ reqList, req.sent ≤ time := by
  induction reqList with
  | nil => exact ⟨0, fun req none => absurd none List.not_mem_nil⟩
  | cons req rest ih =>
      obtain ⟨time, young⟩ := ih
      refine ⟨max req.sent time, List.forall_mem_cons.mpr ⟨le_max_left _ _, ?_⟩⟩
      exact fun other member => le_trans (young other member) (le_max_right _ _)

/-- No request for the packet is younger than before. -/
def Heirs (before next : List ArpReq) : Prop :=
  ∀ req ∈ next, 0 < req.rank serial → ∃ old ∈ before, 0 < old.rank serial ∧ old.sent = req.sent

theorem Heirs.sublist {before next : List ArpReq} (part : next.Sublist before) :
    Heirs serial before next :=
  fun req member positive => ⟨req, part.subset member, positive, rfl⟩

theorem append_heirs (now : Int) (iface : IfaceInfo) (ip4 : UInt32) {number : Nat}
    (packet : List UInt8) (reqList : List ArpReq) (other : number ≠ serial) :
    Heirs serial reqList (arpcacheAppendPacket now iface ip4 number packet reqList).1 := by
  unfold arpcacheAppendPacket
  intro req member positive
  cases joined : joinRequest iface ip4 number packet reqList with
  | some next =>
      rw [joined] at member
      obtain ⟨before, old, rest, rfl, -, rfl⟩ := joinRequest_some joined
      rcases List.mem_append.mp member with first | later
      · exact ⟨req, List.mem_append_left _ first, positive, rfl⟩
      · rcases List.mem_cons.mp later with rfl | last
        · refine ⟨old, by simp, ?_, rfl⟩
          simpa [ArpReq.rank, other] using positive
        · exact ⟨req, List.mem_append_right _ (List.mem_cons_of_mem _ last), positive, rfl⟩
  | none =>
      rw [joined] at member
      rcases List.mem_cons.mp member with rfl | old
      · simp [ArpReq.rank, other] at positive
      · exact ⟨req, old, positive, rfl⟩

theorem sweep_heirs (now : Int) (reqList : List ArpReq) :
    Heirs serial reqList (sweepRound now reqList).1 := by
  change Heirs serial reqList (sweepScan now reqList).1
  induction reqList with
  | nil => exact Heirs.sublist serial (.refl _)
  | cons req rest ih =>
      have later : Heirs serial (req :: rest) (sweepScan now rest).1 := by
        intro other member positive
        obtain ⟨old, there, same⟩ := ih other member positive
        exact ⟨old, List.mem_cons_of_mem req there, same⟩
      rcases sweepScan_cons now req rest with early | again | given
      · rw [early]
        refine List.forall_mem_cons.mpr ⟨?_, later⟩
        exact fun positive => ⟨req, List.mem_cons_self, positive, rfl⟩
      · rw [again]
        refine List.forall_mem_cons.mpr ⟨?_, later⟩
        intro positive
        refine ⟨req, List.mem_cons_self, ?_, rfl⟩
        exact Nat.mul_pos (Nat.pos_of_mul_pos_right positive) (by omega)
      · rw [given]
        exact later

end Rank

/-! ## The rank never rises -/

section Steps

variable {Node Port Link : Type} [DecidableEq Node] [DecidableEq Port] [DecidableEq Link]

/-- How far the packet is from the interface that it is meant for, or from being given up. -/
def State.rank (state : State Node Port) (n : Node) (q : Port) (serial : Nat) : Nat :=
  8 * state.waiting.countP (fun call => call.serial = serial) +
    pendingRank serial (state.caches n).reqList + state.inFlight.countP (Copy.holds q serial)

variable {L : Lan Node Port Link} {state next : State Node Port} {serial : Nat} {ask : Ask Port}
  {q : Port}

theorem settle_rank (state : State Node Port) {n : Node} (cache : Cache)
    {effects : List ArpEffect} (isAsked : state.asked[serial]? = some ask) (meant : Meant L ask q)
    (sincere : ∀ effect ∈ effects, Sincere L state.asked n effect) :
    (L.settle state n cache effects).rank (L.node ask.port) q serial +
      (if n = L.node ask.port then pendingRank serial (state.caches n).reqList else 0) ≤
    state.rank (L.node ask.port) q serial +
      if n = L.node ask.port then
        pendingRank serial cache.reqList + effects.countP (ArpEffect.leaves serial)
      else 0 := by
  have moved := emits_count isAsked meant effects sincere
  simp only [State.rank, Lan.settle, List.countP_append]
  by_cases own : n = L.node ask.port
  · simp only [own, Function.update_self, if_true] at moved ⊢
    omega
  · rw [leaves_other isAsked own sincere] at moved
    rw [Function.update_of_ne (Ne.symm own), if_neg own, if_neg own]
    omega

theorem learn_rank {n : Node} {p : Port} {now : Int} {rand : Nat} (truthful : Truthful L state)
    (learned : learn L state n p now rand = some next) (isAsked : state.asked[serial]? = some ask)
    (meant : Meant L ask q) :
    next.rank (L.node ask.port) q serial ≤ state.rank (L.node ask.port) q serial := by
  obtain ⟨cache, effects, kept, sent, -, rfl⟩ := learn_settles learned
  obtain ⟨-, sincere⟩ := filing_insert (truthful.requests n) p
  rw [← sent] at sincere
  have count := insert_rank serial (L.iface p).ip (L.iface p).mac (state.caches n).reqList
  rw [← kept, ← sent] at count
  have settled := settle_rank state cache isAsked meant sincere
  split_ifs at settled <;> omega

theorem handlePacket_rank {copy : Copy Port} {now : Int} {rand : Nat}
    (truthful : Truthful L state) (genuine : Genuine L state.asked copy)
    (handled : L.handlePacket state copy now rand = some next)
    (isAsked : state.asked[serial]? = some ask) (meant : Meant L ask q) :
    next.rank (L.node ask.port) q serial ≤ state.rank (L.node ask.port) q serial := by
  cases genuine with
  | request p dstIp linked unnumbered frame =>
      rw [handlePacket_request now rand frame] at handled
      split_ifs at handled
      · have replied := replied_truthful truthful copy.port p
        apply le_trans (learn_rank replied handled isAsked meant)
        simp only [State.rank, List.countP_append, copies_count_unnumbered]
        exact le_refl _
      · rw [← Option.some.inj handled]
  | reply p r linked unnumbered frame =>
      rw [handlePacket_reply now rand frame] at handled
      split_ifs at handled
      · exact learn_rank truthful handled isAsked meant
      · rw [← Option.some.inj handled]
  | packet number asker target carries =>
      rw [handlePacket_packet now rand carries.frame] at handled
      rw [← Option.some.inj handled]
      exact le_refl _

section Event

variable (accounted : Accounted L state) (isAsked : state.asked[serial]? = some ask)
  (meant : Meant L ask q)

include accounted isAsked meant

theorem append_step_rank {k : Nat} {now : Int} {call : Call Port}
    (here : state.waiting[k]? = some call) (taken : L.step state (.append k now) = some next) :
    next.rank (L.node ask.port) q serial + (if call.serial = serial then 1 else 0) ≤
      state.rank (L.node ask.port) q serial := by
  simp only [Lan.step, here, Option.bind_eq_bind, Option.bind_some] at taken
  have member := List.mem_of_getElem? here
  obtain ⟨sender, isSender, onPort, forIp, prepared⟩ := accounted.truthful.waiting call member
  obtain ⟨-, sincere⟩ := filing_append (accounted.truthful.requests (L.node call.port)) isSender
    (congrArg L.node onPort) prepared now
  rw [onPort, forIp] at sincere
  let reqList := (state.caches (L.node call.port)).reqList
  let rest := { state with waiting := state.waiting.eraseIdx k }
  have grows := append_rank serial now (L.iface call.port).toIfaceInfo call.dstIp call.serial
    call.packet reqList
  obtain ⟨-, nothing⟩ := append_count serial now (L.iface call.port).toIfaceInfo call.dstIp
    call.serial call.packet reqList
  have ownNode : call.serial = serial → L.node call.port = L.node ask.port := by
    rintro rfl
    rw [← onPort, Option.some.inj (isAsked.symm.trans isSender)]
  have fewer : rest.rank (L.node ask.port) q serial + (if call.serial = serial then 8 else 0) =
      state.rank (L.node ask.port) q serial := by
    have taken := countP_eraseIdx_add here fun call : Call Port => decide (call.serial = serial)
    simp only [decide_eq_true_eq] at taken
    simp only [State.rank, rest]
    split_ifs at taken ⊢ <;> omega
  have settled := settle_rank rest ⟨(state.caches (L.node call.port)).entries,
    (arpcacheAppendPacket now (L.iface call.port).toIfaceInfo call.dstIp call.serial call.packet
      reqList).1⟩ isAsked meant sincere
  rw [← Option.some.inj taken]
  change (L.settle rest (L.node call.port) _ _).rank (L.node ask.port) q serial + _ ≤ _
  rw [nothing] at settled
  by_cases same : call.serial = serial
  · simp only [same, ownNode same, if_true, rest, reqList] at settled fewer grows ⊢
    omega
  · simp only [same, if_false, rest, reqList] at settled fewer grows ⊢
    split_ifs at settled <;> omega

theorem deliver_step_rank {k : Nat} {now : Int} {rand : Nat} {copy : Copy Port}
    (here : state.inFlight[k]? = some copy)
    (taken : L.step state (.deliver k now rand) = some next) :
    next.rank (L.node ask.port) q serial + (if copy.holds q serial then 1 else 0) ≤
      state.rank (L.node ask.port) q serial := by
  simp only [Lan.step, here, Option.bind_eq_bind, Option.bind_some] at taken
  let rest := { state with inFlight := state.inFlight.eraseIdx k }
  have without : Truthful L rest :=
    accounted.truthful.ofSubset fun _ member => List.mem_of_mem_eraseIdx member
  have genuine : Genuine L rest.asked copy :=
    accounted.truthful.inFlight copy (List.mem_of_getElem? here)
  have falls := handlePacket_rank without genuine taken isAsked meant
  have fewer := countP_eraseIdx_add here (Copy.holds q serial)
  simp only [State.rank, rest] at falls ⊢
  omega

theorem sweep_step_rank {n : Node} {now : Int}
    (taken : L.step state (.sweep n now) = some next) :
    next.rank (L.node ask.port) q serial ≤ state.rank (L.node ask.port) q serial ∧
      (n = L.node ask.port →
        (∀ req ∈ (state.caches n).reqList, 0 < req.rank serial → 1 ≤ now - req.sent) →
        0 < pendingRank serial (state.caches n).reqList →
        next.rank (L.node ask.port) q serial < state.rank (L.node ask.port) q serial) := by
  obtain ⟨-, sincere⟩ := filing_sweep (accounted.truthful.requests n) now
  obtain ⟨falls, strict⟩ := sweep_rank serial now (state.caches n).reqList
  let cache : Cache := ⟨expireEntries now (state.caches n).entries,
    (sweepRound now (state.caches n).reqList).1⟩
  have settled := settle_rank state cache isAsked meant sincere
  obtain rfl : L.settle state n cache (sweepRound now (state.caches n).reqList).2 = next :=
    Option.some.inj taken
  dsimp only [cache] at settled ⊢
  constructor
  · split_ifs at settled <;> omega
  · intro own late positive
    have := strict late positive
    rw [if_pos own, if_pos own] at settled
    omega

theorem step_rank {event : LanEvent Node Port} (spares : event.Spares state)
    (taken : L.step state event = some next) :
    next.asked[serial]? = some ask ∧
      next.rank (L.node ask.port) q serial ≤ state.rank (L.node ask.port) q serial := by
  cases event with
  | ask p dstIp packet =>
      obtain ⟨inside, -⟩ := List.getElem?_eq_some_iff.mp isAsked
      have fresh : state.asked.length ≠ serial := by omega
      have elsewhere : some state.asked.length ≠ some serial := fun equal =>
        fresh (Option.some.inj equal)
      simp only [Lan.step, Option.bind_eq_bind, Option.bind_eq_some_iff] at taken
      obtain ⟨call, prepared, taken⟩ := taken
      cases call with
      | ifaceSendPacket frame =>
          rw [← Option.some.inj taken]
          refine ⟨isAsked_append _ isAsked, ?_⟩
          simp only [State.rank, List.countP_append, copies_count_other elsewhere]
          exact le_refl _
      | arpcacheAppendPacket pending =>
          rw [← Option.some.inj taken]
          refine ⟨isAsked_append _ isAsked, ?_⟩
          simp only [State.rank, List.countP_append, List.countP_singleton, fresh, decide_false]
          exact le_refl _
  | append k now =>
      have taken' := taken
      simp only [Lan.step, Option.bind_eq_bind, Option.bind_eq_some_iff] at taken'
      obtain ⟨call, here, taken'⟩ := taken'
      have falls := append_step_rank accounted isAsked meant here taken
      rw [← Option.some.inj taken'] at falls ⊢
      exact ⟨isAsked, by omega⟩
  | deliver k now rand =>
      have taken' := taken
      simp only [Lan.step, Option.bind_eq_bind, Option.bind_eq_some_iff] at taken'
      obtain ⟨copy, here, handled⟩ := taken'
      have falls := deliver_step_rank accounted isAsked meant here taken
      rw [(deliver_progress accounted.truthful taken).asked]
      exact ⟨isAsked, by omega⟩
  | ignore k =>
      simp only [Lan.step, Option.bind_eq_bind, Option.bind_eq_some_iff] at taken
      obtain ⟨copy, here, taken⟩ := taken
      split_ifs at taken
      rw [← Option.some.inj taken]
      exact ⟨isAsked, Nat.add_le_add_left ((List.eraseIdx_sublist ..).countP_le ..) _⟩
  | lose k =>
      simp only [Lan.step, Option.bind_eq_bind, Option.bind_eq_some_iff] at taken
      obtain ⟨copy, here, taken⟩ := taken
      rw [← Option.some.inj taken]
      exact ⟨isAsked, Nat.add_le_add_left ((List.eraseIdx_sublist ..).countP_le ..) _⟩
  | duplicate k =>
      simp only [Lan.step, Option.bind_eq_bind, Option.bind_eq_some_iff] at taken
      obtain ⟨copy, here, taken⟩ := taken
      rw [← Option.some.inj taken]
      refine ⟨isAsked, ?_⟩
      simp only [State.rank, List.countP_append, List.countP_singleton,
        holds_unnumbered (spares copy here) q serial]
      exact le_refl _
  | sweep n now =>
      have falls := (sweep_step_rank accounted isAsked meant taken).1
      rw [← Option.some.inj taken] at falls ⊢
      exact ⟨isAsked, falls⟩

omit isAsked meant in
/-- Once the packet is with its request, the request does not grow younger. -/
theorem step_heirs {event : LanEvent Node Port} (n : Node)
    (appended : state.waiting.countP (fun call => call.serial = serial) = 0)
    (taken : L.step state event = some next) :
    Heirs serial (state.caches n).reqList (next.caches n).reqList := by
  have same : Heirs serial (state.caches n).reqList (state.caches n).reqList :=
    Heirs.sublist serial (.refl _)
  cases event with
  | ask p dstIp packet =>
      simp only [Lan.step, Option.bind_eq_bind, Option.bind_eq_some_iff] at taken
      obtain ⟨call, prepared, taken⟩ := taken
      cases call with
      | ifaceSendPacket frame => exact Option.some.inj taken ▸ same
      | arpcacheAppendPacket pending => exact Option.some.inj taken ▸ same
  | append k now =>
      simp only [Lan.step, Option.bind_eq_bind, Option.bind_eq_some_iff] at taken
      obtain ⟨call, here, taken⟩ := taken
      have other : call.serial ≠ serial := by
        rw [List.countP_eq_zero] at appended
        simpa using appended call (List.mem_of_getElem? here)
      rw [← Option.some.inj taken]
      by_cases own : n = L.node call.port
      · subst own
        simp only [Lan.settle, Function.update_self]
        exact append_heirs serial now _ _ _ _ other
      · simp only [Lan.settle, Function.update_of_ne own]
        exact same
  | deliver k now rand =>
      exact Heirs.sublist serial ((deliver_progress accounted.truthful taken).requests n)
  | ignore k =>
      simp only [Lan.step, Option.bind_eq_bind, Option.bind_eq_some_iff] at taken
      obtain ⟨copy, here, taken⟩ := taken
      split_ifs at taken
      exact Option.some.inj taken ▸ same
  | lose k =>
      simp only [Lan.step, Option.bind_eq_bind, Option.bind_eq_some_iff] at taken
      obtain ⟨copy, here, taken⟩ := taken
      exact Option.some.inj taken ▸ same
  | duplicate k =>
      simp only [Lan.step, Option.bind_eq_bind, Option.bind_eq_some_iff] at taken
      obtain ⟨copy, here, taken⟩ := taken
      exact Option.some.inj taken ▸ same
  | sweep m now =>
      rw [← Option.some.inj taken]
      by_cases own : n = m
      · subst own
        simp only [Lan.settle, Function.update_self]
        exact sweep_heirs serial now _
      · simp only [Lan.settle, Function.update_of_ne own]
        exact same

end Event

end Steps

/-! ## Runs that never end -/

section Endless

variable {Node Port Link : Type} [DecidableEq Node] [DecidableEq Port] [DecidableEq Link]

/-- No thread and no frame with a packet stops forever, and each node goes on to sweep. -/
structure Fair (state : Nat → State Node Port) (event : Nat → LanEvent Node Port) : Prop where
  appends : ∀ n, ∀ call ∈ (state n).waiting, ∃ later k now, n ≤ later ∧
    event later = .append k now ∧ (state later).waiting[k]? = some call
  arrives : ∀ n, ∀ copy ∈ (state n).inFlight, copy.serial ≠ none → ∃ later k, n ≤ later ∧
    (event later = .ignore k ∨ ∃ now rand, event later = .deliver k now rand) ∧
    (state later).inFlight[k]? = some copy
  sweeps : ∀ n node time, ∃ later now, n ≤ later ∧ event later = .sweep node now ∧ time ≤ now

variable {L : Lan Node Port Link} {state : Nat → State Node Port}
  {event : Nat → LanEvent Node Port} (endless : EndlessRun L.step State.initial state event)
  (spares : ∀ n, (event n).Spares (state n))

include endless spares

theorem endless_accounted (n : Nat) : Accounted L (state n) :=
  endless.invariant (fun _ _ _ holds condition taken => step_accounted holds condition taken)
    accounted_initial spares n

variable {first serial : Nat} {ask : Ask Port} {q : Port}
  (isAsked : (state first).asked[serial]? = some ask) (meant : Meant L ask q)

include isAsked meant

theorem endless_asked {n : Nat} (later : first ≤ n) : (state n).asked[serial]? = some ask := by
  induction n, later using Nat.le_induction with
  | base => exact isAsked
  | succ n _ ih =>
      exact (step_rank (endless_accounted endless spares n) ih meant (spares n)
        (endless.next n)).1

theorem endless_rank_le {n later : Nat} (since : first ≤ n) (after : n ≤ later) :
    (state later).rank (L.node ask.port) q serial ≤ (state n).rank (L.node ask.port) q serial := by
  induction later, after using Nat.le_induction with
  | base => exact le_refl _
  | succ later after ih =>
      have isAskedHere := endless_asked endless spares isAsked meant (le_trans since after)
      exact le_trans (step_rank (endless_accounted endless spares later) isAskedHere meant
        (spares later) (endless.next later)).2 ih

/-- The packet is either half-way in its call, or is counted in a rank of at most seven. -/
theorem endless_rank_cases {n : Nat} (since : first ≤ n) :
    (state n).waiting.countP (fun call => call.serial = serial) = 0 ↔
      (state n).rank (L.node ask.port) q serial < 8 := by
  have once := (endless_accounted endless spares n).once serial ask q
    (endless_asked endless spares isAsked meant since) meant
  have bounds := pendingRank_bounds serial ((state n).caches (L.node ask.port)).reqList
  simp only [State.places] at once
  simp only [State.rank]
  omega

variable (fair : Fair state event)

include fair

theorem waiting_falls {n : Nat} (since : first ≤ n)
    (waits : 0 < (state n).waiting.countP fun call => call.serial = serial) :
    ∃ later, n ≤ later ∧ (state later).rank (L.node ask.port) q serial <
      (state n).rank (L.node ask.port) q serial := by
  obtain ⟨call, member, same⟩ := List.countP_pos_iff.mp waits
  obtain ⟨later, k, now, after, isAppend, here⟩ := fair.appends n call member
  have taken := endless.next later
  rw [isAppend] at taken
  have falls := append_step_rank (endless_accounted endless spares later)
    (endless_asked endless spares isAsked meant (by omega)) meant here taken
  rw [if_pos (of_decide_eq_true same)] at falls
  have before := endless_rank_le endless spares isAsked meant since after
  exact ⟨later + 1, by omega, by omega⟩

theorem pending_falls {n : Nat} (since : first ≤ n)
    (appended : (state n).waiting.countP (fun call => call.serial = serial) = 0)
    (pending : 0 < pendingRank serial ((state n).caches (L.node ask.port)).reqList) :
    ∃ later, n ≤ later ∧ (state later).rank (L.node ask.port) q serial <
      (state n).rank (L.node ask.port) q serial := by
  obtain ⟨time, young⟩ := exists_time ((state n).caches (L.node ask.port)).reqList
  have small := (endless_rank_cases endless spares isAsked meant since).mp appended
  have stillSmall : ∀ later, n ≤ later →
      (state later).rank (L.node ask.port) q serial < 8 := fun later after =>
    lt_of_le_of_lt (endless_rank_le endless spares isAsked meant since after) small
  have stillAppended : ∀ later, n ≤ later →
      (state later).waiting.countP (fun call => call.serial = serial) = 0 := fun later after =>
    (endless_rank_cases endless spares isAsked meant (le_trans since after)).mpr
      (stillSmall later after)
  have held : ∀ later, n ≤ later → ∀ req ∈ ((state later).caches (L.node ask.port)).reqList,
      0 < req.rank serial → req.sent ≤ time := by
    intro later after
    induction later, after using Nat.le_induction with
    | base => exact fun req member _ => young req member
    | succ later after ih =>
        intro req member positive
        obtain ⟨old, there, positive', same⟩ := step_heirs
          (endless_accounted endless spares later) (L.node ask.port) (stillAppended later after)
          (endless.next later) req member positive
        rw [← same]
        exact ih old there positive'
  obtain ⟨later, now, after, isSweep, late⟩ := fair.sweeps n (L.node ask.port) (time + 1)
  have before := endless_rank_le endless spares isAsked meant since after
  rcases Nat.eq_zero_or_pos
    (pendingRank serial ((state later).caches (L.node ask.port)).reqList) with left | stays
  · -- the packet has left its request, and the rank counts at most its frame
    have once := (endless_accounted endless spares later).once serial ask q
      (endless_asked endless spares isAsked meant (le_trans since after)) meant
    have bounds := pendingRank_bounds serial ((state n).caches (L.node ask.port)).reqList
    refine ⟨later, after, ?_⟩
    simp only [State.places] at once
    simp only [State.rank, left, stillAppended later after, appended]
    omega
  · have taken := endless.next later
    rw [isSweep] at taken
    have isAskedHere := endless_asked endless spares isAsked meant (le_trans since after)
    have late' : ∀ req ∈ ((state later).caches (L.node ask.port)).reqList, 0 < req.rank serial →
        1 ≤ now - req.sent := by
      intro req member positive
      have := held later after req member positive
      omega
    have falls := (sweep_step_rank (endless_accounted endless spares later) isAskedHere meant
      taken).2 rfl late' stays
    exact ⟨later + 1, by omega, by omega⟩

theorem flying_falls {n : Nat} (since : first ≤ n)
    (flying : 0 < (state n).inFlight.countP (Copy.holds q serial)) :
    ∃ later, n ≤ later ∧ (state later).rank (L.node ask.port) q serial <
      (state n).rank (L.node ask.port) q serial := by
  obtain ⟨copy, member, holds⟩ := List.countP_pos_iff.mp flying
  have numbered : copy.serial ≠ none := by
    intro unnumbered
    rw [holds_unnumbered unnumbered] at holds
    cases holds
  obtain ⟨later, k, after, isTaken, here⟩ := fair.arrives n copy member numbered
  have accounted := endless_accounted endless spares later
  have isAskedHere := endless_asked endless spares isAsked meant (le_trans since after)
  have taken := endless.next later
  rcases isTaken with isIgnore | ⟨now, rand, isDeliver⟩
  · have own := (accounted.not_foreign (List.mem_of_getElem? here) isAskedHere meant holds).2
    rw [isIgnore] at taken
    simp only [Lan.step, here, Option.bind_eq_bind, Option.bind_some, if_neg own] at taken
    cases taken
  · rw [isDeliver] at taken
    have falls := deliver_step_rank accounted isAskedHere meant here taken
    rw [if_pos holds] at falls
    have before := endless_rank_le endless spares isAsked meant since after
    exact ⟨later + 1, by omega, by omega⟩

end Endless

/-- Whatever becomes of ARP requests and replies, in a run that never ends, in which no frame with
a packet is lost or doubled, each packet for an interface on the link has come to it exactly once
some time, or has been given up exactly once. -/
theorem packets_settle {Node Port Link : Type} [DecidableEq Node] [DecidableEq Port]
    [DecidableEq Link] (L : Lan Node Port Link) (state : Nat → State Node Port)
    (event : Nat → LanEvent Node Port) (endless : EndlessRun L.step State.initial state event)
    (spares : ∀ n, (event n).Spares (state n)) (fair : Fair state event) (first serial : Nat)
    (ask : Ask Port) (isAsked : (state first).asked[serial]? = some ask) (q : Port)
    (meant : Meant L ask q) :
    ∃ N, ∀ n, N ≤ n →
      (state n).received.countP (Copy.holds q serial) + (state n).refused.count serial = 1 := by
  let rank := fun n => (state n).rank (L.node ask.port) q serial
  have falls : ∀ n, first ≤ n → rank (n + 1) ≤ rank n := fun n since =>
    endless_rank_le endless spares isAsked meant since (Nat.le_succ n)
  have less : ∀ n, first ≤ n → 0 < rank n → ∃ later, n ≤ later ∧ rank later < rank n := by
    intro n since positive
    rcases Nat.eq_zero_or_pos ((state n).waiting.countP fun call => call.serial = serial) with
      appended | waits
    · rcases Nat.eq_zero_or_pos
        (pendingRank serial ((state n).caches (L.node ask.port)).reqList) with left | pending
      · refine flying_falls endless spares isAsked meant fair since ?_
        simp only [rank, State.rank, appended, left] at positive
        omega
      · exact pending_falls endless spares isAsked meant fair since appended pending
    · exact waiting_falls endless spares isAsked meant fair since waits
  obtain ⟨N, zero⟩ := exists_zero falls less
  refine ⟨max N first, ?_⟩
  intro n late
  have none := zero n (le_of_max_le_left late)
  have once := (endless_accounted endless spares n).once serial ask q
    (endless_asked endless spares isAsked meant (le_of_max_le_right late)) meant
  have bounds := pendingRank_bounds serial ((state n).caches (L.node ask.port)).reqList
  simp only [rank, State.rank] at none
  simp only [State.places] at once
  omega

/-! ## A request that is lost -/

/-- The numbers of two hosts. -/
local instance twoNumbers : NeZero 2 := ⟨by decide⟩

/-- The first host asks for the second one.  Its request is lost, and the sweep sends another. -/
def slowEvent : Nat → LanEvent (Fin 2) (Fin 2)
  | 0 => .ask 0 0x0a000002 (List.replicate 15 0)
  | 1 => .append 0 0
  | 2 => .lose 0
  | 3 => .sweep 0 1
  | 4 => .deliver 0 1 0
  | 5 => .deliver 0 1 0
  | 6 => .deliver 0 1 0
  | n => .sweep (if n % 2 = 0 then 0 else 1) n

def slow : Nat → State (Fin 2) (Fin 2)
  | 0 => State.initial
  | n + 1 => (twoHosts.step (slow n) (slowEvent n)).getD (slow n)

structure Idle (state : State (Fin 2) (Fin 2)) : Prop where
  waiting : state.waiting.length = 0
  inFlight : state.inFlight.length = 0
  requests : ∀ n, (state.caches n).reqList.length = 0

theorem Idle.sweep {state : State (Fin 2) (Fin 2)} (idle : Idle state) (n : Fin 2) (now : Int) :
    ∃ next, twoHosts.step state (.sweep n now) = some next ∧ Idle next := by
  refine ⟨_, rfl, idle.waiting, ?_, ?_⟩
  · have none := List.eq_nil_of_length_eq_zero (idle.requests n)
    simp [Lan.settle, none, sweepScan, idle.inFlight]
  · intro m
    by_cases same : m = n
    · have none := List.eq_nil_of_length_eq_zero (idle.requests n)
      simp [same, Lan.settle, none, sweepScan]
    · simp only [Lan.settle, Function.update_of_ne same]
      exact idle.requests m

theorem slowEvent_late {n : Nat} (late : 7 ≤ n) :
    slowEvent n = .sweep (if n % 2 = 0 then 0 else 1) n := by
  obtain ⟨k, rfl⟩ := Nat.exists_eq_add_of_le' late
  rfl

theorem slow_idle {n : Nat} (late : 7 ≤ n) : Idle (slow n) := by
  induction n, late using Nat.le_induction with
  | base => exact ⟨by decide +kernel, by decide +kernel, by decide +kernel⟩
  | succ n late ih =>
      obtain ⟨next, taken, idle⟩ := ih.sweep (if n % 2 = 0 then 0 else 1) n
      rw [slow, slowEvent_late late, taken, Option.getD_some]
      exact idle

theorem slow_endless : EndlessRun twoHosts.step State.initial slow slowEvent := by
  refine ⟨rfl, ?_⟩
  intro n
  have taken : (twoHosts.step (slow n) (slowEvent n)).isSome := by
    by_cases early : n < 7
    · revert n
      decide +kernel
    · rw [slowEvent_late (by omega)]
      rfl
  obtain ⟨next, taken⟩ := Option.isSome_iff_exists.mp taken
  rw [slow, taken, Option.getD_some]

theorem slow_spares (n : Nat) : (slowEvent n).Spares (slow n) := by
  by_cases lost : n = 2
  · rw [lost]
    change ∀ copy ∈ (slow 2).inFlight[0]?, copy.serial = none
    decide +kernel
  · unfold slowEvent
    split <;> trivial

theorem slow_fair : Fair slow slowEvent := by
  refine ⟨?_, ?_, ?_⟩
  · intro n call member
    have sizes : ∀ n < 7, (slow n).waiting.length = if n = 1 then 1 else 0 := by decide +kernel
    have size : (slow n).waiting.length = if n = 1 then 1 else 0 := by
      by_cases early : n < 7
      · exact sizes n early
      · rw [if_neg (by omega), (slow_idle (by omega)).waiting]
    split_ifs at size with here
    · obtain ⟨only, single⟩ := List.length_eq_one_iff.mp size
      rw [single, List.mem_singleton] at member
      exact ⟨n, 0, 0, le_refl _, by rw [here]; rfl, by rw [single, member]; rfl⟩
    · rw [List.length_eq_zero_iff] at size
      rw [size] at member
      cases member
  · intro n copy member numbered
    have packets : ∀ n < 7, ∀ copy ∈ (slow n).inFlight, copy.serial ≠ none →
        n = 6 ∧ (slow n).inFlight.length = 1 := by decide +kernel
    by_cases early : n < 7
    · obtain ⟨here, size⟩ := packets n early copy member numbered
      obtain ⟨only, single⟩ := List.length_eq_one_iff.mp size
      rw [single, List.mem_singleton] at member
      exact ⟨n, 0, le_refl _, .inr ⟨1, 0, by rw [here]; rfl⟩, by rw [single, member]; rfl⟩
    · rw [List.eq_nil_of_length_eq_zero (slow_idle (Nat.le_of_not_lt early)).inFlight] at member
      cases member
  · intro n node time
    let later := 2 * (n + 7 + time.toNat) + node.val
    have parity : (if later % 2 = 0 then (0 : Fin 2) else 1) = node := by
      rcases node with ⟨_ | _ | _, small⟩
      · exact if_pos (by simp [later])
      · exact if_neg (by simp [later])
      · omega
    refine ⟨later, later, by omega, ?_, by omega⟩
    rw [slowEvent_late (by omega), parity]

theorem packets_settle_twoHosts : ∃ N, ∀ n, N ≤ n →
    (slow n).received.countP (Copy.holds 1 0) + (slow n).refused.count 0 = 1 := by
  have isAsked : (slow 1).asked[0]? = some ⟨0, 0x0a000002, List.replicate 15 0⟩ := by rfl
  exact packets_settle twoHosts slow slowEvent slow_endless slow_spares slow_fair 1 0 _ isAsked 1
    ⟨rfl, by decide, rfl⟩

end NetworkLab.ArpCache
