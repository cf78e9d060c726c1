import NetworkLab.Mospf.Consistency

/-!
# A network of mOSPF daemons

Routers with interfaces on common links, each with the threads and the packet handlers of
`mospf_daemon.c`.  A packet that was sent arrives at any time, any number of times or never: a
hello on its link, an LSU anywhere.  What the databases say of the links is true, and the paths
that are computed from them are there.
-/
set_option autoImplicit false

namespace NetworkLab.Mospf

open Lib Lib.Run

/-- The rounds of the threads of `mospf_run`. -/
inductive ThreadRound
  | sendHello
  | checkNbr
  | checkDatabase (now : Int)
  | sendLsu
  | caculateRtable (gw : UInt32)

def ThreadRound.activity : ThreadRound → Activity
  | .sendHello => .sendHello
  | .checkNbr => .checkNbr
  | .checkDatabase now => .checkDatabase now
  | .sendLsu => .sendLsu
  | .caculateRtable gw => .caculateRtable gw

inductive Frame (ρ : Type)
  | hello (router : ρ) (index : Nat) (packet : MospfHello)
  | lsu (packet : MospfLsu)

structure Internet (ρ : Type) where
  daemon : ρ → Daemon
  sent : List (Frame ρ)

/-- `hello` and `lsu` are the arrivals of the packet that was sent as number `k`. -/
inductive NetEvent (ρ : Type)
  | round (r : ρ) (round : ThreadRound)
  | hello (k : Nat) (r : ρ) (index : Nat)
  | lsu (k : Nat) (r : ρ) (index : Nat) (now : Int)

/-- `sending_mospf_hello_thread` sends one hello by each interface. -/
def helloFrame {ρ : Type} (r : ρ) : Interface × Sent → Option (Frame ρ)
  | (iface, .hello _ packet) => some (.hello r iface.index packet)
  | (_, .lsu _) => none

def lsuFrame {ρ : Type} : Sent → Option (Frame ρ)
  | .hello _ _ => none
  | .lsu copy => some (.lsu copy.lsu)

def framesOf {ρ : Type} (r : ρ) (ifaceList : List Interface) (sent : List Sent) :
    List (Frame ρ) :=
  (ifaceList.zip sent).filterMap (helloFrame r) ++ sent.filterMap lsuFrame

section Steps

variable {ρ : Type} [DecidableEq ρ]

def Internet.act (net : Internet ρ) (r : ρ) (activity : Activity) : Option (Internet ρ) :=
  ((net.daemon r).act activity).map fun done =>
    { daemon := Function.update net.daemon r done.1
      sent := net.sent ++ framesOf r (net.daemon r).ifaceList done.2 }

/-- `link` tells on which link an interface is, by its index. -/
def netStep {L : Type} [DecidableEq L] (link : ρ → Nat → L) (net : Internet ρ) :
    NetEvent ρ → Option (Internet ρ)
  | .round r round => net.act r round.activity
  | .hello k r index =>
    match net.sent[k]? with
    | some (.hello q i packet) =>
      -- what the interface sent itself is dropped
      if link q i = link r index ∧ (q, i) ≠ (r, index) then net.act r (.hello index packet)
      else none
    | _ => none
  | .lsu k r index now =>
    match net.sent[k]? with
    | some (.lsu packet) => net.act r (.lsu { index := index, lsu := packet, now := now })
    | _ => none

end Steps

/-! ## What is true of the links -/

section Links

variable {ρ L : Type} (link : ρ → Nat → L) (start : ρ → Daemon)

structure Facing (r : ρ) (iface : Interface) (q : ρ) (other : Interface) : Prop where
  here : iface ∈ (start r).ifaceList
  there : other ∈ (start q).ifaceList
  together : link r iface.index = link q other.index
  apart : (r, iface.index) ≠ (q, other.index)

def Joined (r q : ρ) : Prop := ∃ iface other, Facing link start r iface q other

/-- The LSA is of a network of the router, or of an interface that faces one of its own. -/
def Advertisable (q : ρ) (lsa : MospfLsa) : Prop :=
  (∃ iface ∈ (start q).ifaceList,
    lsa = { subnet := iface.ip &&& iface.mask, mask := iface.mask, rid := 0 }) ∨
  ∃ iface p other, Facing link start q iface p other ∧
    lsa = { subnet := other.ip &&& other.mask, mask := other.mask, rid := (start p).routerId }

/-- The LSAs of a router with this id. -/
def Founded (rid : UInt32) (lsas : List MospfLsa) : Prop :=
  ∃ q, (start q).routerId = rid ∧ ∀ lsa ∈ lsas, Advertisable link start q lsa

structure Hears (r : ρ) (iface : Interface) : Prop where
  same : ∃ first ∈ (start r).ifaceList,
    first.index = iface.index ∧ first.ip = iface.ip ∧ first.mask = iface.mask
  neighbours : ∀ nbr ∈ iface.nbrList, ∃ first p other, Facing link start r first p other ∧
    nbr.nbrId = (start p).routerId ∧ nbr.nbrIp = other.ip ∧ nbr.nbrMask = other.mask

structure Truthful (r : ρ) (daemon : Daemon) : Prop where
  routerId : daemon.routerId = (start r).routerId
  consistent : Consistent daemon
  ifaces : ∀ iface ∈ daemon.ifaceList, Hears link start r iface
  entries : ∀ entry ∈ daemon.mospfDb, Founded link start entry.rid entry.array

def Frame.Truthful : Frame ρ → Prop
  | .hello q i packet => ∃ other ∈ (start q).ifaceList, other.index = i ∧
      packet = { saddr := other.ip, rid := (start q).routerId, mask := other.mask }
  | .lsu packet => Founded link start packet.rid packet.lsas

def Incoming (r : ρ) : Activity → Prop
  | .hello index packet => ∃ q, ∃ other ∈ (start q).ifaceList,
      link r index = link q other.index ∧ (r, index) ≠ (q, other.index) ∧
      packet = { saddr := other.ip, rid := (start q).routerId, mask := other.mask }
  | .lsu arrival => Founded link start arrival.lsu.rid arrival.lsu.lsas
  | _ => True

structure AllTruthful (net : Internet ρ) : Prop where
  daemons : ∀ r, Truthful link start r (net.daemon r)
  frames : ∀ frame ∈ net.sent, frame.Truthful link start

variable {link start} {r q : ρ}

theorem Facing.symm {iface other : Interface} (facing : Facing link start r iface q other) :
    Facing link start q other r iface :=
  ⟨facing.there, facing.here, facing.together.symm, facing.apart.symm⟩

theorem Joined.symm (joined : Joined link start r q) : Joined link start q r := by
  obtain ⟨iface, other, facing⟩ := joined
  exact ⟨other, iface, facing.symm⟩

/-! ## One router -/

section OneRouter

variable {daemon next : Daemon} {iface : Interface} {lsu : MospfLsu}

theorem Hears.advertisable (hears : Hears link start r iface) {lsa : MospfLsa}
    (advertised : lsa ∈ advertisedLsas iface) : Advertisable link start r lsa := by
  unfold advertisedLsas at advertised
  split_ifs at advertised
  · obtain ⟨first, member, -, sameIp, sameMask⟩ := hears.same
    refine .inl ⟨first, member, ?_⟩
    rw [List.mem_singleton.mp advertised, sameIp, sameMask]
  · obtain ⟨nbr, member, rfl⟩ := List.mem_map.mp advertised
    obtain ⟨first, p, other, facing, sameId, sameIp, sameMask⟩ := hears.neighbours nbr member
    refine .inr ⟨first, p, other, facing, ?_⟩
    rw [sameId, sameIp, sameMask]

theorem Hears.heardHello (hears : Hears link start r iface) {packet : MospfHello}
    (incoming : Incoming link start r (.hello iface.index packet)) :
    Hears link start r (heardHello packet iface) := by
  have kept : ∀ nbr ∈ iface.nbrList.map (fun nbr : MospfNbr =>
      if nbr.nbrIp = packet.saddr then { nbr with alive := 0 } else nbr),
      ∃ first p other, Facing link start r first p other ∧
        nbr.nbrId = (start p).routerId ∧ nbr.nbrIp = other.ip ∧ nbr.nbrMask = other.mask := by
    intro nbr member
    obtain ⟨old, isOld, rfl⟩ := List.mem_map.mp member
    obtain ⟨first, p, other, facing, same⟩ := hears.neighbours old isOld
    refine ⟨first, p, other, facing, ?_⟩
    split_ifs <;> exact same
  unfold Mospf.heardHello
  dsimp only
  split_ifs
  · exact ⟨hears.same, kept⟩
  · refine ⟨hears.same, List.forall_mem_append.mpr ⟨kept, List.forall_mem_singleton.mpr ?_⟩⟩
    obtain ⟨first, member, sameIndex, -⟩ := hears.same
    obtain ⟨q, other, there, together, apart, rfl⟩ := incoming
    rw [← sameIndex] at together apart
    exact ⟨first, q, other, ⟨member, there, together, apart⟩, rfl, rfl, rfl⟩

theorem Hears.agedNbrs (hears : Hears link start r iface) :
    Hears link start r (agedNbrs iface) := by
  refine ⟨hears.same, ?_⟩
  intro nbr member
  obtain ⟨old, isOld, rfl⟩ := List.mem_map.mp member
  exact hears.neighbours old (List.mem_filter.mp isOld).1

theorem readLsas_subset {array : List MospfLsa} (read : readLsas lsu = some array) :
    ∀ lsa ∈ array, lsa ∈ lsu.lsas := by
  unfold readLsas at read
  split_ifs at read
  obtain rfl := Option.some.inj read
  exact fun lsa member => List.mem_of_mem_take member

theorem Founded.readLsas (founded : Founded link start lsu.rid lsu.lsas) {array : List MospfLsa}
    (read : readLsas lsu = some array) : Founded link start lsu.rid array := by
  obtain ⟨q, sameId, real⟩ := founded
  exact ⟨q, sameId, fun lsa member => real lsa (readLsas_subset read lsa member)⟩

theorem entries_updateDb {now : Int} {db grown : List MospfDbEntry}
    (entries : ∀ entry ∈ db, Founded link start entry.rid entry.array)
    (founded : Founded link start lsu.rid lsu.lsas) (success : updateDb lsu now db = some grown) :
    ∀ entry ∈ grown, Founded link start entry.rid entry.array := by
  obtain ⟨-, updated, rounds, -, -, cases⟩ := updateDb_some success
  have old : ∀ entry ∈ updated, Founded link start entry.rid entry.array := by
    refine (forall_of_mapM (Q := fun _ => True) ?_ rounds).mpr fun _ _ => trivial
    intro before member entry round
    refine iff_of_true ?_ trivial
    unfold updateDbEntry at round
    split_ifs at round with older newer
    · rw [← Option.some.inj round]
      exact entries before member
    · obtain ⟨array, read, rfl⟩ := Option.map_eq_some_iff.mp round
      rw [← newer.1]
      exact founded.readLsas read
    · rw [← Option.some.inj round]
      exact entries before member
  rcases cases with rfl | ⟨-, entry, isNew, rfl⟩
  · exact old
  · obtain ⟨array, read, rfl⟩ := Option.map_eq_some_iff.mp isNew
    exact List.forall_mem_append.mpr
      ⟨old, List.forall_mem_singleton.mpr (founded.readLsas read)⟩

/-! ## What a router does and sends -/

theorem forall_framesOf {P : Frame ρ → Prop} {ifaceList : List Interface} {sent : List Sent}
    (hellos : ∀ iface daddr packet, (iface, Sent.hello daddr packet) ∈ ifaceList.zip sent →
      P (.hello r iface.index packet))
    (lsus : ∀ copy, Sent.lsu copy ∈ sent → P (.lsu copy.lsu)) :
    ∀ frame ∈ framesOf r ifaceList sent, P frame := by
  intro frame member
  rcases List.mem_append.mp member with member | member
  · obtain ⟨⟨iface, packet⟩, isSent, same⟩ := List.mem_filterMap.mp member
    cases packet with
    | hello daddr packet =>
        obtain rfl := Option.some.inj same
        exact hellos iface daddr packet isSent
    | lsu copy => cases same
  · obtain ⟨packet, isSent, same⟩ := List.mem_filterMap.mp member
    cases packet with
    | hello daddr packet => cases same
    | lsu copy =>
        obtain rfl := Option.some.inj same
        exact lsus copy isSent

theorem act_locked {activity : Activity} {body : Daemon → Option (Daemon × List Sent)}
    {sent : List Sent} (acts : daemon.act activity = daemon.locked body)
    (success : daemon.act activity = some (next, sent)) :
    ∃ done, body { daemon with mospfLock := true } = some (done, sent) ∧
      next = { done with mospfLock := false } := by
  rw [acts, Daemon.locked] at success
  split_ifs at success
  obtain ⟨⟨done, sent⟩, isDone, same⟩ := Option.map_eq_some_iff.mp success
  obtain ⟨rfl, rfl⟩ := Prod.mk.inj same
  exact ⟨done, isDone, rfl⟩

theorem Truthful.act (truthful : Truthful link start r daemon) {activity : Activity}
    (incoming : Incoming link start r activity) {sent : List Sent}
    (success : daemon.act activity = some (next, sent)) :
    Truthful link start r next ∧
      ∀ frame ∈ framesOf r daemon.ifaceList sent, frame.Truthful link start := by
  have goes : daemon.next activity = some next := by rw [Daemon.next, success, Option.map_some]
  have consistent := consistent_next activity truthful.consistent goes
  have silent : ∀ frame ∈ framesOf r daemon.ifaceList [], frame.Truthful link start :=
    forall_framesOf (by simp) (by simp)
  cases activity with
  | sendHello =>
      obtain ⟨done, isDone, rfl⟩ := act_locked (by rw [Daemon.act]) success
      obtain ⟨rfl, rfl⟩ := Prod.mk.inj (Option.some.inj isDone)
      refine ⟨⟨truthful.routerId, consistent, truthful.ifaces, truthful.entries⟩, ?_⟩
      apply forall_framesOf
      · intro iface daddr packet member
        rw [sendingMospfHello, ← List.map_prod_left_eq_zip] at member
        obtain ⟨sender, isSender, same⟩ := List.mem_map.mp member
        obtain ⟨rfl, isSent⟩ := Prod.mk.inj same
        obtain ⟨-, rfl⟩ := Sent.hello.inj isSent
        obtain ⟨first, isFirst, sameIndex, sameIp, sameMask⟩ := (truthful.ifaces sender isSender).same
        refine ⟨first, isFirst, sameIndex, ?_⟩
        rw [sameIp, sameMask, ← truthful.routerId]
      · intro copy member
        obtain ⟨sender, -, same⟩ := List.mem_map.mp member
        cases same
  | hello index packet =>
      obtain ⟨done, isDone, rfl⟩ := act_locked (by rw [Daemon.act]) success
      obtain ⟨rfl, rfl⟩ := Prod.mk.inj (Option.some.inj isDone)
      refine ⟨⟨truthful.routerId, consistent, ?_, truthful.entries⟩, silent⟩
      intro iface member
      obtain ⟨old, isOld, rfl⟩ := List.mem_map.mp member
      split_ifs with here
      · subst here
        exact (truthful.ifaces old isOld).heardHello incoming
      · exact truthful.ifaces old isOld
  | checkNbr =>
      obtain ⟨done, isDone, rfl⟩ := act_locked (by rw [Daemon.act]) success
      obtain ⟨rfl, rfl⟩ := Prod.mk.inj (Option.some.inj isDone)
      refine ⟨⟨truthful.routerId, consistent, ?_, truthful.entries⟩, silent⟩
      intro iface member
      obtain ⟨old, isOld, rfl⟩ := List.mem_map.mp member
      exact (truthful.ifaces old isOld).agedNbrs
  | checkDatabase now =>
      obtain ⟨done, isDone, rfl⟩ := act_locked (by rw [Daemon.act]) success
      obtain ⟨rfl, rfl⟩ := Prod.mk.inj (Option.some.inj isDone)
      obtain ⟨rtable, same⟩ := checkingDatabase_eq now { daemon with mospfLock := true }
      rw [same] at consistent ⊢
      refine ⟨⟨truthful.routerId, consistent, truthful.ifaces, ?_⟩, silent⟩
      exact fun entry member => truthful.entries entry (List.mem_filter.mp member).1
  | sendLsu =>
      obtain ⟨done, isDone, rfl⟩ := act_locked (by rw [Daemon.act]) success
      unfold sendingMospfLsu at isDone
      dsimp only at isDone
      split_ifs at isDone
      obtain ⟨rfl, rfl⟩ := Prod.mk.inj (Option.some.inj isDone)
      refine ⟨⟨truthful.routerId, consistent, truthful.ifaces, truthful.entries⟩, ?_⟩
      apply forall_framesOf
      · intro iface daddr packet member
        obtain ⟨sender, -, isSent⟩ := List.mem_flatMap.mp (List.of_mem_zip member).2
        obtain ⟨nbr, -, same⟩ := List.mem_map.mp isSent
        cases same
      · intro copy member
        obtain ⟨sender, -, isSent⟩ := List.mem_flatMap.mp member
        obtain ⟨nbr, -, same⟩ := List.mem_map.mp isSent
        obtain rfl := Sent.lsu.inj same
        refine ⟨r, truthful.routerId.symm, ?_⟩
        intro lsa advertised
        obtain ⟨iface, isIface, advertised⟩ := List.mem_flatMap.mp advertised
        exact (truthful.ifaces iface isIface).advertisable advertised
  | lsu arrival =>
      obtain ⟨⟨router, copies⟩, isDone, same⟩ := Option.map_eq_some_iff.mp success
      obtain ⟨rfl, rfl⟩ := Prod.mk.inj same
      unfold handleMospfLsu at isDone
      split_ifs at isDone
      · obtain ⟨rfl, rfl⟩ := Prod.mk.inj (Option.some.inj isDone)
        exact ⟨⟨truthful.routerId, consistent, truthful.ifaces, truthful.entries⟩, silent⟩
      · obtain ⟨db, isDb, same⟩ := Option.map_eq_some_iff.mp isDone
        obtain ⟨rfl, rfl⟩ := Prod.mk.inj same
        refine ⟨⟨truthful.routerId, consistent, truthful.ifaces,
          entries_updateDb truthful.entries incoming isDb⟩, ?_⟩
        apply forall_framesOf
        · intro iface daddr packet member
          obtain ⟨copy, -, same⟩ := List.mem_map.mp (List.of_mem_zip member).2
          cases same
        · intro copy member
          obtain ⟨flooded, isFlooded, same⟩ := List.mem_map.mp member
          obtain rfl := Sent.lsu.inj same
          unfold floodLsu at isFlooded
          dsimp only at isFlooded
          split_ifs at isFlooded
          · obtain ⟨sender, -, isSent⟩ := List.mem_flatMap.mp isFlooded
            obtain ⟨nbr, -, rfl⟩ := List.mem_map.mp isSent
            exact incoming
          · cases isFlooded
  | caculateRtable gw =>
      obtain ⟨done, isDone, rfl⟩ := act_locked (by rw [Daemon.act]) success
      obtain ⟨routed, isRouted, same⟩ := Option.map_eq_some_iff.mp isDone
      obtain ⟨rfl, rfl⟩ := Prod.mk.inj same
      obtain ⟨globals, rtable, rfl⟩ := caculateRtable_some isRouted
      exact ⟨⟨truthful.routerId, consistent, truthful.ifaces, truthful.entries⟩, silent⟩

end OneRouter

/-! ## Runs -/

section Runs

variable {net next : Internet ρ}

theorem AllTruthful.act [DecidableEq ρ] (truthful : AllTruthful link start net) {activity : Activity}
    (incoming : Incoming link start r activity) (success : net.act r activity = some next) :
    AllTruthful link start next := by
  obtain ⟨⟨daemon, sent⟩, acts, rfl⟩ := Option.map_eq_some_iff.mp success
  obtain ⟨stays, frames⟩ := (truthful.daemons r).act incoming acts
  refine ⟨?_, List.forall_mem_append.mpr ⟨truthful.frames, frames⟩⟩
  intro q
  dsimp only
  by_cases same : q = r
  · subst same
    rw [Function.update_self]
    exact stays
  · rw [Function.update_of_ne same]
    exact truthful.daemons q

theorem allTruthful_start (booted : ∀ r, Booted (start r)) :
    AllTruthful link start { daemon := start, sent := [] } where
  daemons r := by
    refine ⟨rfl, consistent_of_booted (booted r), ?_, ?_⟩
    · intro iface member
      refine ⟨⟨iface, member, rfl, rfl, rfl⟩, ?_⟩
      rw [((booted r).alone iface member).1]
      exact fun nbr none => absurd none List.not_mem_nil
    · rw [(booted r).empty]
      exact fun entry none => absurd none List.not_mem_nil
  frames := fun frame none => absurd none List.not_mem_nil

variable [DecidableEq ρ] [DecidableEq L]

theorem AllTruthful.step (truthful : AllTruthful link start net) (event : NetEvent ρ)
    (success : netStep link net event = some next) : AllTruthful link start next := by
  cases event with
  | round r round =>
      refine truthful.act ?_ success
      cases round <;> exact trivial
  | hello k r index =>
      dsimp only [netStep] at success
      split at success
      · rename_i q i packet here
        split_ifs at success with reaches
        obtain ⟨other, there, sameIndex, isPacket⟩ := truthful.frames _ (List.mem_of_getElem? here)
        have incoming : Incoming link start r (.hello index packet) := by
          refine ⟨q, other, there, ?_, ?_, isPacket⟩
          · rw [sameIndex, reaches.1]
          · rw [sameIndex]
            exact reaches.2.symm
        exact truthful.act incoming success
      · cases success
  | lsu k r index now =>
      dsimp only [netStep] at success
      split at success
      · rename_i packet here
        have incoming : Incoming link start r
            (.lsu { index := index, lsu := packet, now := now }) :=
          truthful.frames _ (List.mem_of_getElem? here)
        exact truthful.act incoming success
      · cases success

theorem allTruthful_run (booted : ∀ r, Booted (start r)) (events : List (NetEvent ρ))
    (success : run (netStep link) { daemon := start, sent := [] } events = some net) :
    AllTruthful link start net :=
  invariant_run (netStep link) (fun _ event _ truthful taken => truthful.step event taken) events
    (allTruthful_start booted) success

end Runs

/-! ## Paths -/

section Paths

variable {db : List MospfDbEntry} {rid : UInt32}

theorem joined_of_advertised (entries : ∀ entry ∈ db, Founded link start entry.rid entry.array)
    {a b : UInt32} (advertised : Advertised db a b) :
    ∃ q p, (start q).routerId = a ∧ (start p).routerId = b ∧ Joined link start q p := by
  obtain ⟨entry, member, rfl, nonzero, lsa, isLsa, rfl⟩ := advertised
  obtain ⟨q, sameId, real⟩ := entries entry member
  rcases real lsa (List.mem_of_mem_take isLsa) with ⟨iface, -, rfl⟩ | ⟨iface, p, other, facing, rfl⟩
  · exact absurd rfl nonzero
  · exact ⟨q, p, sameId, rfl, iface, other, facing⟩

theorem walk_of_hops (ids : Function.Injective fun q => (start q).routerId)
    (entries : ∀ entry ∈ db, Founded link start entry.rid entry.array) {d x y : Nat}
    (walk : Walk (Hop rid db) d x y) {q : ρ}
    (here : (rids rid db)[x]? = some (start q).routerId) :
    ∃ p, (rids rid db)[y]? = some (start p).routerId ∧ Walk (Joined link start) d q p := by
  induction d generalizing x q with
  | zero =>
      obtain rfl := walk
      exact ⟨q, here, rfl⟩
  | succ d ih =>
      obtain ⟨w, ⟨-, a, b, atX, atW, advertised⟩, rest⟩ := walk
      obtain rfl := Option.some.inj (here.symm.trans atX)
      have step : ∃ p, (start p).routerId = b ∧ Joined link start q p := by
        rcases advertised with there | back
        · obtain ⟨q', p, sameQ, sameP, joined⟩ := joined_of_advertised entries there
          obtain rfl := ids sameQ
          exact ⟨p, sameP, joined⟩
        · obtain ⟨p, q', sameP, sameQ, joined⟩ := joined_of_advertised entries back
          obtain rfl := ids sameQ
          exact ⟨p, sameP, joined.symm⟩
      obtain ⟨p, rfl, joined⟩ := step
      obtain ⟨last, atLast, later⟩ := ih rest atW
      exact ⟨last, atLast, Walk.cons joined later⟩

end Paths

/-- Whatever is lost, delayed and doubled, and in whatever order the threads take their turns:
every database entry is of another router and has LSAs of it, each of a network of it or of an
interface that faces one of its own; and when the shortest paths are computed at a router, as
many links as `Dist` says lead from it to the router of the node. -/
theorem databases_true [DecidableEq ρ] [DecidableEq L] (booted : ∀ r, Booted (start r))
    (ids : Function.Injective fun r => (start r).routerId) (events : List (NetEvent ρ))
    (net : Internet ρ)
    (success : run (netStep link) { daemon := start, sent := [] } events = some net) (r : ρ) :
    (∀ entry ∈ (net.daemon r).mospfDb, ∃ q, q ≠ r ∧ (start q).routerId = entry.rid ∧
      ∀ lsa ∈ entry.array, Advertisable link start q lsa) ∧
    ∀ globals nodeNum done, caculatePaths (net.daemon r).routerId (net.daemon r).mospfDb globals =
        some (nodeNum, done) →
      ∀ x < nodeNum, ∃ q, (start q).routerId = done.node x ∧
        Walk (Joined link start) (done.dist x).toNat r q := by
  obtain ⟨sameId, consistent, -, entries⟩ := (allTruthful_run booted events success).daemons r
  constructor
  · intro entry member
    obtain ⟨q, isRid, real⟩ := entries entry member
    refine ⟨q, ?_, isRid, real⟩
    rintro rfl
    have distinct := (List.nodup_cons.mp consistent.distinct).1
    rw [sameId, isRid] at distinct
    exact distinct (List.mem_map_of_mem member)
  · intro globals nodeNum done computed x bound
    have paths := caculatePaths_some consistent.distinct computed
    have first : (rids (net.daemon r).routerId (net.daemon r).mospfDb)[0]? =
        some (start r).routerId := congrArg some sameId
    obtain ⟨q, atX, walk⟩ := walk_of_hops ids entries (paths.distances x bound).1 first
    refine ⟨q, ?_, walk⟩
    exact Option.some.inj (atX.symm.trans (paths.nodes x bound))

end Links

/-! ## Two routers -/

def pairRouter (second : Bool) : Daemon :=
  let ip : UInt32 := if second then 0x0a000102 else 0x0a000101
  let own : UInt32 := if second then 0x0a000301 else 0x0a000201
  { routerId := ip, sequenceNum := 0, mospfDb := [], rtable := [], globals := zeroGlobals,
    mospfLock := false
    ifaceList :=
      [{ index := 0, ip := ip, mask := 0xffffff00, name := "r-eth0", numNbr := 0, nbrList := [] },
       { index := 1, ip := own, mask := 0xffffff00, name := "r-eth1", numNbr := 0,
         nbrList := [] }] }

def pairLink (second : Bool) (index : Nat) : Nat :=
  if index = 0 then 0 else if second then 2 else 1

def pairEvents : List (NetEvent Bool) :=
  [.round false .sendHello, .round true .sendHello, .hello 0 true 0, .hello 2 false 0,
   .round false .sendLsu, .lsu 4 true 0 100]

def pairNet : Internet Bool :=
  (run (netStep pairLink) { daemon := pairRouter, sent := [] } pairEvents).getD
    { daemon := pairRouter, sent := [] }

theorem databases_true_pair :
    ∃ done, caculatePaths (pairNet.daemon true).routerId (pairNet.daemon true).mospfDb zeroGlobals =
        some (2, done) ∧
      ∃ q, (pairRouter q).routerId = done.node 1 ∧
        Walk (Joined pairLink pairRouter) (done.dist 1).toNat true q := by
  have nodes : (caculatePaths (pairNet.daemon true).routerId (pairNet.daemon true).mospfDb
      zeroGlobals).map Prod.fst = some 2 := by decide
  obtain ⟨⟨nodeNum, done⟩, computed, rfl⟩ := Option.map_eq_some_iff.mp nodes
  refine ⟨done, computed, ?_⟩
  refine (databases_true ?_ ?_ pairEvents pairNet rfl true).2 _ _ _ computed 1 (by decide)
  · exact fun r => ⟨rfl, rfl, by cases r <;> decide⟩
  · intro r q same
    revert r q
    decide

end NetworkLab.Mospf
