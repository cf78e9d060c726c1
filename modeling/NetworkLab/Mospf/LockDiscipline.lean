import NetworkLab.Mospf.Consistency

/-!
# The lock of the daemon

When the steps of a run all return with `mospf_lock` free.  `handle_mospf_lsu` keeps the
lock when it gets an LSU of this router, and the sort in `caculate_rtable_thread` never
comes back once there is a second node.
-/
set_option autoImplicit false

namespace NetworkLab.Mospf

open Lib.Run

section Sorting

variable {nodeNum : Nat}

theorem rankFrom_zero (several : 2 ≤ nodeNum) (left j : Nat) (ranking : Ranking) :
    rankFrom nodeNum 0 left j ranking = none := by
  have runs : ((0 : Nat) : Int) ≠ nodeNum - (0 : Nat) - 1 := by omega
  induction left generalizing j ranking with
  | zero => rw [rankFrom, if_pos runs]
  | succ left ih =>
      rw [rankFrom, if_pos runs]
      cases rankRound j ranking with
      | none => rfl
      | some next => exact ih (j + 1) next

theorem rankNodes_none (several : 2 ≤ nodeNum) (dist : Nat → UInt32) :
    rankNodes nodeNum dist = none := by
  obtain ⟨k, rfl⟩ := Nat.exists_eq_add_of_le' several
  have rounds : List.range (k + 2 - 1) = 0 :: (List.range k).map Nat.succ := List.range_succ_eq_map
  rw [rankNodes, rounds, List.foldlM_cons, rankFrom_zero several]
  rfl

theorem installRoutes_empty (globals : Globals) (ifaceList : List Interface) (routing : Routing) :
    installRoutes 1 globals ifaceList [] [0] routing = some routing := by
  have zero : 0 < MAX_NUM := by decide
  simp [installRoutes, installNode, readAt, zero]

theorem caculateRtable_isSome_iff {gw : UInt32} {daemon : Daemon}
    (distinct : (rids daemon.routerId daemon.mospfDb).Nodup) :
    (caculateRtable gw daemon).isSome ↔ daemon.mospfDb = [] := by
  constructor
  · intro success
    by_contra nonempty
    obtain ⟨done, success⟩ := Option.isSome_iff_exists.mp success
    obtain ⟨⟨nodeNum, globals⟩, isPaths, success⟩ := Option.bind_eq_some_iff.mp success
    obtain ⟨ranking, isRanking, -⟩ := Option.bind_eq_some_iff.mp success
    have several : 2 ≤ nodeNum := by
      have count := (caculatePaths_some distinct isPaths).count
      have entries := List.length_pos_iff.mpr nonempty
      omega
    rw [rankNodes_none several] at isRanking
    cases isRanking
  · intro empty
    have connected : Connected daemon.routerId daemon.mospfDb := by
      intro x bound
      rw [empty] at bound
      obtain rfl : x = 0 := Nat.lt_one_iff.mp bound
      exact ⟨0, rfl⟩
    have runs : (caculatePaths daemon.routerId daemon.mospfDb daemon.globals).isSome := by
      rw [caculatePaths_isSome_iff distinct]
      refine ⟨by rw [empty]; decide, ?_, ?_, connected⟩
      · simp [Sized, empty]
      · simp [Known, empty]
    obtain ⟨⟨nodeNum, globals⟩, isPaths⟩ := Option.isSome_iff_exists.mp runs
    have count := (caculatePaths_some distinct isPaths).count
    rw [empty] at count
    obtain rfl : nodeNum = 1 := count
    have ranked : rankNodes 1 globals.dist = some { dist := globals.dist, distRank := [0] } := rfl
    rw [empty] at isPaths
    simp [caculateRtable, empty, isPaths, ranked, installRoutes_empty]

end Sorting

/-- The step returns, and with the lock free: an LSU is of another router and fits its
entry, and routes are calculated only while the database is empty. -/
def Releases (daemon : Daemon) : Activity → Prop
  | .lsu arrival => daemon.routerId ≠ arrival.lsu.rid ∧ Readable arrival.lsu daemon.mospfDb
  | .caculateRtable _ => daemon.mospfDb = []
  | _ => True

instance decidableReleases (daemon : Daemon) : ∀ activity, Decidable (Releases daemon activity)
  | .sendHello => isTrue trivial
  | .hello _ _ => isTrue trivial
  | .checkNbr => isTrue trivial
  | .checkDatabase _ => isTrue trivial
  | .sendLsu => isTrue trivial
  | .lsu arrival =>
    inferInstanceAs (Decidable (daemon.routerId ≠ arrival.lsu.rid ∧ Readable arrival.lsu daemon.mospfDb))
  | .caculateRtable _ => inferInstanceAs (Decidable (daemon.mospfDb = []))

section Steps

variable {daemon : Daemon}

theorem locked_returns {activity : Activity} {body : Daemon → Option (Daemon × List Sent)}
    (acts : daemon.act activity = daemon.locked body) (free : daemon.mospfLock = false) :
    (∃ next, daemon.next activity = some next ∧ next.mospfLock = false) ↔
      (body { daemon with mospfLock := true }).isSome := by
  rw [Daemon.next, acts, Daemon.locked, free]
  cases body { daemon with mospfLock := true } with
  | none => simp
  | some done => simp

theorem handleLsu_returns {arrival : Arrival} (printable : Printable daemon.mospfDb)
    (free : daemon.mospfLock = false) :
    (∃ next, daemon.next (.lsu arrival) = some next ∧ next.mospfLock = false) ↔
      Releases daemon (.lsu arrival) := by
  rw [Releases, ← updateDb_isSome_iff printable]
  constructor
  · rintro ⟨next, success, released⟩
    obtain ⟨-, ⟨-, rfl⟩ | ⟨foreign, db, isDb, rfl⟩⟩ := handleLsu_some success
    · cases released
    · exact ⟨foreign, Option.isSome_iff_exists.mpr ⟨db, isDb⟩⟩
  · rintro ⟨foreign, success⟩
    obtain ⟨db, isDb⟩ := Option.isSome_iff_exists.mp success
    have handled : handleMospfLsu daemon.router arrival.index arrival.lsu arrival.now =
        (updateDb arrival.lsu arrival.now daemon.mospfDb).map fun db =>
          ({ daemon.router with mospfDb := db },
            floodLsu daemon.router.ifaceList arrival.index arrival.lsu) :=
      handleMospfLsu_foreign free foreign
    refine ⟨{ daemon with mospfDb := db }, ?_, free⟩
    rw [Daemon.next, Daemon.act, Daemon.handleLsu, handled, isDb]
    rfl

theorem returns_iff (consistent : Consistent daemon) (free : daemon.mospfLock = false)
    (activity : Activity) :
    (∃ next, daemon.next activity = some next ∧ next.mospfLock = false) ↔
      Releases daemon activity := by
  cases activity with
  | sendHello =>
      rw [locked_returns (by rw [Daemon.act]) free]
      simp [Releases]
  | hello index packet =>
      rw [locked_returns (by rw [Daemon.act]) free]
      simp [Releases]
  | checkNbr =>
      rw [locked_returns (by rw [Daemon.act]) free]
      simp [Releases]
  | checkDatabase now =>
      rw [locked_returns (by rw [Daemon.act]) free]
      simp [Releases]
  | sendLsu =>
      rw [locked_returns (by rw [Daemon.act]) free]
      obtain ⟨copies, sent⟩ := @sendingMospfLsu_eq { daemon with mospfLock := true } consistent.counted
      simp [sent, Releases]
  | lsu arrival => exact handleLsu_returns consistent.printable free
  | caculateRtable gw =>
      rw [locked_returns (by rw [Daemon.act]) free, Option.isSome_map]
      exact @caculateRtable_isSome_iff gw { daemon with mospfLock := true } consistent.distinct

end Steps

/-- Every step of a run returns with the lock free exactly when every step of it is one
that `Releases`. -/
theorem lock_discipline (daemon : Daemon) (booted : Booted daemon) (activities : List Activity) :
    Completes Daemon.next (fun state => state.mospfLock = false) daemon activities ↔
      Guarded Daemon.next Releases daemon activities := by
  refine completes_iff_guarded Daemon.next
    (fun state activity next holds taken => consistent_next activity holds taken) ?_ activities
    (consistent_of_booted booted) booted.free
  intro state activity consistent free
  exact returns_iff consistent free activity

def routerOne : Daemon :=
  { routerId := 1, sequenceNum := 0,
    ifaceList :=
      [{ index := 0, ip := 0x0a000101, nbrList := [], mask := 0xffffff00,
         name := "r1-eth0", numNbr := 0 }],
    mospfDb := [], rtable := [], globals := zeroGlobals, mospfLock := false }

theorem routerOne_booted : Booted routerOne := ⟨rfl, rfl, by decide⟩

theorem lock_discipline_one :
    Completes Daemon.next (fun state => state.mospfLock = false) routerOne
      [.hello 0 ⟨0x0a000102, 2, 0xffffff00⟩, .caculateRtable 0, .lsu ⟨0, lsuOfTwo 0 0x0a000200, 0⟩,
        .sendLsu, .checkNbr, .checkDatabase 60, .sendHello] := by
  exact (lock_discipline routerOne routerOne_booted _).mpr (by decide)

def lsuOfOne : MospfLsu :=
  { rid := 1, seq := 0, ttl := 253, nadv := 1,
    lsas := [{ subnet := 0x0a000100, mask := 0xffffff00, rid := 0 }] }

theorem own_lsu_keeps_lock :
    Booted routerOne ∧ lsuOfOne.WellFormed ∧
      routerOne.next (.lsu ⟨0, lsuOfOne, 0⟩) = some { routerOne with mospfLock := true } ∧
      Daemon.next { routerOne with mospfLock := true } .sendHello = none ∧
      ¬ Completes Daemon.next (fun state => state.mospfLock = false) routerOne
        [.lsu ⟨0, lsuOfOne, 0⟩] := by
  have keeps : routerOne.next (.lsu ⟨0, lsuOfOne, 0⟩) = some { routerOne with mospfLock := true } := rfl
  refine ⟨routerOne_booted, rfl, keeps, rfl, ?_⟩
  rintro ⟨next, taken, released, -⟩
  rw [keeps] at taken
  obtain rfl := Option.some.inj taken
  cases released

end NetworkLab.Mospf
