import NetworkLab.Mospf.LockDiscipline

/-!
# When the calculation of routes gets through

In every state that well-formed packets lead to, `caculate_graph` and `Dijkstra` meet no
failing assertion and stay inside their arrays exactly when the database fits them,
knows every router it mentions and connects all of them.
-/
set_option autoImplicit false

namespace NetworkLab.Mospf

open Lib.Run

/-- The packets of routers that run this daemon: an LSU has the LSAs that it counts. -/
def Honest : Activity → Prop
  | .lsu arrival => arrival.lsu.WellFormed
  | _ => True

structure Counting (daemon : Daemon) : Prop extends Consistent daemon where
  natural : ∀ entry ∈ daemon.mospfDb, 0 ≤ entry.nadv

section Runs

variable {daemon next : Daemon} {lsu : MospfLsu} {now : Int} {db grown : List MospfDbEntry}

theorem updateDb_natural (wellFormed : lsu.WellFormed) (natural : ∀ entry ∈ db, 0 ≤ entry.nadv)
    (success : updateDb lsu now db = some grown) : ∀ entry ∈ grown, 0 ≤ entry.nadv := by
  obtain ⟨-, updated, -, -, sameNadv, outcome⟩ := updateDb_some success
  have old : ∀ entry ∈ updated, 0 ≤ entry.nadv := by
    intro entry member
    have inDb : entry.nadv ∈ db.map MospfDbEntry.nadv := by
      rw [← sameNadv]
      exact List.mem_map_of_mem member
    obtain ⟨before, isBefore, same⟩ := List.mem_map.mp inDb
    rw [← same]
    exact natural before isBefore
  rcases outcome with rfl | ⟨-, new, isNew, rfl⟩
  · exact old
  · obtain ⟨array, -, rfl⟩ := Option.map_eq_some_iff.mp isNew
    intro entry member
    rcases List.mem_append.mp member with isOld | isLast
    · exact old entry isOld
    · rw [List.mem_singleton.mp isLast]
      change 0 ≤ lsu.nadvInt
      rw [wellFormed]
      exact Int.natCast_nonneg _

theorem counting_next (activity : Activity) (counting : Counting daemon) (honest : Honest activity)
    (success : daemon.next activity = some next) : Counting next := by
  refine { toConsistent := consistent_next activity counting.toConsistent success, natural := ?_ }
  obtain ⟨-, -, kept | ⟨arrival, rfl, -, isDb⟩⟩ := next_some activity counting.counted success
  · exact fun entry member => counting.natural entry (kept.subset member)
  · exact updateDb_natural honest counting.natural isDb

theorem counting_run (activities : List Activity) (counting : Counting daemon)
    (honest : ∀ activity ∈ activities, Honest activity) {final : Daemon}
    (reached : run Daemon.next daemon activities = some final) : Counting final := by
  induction activities generalizing daemon with
  | nil =>
      obtain rfl := Option.some.inj reached
      exact counting
  | cons activity rest ih =>
      obtain ⟨next, taken, later⟩ := run_cons_some Daemon.next reached
      have here := honest activity List.mem_cons_self
      exact ih (counting_next activity counting here taken)
        (fun other member => honest other (List.mem_cons_of_mem _ member)) later

end Runs

/-- In every state that a run on honest packets reaches, the calculation gets through
exactly when the database has at most 14 entries, one for every other router that it
mentions, and leads to all of them. -/
theorem route_calculation (daemon : Daemon) (booted : Booted daemon) (activities : List Activity)
    (honest : ∀ activity ∈ activities, Honest activity) {final : Daemon}
    (reached : run Daemon.next daemon activities = some final) (globals : Globals) :
    (caculatePaths final.routerId final.mospfDb globals).isSome ↔
      final.mospfDb.length ≤ 14 ∧ Known final.routerId final.mospfDb ∧
        Connected final.routerId final.mospfDb := by
  have counting : Counting final := counting_run activities
    { toConsistent := consistent_of_booted booted, natural := by simp [booted.empty] } honest reached
  have sized : Sized final.mospfDb := fun entry member =>
    ⟨counting.natural entry member, counting.printable entry member⟩
  have few : final.mospfDb.length < MAX_NUM ↔ final.mospfDb.length ≤ 14 := Nat.lt_succ_iff
  rw [caculatePaths_isSome_iff counting.distinct, few]
  exact ⟨fun ⟨small, _, known, connected⟩ => ⟨small, known, connected⟩,
    fun ⟨small, known, connected⟩ => ⟨small, sized, known, connected⟩⟩

theorem route_calculation_two :
    ∃ final, run Daemon.next routerOne [.lsu ⟨0, lsuOfTwo 0 0x0a000200, 0⟩] = some final ∧
      ((caculatePaths final.routerId final.mospfDb zeroGlobals).isSome ↔
        final.mospfDb.length ≤ 14 ∧ Known final.routerId final.mospfDb ∧
          Connected final.routerId final.mospfDb) := by
  have honest : ∀ activity ∈ [.lsu ⟨0, lsuOfTwo 0 0x0a000200, 0⟩], Honest activity := by
    intro activity member
    rw [List.mem_singleton.mp member]
    exact (rfl : (lsuOfTwo 0 0x0a000200).WellFormed)
  obtain ⟨final, reached⟩ : ∃ final,
    run Daemon.next routerOne [.lsu ⟨0, lsuOfTwo 0 0x0a000200, 0⟩] = some final := ⟨_, rfl⟩
  exact ⟨final, reached, route_calculation routerOne routerOne_booted _ honest reached zeroGlobals⟩

def lsuBeforeThree : MospfLsu :=
  { rid := 2, seq := 0, ttl := 255, nadv := 2,
    lsas := [{ subnet := 0x0a000100, mask := 0xffffff00, rid := 1 },
      { subnet := 0x0a000200, mask := 0xffffff00, rid := 3 }] }

theorem unknown_router_aborts :
    Booted routerOne ∧ Honest (.lsu ⟨0, lsuBeforeThree, 0⟩) ∧
      ∃ final, run Daemon.next routerOne [.lsu ⟨0, lsuBeforeThree, 0⟩] = some final ∧
        caculatePaths final.routerId final.mospfDb final.globals = none := by
  exact ⟨routerOne_booted, rfl, _, rfl, rfl⟩

end NetworkLab.Mospf
