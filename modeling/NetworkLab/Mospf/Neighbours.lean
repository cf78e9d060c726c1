import NetworkLab.Mospf.Consistency

/-!
# The neighbours of an interface

`handle_mospf_hello` and the rounds of `checking_nbr_thread`, from `mospf_init` on.  What a
list holds is told by the hellos and rounds so far: the age of a neighbour is the number of
rounds since it was heard.
-/
set_option autoImplicit false

namespace NetworkLab.Mospf

open Lib.Run

/-- An interface as `find_available_ifaces` and `read_iface_info` leave it; the memory is
cleared first. -/
structure FoundIface where
  index : Nat
  ip : UInt32
  mask : UInt32
  name : String

def FoundIface.iface (found : FoundIface) : Interface :=
  { index := found.index, ip := found.ip, nbrList := [], mask := found.mask, name := found.name,
    numNbr := 0 }

/-- `mospf_init`; a stack without interfaces exits before it. -/
def mospfInit (first : FoundIface) (rest : List FoundIface) (rtable : List RtEntry)
    (globals : Globals) : Daemon :=
  { routerId := first.ip, sequenceNum := 0, ifaceList := (first :: rest).map FoundIface.iface,
    mospfDb := [], rtable := rtable, globals := globals, mospfLock := false }

theorem mospfInit_booted (first : FoundIface) (rest : List FoundIface) (rtable : List RtEntry)
    (globals : Globals) : Booted (mospfInit first rest rtable globals) where
  free := rfl
  empty := rfl
  alone := by
    intro iface member
    obtain ⟨found, -, rfl⟩ := List.mem_map.mp member
    exact ⟨rfl, rfl⟩

inductive NbrEvent where
  | hello (index : Nat) (packet : MospfHello)
  | checkNbr

def NbrEvent.activity : NbrEvent → Activity
  | .hello index packet => .hello index packet
  | .checkNbr => .checkNbr

def nbrStep (daemon : Daemon) (event : NbrEvent) : Option Daemon := daemon.next event.activity

/-- The rounds of `checking_nbr_thread` since the last hello from an address on an interface.
The history starts with the last event. -/
def roundsSince (index : Nat) (ip : UInt32) : List NbrEvent → Option Nat
  | [] => none
  | .hello onto packet :: earlier =>
    if onto = index ∧ packet.saddr = ip then some 0 else roundsSince index ip earlier
  | .checkNbr :: earlier => (roundsSince index ip earlier).map (· + 1)

def MAX_ALIVE : UInt8 := 3 * MOSPF_DEFAULT_HELLOINT + 1

structure NbrTable (history : List NbrEvent) (iface : Interface) : Prop where
  counted : iface.numNbr = iface.nbrList.length
  distinct : (iface.nbrList.map MospfNbr.nbrIp).Nodup
  bounded : ∀ nbr ∈ iface.nbrList, nbr.alive ≤ MAX_ALIVE
  aged : ∀ nbr ∈ iface.nbrList,
    roundsSince iface.index nbr.nbrIp history = some nbr.alive.toNat
  present : ∀ ip, (∃ nbr ∈ iface.nbrList, nbr.nbrIp = ip) ↔
    ∃ rounds ≤ MAX_ALIVE.toNat, roundsSince iface.index ip history = some rounds

section Steps

variable {history : List NbrEvent} {iface : Interface}

theorem nbrTable_found (found : FoundIface) : NbrTable [] found.iface where
  counted := rfl
  distinct := List.nodup_nil
  bounded := fun nbr member => by cases member
  aged := fun nbr member => by cases member
  present := fun ip => by simp [FoundIface.iface, roundsSince]

theorem NbrTable.elsewhere (table : NbrTable history iface) {index : Nat} (packet : MospfHello)
    (other : index ≠ iface.index) : NbrTable (.hello index packet :: history) iface := by
  have same : ∀ ip, roundsSince iface.index ip (.hello index packet :: history) =
      roundsSince iface.index ip history := fun ip => if_neg fun both => other both.1
  refine ⟨table.counted, table.distinct, table.bounded, ?_, ?_⟩
  · intro nbr member
    rw [same]
    exact table.aged nbr member
  · intro ip
    rw [same]
    exact table.present ip

def refreshedNbr (hello : MospfHello) (nbr : MospfNbr) : MospfNbr :=
  if nbr.nbrIp = hello.saddr then { nbr with alive := 0 } else nbr

@[simp] theorem refreshedNbr_nbrIp (hello : MospfHello) (nbr : MospfNbr) :
    (refreshedNbr hello nbr).nbrIp = nbr.nbrIp := by
  unfold refreshedNbr
  split_ifs <;> rfl

theorem refreshedNbr_alive_le (hello : MospfHello) {nbr : MospfNbr}
    (bounded : nbr.alive ≤ MAX_ALIVE) : (refreshedNbr hello nbr).alive ≤ MAX_ALIVE := by
  unfold refreshedNbr
  split_ifs
  · exact (by decide : (0 : UInt8) ≤ MAX_ALIVE)
  · exact bounded

theorem roundsSince_hello (packet : MospfHello) (ip : UInt32) :
    roundsSince iface.index ip (.hello iface.index packet :: history) =
      if packet.saddr = ip then some 0 else roundsSince iface.index ip history := by
  simp [roundsSince]

/-- The list after a hello: the neighbour is refreshed where it is, or comes last. -/
theorem heardHello_cases (packet : MospfHello) (iface : Interface) :
    ((∃ nbr ∈ iface.nbrList, nbr.nbrIp = packet.saddr) ∧
      heardHello packet iface =
        { iface with nbrList := iface.nbrList.map (refreshedNbr packet) }) ∨
    ((∀ nbr ∈ iface.nbrList, nbr.nbrIp ≠ packet.saddr) ∧
      heardHello packet iface =
        { iface with
          nbrList := iface.nbrList.map (refreshedNbr packet) ++
            [{ nbrId := packet.rid, nbrIp := packet.saddr, nbrMask := packet.mask, alive := 0 }],
          numNbr := iface.numNbr + 1 }) := by
  by_cases known : iface.nbrList.any fun nbr => nbr.nbrIp == packet.saddr
  · left
    refine ⟨by simpa using known, ?_⟩
    unfold heardHello
    rw [if_pos known]
    rfl
  · right
    refine ⟨by simpa using known, ?_⟩
    unfold heardHello
    rw [if_neg known]
    rfl

theorem refreshedNbr_rounds (table : NbrTable history iface) (packet : MospfHello)
    {nbr : MospfNbr} (member : nbr ∈ iface.nbrList) :
    roundsSince iface.index (refreshedNbr packet nbr).nbrIp
        (.hello iface.index packet :: history) =
      some (refreshedNbr packet nbr).alive.toNat := by
  rw [roundsSince_hello, refreshedNbr_nbrIp]
  unfold refreshedNbr
  by_cases heard : nbr.nbrIp = packet.saddr
  · rw [if_pos heard, if_pos heard.symm]
    rfl
  · rw [if_neg heard, if_neg fun same => heard same.symm]
    exact table.aged nbr member

theorem map_refreshedNbr_nbrIp (packet : MospfHello) (nbrList : List MospfNbr) :
    (nbrList.map (refreshedNbr packet)).map MospfNbr.nbrIp = nbrList.map MospfNbr.nbrIp := by
  rw [List.map_map]
  exact List.map_congr_left fun nbr _ => refreshedNbr_nbrIp packet nbr

theorem NbrTable.hello (table : NbrTable history iface) (packet : MospfHello) :
    NbrTable (.hello iface.index packet :: history) (heardHello packet iface) := by
  have elsewhere : ∀ ip, packet.saddr ≠ ip →
      ((∃ nbr ∈ iface.nbrList.map (refreshedNbr packet), nbr.nbrIp = ip) ↔
        ∃ rounds ≤ MAX_ALIVE.toNat,
          roundsSince iface.index ip (.hello iface.index packet :: history) = some rounds) := by
    intro ip other
    rw [roundsSince_hello, if_neg other, ← table.present ip]
    simp
  have heard : ∃ rounds ≤ MAX_ALIVE.toNat, roundsSince iface.index packet.saddr
      (.hello iface.index packet :: history) = some rounds := by
    rw [roundsSince_hello, if_pos rfl]
    exact ⟨0, Nat.zero_le _, rfl⟩
  have bounded : ∀ nbr ∈ iface.nbrList.map (refreshedNbr packet), nbr.alive ≤ MAX_ALIVE := by
    rw [List.forall_mem_map]
    exact fun nbr member => refreshedNbr_alive_le packet (table.bounded nbr member)
  have aged : ∀ nbr ∈ iface.nbrList.map (refreshedNbr packet),
      roundsSince iface.index nbr.nbrIp (.hello iface.index packet :: history) =
        some nbr.alive.toNat := by
    rw [List.forall_mem_map]
    exact fun nbr member => refreshedNbr_rounds table packet member
  have counted := heardHello_counted packet table.counted
  rcases heardHello_cases packet iface with ⟨known, heardIt⟩ | ⟨unknown, heardIt⟩
  · rw [heardIt] at counted ⊢
    refine ⟨counted, ?_, bounded, aged, ?_⟩
    · show ((iface.nbrList.map (refreshedNbr packet)).map MospfNbr.nbrIp).Nodup
      rw [map_refreshedNbr_nbrIp]
      exact table.distinct
    · intro ip
      by_cases here : packet.saddr = ip
      · subst here
        obtain ⟨nbr, member, same⟩ := known
        refine iff_of_true ⟨refreshedNbr packet nbr, ?_, ?_⟩ heard
        · exact List.mem_map_of_mem member
        · rw [refreshedNbr_nbrIp, same]
      · exact elsewhere ip here
  · rw [heardIt] at counted ⊢
    refine ⟨counted, ?_, ?_, ?_, ?_⟩
    · show ((iface.nbrList.map (refreshedNbr packet) ++ _).map MospfNbr.nbrIp).Nodup
      rw [List.map_append, map_refreshedNbr_nbrIp]
      refine List.Nodup.append table.distinct (List.nodup_singleton _) ?_
      simpa using unknown
    · intro nbr member
      rcases List.mem_append.mp member with old | new
      · exact bounded nbr old
      · rw [List.mem_singleton.mp new]
        exact (by decide : (0 : UInt8) ≤ MAX_ALIVE)
    · intro nbr member
      rcases List.mem_append.mp member with old | new
      · exact aged nbr old
      · rw [List.mem_singleton.mp new]
        exact (roundsSince_hello packet packet.saddr).trans (if_pos rfl)
    · intro ip
      by_cases here : packet.saddr = ip
      · subst here
        refine iff_of_true ⟨_, List.mem_append_right _ (List.mem_singleton.mpr rfl), rfl⟩ heard
      · rw [← elsewhere ip here]
        simp [here]

theorem not_lost_iff (nbr : MospfNbr) :
    (¬ 3 * MOSPF_DEFAULT_HELLOINT < nbr.alive) ↔ nbr.alive.toNat + 1 ≤ MAX_ALIVE.toNat := by
  have limit : MAX_ALIVE.toNat = 16 := by decide
  have threshold : (3 * MOSPF_DEFAULT_HELLOINT).toNat = 15 := by decide
  rw [UInt8.not_lt, UInt8.le_iff_toNat_le, limit, threshold]
  omega

theorem alive_succ {nbr : MospfNbr} (kept : nbr.alive.toNat + 1 ≤ MAX_ALIVE.toNat) :
    (nbr.alive + 1).toNat = nbr.alive.toNat + 1 := by
  have limit : MAX_ALIVE.toNat = 16 := by decide
  rw [UInt8.toNat_add, UInt8.toNat_one, Nat.mod_eq_of_lt]
  omega

theorem mem_agedNbrs {nbr : MospfNbr} :
    nbr ∈ (agedNbrs iface).nbrList ↔ ∃ before ∈ iface.nbrList,
      (¬ 3 * MOSPF_DEFAULT_HELLOINT < before.alive) ∧
      { before with alive := before.alive + 1 } = nbr := by
  unfold agedNbrs
  simp only [List.mem_map, List.mem_filter, decide_eq_true_eq, and_assoc]

theorem NbrTable.check (table : NbrTable history iface) :
    NbrTable (.checkNbr :: history) (agedNbrs iface) := by
  have rounds : ∀ before ∈ iface.nbrList,
      roundsSince iface.index before.nbrIp (.checkNbr :: history) =
        some (before.alive.toNat + 1) := by
    intro before member
    rw [roundsSince, table.aged before member]
    rfl
  have survivor : ∀ before ∈ iface.nbrList, (¬ 3 * MOSPF_DEFAULT_HELLOINT < before.alive) →
      (before.alive + 1).toNat = before.alive.toNat + 1 ∧
        before.alive.toNat + 1 ≤ MAX_ALIVE.toNat := by
    intro before member kept
    have within := (not_lost_iff before).mp kept
    exact ⟨alive_succ within, within⟩
  refine ⟨agedNbrs_counted table.counted, ?_, ?_, ?_, ?_⟩
  · unfold agedNbrs
    simp only [List.map_map]
    exact table.distinct.sublist ((List.filter_sublist).map MospfNbr.nbrIp)
  · intro nbr member
    obtain ⟨before, beforeMember, kept, rfl⟩ := mem_agedNbrs.mp member
    have next := survivor before beforeMember kept
    rw [UInt8.le_iff_toNat_le, next.1]
    exact next.2
  · intro nbr member
    obtain ⟨before, beforeMember, kept, rfl⟩ := mem_agedNbrs.mp member
    rw [(survivor before beforeMember kept).1]
    exact rounds before beforeMember
  · intro ip
    constructor
    · rintro ⟨nbr, member, rfl⟩
      obtain ⟨before, beforeMember, kept, rfl⟩ := mem_agedNbrs.mp member
      exact ⟨_, (survivor before beforeMember kept).2, rounds before beforeMember⟩
    · rintro ⟨completed, within, since⟩
      have earlier : ∃ count, roundsSince iface.index ip history = some count ∧
          count + 1 = completed := by
        simpa [roundsSince, agedNbrs] using since
      obtain ⟨count, before, rfl⟩ := earlier
      obtain ⟨nbr, member, rfl⟩ := (table.present ip).mpr ⟨count, by omega, before⟩
      have age : nbr.alive.toNat = count := by
        rw [table.aged nbr member] at before
        exact Option.some.inj before
      refine ⟨{ nbr with alive := nbr.alive + 1 }, mem_agedNbrs.mpr ⟨nbr, member, ?_, rfl⟩, rfl⟩
      rw [not_lost_iff nbr, age]
      exact within

end Steps

structure NbrTables (history : List NbrEvent) (daemon : Daemon) : Prop where
  free : daemon.mospfLock = false
  tables : ∀ iface ∈ daemon.ifaceList, NbrTable history iface

theorem nbrTables_mospfInit (first : FoundIface) (rest : List FoundIface)
    (rtable : List RtEntry) (globals : Globals) :
    NbrTables [] (mospfInit first rest rtable globals) where
  free := rfl
  tables := by
    intro iface member
    obtain ⟨found, -, rfl⟩ := List.mem_map.mp member
    exact nbrTable_found found

theorem NbrTables.step {history : List NbrEvent} {daemon : Daemon}
    (tables : NbrTables history daemon) (event : NbrEvent) :
    ∃ next, nbrStep daemon event = some next ∧ NbrTables (event :: history) next := by
  cases event with
  | hello index packet =>
    refine ⟨{ handleMospfHello { daemon with mospfLock := true } index packet with
      mospfLock := false }, ?_, rfl, ?_⟩
    · simp [nbrStep, NbrEvent.activity, Daemon.next, Daemon.act, Daemon.locked, tables.free]
    · intro iface member
      obtain ⟨before, beforeMember, rfl⟩ := List.mem_map.mp member
      have earlier := tables.tables before beforeMember
      by_cases onto : before.index = index
      · subst onto
        rw [if_pos rfl]
        exact earlier.hello packet
      · rw [if_neg onto]
        exact earlier.elsewhere packet fun same => onto same.symm
  | checkNbr =>
    refine ⟨{ checkingNbr { daemon with mospfLock := true } with mospfLock := false }, ?_, rfl, ?_⟩
    · simp [nbrStep, NbrEvent.activity, Daemon.next, Daemon.act, Daemon.locked, tables.free]
    · intro iface member
      obtain ⟨before, beforeMember, rfl⟩ := List.mem_map.mp member
      exact (tables.tables before beforeMember).check

theorem NbrTables.run {history : List NbrEvent} {daemon : Daemon}
    (tables : NbrTables history daemon) (events : List NbrEvent) :
    ∃ final, run nbrStep daemon events = some final ∧
      NbrTables (events.reverse ++ history) final := by
  induction events generalizing history daemon with
  | nil => exact ⟨daemon, rfl, tables⟩
  | cons event rest ih =>
    obtain ⟨next, taken, held⟩ := tables.step event
    obtain ⟨final, ran, done⟩ := ih held
    refine ⟨final, ?_, ?_⟩
    · rw [Lib.Run.run, taken]
      exact ran
    · rw [List.reverse_cons, List.append_assoc]
      exact done

/-- Whatever hellos and rounds come after `mospf_init`, every step returns and each interface
lists, once and counted, the neighbours heard within the last `MAX_ALIVE` rounds, with the
rounds since as their ages. -/
theorem neighbour_tables (first : FoundIface) (rest : List FoundIface) (rtable : List RtEntry)
    (globals : Globals) (events : List NbrEvent) :
    ∃ daemon, run nbrStep (mospfInit first rest rtable globals) events = some daemon ∧
      ∀ iface ∈ daemon.ifaceList, NbrTable events.reverse iface := by
  obtain ⟨daemon, ran, tables⟩ := (nbrTables_mospfInit first rest rtable globals).run events
  refine ⟨daemon, ran, ?_⟩
  rw [List.append_nil] at tables
  exact tables.tables

end NetworkLab.Mospf
