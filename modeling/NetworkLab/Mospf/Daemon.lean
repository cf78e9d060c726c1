import Mathlib.Data.List.Basic

/-!
# The mOSPF daemon

The part of `mospf_daemon.c` that handles a link-state update.  Multi-byte fields
are in host order, as the handler reads them through `ntohl` and `ntohs`.  `none`
stands for a thread that blocks on `mospf_lock` and for a read outside an array.
-/
set_option autoImplicit false

namespace NetworkLab.Mospf

structure MospfLsa where
  subnet : UInt32
  mask : UInt32
  rid : UInt32
deriving DecidableEq

structure MospfNbr where
  nbrId : UInt32
  nbrIp : UInt32
  nbrMask : UInt32
  alive : UInt8
deriving DecidableEq

structure IfaceInfo where
  index : Nat
  ip : UInt32
  nbrList : List MospfNbr
deriving DecidableEq

structure MospfDbEntry where
  addTime : Int
  rid : UInt32
  seq : UInt16
  nadv : Int
  array : List MospfLsa
deriving DecidableEq

/-- An LSU packet: the `rid` of its mOSPF header, its LSU header and the LSAs
that follow. -/
structure MospfLsu where
  rid : UInt32
  seq : UInt16
  ttl : UInt8
  nadv : UInt32
  lsas : List MospfLsa
deriving DecidableEq

structure LsuCopy where
  saddr : UInt32
  daddr : UInt32
  lsu : MospfLsu
deriving DecidableEq

/-- The fields of `instance` that the handler uses, the database and whether
`mospf_lock` is held. -/
structure Router where
  routerId : UInt32
  ifaceList : List IfaceInfo
  mospfDb : List MospfDbEntry
  mospfLock : Bool
deriving DecidableEq

def MospfLsu.nadvInt (lsu : MospfLsu) : Int := lsu.nadv.toBitVec.toInt

def MospfLsu.WellFormed (lsu : MospfLsu) : Prop := lsu.nadvInt = lsu.lsas.length

instance (lsu : MospfLsu) : Decidable lsu.WellFormed :=
  inferInstanceAs (Decidable (lsu.nadvInt = lsu.lsas.length))

def readLsas (lsu : MospfLsu) : Option (List MospfLsa) :=
  if lsu.nadvInt.toNat ≤ lsu.lsas.length then some (lsu.lsas.take lsu.nadvInt.toNat) else none

def updateDbEntry (lsu : MospfLsu) (now : Int) (entry : MospfDbEntry) : Option MospfDbEntry :=
  if lsu.rid = entry.rid ∧ lsu.seq ≤ entry.seq then some entry
  else if lsu.rid = entry.rid ∧ entry.seq < lsu.seq then
    -- `seq` and `nadv` keep their old values here
    (readLsas lsu).map fun array => { entry with array := array, addTime := now }
  else some entry

def newDbEntry (lsu : MospfLsu) (now : Int) : Option MospfDbEntry :=
  (readLsas lsu).map fun array =>
    { addTime := now, rid := lsu.rid, seq := lsu.seq, nadv := lsu.nadvInt, array := array }

/-- The loop that prints the database reads `array[i]` for every `i < nadv`. -/
def Printable (db : List MospfDbEntry) : Prop := ∀ entry ∈ db, entry.nadv ≤ entry.array.length

instance (db : List MospfDbEntry) : Decidable (Printable db) :=
  inferInstanceAs (Decidable (∀ entry ∈ db, entry.nadv ≤ entry.array.length))

def updateDb (lsu : MospfLsu) (now : Int) (db : List MospfDbEntry) :
    Option (List MospfDbEntry) := do
  let updated ← db.mapM (updateDbEntry lsu now)
  let flag := db.any fun entry => lsu.rid == entry.rid
  let grown ← if flag then some updated
    else (newDbEntry lsu now).map fun entry => updated ++ [entry]
  if Printable grown then some grown else none

/-- What `updateDb` has made of the database when the loop that prints it starts. -/
def recordLsu (lsu : MospfLsu) (now : Int) (db : List MospfDbEntry) :
    Option (List MospfDbEntry) := do
  let updated ← db.mapM (updateDbEntry lsu now)
  let flag := db.any fun entry => lsu.rid == entry.rid
  if flag then some updated
  else (newDbEntry lsu now).map fun entry => updated ++ [entry]

/-- The copies for the neighbours on the interfaces other than `index`. -/
def floodLsu (ifaceList : List IfaceInfo) (index : Nat) (lsu : MospfLsu) : List LsuCopy :=
  let ttl := lsu.ttl - 1
  if 0 < ttl then
    (ifaceList.filter fun iface => iface.index != index).flatMap fun iface =>
      iface.nbrList.map fun nbr =>
        { saddr := iface.ip, daddr := nbr.nbrIp, lsu := { lsu with ttl := ttl } }
  else []

def handleMospfLsu (router : Router) (index : Nat) (lsu : MospfLsu) (now : Int) :
    Option (Router × List LsuCopy) :=
  if router.mospfLock then none
  else if router.routerId = lsu.rid then
    -- the early return leaves the lock held
    some ({ router with mospfLock := true }, [])
  else
    (updateDb lsu now router.mospfDb).map fun db =>
      ({ router with mospfDb := db }, floodLsu router.ifaceList index lsu)

theorem readLsas_wellFormed {lsu : MospfLsu} (wellFormed : lsu.WellFormed) :
    readLsas lsu = some lsu.lsas := by
  have count : lsu.nadvInt.toNat = lsu.lsas.length := by rw [wellFormed, Int.toNat_natCast]
  simp [readLsas, count]

/-- What a well-formed LSU makes of an entry. -/
def refreshed (lsu : MospfLsu) (now : Int) (entry : MospfDbEntry) : MospfDbEntry :=
  if lsu.rid = entry.rid ∧ entry.seq < lsu.seq then
    { entry with array := lsu.lsas, addTime := now }
  else entry

theorem updateDbEntry_wellFormed {lsu : MospfLsu} (wellFormed : lsu.WellFormed) (now : Int)
    (entry : MospfDbEntry) : updateDbEntry lsu now entry = some (refreshed lsu now entry) := by
  unfold updateDbEntry refreshed
  by_cases older : lsu.rid = entry.rid ∧ lsu.seq ≤ entry.seq
  · have notNewer : ¬ (lsu.rid = entry.rid ∧ entry.seq < lsu.seq) :=
      fun newer => UInt16.not_le.mpr newer.2 older.2
    rw [if_pos older, if_neg notNewer]
  · rw [if_neg older, readLsas_wellFormed wellFormed]
    split_ifs <;> rfl

@[simp] theorem refreshed_rid (lsu : MospfLsu) (now : Int) (entry : MospfDbEntry) :
    (refreshed lsu now entry).rid = entry.rid := by
  unfold refreshed
  split_ifs <;> rfl

@[simp] theorem refreshed_seq (lsu : MospfLsu) (now : Int) (entry : MospfDbEntry) :
    (refreshed lsu now entry).seq = entry.seq := by
  unfold refreshed
  split_ifs <;> rfl

@[simp] theorem refreshed_nadv (lsu : MospfLsu) (now : Int) (entry : MospfDbEntry) :
    (refreshed lsu now entry).nadv = entry.nadv := by
  unfold refreshed
  split_ifs <;> rfl

theorem refreshed_array_of_not_newer {lsu : MospfLsu} {entry : MospfDbEntry} (now : Int)
    (notNewer : lsu.rid = entry.rid → lsu.seq ≤ entry.seq) :
    (refreshed lsu now entry).array = entry.array := by
  unfold refreshed
  rw [if_neg]
  exact fun newer => UInt16.not_le.mpr newer.2 (notNewer newer.1)

def grownDb (lsu : MospfLsu) (now : Int) (db : List MospfDbEntry) : List MospfDbEntry :=
  if db.any fun entry => lsu.rid == entry.rid then db.map (refreshed lsu now)
  else db.map (refreshed lsu now) ++
    [{ addTime := now, rid := lsu.rid, seq := lsu.seq, nadv := lsu.nadvInt, array := lsu.lsas }]

theorem updateDb_eq (lsu : MospfLsu) (now : Int) (db : List MospfDbEntry) :
    updateDb lsu now db = (recordLsu lsu now db).bind fun grown =>
      if Printable grown then some grown else none := by
  unfold updateDb recordLsu
  cases db.mapM (updateDbEntry lsu now) with
  | none => rfl
  | some updated => cases db.any fun entry => lsu.rid == entry.rid <;> rfl

theorem recordLsu_wellFormed {lsu : MospfLsu} (wellFormed : lsu.WellFormed) (now : Int)
    (db : List MospfDbEntry) : recordLsu lsu now db = some (grownDb lsu now db) := by
  have updated : db.mapM (updateDbEntry lsu now) = some (db.map (refreshed lsu now)) := by
    rw [funext (updateDbEntry_wellFormed wellFormed now)]
    exact List.mapM_pure
  have added : newDbEntry lsu now = some
      { addTime := now, rid := lsu.rid, seq := lsu.seq, nadv := lsu.nadvInt,
        array := lsu.lsas } := by
    rw [newDbEntry, readLsas_wellFormed wellFormed]
    rfl
  cases known : db.any fun entry => lsu.rid == entry.rid with
  | true => simp [recordLsu, grownDb, updated, known]
  | false => simp [recordLsu, grownDb, updated, added, known]

theorem updateDb_wellFormed {lsu : MospfLsu} (wellFormed : lsu.WellFormed) (now : Int)
    (db : List MospfDbEntry) :
    updateDb lsu now db =
      if Printable (grownDb lsu now db) then some (grownDb lsu now db) else none := by
  rw [updateDb_eq, recordLsu_wellFormed wellFormed, Option.bind_some]

theorem handleMospfLsu_foreign {router : Router} {index : Nat} {lsu : MospfLsu} {now : Int}
    (free : router.mospfLock = false) (foreign : router.routerId ≠ lsu.rid) :
    handleMospfLsu router index lsu now =
      (updateDb lsu now router.mospfDb).map fun db =>
        ({ router with mospfDb := db }, floodLsu router.ifaceList index lsu) := by
  simp [handleMospfLsu, free, foreign]

end NetworkLab.Mospf
