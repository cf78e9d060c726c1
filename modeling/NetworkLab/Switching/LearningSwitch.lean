import Mathlib.Data.List.Induction
import Mathlib.Data.List.Nodup
import Mathlib.Logic.Function.Basic

/-!
# The learning switch

`lookup_port`, `insert_mac_port` and `handle_packet` of the switch in `05-switching`, between
two rounds of ageing.  A list of `hash_table` is looked up without a comparison of addresses,
so an address shares the port of the first one with its hash.
-/
set_option autoImplicit false

namespace NetworkLab.Switching

def ETH_ALEN : Nat := 6

abbrev Mac := Vector UInt8 ETH_ALEN

structure IfaceInfo where
  fd : Int
  name : String
deriving DecidableEq

structure MacPortEntry where
  mac : Mac
  iface : IfaceInfo
  visited : Int
deriving DecidableEq

/-- The lists of `mac_port_map.hash_table`. -/
abbrev HashTable := UInt8 → List MacPortEntry

structure Frame where
  etherDhost : Mac
  etherShost : Mac
  payload : List UInt8
deriving DecidableEq

structure Arrival where
  iface : IfaceInfo
  frame : Frame
  now : Int

/-- `instance->iface_list`; every interface has a socket of its own. -/
structure IfaceList where
  ifaces : List IfaceInfo
  sockets : (ifaces.map IfaceInfo.fd).Nodup

/-- The loop goes from the last byte to the first. -/
def hash8 (addr : Mac) : UInt8 := addr.toList.foldr (fun byte result => result ^^^ byte) 0

/-- The interface of the first entry in the list of the address, whatever its own address. -/
def lookupPort (mac : Mac) (searchDes : Bool) (now : Int) (table : HashTable) :
    Option IfaceInfo × HashTable :=
  match table (hash8 mac) with
  | [] => (none, table)
  | entry :: rest =>
    let entry := if searchDes then { entry with visited := now } else entry
    (some entry.iface, Function.update table (hash8 mac) (entry :: rest))

def insertMacPort (mac : Mac) (iface : IfaceInfo) (now : Int) (table : HashTable) : HashTable :=
  let list :=
    match table (hash8 mac) with
    | [] => [{ mac := mac, iface := iface, visited := now }]
    -- What follows the entry is linked in front of it, and lost.
    | entry :: _ => [{ entry with visited := now }]
  Function.update table (hash8 mac) list

abbrev Sent := IfaceInfo × Frame

def broadcastPacket (ifaceList : IfaceList) (iface : IfaceInfo) (frame : Frame) : List Sent :=
  (ifaceList.ifaces.filter fun out => out.fd ≠ iface.fd).map fun out => (out, frame)

def handlePacket (ifaceList : IfaceList) (table : HashTable) (arrival : Arrival) :
    HashTable × List Sent :=
  let (found, table) := lookupPort arrival.frame.etherDhost true arrival.now table
  let sent :=
    match found with
    | some iface => [(iface, arrival.frame)]
    | none => broadcastPacket ifaceList arrival.iface arrival.frame
  let (known, table) := lookupPort arrival.frame.etherShost false arrival.now table
  match known with
  | some _ => (table, sent)
  | none => (insertMacPort arrival.frame.etherShost arrival.iface arrival.now table, sent)

/-- The table after frames, from that of `init_mac_hash_table`. -/
def handled (ifaceList : IfaceList) (history : List Arrival) : HashTable :=
  history.foldl (fun table arrival => (handlePacket ifaceList table arrival).1) fun _ => []

/-- What a switch is to do with a frame: it goes out of the port where its destination was
heard first, or out of all ports but its own. -/
def intended (ifaceList : IfaceList) (history : List Arrival) (arrival : Arrival) : List Sent :=
  match history.find? fun earlier => earlier.frame.etherShost = arrival.frame.etherDhost with
  | some first => [(first.iface, arrival.frame)]
  | none => (ifaceList.ifaces.filter fun out => out ≠ arrival.iface).map
      fun out => (out, arrival.frame)

/-- The entry that a lookup of the address uses was learned from it. -/
def LearnedFromIt (table : HashTable) (mac : Mac) : Prop :=
  ∀ entry ∈ (table (hash8 mac)).head?, entry.mac = mac

/-- The first frame whose source has the hash of the address, if any, has it as its source. -/
def FirstOfHash (history : List Arrival) (mac : Mac) : Prop :=
  ∀ first ∈ history.find? fun earlier => hash8 earlier.frame.etherShost = hash8 mac,
    first.frame.etherShost = mac

instance (history : List Arrival) (mac : Mac) : Decidable (FirstOfHash history mac) :=
  inferInstanceAs (Decidable (∀ first ∈ history.find? fun earlier =>
    hash8 earlier.frame.etherShost = hash8 mac, first.frame.etherShost = mac))

/-! ## What the table holds -/

def MacPortEntry.learned (entry : MacPortEntry) : Mac × IfaceInfo := (entry.mac, entry.iface)

/-- A list holds the first address with its hash, and the port of that frame. -/
def firstWithHash (history : List Arrival) (key : UInt8) : List (Mac × IfaceInfo) :=
  ((history.find? fun earlier => hash8 earlier.frame.etherShost = key).map fun first =>
    (first.frame.etherShost, first.iface)).toList

section Table

theorem lookupPort_found (mac : Mac) (searchDes : Bool) (now : Int) (table : HashTable) :
    (lookupPort mac searchDes now table).1 =
      ((table (hash8 mac)).map MacPortEntry.learned).head?.map Prod.snd := by
  unfold lookupPort
  cases list : table (hash8 mac) with
  | nil => rfl
  | cons entry rest => cases searchDes <;> rfl

theorem lookupPort_learned (mac : Mac) (searchDes : Bool) (now : Int) (table : HashTable)
    (key : UInt8) :
    ((lookupPort mac searchDes now table).2 key).map MacPortEntry.learned =
      (table key).map MacPortEntry.learned := by
  unfold lookupPort
  cases list : table (hash8 mac) with
  | nil => rfl
  | cons entry rest =>
      by_cases same : key = hash8 mac
      · rw [same, list]
        cases searchDes <;> simp [MacPortEntry.learned]
      · simp [same]

theorem insertMacPort_learned {mac : Mac} {table : HashTable} (iface : IfaceInfo) (now : Int)
    (empty : table (hash8 mac) = []) (key : UInt8) :
    (insertMacPort mac iface now table key).map MacPortEntry.learned =
      if key = hash8 mac then [(mac, iface)] else (table key).map MacPortEntry.learned := by
  unfold insertMacPort
  rw [empty]
  split_ifs with same
  · rw [same, Function.update_self]
    rfl
  · rw [Function.update_of_ne same]

theorem handlePacket_table (ifaceList : IfaceList) (table : HashTable) (arrival : Arrival) :
    (handlePacket ifaceList table arrival).1 =
      let looked := (lookupPort arrival.frame.etherDhost true arrival.now table).2
      let known := lookupPort arrival.frame.etherShost false arrival.now looked
      match known.1 with
      | some _ => known.2
      | none => insertMacPort arrival.frame.etherShost arrival.iface arrival.now known.2 := by
  unfold handlePacket
  dsimp only
  split <;> rfl

/-- A frame adds its source to an empty list only. -/
theorem handlePacket_learned (ifaceList : IfaceList) (table : HashTable) (arrival : Arrival)
    (key : UInt8) :
    ((handlePacket ifaceList table arrival).1 key).map MacPortEntry.learned =
      if (table key).map MacPortEntry.learned = [] ∧ key = hash8 arrival.frame.etherShost then
        [(arrival.frame.etherShost, arrival.iface)]
      else (table key).map MacPortEntry.learned := by
  rw [handlePacket_table]
  have first := lookupPort_learned arrival.frame.etherDhost true arrival.now table
  generalize (lookupPort arrival.frame.etherDhost true arrival.now table).2 = looked at first
  have found := lookupPort_found arrival.frame.etherShost false arrival.now looked
  have second := lookupPort_learned arrival.frame.etherShost false arrival.now looked
  rw [first] at found
  dsimp only
  cases known : (lookupPort arrival.frame.etherShost false arrival.now looked).1 with
  | some iface =>
      rw [known] at found
      have nonempty : ¬ ((table key).map MacPortEntry.learned = [] ∧
          key = hash8 arrival.frame.etherShost) := by
        rintro ⟨empty, rfl⟩
        rw [empty] at found
        cases found
      rw [if_neg nonempty]
      exact (second key).trans (first key)
  | none =>
      rw [known] at found
      have empty : (table (hash8 arrival.frame.etherShost)).map MacPortEntry.learned = [] := by
        simpa only [List.head?_eq_none_iff, Option.map_eq_none_iff] using found.symm
      have emptyNow := ((second (hash8 arrival.frame.etherShost)).trans (first _)).trans empty
      rw [insertMacPort_learned _ _ (List.map_eq_nil_iff.mp emptyNow)]
      by_cases same : key = hash8 arrival.frame.etherShost
      · rw [if_pos same, if_pos ⟨same ▸ empty, same⟩]
      · rw [if_neg same, if_neg fun both => same both.2]
        exact (second key).trans (first key)

theorem handled_learned (ifaceList : IfaceList) (history : List Arrival) (key : UInt8) :
    (handled ifaceList history key).map MacPortEntry.learned = firstWithHash history key := by
  induction history using List.reverseRecOn with
  | nil => rfl
  | append_singleton earlier last ih =>
      have step : handled ifaceList (earlier ++ [last]) =
          (handlePacket ifaceList (handled ifaceList earlier) last).1 := by
        simp [handled]
      rw [step, handlePacket_learned, ih]
      unfold firstWithHash
      rw [List.find?_append]
      cases found : earlier.find? fun other => hash8 other.frame.etherShost = key with
      | some first => simp
      | none =>
          by_cases same : key = hash8 last.frame.etherShost
          · simp [same]
          · simp [same, Ne.symm same]

end Table

/-! ## Where frames go -/

/-- Interfaces of a switch are the same when their sockets are. -/
theorem IfaceList.eq_of_fd (ifaceList : IfaceList) {iface out : IfaceInfo}
    (here : iface ∈ ifaceList.ifaces) (there : out ∈ ifaceList.ifaces)
    (same : out.fd = iface.fd) : out = iface :=
  List.inj_on_of_nodup_map ifaceList.sockets there here same

theorem broadcastPacket_eq {ifaceList : IfaceList} {iface : IfaceInfo}
    (here : iface ∈ ifaceList.ifaces) (frame : Frame) :
    broadcastPacket ifaceList iface frame =
      (ifaceList.ifaces.filter fun out => out ≠ iface).map fun out => (out, frame) := by
  unfold broadcastPacket
  congr 1
  apply List.filter_congr
  intro out there
  have same : out.fd = iface.fd ↔ out = iface :=
    ⟨ifaceList.eq_of_fd here there, fun same => same ▸ rfl⟩
  simp only [ne_eq, same]

/-- A frame goes where the first address with the hash of its destination was heard. -/
theorem handlePacket_sent (ifaceList : IfaceList) (history : List Arrival) (arrival : Arrival) :
    (handlePacket ifaceList (handled ifaceList history) arrival).2 =
      match history.find? fun earlier =>
        hash8 earlier.frame.etherShost = hash8 arrival.frame.etherDhost with
      | some first => [(first.iface, arrival.frame)]
      | none => broadcastPacket ifaceList arrival.iface arrival.frame := by
  have found := lookupPort_found arrival.frame.etherDhost true arrival.now
    (handled ifaceList history)
  rw [handled_learned] at found
  have sent : (handlePacket ifaceList (handled ifaceList history) arrival).2 =
      match (lookupPort arrival.frame.etherDhost true arrival.now (handled ifaceList history)).1
      with
      | some iface => [(iface, arrival.frame)]
      | none => broadcastPacket ifaceList arrival.iface arrival.frame := by
    unfold handlePacket
    dsimp only
    split <;> rfl
  rw [sent, found, firstWithHash]
  cases history.find? fun earlier =>
    hash8 earlier.frame.etherShost = hash8 arrival.frame.etherDhost <;> rfl

/-- The first frame with the hash of an address is the first one from it. -/
theorem find?_of_firstOfHash {history : List Arrival} {mac : Mac}
    (first : FirstOfHash history mac) :
    (history.find? fun earlier => earlier.frame.etherShost = mac) =
      history.find? fun earlier => hash8 earlier.frame.etherShost = hash8 mac := by
  induction history with
  | nil => rfl
  | cons earlier rest ih =>
      by_cases same : earlier.frame.etherShost = mac
      · simp [same]
      · have other : hash8 earlier.frame.etherShost ≠ hash8 mac := by
          intro hash
          exact same (first earlier (by simp [hash]))
        have later : FirstOfHash rest mac := by
          intro found isFirst
          exact first found (by simpa [other] using isFirst)
        simpa [same, other] using ih later

theorem learnedFromIt_iff (ifaceList : IfaceList) (history : List Arrival) (mac : Mac) :
    LearnedFromIt (handled ifaceList history) mac ↔ FirstOfHash history mac := by
  have learned := handled_learned ifaceList history (hash8 mac)
  unfold LearnedFromIt FirstOfHash
  unfold firstWithHash at learned
  cases found : history.find? fun earlier => hash8 earlier.frame.etherShost = hash8 mac with
  | some first =>
      rw [found] at learned
      obtain ⟨entry, rest, list, isFirst, -⟩ := List.map_eq_cons_iff.mp learned
      have address : entry.mac = first.frame.etherShost := congrArg Prod.fst isFirst
      simp [list, address]
  | none =>
      rw [found] at learned
      simp [List.map_eq_nil_iff.mp learned]

/-- After any frames, a frame is forwarded by the port of its destination, with an entry that
was learned from it, exactly when the first source with the hash of that address was it. -/
theorem learning_switch (ifaceList : IfaceList) (history : List Arrival) (arrival : Arrival)
    (here : arrival.iface ∈ ifaceList.ifaces) :
    ((handlePacket ifaceList (handled ifaceList history) arrival).2 =
        intended ifaceList history arrival ∧
      LearnedFromIt (handled ifaceList history) arrival.frame.etherDhost) ↔
    FirstOfHash history arrival.frame.etherDhost := by
  rw [learnedFromIt_iff]
  refine and_iff_right_of_imp fun first => ?_
  unfold intended
  rw [handlePacket_sent, find?_of_firstOfHash first]
  cases history.find? fun earlier =>
      hash8 earlier.frame.etherShost = hash8 arrival.frame.etherDhost with
  | some first => rfl
  | none => exact broadcastPacket_eq here arrival.frame

def threePorts : IfaceList :=
  { ifaces := [⟨3, "s1-eth0"⟩, ⟨4, "s1-eth1"⟩, ⟨5, "s1-eth2"⟩], sockets := by decide }

def macOf (last : UInt8) (other : UInt8) : Mac := ⟨#[0, 0, 0, 0, other, last], rfl⟩

def there : Arrival := ⟨⟨3, "s1-eth0"⟩, ⟨macOf 2 0, macOf 1 0, []⟩, 0⟩
def back : Arrival := ⟨⟨4, "s1-eth1"⟩, ⟨macOf 1 0, macOf 2 0, []⟩, 1⟩

theorem learning_switch_back :
    (handlePacket threePorts (handled threePorts [there]) back).2 =
        intended threePorts [there] back ∧
      LearnedFromIt (handled threePorts [there]) (macOf 1 0) :=
  (learning_switch threePorts [there] back (by decide)).mpr (by decide)

/-- Two addresses with the same hash: frames for the second go to the first. -/
theorem colliding_address_misdirected :
    ¬ ∀ (ifaceList : IfaceList) (history : List Arrival) (arrival : Arrival),
      arrival.iface ∈ ifaceList.ifaces →
      (handlePacket ifaceList (handled ifaceList history) arrival).2 =
        intended ifaceList history arrival := by
  intro switched
  have sent := switched threePorts
    [there, ⟨⟨4, "s1-eth1"⟩, ⟨macOf 9 0, macOf 0 1, []⟩, 1⟩]
    ⟨⟨5, "s1-eth2"⟩, ⟨macOf 0 1, macOf 9 0, []⟩, 2⟩ (by decide)
  revert sent
  decide

end NetworkLab.Switching
