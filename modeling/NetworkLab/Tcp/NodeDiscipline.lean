import NetworkLab.Tcp.ListNodes

/-!
# The discipline of the list nodes

`alloc_tcp_sock` leaves `send_buf`, `rcv_ofo_buf`, `hash_list` and `bind_hash_list` zeroed, so
the first packet that a socket is to send, a SYN included, is added to a list without a head.
As long as nothing is sent, and no socket is bound or made to listen twice, every operation
finds a circular list.
-/
set_option autoImplicit false

namespace NetworkLab.Tcp.Nodes

open Lib.LinkedRing Lib.Logged Lib.Run

/-- Every list operation of the event finds what it asks for. -/
def Disciplined (fuel : Nat) (memory : Memory) (event : NodeEvent) : Prop :=
  ∀ access ∈ (event.program fuel memory).1, Proper access

/-- The node was linked into `bind_table`; only an expired timer takes it out. -/
def Bound (heap : Heap Node) (s : Nat) : Prop := (heap (.bindHashList s)).next.isSome

instance (heap : Heap Node) (s : Nat) : Decidable (Bound heap s) :=
  inferInstanceAs (Decidable ((heap (.bindHashList s)).next.isSome = true))

/-- The program gives no port. -/
def Refused (program : Prog UInt16) (memory : Memory) : Prop :=
  ∀ outcome ∈ (program memory).2, outcome.1 = 0

/-- No `connect` gets a port, nothing is sent, no SYN arrives at a listening socket, no bound
socket gets another port, and no listening socket is made to listen again. -/
def Avoids (fuel : Nat) (memory : Memory) : NodeEvent → Prop
  | .bind s port misread => (memory.sock s).isSome → Bound memory.heap s →
      Refused (chosenPort fuel misread port) memory
  | .listen s => ∀ sock ∈ memory.sock s, sock.state ≠ .listen
  | .connect s ip skaddr _ misread => (memory.sock s).isSome →
      Refused (connectPort fuel misread s ip skaddr) memory
  | .send s _ => memory.sock s = none
  | .packet cb _ _ => hasFlag cb.flags TCP_SYN = true →
      ∀ outcome ∈ (tcpSockLookup fuel cb memory).2, ∀ s ∈ outcome.1, ∀ sock ∈ memory.sock s,
        sock.state ≠ .listen
  | _ => True

/-! ## The invariant -/

/-- The nodes that can be in a list. -/
def Placed (memory : Memory) : Node → Prop
  | .establishedTable _ => True
  | .listenTable _ => True
  | .bindTable _ => True
  | .listenQueue s => (memory.sock s).isSome
  | .acceptQueue s => (memory.sock s).isSome
  | .list s => (memory.sock s).isSome
  | .hashList s => ∃ sock, memory.sock s = some sock ∧ sock.state = .listen
  | .bindHashList s => (memory.sock s).isSome
  | _ => False

/-- The socket is closed or listens, and is counted once for each table that it is in. -/
structure SockFits (heap : Heap Node) (lists : Node → Option (List Node)) (s : Nat)
    (sock : Sock) : Prop where
  queues : ∀ node ∈ [Node.listenQueue s, .acceptQueue s, .list s], lists node = some []
  backlog : sock.acceptBacklog = 0
  state : sock.state = .closed ∨ sock.state = .listen
  hashed : sock.state = .listen →
    ∃ head members, lists head = some members ∧ Node.hashList s ∈ members
  counted : sock.refCnt =
    (if Bound heap s then 1 else 0) + (if sock.state = .listen then 1 else 0)

/-- `lists` are the lists in the heap. -/
structure Fits (memory : Memory) (lists : Node → Option (List Node)) : Prop where
  rings : Rings memory.heap lists
  tables : ∀ hash, (lists (.establishedTable hash)).isSome ∧ (lists (.listenTable hash)).isSome ∧
    (lists (.bindTable hash)).isSome
  placed : ∀ node, Occurs lists node → Placed memory node
  numbered : ∀ s, (memory.sock s).isSome → s < memory.socks
  socks : ∀ s sock, memory.sock s = some sock → SockFits memory.heap lists s sock

def Good (memory : Memory) : Prop := ∃ lists, Fits memory lists

/-! ## Traversals that only read -/

section Reading

variable {memory : Memory}

/-- The program leaves the memory as it is. -/
def Reads {Result : Type} (program : Prog Result) (memory : Memory) : Prop :=
  Safe Proper program (fun _ next => next = memory) memory

theorem Reads.bind {Result Next : Type} {program : Prog Result} {next : Result → Prog Next}
    (reads : Reads program memory) (later : ∀ result, Reads (next result) memory) :
    Reads (program >>= next) memory := by
  apply (safe_bind next).mpr
  apply reads.mono
  intro result after same
  subst same
  exact later result

theorem reads_pure {Result : Type} (result : Result) :
    Reads (pure result : Prog Result) memory := (safe_pure result).mpr rfl

theorem reads_stop {Result : Type} : Reads (Program.stop : Prog Result) memory := safe_stop

theorem reads_read {Result : Type} (part : Memory → Option Result) :
    Reads (Program.read part : Prog Result) memory := safe_read.mpr fun _ _ => rfl

theorem reads_scan {Acc : Type} (head : Node) {body : Node → Acc → Prog (ForInStep Acc)}
    (quiet : ∀ pos acc, Reads (body pos acc) memory) (fuel : Nat) (pos : Node) (acc : Acc) :
    Reads (scan head body fuel pos acc) memory := by
  induction fuel generalizing pos acc with
  | zero => exact reads_stop
  | succ fuel ih =>
    unfold scan
    split_ifs
    · exact reads_pure acc
    · apply (quiet pos acc).bind
      intro step
      cases step with
      | done acc => exact reads_pure acc
      | yield acc => exact (reads_read _).bind fun next => ih next acc

theorem reads_scanSafe {Acc : Type} (head : Node) {body : Node → Acc → Prog (ForInStep Acc)}
    (quiet : ∀ pos acc, Reads (body pos acc) memory) (fuel : Nat) (pos q : Node) (acc : Acc) :
    Reads (scanSafe head body fuel pos q acc) memory := by
  induction fuel generalizing pos q acc with
  | zero => exact reads_stop
  | succ fuel ih =>
    unfold scanSafe
    split_ifs
    · exact reads_pure acc
    · apply (quiet pos acc).bind
      intro step
      cases step with
      | done acc => exact reads_pure acc
      | yield acc => exact (reads_read _).bind fun next => ih q next acc

theorem reads_log {op : ListOp} (proper : Proper (op, memory.heap)) :
    Reads (Program.log (fun memory => (op, memory.heap)) some : Prog Unit) memory :=
  safe_log.mpr ⟨proper, fun _ same => (Option.some.inj same).symm⟩

theorem reads_forEachEntry {Acc : Type} (fuel : Nat) {head : Node} (acc : Acc)
    {body : Node → Acc → Prog (ForInStep Acc)} (ring : ∃ members, Ring memory.heap head members)
    (quiet : ∀ pos acc, Reads (body pos acc) memory) :
    Reads (forEachEntry fuel head acc body) memory :=
  have logged : Proper (.forEach head, memory.heap) := ring
  (reads_log logged).bind fun _ => (reads_read _).bind fun pos =>
    reads_scan head quiet fuel pos acc

theorem reads_forEachEntrySafe {Acc : Type} (fuel : Nat) {head : Node} (acc : Acc)
    {body : Node → Acc → Prog (ForInStep Acc)} (ring : ∃ members, Ring memory.heap head members)
    (quiet : ∀ pos acc, Reads (body pos acc) memory) :
    Reads (forEachEntrySafe fuel head acc body) memory :=
  have logged : Proper (.forEach head, memory.heap) := ring
  (reads_log logged).bind fun _ => (reads_read _).bind fun pos => (reads_read _).bind fun q =>
    reads_scanSafe head quiet fuel pos q acc

theorem reads_hashListEntry (pos : Node) : Reads (hashListEntry pos) memory := by
  cases pos with
  | hashList s => exact reads_pure s
  | _ => exact reads_stop

theorem reads_bindHashListEntry (pos : Node) : Reads (bindHashListEntry pos) memory := by
  cases pos with
  | bindHashList s => exact reads_pure s
  | _ => exact reads_stop

variable {lists : Node → Option (List Node)}

theorem Fits.ring (fits : Fits memory lists) {head : Node} (isHead : (lists head).isSome) :
    ∃ members, Ring memory.heap head members := by
  obtain ⟨members, isList⟩ := Option.isSome_iff_exists.mp isHead
  exact ⟨members, fits.rings.ring head members isList⟩

theorem Fits.reads_tcpSockLookup (fits : Fits memory lists) (fuel : Nat) (cb : TcpCb) :
    Reads (tcpSockLookup fuel cb) memory := by
  apply Reads.bind
  · apply reads_forEachEntrySafe fuel none (fits.ring (fits.tables _).1)
    intro pos acc
    apply (reads_hashListEntry pos).bind fun s => (reads_read _).bind fun sock => ?_
    split_ifs <;> exact reads_pure _
  · intro found
    cases found with
    | some s => exact reads_pure _
    | none =>
      apply reads_forEachEntrySafe fuel none (fits.ring (fits.tables _).2.1)
      intro pos acc
      apply (reads_hashListEntry pos).bind fun s => (reads_read _).bind fun sock => ?_
      split_ifs <;> exact reads_pure _

variable (misread : Nat → UInt16)

theorem Fits.reads_tcpPortInUse (fits : Fits memory lists) (fuel : Nat) (sport : UInt16) :
    Reads (tcpPortInUse fuel misread sport) memory := by
  apply reads_forEachEntry fuel false (fits.ring (fits.tables _).2.2)
  intro pos acc
  apply (reads_bindHashListEntry pos).bind fun s => ?_
  split_ifs <;> exact reads_pure _

theorem Fits.reads_firstFree (fits : Fits memory lists) (fuel : Nat) (ports : List UInt16) :
    Reads (firstFree fuel misread ports) memory := by
  induction ports with
  | nil => exact reads_pure _
  | cons port rest ih =>
    apply (fits.reads_tcpPortInUse misread fuel port).bind
    intro inUse
    split_ifs
    · exact ih
    · exact reads_pure _

theorem Fits.reads_chosenPort (fits : Fits memory lists) (fuel : Nat) (port : UInt16) :
    Reads (chosenPort fuel misread port) memory := by
  unfold chosenPort
  split_ifs
  · exact fits.reads_firstFree misread fuel _
  · apply (fits.reads_tcpPortInUse misread fuel port).bind
    intro inUse
    split_ifs <;> exact reads_pure _

end Reading

/-! ## Operations that change a list -/

section Changing

variable {memory next : Memory} {lists after : Node → Option (List Node)} {head new : Node}
  {members : List Node} {s : Nat}

theorem safe_addHead {post : Unit → Memory → Prop} (rings : Rings memory.heap lists)
    (isList : lists head = some members) (free : ¬ Occurs lists new)
    (later : ∀ heap, Rings heap (Function.update lists head (some (new :: members))) →
      (∀ node, node ≠ new → (heap node).next.isSome = (memory.heap node).next.isSome) →
      post () { memory with heap := heap }) :
    Safe Proper (addHead new head) post memory := by
  obtain ⟨heap, added, rings', frame⟩ := listAddHead_rings rings isList free
  apply safe_log.mpr ⟨⟨members, rings.ring head members isList⟩, ?_⟩
  intro memory' isNext
  rw [added] at isNext
  rw [← Option.some.inj isNext]
  apply later heap rings'
  intro node notNew
  by_cases inside : node ∈ head :: members
  · have occurs : Occurs (Function.update lists head (some (new :: members))) node := by
      refine ⟨head, new :: members, Function.update_self .., ?_⟩
      rcases List.mem_cons.mp inside with isHead | isMember
      · exact isHead ▸ List.mem_cons_self
      · exact List.mem_cons_of_mem _ (List.mem_cons_of_mem _ isMember)
    rw [(rings'.links occurs).1, (rings.links ⟨head, members, isList, inside⟩).1]
  · rw [frame node notNew inside]

theorem safe_deleteEntry {post : Unit → Memory → Prop} {entry : Node} {front back : List Node}
    (rings : Rings memory.heap lists) (isList : lists head = some (front ++ entry :: back))
    (later : ∀ heap, Rings heap (Function.update lists head (some (front ++ back))) →
      (∀ node, node ≠ entry → (heap node).next.isSome = (memory.heap node).next.isSome) →
      post () { memory with heap := heap }) :
    Safe Proper (deleteEntry entry) post memory := by
  obtain ⟨heap, deleted, rings', frame⟩ := listDeleteEntry_rings rings isList
  have linked : entry ∈ front ++ entry :: back := List.mem_append_right _ List.mem_cons_self
  apply safe_log.mpr ⟨⟨head, _, rings.ring head _ isList, linked⟩, ?_⟩
  intro memory' isNext
  rw [deleted] at isNext
  rw [← Option.some.inj isNext]
  apply later heap rings'
  intro node notEntry
  by_cases inside : node ∈ head :: (front ++ entry :: back)
  · have occurs : Occurs (Function.update lists head (some (front ++ back))) node := by
      refine ⟨head, front ++ back, Function.update_self .., ?_⟩
      rw [← List.cons_append, List.mem_append, List.mem_cons (a := node) (b := entry)] at inside
      rw [← List.cons_append, List.mem_append]
      exact inside.imp_right fun behind => behind.resolve_left notEntry
    rw [(rings'.links occurs).1, (rings.links ⟨head, _, isList, inside⟩).1]
  · rw [frame node inside]

theorem safe_empty {post : Bool → Memory → Prop} {list : Node} (rings : Rings memory.heap lists)
    (occurs : Occurs lists list) (later : post (listEmpty memory.heap list) memory) :
    Safe Proper (empty list) post memory := by
  apply (safe_bind _).mpr
  have initialised : Proper (.empty list, memory.heap) := rings.links occurs
  apply Safe.mono (reads_log initialised)
  intro _ memory' same
  rw [same]
  apply safe_read.mpr
  intro result isResult
  rw [← Option.some.inj isResult]
  exact later

theorem Placed.alive {node : Node} (placed : Placed memory node) (owned : node.owner = some s) :
    (memory.sock s).isSome := by
  cases node with
  | hashList t =>
    cases owned
    obtain ⟨sock, isSock, -⟩ := placed
    rw [isSock]
    rfl
  | bindHashList t => exact Option.some.inj owned ▸ placed
  | listenQueue t => exact Option.some.inj owned ▸ placed
  | acceptQueue t => exact Option.some.inj owned ▸ placed
  | list t => exact Option.some.inj owned ▸ placed
  | sendBuf t => exact absurd placed id
  | rcvOfoBuf t => exact absurd placed id
  | _ => exact absurd owned nofun

/-- A node stays where it is allowed while its socket lives, and listens if need be. -/
theorem Placed.mono {node : Node} (placed : Placed memory node)
    (kept : ∀ t sock, node.owner = some t → memory.sock t = some sock →
      ∃ changed, next.sock t = some changed ∧
        (node = .hashList t → sock.state = .listen → changed.state = .listen)) :
    Placed next node := by
  have alive : ∀ t, node.owner = some t → (memory.sock t).isSome → (next.sock t).isSome := by
    intro t owned isSome
    obtain ⟨sock, isSock⟩ := Option.isSome_iff_exists.mp isSome
    obtain ⟨changed, isChanged, -⟩ := kept t sock owned isSock
    rw [isChanged]
    rfl
  cases node with
  | establishedTable hash => trivial
  | listenTable hash => trivial
  | bindTable hash => trivial
  | listenQueue t => exact alive t rfl placed
  | acceptQueue t => exact alive t rfl placed
  | list t => exact alive t rfl placed
  | bindHashList t => exact alive t rfl placed
  | hashList t =>
    obtain ⟨sock, isSock, listens⟩ := placed
    obtain ⟨changed, isChanged, kept⟩ := kept t sock rfl isSock
    exact ⟨changed, isChanged, kept rfl listens⟩
  | sendBuf t => exact placed
  | rcvOfoBuf t => exact placed
  | sendPacket k => exact placed
  | ofoPacket k => exact placed

theorem Placed.change {sock changed : Sock} {node : Node} (placed : Placed memory node)
    (isSock : memory.sock s = some sock)
    (sockNext : next.sock = Function.update memory.sock s (some changed))
    (listens : node = .hashList s → sock.state = .listen → changed.state = .listen) :
    Placed next node := by
  apply placed.mono
  intro t other _ isOther
  rw [sockNext]
  by_cases isT : t = s
  · subst isT
    cases Option.some.inj (isSock.symm.trans isOther)
    exact ⟨changed, Function.update_self .., listens⟩
  · refine ⟨other, ?_, fun _ => id⟩
    rw [Function.update_of_ne isT, isOther]

theorem Fits.numbered_update (fits : Fits memory lists) (isSock : (memory.sock s).isSome)
    {value : Option Sock} (sockNext : next.sock = Function.update memory.sock s value)
    (socks : next.socks = memory.socks) (t : Nat) (alive : (next.sock t).isSome) :
    t < next.socks := by
  rw [socks]
  apply fits.numbered t
  by_cases isT : t = s
  · subst isT
    exact isSock
  · rw [sockNext, Function.update_of_ne isT] at alive
    exact alive

theorem tables_update {nodes : List Node} {node : Node} (isSome : (lists node).isSome) :
    (Function.update lists head (some nodes) node).isSome := by
  by_cases same : node = head
  · subst same
    rw [Function.update_self]
    rfl
  · rw [Function.update_of_ne same]
    exact isSome

theorem owner_of_queue {t : Nat} {node : Node}
    (member : node ∈ [Node.listenQueue t, .acceptQueue t, .list t]) : node.owner = some t := by
  simp only [List.mem_cons, List.not_mem_nil, or_false] at member
  rcases member with rfl | rfl | rfl <;> rfl

theorem Memory.setSock_sock (memory : Memory) (s : Nat) (change : Sock → Sock) :
    (memory.setSock s change).sock =
      Function.update memory.sock s ((memory.sock s).map change) := rfl

theorem Memory.setSock_of_some {memory : Memory} {sock : Sock}
    (isSock : memory.sock s = some sock) (change : Sock → Sock) :
    (memory.setSock s change).sock = Function.update memory.sock s (some (change sock)) := by
  rw [Memory.setSock_sock, isSock]
  rfl

theorem Memory.setSock_self {memory : Memory} {sock : Sock} (isSock : memory.sock s = some sock)
    (change : Sock → Sock) : (memory.setSock s change).sock s = some (change sock) := by
  rw [Memory.setSock_sock, Function.update_self, isSock]
  rfl

theorem SockFits.transfer {heap heap' : Heap Node} {sock : Sock}
    (fits : SockFits heap lists s sock)
    (queues : ∀ node ∈ [Node.listenQueue s, .acceptQueue s, .list s], after node = lists node)
    (hashed : ∀ head members, lists head = some members → Node.hashList s ∈ members →
      ∃ members, after head = some members ∧ Node.hashList s ∈ members)
    (bound : (heap' (.bindHashList s)).next.isSome = (heap (.bindHashList s)).next.isSome) :
    SockFits heap' after s sock where
  queues node member := (queues node member).trans (fits.queues node member)
  backlog := fits.backlog
  state := fits.state
  hashed listens := by
    obtain ⟨head, members, isList, inside⟩ := fits.hashed listens
    obtain ⟨later, isLater, still⟩ := hashed head members isList inside
    exact ⟨head, later, isLater, still⟩
  counted := by
    have same : Bound heap' s ↔ Bound heap s := by
      unfold Bound
      rw [bound]
    rw [fits.counted, if_congr same rfl rfl]

theorem Fits.setSock (fits : Fits memory lists) (s : Nat) {change : Sock → Sock}
    (same : ∀ sock, (change sock).refCnt = sock.refCnt ∧ (change sock).state = sock.state ∧
      (change sock).acceptBacklog = sock.acceptBacklog) : Fits (memory.setSock s change) lists where
  rings := fits.rings
  tables := fits.tables
  placed node occurs := by
    apply (fits.placed node occurs).mono
    intro t sock _ isSock
    by_cases isT : t = s
    · subst isT
      exact ⟨change sock, Memory.setSock_self isSock change, fun _ listens =>
        (same sock).2.1.trans listens⟩
    · refine ⟨sock, ?_, fun _ => id⟩
      rw [Memory.setSock_sock, Function.update_of_ne isT, isSock]
  numbered t alive := by
    apply fits.numbered t
    by_cases isT : t = s
    · subst isT
      rw [Memory.setSock_sock, Function.update_self, Option.isSome_map] at alive
      exact alive
    · rw [Memory.setSock_sock, Function.update_of_ne isT] at alive
      exact alive
  socks t sock isSock := by
    by_cases isT : t = s
    · subst isT
      rw [Memory.setSock_sock, Function.update_self] at isSock
      obtain ⟨old, isOld, isChanged⟩ := Option.map_eq_some_iff.mp isSock
      subst isChanged
      have known := fits.socks t old isOld
      obtain ⟨refCnt, state, backlog⟩ := same old
      refine ⟨known.queues, backlog.trans known.backlog, ?_, ?_, ?_⟩
      · rw [state]
        exact known.state
      · rw [state]
        exact known.hashed
      · rw [refCnt, state]
        exact known.counted
    · rw [Memory.setSock_sock, Function.update_of_ne isT] at isSock
      exact fits.socks t sock isSock

theorem queues_update {t : Nat} (isTable : head.owner = none)
    (node : Node) (member : node ∈ [Node.listenQueue t, .acceptQueue t, .list t]) :
    Function.update lists head (some members) node = lists node := by
  apply Function.update_of_ne
  intro same
  have owned := owner_of_queue member
  rw [same, isTable] at owned
  exact absurd owned nofun

theorem hashed_update {t : Nat} (isList : lists head = some members) (place : Node)
    (nodes : List Node) (isPlace : lists place = some nodes) (inside : Node.hashList t ∈ nodes) :
    ∃ later, Function.update lists head (some (new :: members)) place = some later ∧
      Node.hashList t ∈ later := by
  by_cases same : place = head
  · subst same
    rw [isPlace] at isList
    rw [Option.some.inj isList] at inside
    exact ⟨_, Function.update_self .., List.mem_cons_of_mem _ inside⟩
  · refine ⟨nodes, ?_, inside⟩
    rw [Function.update_of_ne same, isPlace]

theorem occurs_added : Occurs (Function.update lists head (some (new :: members))) new :=
  ⟨head, new :: members, Function.update_self .., List.mem_cons_of_mem _ List.mem_cons_self⟩

theorem Fits.link {sock : Sock} (fits : Fits memory lists) (changed : Sock)
    (isSock : memory.sock s = some sock) (isTable : head.owner = none)
    (isList : lists head = some members)
    (rings : Rings next.heap (Function.update lists head (some (new :: members))))
    (frame : ∀ node, node ≠ new → (next.heap node).next.isSome = (memory.heap node).next.isSome)
    (own : ∀ t, t ≠ s → Node.bindHashList t ≠ new)
    (socks : next.socks = memory.socks)
    (sockNext : next.sock = Function.update memory.sock s (some changed))
    (placed : Placed next new) (listens : sock.state = .listen → changed.state = .listen)
    (known : SockFits next.heap (Function.update lists head (some (new :: members))) s changed) :
    Fits next (Function.update lists head (some (new :: members))) where
  rings := rings
  tables hash := by
    obtain ⟨established, listening, binding⟩ := fits.tables hash
    exact ⟨tables_update established, tables_update listening, tables_update binding⟩
  placed node occurs := by
    have old (occurs : Occurs lists node) : Placed next node :=
      (fits.placed node occurs).change isSock sockNext fun _ => listens
    rcases occurs.of_update with inside | ⟨other, nodes, -, isOther, inside⟩
    · rcases List.mem_cons.mp inside with isHead | behind
      · exact old ⟨head, members, isList, isHead ▸ List.mem_cons_self⟩
      · rcases List.mem_cons.mp behind with isNew | isMember
        · exact isNew ▸ placed
        · exact old ⟨head, members, isList, List.mem_cons_of_mem _ isMember⟩
    · exact old ⟨other, nodes, isOther, inside⟩
  numbered := fits.numbered_update (by rw [isSock]; rfl) sockNext socks
  socks t other isOther := by
    by_cases isT : t = s
    · subst isT
      rw [sockNext, Function.update_self] at isOther
      rw [← Option.some.inj isOther]
      exact known
    · rw [sockNext, Function.update_of_ne isT] at isOther
      apply (fits.socks t other isOther).transfer (queues_update isTable)
      · exact hashed_update isList
      · exact frame _ (own t isT)

end Changing

/-! ## Calls -/

section Calls

variable {memory : Memory} {lists : Node → Option (List Node)} {s : Nat}

theorem Fits.safe_tcpBindHash (fits : Fits memory lists)
    (alone : (memory.sock s).isSome → ¬ Bound memory.heap s) :
    Safe Proper (tcpBindHash s) (fun _ next => Good next) memory := by
  apply (safe_bind _).mpr
  apply safe_read.mpr
  intro sock isSock
  have free : ¬ Bound memory.heap s := alone (by rw [isSock]; rfl)
  obtain ⟨members, isList⟩ :=
    Option.isSome_iff_exists.mp (fits.tables (tcpHashFunction 0 0 sock.localAddr.port 0)).2.2
  apply (safe_bind _).mpr
  apply safe_addHead fits.rings isList (fun occurs => free (fits.rings.links occurs).1)
  intro heap rings frame
  apply safe_modify.mpr
  have known := fits.socks s sock isSock
  have linked : Bound heap s := (rings.links occurs_added).1
  have isSock' : { memory with heap := heap }.sock s = some sock := isSock
  refine ⟨_, fits.link { sock with refCnt := sock.refCnt + 1 } isSock rfl isList rings frame ?_ rfl
    (Memory.setSock_of_some isSock' _) ?_ id ?_⟩
  · intro t other same
    cases same
    exact other rfl
  · change Option.isSome _
    rw [Memory.setSock_self isSock']
    rfl
  · refine ⟨?_, known.backlog, known.state, ?_, ?_⟩
    · intro node member
      rw [queues_update rfl node member, known.queues node member]
    · intro listens
      obtain ⟨head, nodes, isHead, inside⟩ := known.hashed listens
      obtain ⟨later, isLater, still⟩ := hashed_update isList head nodes isHead inside
      exact ⟨head, later, isLater, still⟩
    · have counted := known.counted
      rw [if_neg free] at counted
      change sock.refCnt + 1 =
        (if Bound heap s then 1 else 0) + (if sock.state = .listen then 1 else 0)
      rw [counted, if_pos linked]
      omega

theorem Fits.safe_tcpSockSetSport (fits : Fits memory lists) (fuel : Nat)
    (misread : Nat → UInt16) (port : UInt16)
    (alone : (memory.sock s).isSome → Bound memory.heap s →
      Refused (chosenPort fuel misread port) memory) :
    Safe Proper (tcpSockSetSport fuel misread s port)
      (fun success next => Good next ∧ (success = true → (memory.sock s).isSome ∧
        ¬ Refused (chosenPort fuel misread port) memory)) memory := by
  apply (safe_bind _).mpr
  apply (fits.reads_chosenPort misread fuel port).returned.mono
  intro sport next chosen
  obtain ⟨same, returned⟩ := chosen
  subst same
  by_cases zero : sport = 0
  · rw [if_pos zero]
    exact (safe_pure _).mpr ⟨⟨lists, fits⟩, nofun⟩
  · have free : ¬ Refused (chosenPort fuel misread port) next := fun refused =>
      zero (refused _ returned)
    rw [if_neg zero]
    apply (safe_bind _).mpr
    apply safe_modify.mpr
    have changed : Fits (next.setSock s fun sock =>
        { sock with localAddr := { sock.localAddr with port := sport } }) lists :=
      fits.setSock s fun _ => ⟨rfl, rfl, rfl⟩
    apply (safe_bind _).mpr
    by_cases known : (next.sock s).isSome
    · have bound : ¬ Bound next.heap s := fun bound => free (alone known bound)
      apply (changed.safe_tcpBindHash fun _ => bound).mono
      intro _ after good
      exact (safe_pure _).mpr ⟨good, fun _ => ⟨known, free⟩⟩
    · -- The memory of a released socket is read.
      have released : (next.setSock s fun sock =>
          { sock with localAddr := { sock.localAddr with port := sport } }).sock s = none := by
        rw [Memory.setSock_sock, Function.update_self, Option.not_isSome_iff_eq_none.mp known]
        rfl
      apply (safe_bind _).mpr
      apply safe_read.mpr
      intro sock isSock
      rw [released] at isSock
      exact absurd isSock nofun

theorem Fits.safe_tcpSockListen (fits : Fits memory lists) (fuel : Nat)
    (idle : ∀ sock ∈ memory.sock s, sock.state ≠ .listen) :
    Safe Proper (tcpSockListen fuel s) (fun _ next => Good next) memory := by
  apply (safe_bind _).mpr
  apply safe_modify.mpr
  apply (safe_bind _).mpr
  apply safe_read.mpr
  intro hashed isHashed
  rw [Memory.setSock_sock, Function.update_self] at isHashed
  obtain ⟨sock, isSock, isListening⟩ := Option.map_eq_some_iff.mp isHashed
  subst isListening
  have notListening : sock.state ≠ .listen := idle sock isSock
  have free : ¬ Occurs lists (.hashList s) := by
    intro occurs
    obtain ⟨other, isOther, listens⟩ := fits.placed _ occurs
    cases Option.some.inj (isSock.symm.trans isOther)
    exact notListening listens
  rw [if_neg nofun, if_pos rfl]
  obtain ⟨members, isList⟩ :=
    Option.isSome_iff_exists.mp (fits.tables (tcpHashFunction 0 0 sock.localAddr.port 0)).2.1
  have rings : Rings (memory.setSock s fun sock => { sock with state := .listen }).heap lists :=
    fits.rings
  apply (safe_bind _).mpr
  apply safe_addHead rings isList free
  intro heap rings frame
  apply safe_modify.mpr
  have known := fits.socks s sock isSock
  have isListening : { (memory.setSock s fun sock => { sock with state := .listen }) with
      heap := heap }.sock s = some { sock with state := .listen } :=
    Memory.setSock_self isSock _
  refine ⟨_, fits.link { sock with state := .listen, refCnt := sock.refCnt + 1 } isSock rfl isList
    rings frame nofun rfl ?_ ?_ (fun _ => rfl) ?_⟩
  · rw [Memory.setSock_of_some isListening]
    change Function.update (Function.update memory.sock s _) s _ = _
    rw [Function.update_idem]
  · exact ⟨_, Memory.setSock_self isListening _, rfl⟩
  · refine ⟨?_, known.backlog, Or.inr rfl, ?_, ?_⟩
    · intro node member
      rw [queues_update rfl node member, known.queues node member]
    · intro _
      exact ⟨_, _, Function.update_self .., List.mem_cons_self⟩
    · have counted := known.counted
      have bound : Bound heap s ↔ Bound memory.heap s := by
        unfold Bound
        rw [frame (.bindHashList s) nofun]
        rfl
      rw [if_neg notListening] at counted
      change sock.refCnt + 1 = (if Bound heap s then 1 else 0) + 1
      rw [counted, if_congr bound rfl rfl, add_zero]

theorem Fits.safe_tcpSockConnect (fits : Fits memory lists) (fuel : Nat)
    (misread : Nat → UInt16) (ip : UInt32) (skaddr : SockAddr) (iss : UInt32)
    (refused : (memory.sock s).isSome → Refused (connectPort fuel misread s ip skaddr) memory) :
    Safe Proper (tcpSockConnect fuel misread s ip skaddr iss) (fun _ next => Good next) memory := by
  have addressed : Fits (memory.setSock s fun sock =>
      { sock with peer := skaddr, localAddr := { sock.localAddr with ip := ip } }) lists :=
    fits.setSock s fun _ => ⟨rfl, rfl, rfl⟩
  have ports : Safe Proper (connectPort fuel misread s ip skaddr) (fun _ next =>
      next = memory.setSock s fun sock =>
        { sock with peer := skaddr, localAddr := { sock.localAddr with ip := ip } }) memory := by
    apply (safe_bind _).mpr
    apply safe_modify.mpr
    exact addressed.reads_firstFree misread fuel _
  apply (safe_bind _).mpr
  apply ports.returned.mono
  intro port next chosen
  obtain ⟨same, returned⟩ := chosen
  subst same
  have again : ((memory.setSock s fun sock => { sock with
      peer := skaddr, localAddr := { sock.localAddr with ip := ip } }).sock s).isSome →
      Refused (chosenPort fuel misread port) (memory.setSock s fun sock => { sock with
        peer := skaddr, localAddr := { sock.localAddr with ip := ip } }) := by
    intro alive
    rw [Memory.setSock_sock, Function.update_self, Option.isSome_map] at alive
    have zero : port = 0 := refused alive _ returned
    intro outcome isOutcome
    rw [zero, chosenPort, if_pos rfl] at isOutcome
    exact refused alive outcome isOutcome
  apply (safe_bind _).mpr
  apply (addressed.safe_tcpSockSetSport fuel misread port fun alive _ => again alive).mono
  intro success after outcome
  cases success with
  | false => exact (safe_pure _).mpr outcome.1
  | true => exact absurd (again (outcome.2 rfl).1) (outcome.2 rfl).2

theorem Fits.safe_tcpSockAccept (fits : Fits memory lists) :
    Safe Proper (tcpSockAccept s) (fun _ next => Good next) memory := by
  apply (safe_bind _).mpr
  apply safe_read.mpr
  intro sock isSock
  rw [if_pos (fits.socks s sock isSock).backlog]
  exact (safe_pure _).mpr ⟨lists, fits⟩

theorem Fits.safe_handleTcpPacket (fits : Fits memory lists) (fuel : Nat)
    (misread : Nat → UInt16) (iss : UInt32) (cb : TcpCb)
    (noSyn : hasFlag cb.flags TCP_SYN = true →
      ∀ outcome ∈ (tcpSockLookup fuel cb memory).2, ∀ s ∈ outcome.1, ∀ sock ∈ memory.sock s,
        sock.state ≠ .listen) :
    Safe Proper (handleTcpPacket fuel misread iss cb) (fun _ next => Good next) memory := by
  apply (safe_bind _).mpr
  apply (fits.reads_tcpSockLookup fuel cb).returned.mono
  intro found next looked
  obtain ⟨same, returned⟩ := looked
  subst same
  cases found with
  | none => exact safe_stop
  | some s =>
    apply (safe_bind _).mpr
    apply safe_read.mpr
    intro sock isSock
    by_cases closed : sock.state = .closed
    · rw [if_pos closed]
      exact (safe_pure _).mpr ⟨lists, fits⟩
    · have listens := (fits.socks s sock isSock).state.resolve_left closed
      have other : ¬ hasFlag cb.flags TCP_SYN = true := fun syn =>
        noSyn syn _ returned s rfl sock isSock listens
      rw [if_neg closed, if_pos listens, tcpStateListen, if_neg other]
      exact (safe_pure _).mpr ⟨lists, fits⟩

theorem safe_tcpSendPacket (len : UInt32) (released : memory.sock s = none) :
    Safe Proper (tcpSendPacket s len) (fun _ next => Good next) memory := by
  apply (safe_bind _).mpr
  apply safe_read.mpr
  intro sock isSock
  rw [released] at isSock
  exact absurd isSock nofun

/-! ### A new socket -/

/-- The lists with the three that `alloc_tcp_sock` initialises. -/
def allocLists (lists : Node → Option (List Node)) (s : Nat) : Node → Option (List Node) :=
  Function.update (Function.update (Function.update lists (.list s) (some []))
    (.listenQueue s) (some [])) (.acceptQueue s) (some [])

theorem allocLists_of_ne {node : Node} (other : node.owner ≠ some s) :
    allocLists lists s node = lists node := by
  have differs : ∀ own : Node, own.owner = some s → node ≠ own := fun own owned same =>
    other (same ▸ owned)
  rw [allocLists, Function.update_of_ne (differs _ rfl), Function.update_of_ne (differs _ rfl),
    Function.update_of_ne (differs _ rfl)]

def allocHeap (heap : Heap Node) (s : Nat) : Heap Node :=
  initListHead (initListHead (initListHead (clearCells heap s) (.list s)) (.listenQueue s))
    (.acceptQueue s)

theorem allocHeap_of_ne {heap : Heap Node} {node : Node} (other : node.owner ≠ some s) :
    allocHeap heap s node = heap node := by
  have differs : ∀ own : Node, own.owner = some s → node ≠ own := fun own owned same =>
    other (same ▸ owned)
  rw [allocHeap, initListHead_of_ne _ (differs _ rfl), initListHead_of_ne _ (differs _ rfl),
    initListHead_of_ne _ (differs _ rfl), clearCells, if_neg other]

theorem allocHeap_bindHashList (heap : Heap Node) : ¬ Bound (allocHeap heap s) s := by
  have notAccept : Node.bindHashList s ≠ .acceptQueue s := nofun
  have notListen : Node.bindHashList s ≠ .listenQueue s := nofun
  have notList : Node.bindHashList s ≠ .list s := nofun
  have cleared : allocHeap heap s (.bindHashList s) = { next := none, prev := none } := by
    rw [allocHeap, initListHead_of_ne _ notAccept, initListHead_of_ne _ notListen,
      initListHead_of_ne _ notList]
    exact if_pos rfl
  unfold Bound
  rw [cleared]
  exact nofun

theorem Fits.not_occurs (fits : Fits memory lists) {node : Node}
    (owned : node.owner = some memory.socks) : ¬ Occurs lists node := fun occurs =>
  Nat.lt_irrefl _ (fits.numbered _ ((fits.placed node occurs).alive owned))

theorem Fits.rings_alloc (fits : Fits memory lists) :
    Rings (allocHeap memory.heap memory.socks) (allocLists lists memory.socks) := by
  have cleared : Rings (clearCells memory.heap memory.socks) lists := by
    apply fits.rings.restrict fun _ _ isList => isList
    intro node occurs
    exact if_neg fun owned => fits.not_occurs owned occurs
  apply initListHead_rings
  · apply initListHead_rings
    · exact initListHead_rings cleared (fits.not_occurs rfl)
    · intro occurs
      rcases occurs.of_new with same | old
      · exact absurd same nofun
      · exact fits.not_occurs rfl old
  · intro occurs
    rcases occurs.of_new with same | occurs
    · exact absurd same nofun
    · rcases occurs.of_new with same | old
      · exact absurd same nofun
      · exact fits.not_occurs rfl old

theorem occurs_allocLists {node : Node} (occurs : Occurs (allocLists lists s) node) :
    node ∈ [Node.listenQueue s, .acceptQueue s, .list s] ∨ Occurs lists node := by
  rcases occurs.of_new with isAccept | occurs
  · exact Or.inl (isAccept ▸ by simp)
  · rcases occurs.of_new with isListen | occurs
    · exact Or.inl (isListen ▸ by simp)
    · rcases occurs.of_new with isList | occurs
      · exact Or.inl (isList ▸ by simp)
      · exact Or.inr occurs

theorem Fits.alloc {next : Memory} (fits : Fits memory lists)
    (heap : next.heap = allocHeap memory.heap memory.socks)
    (sock : next.sock = Function.update memory.sock memory.socks (some freshSock))
    (socks : next.socks = memory.socks + 1) : Fits next (allocLists lists memory.socks) where
  rings := heap ▸ fits.rings_alloc
  tables hash := by
    have kept : ∀ node : Node, node.owner = none →
        allocLists lists memory.socks node = lists node := by
      intro node unowned
      apply allocLists_of_ne
      rw [unowned]
      exact nofun
    rw [kept _ rfl, kept _ rfl, kept _ rfl]
    exact fits.tables hash
  placed node occurs := by
    have fresh : (next.sock memory.socks).isSome := by
      rw [sock, Function.update_self]
      rfl
    rcases occurs_allocLists occurs with own | old
    · simp only [List.mem_cons, List.not_mem_nil, or_false] at own
      rcases own with same | same | same
      · exact same ▸ fresh
      · exact same ▸ fresh
      · exact same ▸ fresh
    · apply (fits.placed node old).mono
      intro t other _ isOther
      refine ⟨other, ?_, fun _ => id⟩
      have older : t ≠ memory.socks :=
        Nat.ne_of_lt (fits.numbered t (by rw [isOther]; rfl))
      rw [sock, Function.update_of_ne older, isOther]
  numbered t alive := by
    rw [socks]
    by_cases same : t = memory.socks
    · omega
    · rw [sock, Function.update_of_ne same] at alive
      exact Nat.lt_succ_of_lt (fits.numbered t alive)
  socks t other isOther := by
    by_cases same : t = memory.socks
    · subst same
      rw [sock, Function.update_self] at isOther
      rw [← Option.some.inj isOther, heap]
      refine ⟨?_, rfl, Or.inl rfl, nofun, ?_⟩
      · intro node member
        simp only [List.mem_cons, List.not_mem_nil, or_false] at member
        rcases member with rfl | rfl | rfl <;> simp [allocLists, Function.update]
      · rw [if_neg (allocHeap_bindHashList memory.heap)]
        rfl
    · rw [sock, Function.update_of_ne same] at isOther
      have differs : some t ≠ some memory.socks := fun equal => same (Option.some.inj equal)
      rw [heap]
      apply (fits.socks t other isOther).transfer
      · intro node member
        apply allocLists_of_ne
        rw [owner_of_queue member]
        exact differs
      · intro head members isList inside
        refine ⟨members, ?_, inside⟩
        rw [allocLists_of_ne, isList]
        exact fun owned => fits.not_occurs owned ⟨head, members, isList, List.mem_cons_self⟩
      · have kept : allocHeap memory.heap memory.socks (.bindHashList t) =
            memory.heap (.bindHashList t) := allocHeap_of_ne differs
        rw [kept]

theorem Fits.safe_alloc (fits : Fits memory lists) (fuel : Nat) :
    Safe Proper (NodeEvent.program fuel .alloc) (fun _ next => Good next) memory := by
  apply (safe_bind _).mpr
  apply (safe_bind _).mpr
  apply safe_read.mpr
  intro s isNew
  rw [← Option.some.inj isNew]
  apply (safe_bind _).mpr
  apply safe_modify.mpr
  apply (safe_bind _).mpr
  apply safe_modify.mpr
  apply (safe_bind _).mpr
  apply safe_modify.mpr
  apply (safe_bind _).mpr
  apply safe_modify.mpr
  apply (safe_pure _).mpr
  exact (safe_pure _).mpr ⟨_, fits.alloc rfl rfl rfl⟩

/-! ### A listening socket is closed -/

theorem Fits.occurs_listenQueue (fits : Fits memory lists) {sock : Sock}
    (isSock : memory.sock s = some sock) : Occurs lists (.listenQueue s) :=
  ⟨_, [], (fits.socks s sock isSock).queues _ List.mem_cons_self, List.mem_cons_self⟩

theorem Fits.reads_tcpSockClearListenQueue (fits : Fits memory lists) (fuel : Nat) {sock : Sock}
    (isSock : memory.sock s = some sock) : Reads (tcpSockClearListenQueue s fuel) memory := by
  cases fuel with
  | zero => exact reads_stop
  | succ fuel =>
    have ring : Ring memory.heap (.listenQueue s) [] :=
      fits.rings.ring _ _ ((fits.socks s sock isSock).queues _ List.mem_cons_self)
    obtain ⟨first, rest, split, isFirst⟩ := ring.exists_first
    have alone : listEmpty memory.heap (.listenQueue s) = true := by
      rw [listEmpty, isFirst, ← (List.cons.inj split).1]
      exact beq_self_eq_true _
    apply (safe_bind _).mpr
    apply safe_empty fits.rings (fits.occurs_listenQueue isSock)
    rw [alone]
    exact reads_pure ()

section Unhash

variable {sock : Sock} {head : Node} {front back : List Node} {heap : Heap Node} {next : Memory}

/-- The queues of a socket are not the list that its node is taken out of. -/
theorem queues_deleted {t : Nat} (isList : lists head = some (front ++ .hashList s :: back))
    (known : ∀ node ∈ [Node.listenQueue t, .acceptQueue t, .list t], lists node = some [])
    (node : Node) (member : node ∈ [Node.listenQueue t, .acceptQueue t, .list t]) :
    Function.update lists head (some (front ++ back)) node = lists node := by
  apply Function.update_of_ne
  intro same
  have nothing := known node member
  rw [same, isList] at nothing
  exact absurd (Option.some.inj nothing) (List.append_ne_nil_of_right_ne_nil _ nofun)

theorem Fits.others_unhashed (fits : Fits memory lists)
    (isList : lists head = some (front ++ .hashList s :: back))
    (frame : ∀ node, node ≠ .hashList s →
      (heap node).next.isSome = (memory.heap node).next.isSome)
    {t : Nat} {other : Sock} (isOther : memory.sock t = some other) (different : t ≠ s) :
    SockFits heap (Function.update lists head (some (front ++ back))) t other := by
  have known := fits.socks t other isOther
  apply known.transfer (queues_deleted isList known.queues)
  · intro place nodes isPlace inside
    by_cases same : place = head
    · subst same
      rw [isPlace] at isList
      rw [Option.some.inj isList] at inside
      refine ⟨_, Function.update_self .., ?_⟩
      rcases List.mem_append.mp inside with inFront | behind
      · exact List.mem_append_left _ inFront
      · rcases List.mem_cons.mp behind with isS | inBack
        · exact absurd (Node.hashList.inj isS) different
        · exact List.mem_append_right _ inBack
    · refine ⟨nodes, ?_, inside⟩
      rw [Function.update_of_ne same, isPlace]
  · exact frame _ nofun

theorem Fits.unhash (fits : Fits memory lists) (isSock : memory.sock s = some sock)
    (isList : lists head = some (front ++ .hashList s :: back)) (changed : Sock)
    (rings : Rings next.heap (Function.update lists head (some (front ++ back))))
    (frame : ∀ node, node ≠ .hashList s →
      (next.heap node).next.isSome = (memory.heap node).next.isSome)
    (socks : next.socks = memory.socks)
    (sockNext : next.sock = Function.update memory.sock s (some changed))
    (closed : changed.state = .closed) (backlog : changed.acceptBacklog = 0)
    (counted : changed.refCnt = if Bound memory.heap s then 1 else 0) :
    Fits next (Function.update lists head (some (front ++ back))) where
  rings := rings
  tables hash := by
    obtain ⟨established, listening, binding⟩ := fits.tables hash
    exact ⟨tables_update established, tables_update listening, tables_update binding⟩
  placed node occurs := by
    apply (fits.placed node (occurs.of_deleted isList)).change isSock sockNext
    intro isNode
    subst isNode
    exact absurd occurs (fits.rings.not_occurs isList)
  numbered := fits.numbered_update (by rw [isSock]; rfl) sockNext socks
  socks t other isOther := by
    by_cases isT : t = s
    · subst isT
      rw [sockNext, Function.update_self] at isOther
      have known := fits.socks t sock isSock
      rw [← Option.some.inj isOther]
      refine ⟨?_, backlog, Or.inl closed, ?_, ?_⟩
      · intro node member
        rw [queues_deleted isList known.queues node member, known.queues node member]
      · rw [closed]
        exact nofun
      · have bound : Bound next.heap t ↔ Bound memory.heap t := by
          unfold Bound
          rw [frame (.bindHashList t) nofun]
        have idle : TcpState.closed ≠ .listen := nofun
        rw [counted, closed, if_congr bound rfl rfl, if_neg idle, add_zero]
    · rw [sockNext, Function.update_of_ne isT] at isOther
      exact fits.others_unhashed isList frame isOther isT

def releasedLists (lists : Node → Option (List Node)) (s : Nat) : Node → Option (List Node) :=
  fun node => if node.owner = some s then none else lists node

theorem releasedLists_some {node : Node} {nodes : List Node}
    (isList : releasedLists lists s node = some nodes) :
    node.owner ≠ some s ∧ lists node = some nodes := by
  unfold releasedLists at isList
  split_ifs at isList with owned
  exact ⟨owned, isList⟩

section Release

variable (fits : Fits memory lists) (isSock : memory.sock s = some sock)
variable (isList : lists head = some (front ++ .hashList s :: back))

include fits isSock isList

omit isSock in
/-- Of a socket in no table, only the heads of the three queues are left in a list. -/
theorem Fits.queue_of_owned (free : ¬ Bound memory.heap s) {node : Node}
    (occurs : Occurs (Function.update lists head (some (front ++ back))) node)
    (owned : node.owner = some s) : node ∈ [Node.listenQueue s, .acceptQueue s, .list s] := by
  have placed := fits.placed node (occurs.of_deleted isList)
  cases node with
  | hashList t =>
    cases owned
    exact absurd occurs (fits.rings.not_occurs isList)
  | bindHashList t =>
    cases owned
    exact absurd (fits.rings.links (occurs.of_deleted isList)).1 free
  | listenQueue t =>
    cases owned
    simp
  | acceptQueue t =>
    cases owned
    simp
  | list t =>
    cases owned
    simp
  | sendBuf t => exact absurd placed id
  | rcvOfoBuf t => exact absurd placed id
  | _ => exact absurd owned nofun

theorem Fits.queue_empty {node : Node}
    (member : node ∈ [Node.listenQueue s, .acceptQueue s, .list s]) :
    Function.update lists head (some (front ++ back)) node = some [] := by
  have known := fits.socks s sock isSock
  exact (queues_deleted isList known.queues node member).trans (known.queues node member)

theorem Fits.unowned (rings : Rings heap (Function.update lists head (some (front ++ back))))
    (free : ¬ Bound memory.heap s) {node : Node}
    (occurs : Occurs (releasedLists (Function.update lists head (some (front ++ back))) s) node) :
    node.owner ≠ some s := by
  intro owned
  obtain ⟨place, nodes, isPlace, inside⟩ := occurs
  obtain ⟨notOwned, isPlace⟩ := releasedLists_some isPlace
  have isQueue := fits.queue_of_owned isList free ⟨place, nodes, isPlace, inside⟩ owned
  have own := fits.queue_empty isSock isList isQueue
  have same := rings.apart place nodes node [] node isPlace own inside List.mem_cons_self
  exact notOwned (same ▸ owned)

/-- A socket in no table is released, and none of its nodes is in a list. -/
theorem Fits.release (rings : Rings heap (Function.update lists head (some (front ++ back))))
    (frame : ∀ node, node ≠ .hashList s →
      (heap node).next.isSome = (memory.heap node).next.isSome)
    (heapNext : next.heap = clearCells heap s) (socks : next.socks = memory.socks)
    (sockNext : next.sock = Function.update memory.sock s none)
    (free : ¬ Bound memory.heap s) :
    Fits next (releasedLists (Function.update lists head (some (front ++ back))) s) := by
  constructor
  case rings =>
    apply rings.restrict fun place nodes isPlace => (releasedLists_some isPlace).2
    intro node occurs
    rw [heapNext]
    exact if_neg (fits.unowned isSock isList rings free occurs)
  case tables =>
    intro hash
    have kept : ∀ node : Node, node.owner = none → (lists node).isSome →
        (releasedLists (Function.update lists head (some (front ++ back))) s node).isSome := by
      intro node notOwned isSome
      rw [releasedLists, notOwned, if_neg nofun]
      exact tables_update isSome
    obtain ⟨established, listening, binding⟩ := fits.tables hash
    exact ⟨kept _ rfl established, kept _ rfl listening, kept _ rfl binding⟩
  case placed =>
    intro node occurs
    have unowned := fits.unowned isSock isList rings free occurs
    obtain ⟨place, nodes, isPlace, inside⟩ := occurs
    have old : Occurs (Function.update lists head (some (front ++ back))) node :=
      ⟨place, nodes, (releasedLists_some isPlace).2, inside⟩
    apply (fits.placed node (old.of_deleted isList)).mono
    intro t other owned isOther
    have different : t ≠ s := fun same => unowned (same ▸ owned)
    refine ⟨other, ?_, fun _ => id⟩
    rw [sockNext, Function.update_of_ne different, isOther]
  case numbered => exact fits.numbered_update (by rw [isSock]; rfl) sockNext socks
  case socks =>
    intro t other isOther
    by_cases isT : t = s
    · subst isT
      rw [sockNext, Function.update_self] at isOther
      exact absurd isOther nofun
    · rw [sockNext, Function.update_of_ne isT] at isOther
      have differs : some t ≠ some s := fun equal => isT (Option.some.inj equal)
      apply (fits.others_unhashed isList frame isOther isT).transfer
      · intro node member
        rw [releasedLists, owner_of_queue member, if_neg differs]
      · intro place nodes isPlace inside
        refine ⟨nodes, ?_, inside⟩
        rw [releasedLists, if_neg, isPlace]
        intro owned
        have isQueue := fits.queue_of_owned isList free
          ⟨place, nodes, isPlace, List.mem_cons_self⟩ owned
        have own := fits.queue_empty isSock isList isQueue
        rw [isPlace] at own
        rw [Option.some.inj own] at inside
        exact List.not_mem_nil inside
      · rw [heapNext]
        have kept : clearCells heap s (.bindHashList t) = heap (.bindHashList t) := if_neg differs
        rw [kept]

end Release

end Unhash

theorem Fits.safe_unhash (fits : Fits memory lists) {sock : Sock}
    (isSock : memory.sock s = some sock) (listens : sock.state = .listen) :
    Safe Proper (do tcpUnhash s; tcpSetState s .closed) (fun _ next => Good next) memory := by
  have known := fits.socks s sock isSock
  obtain ⟨head, members, isList, inside⟩ := known.hashed listens
  obtain ⟨front, back, split⟩ := List.append_of_mem inside
  subst split
  have occurs : Occurs lists (.hashList s) :=
    ⟨head, _, isList, List.mem_cons_of_mem _ inside⟩
  have linked : listEmpty memory.heap (.hashList s) = false :=
    beq_eq_false_iff_ne.mpr (fits.rings.ring head _ isList).next_ne
  apply (safe_bind _).mpr
  apply (safe_bind _).mpr
  apply safe_empty fits.rings occurs
  rw [linked]
  apply (safe_bind _).mpr
  apply safe_deleteEntry fits.rings isList
  intro heap rings frame
  have isSock' : { memory with heap := heap }.sock s = some sock := isSock
  have counted := known.counted
  rw [if_pos listens] at counted
  apply (safe_bind _).mpr
  apply safe_modify.mpr
  apply (safe_bind _).mpr
  apply safe_read.mpr
  intro found isFound
  rw [Memory.setSock_self isSock'] at isFound
  rw [← Option.some.inj isFound]
  by_cases last : sock.refCnt - 1 ≤ 0
  · have free : ¬ Bound memory.heap s := by
      intro bound
      rw [if_pos bound] at counted
      omega
    rw [if_pos last]
    apply safe_modify.mpr
    apply safe_modify.mpr
    refine ⟨_, fits.release isSock isList rings frame rfl rfl ?_ free⟩
    rw [Memory.setSock_sock]
    change Function.update (Function.update (Function.update memory.sock s _) s none) s
      ((Function.update (Function.update memory.sock s _) s none s).map _) = _
    rw [Function.update_self, Function.update_idem, Function.update_idem]
    rfl
  · have bound : Bound memory.heap s := by
      by_contra free
      rw [if_neg free] at counted
      omega
    rw [if_neg last]
    apply (safe_pure _).mpr
    apply safe_modify.mpr
    refine ⟨_, fits.unhash isSock isList
      { sock with refCnt := sock.refCnt - 1, state := .closed } rings frame rfl ?_ rfl
      known.backlog ?_⟩
    · rw [Memory.setSock_of_some (Memory.setSock_self isSock' _)]
      change Function.update (Function.update memory.sock s _) s _ = _
      rw [Function.update_idem]
    · rw [if_pos bound] at counted ⊢
      change sock.refCnt - 1 = 1
      omega

theorem Fits.safe_tcpSockClose (fits : Fits memory lists) (fuel : Nat) :
    Safe Proper (tcpSockClose fuel s) (fun _ next => Good next) memory := by
  apply (safe_bind _).mpr
  apply safe_read.mpr
  intro sock isSock
  rcases (fits.socks s sock isSock).state with closed | listens
  · rw [closed]
    exact (safe_pure _).mpr ⟨lists, fits⟩
  · rw [listens]
    apply (safe_bind _).mpr
    apply (fits.reads_tcpSockClearListenQueue fuel isSock).mono
    intro _ next same
    subst same
    exact fits.safe_unhash isSock listens

end Calls

/-! ## Runs -/

theorem Fits.safe_program {memory : Memory} {lists : Node → Option (List Node)}
    (fits : Fits memory lists) (fuel : Nat) (event : NodeEvent)
    (avoids : Avoids fuel memory event) :
    Safe Proper (event.program fuel) (fun _ next => Good next) memory := by
  cases event with
  | alloc => exact fits.safe_alloc fuel
  | bind s port misread =>
    apply (safe_bind _).mpr
    apply (fits.safe_tcpSockSetSport fuel misread port avoids).mono
    intro success next outcome
    exact (safe_pure _).mpr outcome.1
  | listen s => exact fits.safe_tcpSockListen fuel avoids
  | connect s ip skaddr iss misread =>
    exact fits.safe_tcpSockConnect fuel misread ip skaddr iss avoids
  | accept s => exact fits.safe_tcpSockAccept
  | send s len => exact safe_tcpSendPacket len avoids
  | close s => exact fits.safe_tcpSockClose fuel
  | packet cb iss misread => exact fits.safe_handleTcpPacket fuel misread iss cb avoids

def initLists : Node → Option (List Node)
  | .establishedTable _ => some []
  | .listenTable _ => some []
  | .bindTable _ => some []
  | _ => none

theorem initLists_some {node : Node} {nodes : List Node} (isList : initLists node = some nodes) :
    nodes = [] ∧ Placed initTcpStack node ∧
      initTcpStack.heap node = { next := some node, prev := some node } := by
  cases node with
  | establishedTable hash => exact ⟨(Option.some.inj isList).symm, trivial, rfl⟩
  | listenTable hash => exact ⟨(Option.some.inj isList).symm, trivial, rfl⟩
  | bindTable hash => exact ⟨(Option.some.inj isList).symm, trivial, rfl⟩
  | _ => exact absurd isList nofun

theorem good_initTcpStack : Good initTcpStack := by
  have noSock : ∀ s, initTcpStack.sock s = none := fun _ => rfl
  refine ⟨initLists, ⟨?_, ?_⟩, fun hash => ⟨rfl, rfl, rfl⟩, ?_, ?_, ?_⟩
  · intro head members isList
    obtain ⟨nothing, -, cell⟩ := initLists_some isList
    subst nothing
    refine ⟨?_, List.nodup_singleton head⟩
    change (initTcpStack.heap head).next = some head ∧ (initTcpStack.heap head).prev = some head ∧
      True
    rw [cell]
    exact ⟨rfl, rfl, trivial⟩
  · intro head members other others node isList isOther inside inOther
    rw [(initLists_some isList).1] at inside
    rw [(initLists_some isOther).1] at inOther
    exact (List.mem_singleton.mp inside).symm.trans (List.mem_singleton.mp inOther)
  · intro node occurs
    obtain ⟨head, members, isList, inside⟩ := occurs
    obtain ⟨nothing, placed, -⟩ := initLists_some isList
    rw [nothing] at inside
    exact List.mem_singleton.mp inside ▸ placed
  · intro s alive
    rw [noSock] at alive
    cases alive
  · intro s sock isSock
    rw [noSock] at isSock
    cases isSock

/-- In every run that sends nothing and links no socket twice, every list operation finds a
circular list, an initialised node or a linked entry. -/
theorem list_discipline (fuel : Nat) (events : List NodeEvent)
    (avoids : Guarded (nodeStep fuel) (Avoids fuel) initTcpStack events) :
    Guarded (nodeStep fuel) (Disciplined fuel) initTcpStack events := by
  apply guarded_of_guarded (nodeStep fuel) ?_ ?_ events good_initTcpStack avoids
  · intro memory event next good avoids taken
    obtain ⟨lists, fits⟩ := good
    obtain ⟨outcome, returned, isNext⟩ := Option.map_eq_some_iff.mp taken
    rw [← isNext]
    exact (fits.safe_program fuel event avoids).2 outcome returned
  · intro memory event good avoids
    obtain ⟨lists, fits⟩ := good
    exact (fits.safe_program fuel event avoids).1

theorem list_discipline_bound :
    Guarded (nodeStep 3) (Avoids 3) initTcpStack
        [.alloc, .bind 0 80 fun _ => 0, .listen 0, .close 0] ∧
      Guarded (nodeStep 3) (Disciplined 3) initTcpStack
        [.alloc, .bind 0 80 fun _ => 0, .listen 0, .close 0] := by
  have avoids : Guarded (nodeStep 3) (Avoids 3) initTcpStack
      [.alloc, .bind 0 80 fun _ => 0, .listen 0, .close 0] := by
    refine ⟨trivial, fun allocated isAllocated => ⟨?_, fun bound isBound => ⟨?_, fun _ _ =>
      ⟨trivial, fun _ _ => trivial⟩⟩⟩⟩
    · intro _ linked
      have free : (nodeStep 3 initTcpStack .alloc).map (fun memory =>
          (memory.heap (.bindHashList 0)).next.isSome) = some false := rfl
      rw [isAllocated] at free
      exact absurd (linked.symm.trans (Option.some.inj free)) nofun
    · intro sock isSock
      have closed : ((nodeStep 3 initTcpStack .alloc).bind fun memory =>
          (nodeStep 3 memory (.bind 0 80 fun _ => 0)).bind fun memory =>
            (memory.sock 0).map Sock.state) = some .closed := rfl
      rw [isAllocated, Option.bind_some, isBound, Option.bind_some, isSock] at closed
      rw [Option.some.inj closed]
      exact nofun
  exact ⟨avoids, list_discipline 3 _ avoids⟩

/-- The SYN of the first `connect` is added to a `send_buf` whose links are null. -/
theorem syn_without_list :
    ¬ ∀ (fuel : Nat) (events : List NodeEvent),
      Guarded (nodeStep fuel) (Disciplined fuel) initTcpStack events := by
  intro discipline
  have guarded := discipline 3 [.alloc, .connect 0 1 { ip := 2, port := 80 } 0 fun _ => 0]
  have disciplined := (guarded.2 _ rfl).1
  have proper := disciplined _ (List.mem_of_getElem? (i := 5) rfl)
  obtain ⟨members, ring⟩ := proper
  exact absurd (ring.links List.mem_cons_self).1 nofun

end NetworkLab.Tcp.Nodes
