import NetworkLab.Tcp.RingBuffer

/-!
# The ring buffer as a queue

`ring_buffer.h` with its `int` arithmetic and its copies as they are, against a queue of at
most `size - 1` bytes.  `none` stands for an overflow, a failed assertion and an access outside
a buffer.
-/
set_option autoImplicit false

namespace NetworkLab.Tcp

open Lib.CircularBuffer

def asInt (n : Int) : Option Int := if -2147483648 ≤ n ∧ n ≤ 2147483647 then some n else none

def copyFrom (buf : List UInt8) (start count : Int) : Option (List UInt8) :=
  if 0 ≤ start ∧ 0 ≤ count ∧ start + count ≤ buf.length then
    some (slice buf start.toNat count.toNat)
  else none

def copyTo (buf : List UInt8) (start : Int) (block : List UInt8) : Option (List UInt8) :=
  if 0 ≤ start ∧ start + block.length ≤ buf.length then some (overwrite buf start.toNat block)
  else none

/-- `struct ring_buffer`; `buf` are the `size` bytes before the one that is never used. -/
structure RawBuffer where
  size : Int
  head : Int
  tail : Int
  buf : List UInt8

namespace RawBuffer

/-- `malloc` is taken to succeed. -/
def allocRingBuffer (size : Int) : RawBuffer :=
  { size := size, head := 0, tail := 0, buf := List.replicate size.toNat 0 }

variable (rbuf : RawBuffer)

def ringBufferUsed : Option Int := do
  let distance ← asInt (rbuf.tail - rbuf.head)
  let sum ← asInt (distance + rbuf.size)
  if rbuf.size = 0 then none else some (sum.tmod rbuf.size)

def ringBufferFree : Option Int := do
  let used ← rbuf.ringBufferUsed
  let left ← asInt (rbuf.size - used)
  asInt (left - 1)

def ringBufferEmpty : Option Bool := rbuf.ringBufferUsed.map fun used => used == 0

def ringBufferFull : Option Bool := rbuf.ringBufferFree.map fun free => free == 0

def readBlock (len stop : Int) : Option (List UInt8) :=
  if rbuf.size < stop then do
    let right ← asInt (rbuf.size - rbuf.head)
    let left ← asInt (len - right)
    let first ← copyFrom rbuf.buf rbuf.head right
    let second ← copyFrom rbuf.buf 0 left
    some (first ++ second)
  else copyFrom rbuf.buf rbuf.head len

/-- The return value, the bytes copied to the caller, and the buffer. -/
def readRingBuffer (size : Int) : Option (Int × List UInt8 × RawBuffer) := do
  let used ← rbuf.ringBufferUsed
  let len := if used < size then used else size
  if 0 < len then do
    let stop ← asInt (rbuf.head + len)
    let bytes ← rbuf.readBlock len stop
    some (len, bytes, { rbuf with head := stop.tmod rbuf.size })
  else some (len, [], rbuf)

def writeBlock (data : List UInt8) (len stop : Int) : Option (List UInt8) :=
  if rbuf.size < stop then do
    let right ← asInt (rbuf.size - rbuf.tail)
    let left ← asInt (len - right)
    let first ← copyFrom data 0 right
    let buf ← copyTo rbuf.buf rbuf.tail first
    let second ← copyFrom data right left
    copyTo buf 0 second
  else do
    let block ← copyFrom data 0 len
    copyTo rbuf.buf rbuf.tail block

def writeRingBuffer (data : List UInt8) (size : Int) : Option RawBuffer := do
  let free ← rbuf.ringBufferFree
  if 0 < size ∧ size ≤ free then do
    let stop ← asInt (rbuf.tail + size)
    let buf ← rbuf.writeBlock data size stop
    some { rbuf with buf := buf, tail := stop.tmod rbuf.size }
  else none

end RawBuffer

/-! ## Calls -/

inductive BufferCall where
  | read (size : Nat)
  | write (data : List UInt8) (size : Int)

/-- What a call returns: its value, and the bytes that it copies out. -/
abbrev Returned := Int × List UInt8

def RawBuffer.call (rbuf : RawBuffer) : BufferCall → Option (RawBuffer × Returned)
  | .read size => (rbuf.readRingBuffer size).map fun result => (result.2.2, result.1, result.2.1)
  | .write data size => (rbuf.writeRingBuffer data size).map fun next => (next, 0, [])

def queueCall (capacity : Nat) (queue : List UInt8) :
    BufferCall → Option (List UInt8 × Returned)
  | .read size => some (queue.drop size, (min queue.length size : Nat), queue.take size)
  | .write data size =>
    if 0 < size ∧ size ≤ data.length ∧ queue.length + size ≤ capacity then
      some (queue ++ data.take size.toNat, 0, [])
    else none

/-- One call after the other, with all that they return. -/
def perform {σ : Type} (call : σ → BufferCall → Option (σ × Returned)) :
    σ → List BufferCall → Option (σ × List Returned)
  | s, [] => some (s, [])
  | s, first :: later => do
    let (next, returned) ← call s first
    let (last, rest) ← perform call next later
    some (last, returned :: rest)

structure Shows (size : Nat) (rbuf : RawBuffer) (queue : List UInt8) : Prop where
  head : 0 ≤ rbuf.head ∧ rbuf.head < size
  tail : 0 ≤ rbuf.tail ∧ rbuf.tail < size
  used : rbuf.ringBufferUsed = some (queue.length : Int)
  free : rbuf.ringBufferFree = some ((size : Int) - 1 - queue.length)
  empty : rbuf.ringBufferEmpty = some (queue.length == 0)
  full : rbuf.ringBufferFull = some (queue.length == size - 1)

theorem rel_bind {α β γ δ : Type} {r : α → β → Prop} {s : γ → δ → Prop} {a : Option α}
    {b : Option β} {f : α → Option γ} {g : β → Option δ} (first : Option.Rel r a b)
    (next : ∀ x y, r x y → Option.Rel s (f x) (g y)) : Option.Rel s (a.bind f) (b.bind g) := by
  cases first with
  | none => exact Option.Rel.none
  | some related => exact next _ _ related

/-- Every sequence of calls does to the buffer what it does to a queue of `size - 1` bytes. -/
def RefinesQueue (size : Nat) : Prop :=
  ∀ calls, Option.Rel (fun ends shows => shows.2 = ends.2 ∧ Shows size shows.1 ends.1)
    (perform (queueCall (size - 1)) [] calls)
    (perform RawBuffer.call (RawBuffer.allocRingBuffer size) calls)

/-! ## Without overflow -/

namespace RingBuffer

variable (rbuf : RingBuffer)

def raw : RawBuffer :=
  { size := rbuf.size, head := rbuf.head, tail := rbuf.tail, buf := rbuf.buf }

theorem raw_size : rbuf.raw.size = rbuf.size := by rw [raw]
theorem raw_head : rbuf.raw.head = rbuf.head := by rw [raw]
theorem raw_tail : rbuf.raw.tail = rbuf.tail := by rw [raw]
theorem raw_buf : rbuf.raw.buf = rbuf.buf := by rw [raw]

theorem asInt_eq {n : Int} (low : -2147483648 ≤ n) (high : n ≤ 2147483647) : asInt n = some n :=
  if_pos ⟨low, high⟩

theorem tmod_size (n : Nat) : (n : Int).tmod rbuf.size = (n % rbuf.size : Nat) := by
  rw [Int.tmod_eq_emod_of_nonneg (Int.natCast_nonneg n), Int.natCast_mod]

theorem copyFrom_eq {buf : List UInt8} {start count : Nat} (inside : start + count ≤ buf.length) :
    copyFrom buf start count = some (slice buf start count) := by
  rw [copyFrom, if_pos (by omega), Int.toNat_natCast, Int.toNat_natCast]

theorem copyTo_eq {buf block : List UInt8} {start : Nat}
    (inside : start + block.length ≤ buf.length) :
    copyTo buf start block = some (overwrite buf start block) := by
  rw [copyTo, if_pos (by omega), Int.toNat_natCast]

variable (small : rbuf.size ≤ 1073741824)

include small

theorem raw_used : rbuf.raw.ringBufferUsed = some (rbuf.ringBufferUsed : Int) := by
  have head_lt := rbuf.head_lt
  have tail_lt := rbuf.tail_lt
  have sum : (rbuf.tail : Int) - rbuf.head + rbuf.size =
      (rbuf.tail + rbuf.size - rbuf.head : Nat) := by omega
  have positive : (rbuf.size : Int) ≠ 0 := by omega
  simp only [RawBuffer.ringBufferUsed, raw_size, raw_head, raw_tail, if_neg positive]
  rw [asInt_eq (by omega) (by omega), Option.bind_eq_bind, Option.bind_some, sum,
    asInt_eq (by omega) (by omega), Option.bind_some, tmod_size, ringBufferUsed]

theorem raw_free : rbuf.raw.ringBufferFree = some (rbuf.ringBufferFree : Int) := by
  have used_lt := rbuf.used_lt
  have left : (rbuf.size : Int) - rbuf.ringBufferUsed - 1 = (rbuf.ringBufferFree : Nat) := by
    unfold ringBufferFree
    omega
  simp only [RawBuffer.ringBufferFree, rbuf.raw_used small, raw_size, Option.bind_eq_bind,
    Option.bind_some]
  rw [asInt_eq (by omega) (by omega), Option.bind_some, left, asInt_eq (by omega) (by omega)]

theorem raw_readBlock {len : Nat} (short : len < rbuf.size) :
    rbuf.raw.readBlock len (rbuf.head + len : Nat) =
      some (if rbuf.size < rbuf.head + len then
        slice rbuf.buf rbuf.head (rbuf.size - rbuf.head) ++
          slice rbuf.buf 0 (len - (rbuf.size - rbuf.head))
        else slice rbuf.buf rbuf.head len) := by
  have head_lt := rbuf.head_lt
  have length_buf := rbuf.length_buf
  simp only [RawBuffer.readBlock, raw_size, raw_head, raw_buf, Option.bind_eq_bind]
  by_cases wraps : rbuf.size < rbuf.head + len
  · have right : (rbuf.size : Int) - rbuf.head = (rbuf.size - rbuf.head : Nat) := by omega
    have left : (len : Int) - (rbuf.size - rbuf.head : Nat) =
        (len - (rbuf.size - rbuf.head) : Nat) := by omega
    have first : copyFrom rbuf.buf rbuf.head (rbuf.size - rbuf.head : Nat) =
        some (slice rbuf.buf rbuf.head (rbuf.size - rbuf.head)) := copyFrom_eq (by omega)
    have second : copyFrom rbuf.buf 0 (len - (rbuf.size - rbuf.head) : Nat) =
        some (slice rbuf.buf 0 (len - (rbuf.size - rbuf.head))) :=
      @copyFrom_eq rbuf.buf 0 _ (by omega)
    rw [if_pos (by omega), if_pos wraps, asInt_eq (by omega) (by omega), Option.bind_some, right,
      left, asInt_eq (by omega) (by omega), Option.bind_some, first, Option.bind_some, second,
      Option.bind_some]
  · rw [if_neg (by omega), if_neg wraps, copyFrom_eq (by omega)]

theorem raw_read (size : Nat) :
    rbuf.raw.readRingBuffer size = some (((min rbuf.ringBufferUsed size : Nat) : Int),
      (rbuf.readRingBuffer size).1, (rbuf.readRingBuffer size).2.raw) := by
  have head_lt := rbuf.head_lt
  have used_lt := rbuf.used_lt
  have len : (if (rbuf.ringBufferUsed : Int) < size then (rbuf.ringBufferUsed : Int) else size) =
      (min rbuf.ringBufferUsed size : Nat) := by
    split_ifs <;> omega
  simp only [RawBuffer.readRingBuffer, rbuf.raw_used small, Option.bind_eq_bind, Option.bind_some,
    len, raw_size, raw_head]
  by_cases copies : 0 < min rbuf.ringBufferUsed size
  · have stop : (rbuf.head : Int) + (min rbuf.ringBufferUsed size : Nat) =
        (rbuf.head + min rbuf.ringBufferUsed size : Nat) := by omega
    rw [if_pos (by omega), stop, asInt_eq (by omega) (by omega), Option.bind_some, tmod_size,
      rbuf.raw_readBlock small (by omega), Option.bind_some]
    rfl
  · have none : min rbuf.ringBufferUsed size = 0 := by omega
    have still : (rbuf.readRingBuffer size).2.raw = rbuf.raw := by
      simp only [readRingBuffer, raw, none, Nat.add_zero, Nat.mod_eq_of_lt head_lt]
    have noBytes : (rbuf.readRingBuffer size).1 = [] := by
      rw [readRingBuffer_bytes, ← List.length_eq_zero_iff, List.length_take, length_contents,
        min_comm, none]
    rw [if_neg (by omega), none, still, noBytes]

theorem raw_writeBlock {data : List UInt8} {len : Nat} (available : len ≤ data.length)
    (short : len < rbuf.size) :
    rbuf.raw.writeBlock data len (rbuf.tail + len : Nat) =
      some (rbuf.writeBlock (data.take len)) := by
  have tail_lt := rbuf.tail_lt
  have length_buf := rbuf.length_buf
  have blockLength : (data.take len).length = len := List.length_take_of_le available
  simp only [RawBuffer.writeBlock, raw_size, raw_tail, raw_buf, Option.bind_eq_bind]
  unfold writeBlock
  rw [blockLength]
  by_cases wraps : rbuf.size < rbuf.tail + len
  · have right : (rbuf.size : Int) - rbuf.tail = (rbuf.size - rbuf.tail : Nat) := by omega
    have left : (len : Int) - (rbuf.size - rbuf.tail : Nat) =
        (len - (rbuf.size - rbuf.tail) : Nat) := by omega
    have first : copyFrom data 0 (rbuf.size - rbuf.tail : Nat) =
        some ((data.take len).take (rbuf.size - rbuf.tail)) := by
      rw [List.take_take, Nat.min_eq_left (by omega)]
      exact @copyFrom_eq data 0 _ (by omega)
    have firstLength : ((data.take len).take (rbuf.size - rbuf.tail)).length =
        rbuf.size - rbuf.tail := List.length_take_of_le (by omega)
    have second : copyFrom data (rbuf.size - rbuf.tail : Nat) (len - (rbuf.size - rbuf.tail) : Nat) =
        some ((data.take len).drop (rbuf.size - rbuf.tail)) := by
      rw [List.drop_take]
      exact copyFrom_eq (by omega)
    have secondLength : ((data.take len).drop (rbuf.size - rbuf.tail)).length =
        len - (rbuf.size - rbuf.tail) := by rw [List.length_drop, blockLength]
    have middle : (overwrite rbuf.buf rbuf.tail
        ((data.take len).take (rbuf.size - rbuf.tail))).length = rbuf.size := by
      rw [length_overwrite (by omega), length_buf]
    have start := @copyTo_eq
      (overwrite rbuf.buf rbuf.tail ((data.take len).take (rbuf.size - rbuf.tail)))
      ((data.take len).drop (rbuf.size - rbuf.tail)) 0 (by omega)
    rw [if_pos (by omega), if_pos wraps, asInt_eq (by omega) (by omega), Option.bind_some, right,
      left, asInt_eq (by omega) (by omega), Option.bind_some, first, Option.bind_some,
      copyTo_eq (by omega), Option.bind_some, second, Option.bind_some]
    exact start
  · have whole : copyFrom data 0 len = some (data.take len) := @copyFrom_eq data 0 len (by omega)
    rw [if_neg (by omega), if_neg wraps, whole, Option.bind_some, copyTo_eq (by omega)]

omit small in
theorem raw_writeBlock_short {data : List UInt8} {len : Nat} (missing : data.length < len) :
    rbuf.raw.writeBlock data len (rbuf.tail + len : Nat) = none := by
  have outside (start count : Int) (behind : data.length < start + count) :
      copyFrom data start count = none := if_neg (by omega)
  unfold RawBuffer.writeBlock
  by_cases wraps : rbuf.raw.size < (rbuf.tail + len : Nat)
  · simp only [if_pos wraps, Option.bind_eq_bind, Option.bind_eq_none_iff]
    intro right _ left leftIs first _ buf _ second found
    have total : left = len - right := by
      unfold asInt at leftIs
      split_ifs at leftIs
      exact (Option.some.inj leftIs).symm
    rw [outside right left (by omega)] at found
    cases found
  · rw [if_neg wraps, outside 0 len (by omega)]
    rfl

theorem raw_write (data : List UInt8) (size : Int) :
    rbuf.raw.writeRingBuffer data size = (rbuf.writeRingBuffer data size).map raw := by
  have tail_lt := rbuf.tail_lt
  have used_lt := rbuf.used_lt
  have partition := rbuf.used_add_free
  rw [RawBuffer.writeRingBuffer, rbuf.raw_free small, Option.bind_eq_bind, Option.bind_some,
    writeRingBuffer]
  by_cases assertion : 0 < size ∧ size ≤ rbuf.ringBufferFree
  · obtain ⟨len, rfl⟩ := Int.eq_ofNat_of_zero_le assertion.1.le
    have stop : (rbuf.tail : Int) + len = (rbuf.tail + len : Nat) := by omega
    rw [if_pos assertion, raw_tail, stop, asInt_eq (by omega) (by omega), Option.bind_eq_bind,
      Option.bind_some]
    by_cases available : len ≤ data.length
    · rw [rbuf.raw_writeBlock small available (by omega), dif_pos (by omega), Option.bind_some, raw_size,
        tmod_size]
      rfl
    · rw [rbuf.raw_writeBlock_short (by omega), dif_neg (by omega)]
      rfl
  · rw [if_neg assertion, dif_neg (by omega)]
    rfl

theorem raw_shows : Shows rbuf.size rbuf.raw rbuf.contents := by
  have used_lt := rbuf.used_lt
  have partition := rbuf.used_add_free
  have used := rbuf.raw_used small
  have free := rbuf.raw_free small
  constructor
  · rw [raw_head]
    exact ⟨Int.natCast_nonneg _, Int.ofNat_lt.mpr rbuf.head_lt⟩
  · rw [raw_tail]
    exact ⟨Int.natCast_nonneg _, Int.ofNat_lt.mpr rbuf.tail_lt⟩
  · rw [used, length_contents]
  · rw [free, length_contents, Option.some.injEq]
    omega
  · rw [RawBuffer.ringBufferEmpty, used, Option.map_some, length_contents, Option.some.injEq,
      Bool.eq_iff_iff, beq_iff_eq, beq_iff_eq]
    omega
  · rw [RawBuffer.ringBufferFull, free, Option.map_some, length_contents, Option.some.injEq,
      Bool.eq_iff_iff, beq_iff_eq, beq_iff_eq]
    omega

theorem raw_call (call : BufferCall) :
    Option.Rel (fun ends shows => shows.2 = ends.2 ∧
        ∃ next : RingBuffer, next.size = rbuf.size ∧ shows.1 = next.raw ∧ next.contents = ends.1)
      (queueCall (rbuf.size - 1) rbuf.contents call) (rbuf.raw.call call) := by
  cases call with
  | read size =>
    have rest := rbuf.readRingBuffer_contents size
    have bytes := rbuf.readRingBuffer_bytes size
    rw [RawBuffer.call, rbuf.raw_read small, queueCall, length_contents]
    apply Option.Rel.some
    refine ⟨?_, (rbuf.readRingBuffer size).2, rfl, rfl, ?_⟩
    · rw [bytes]
    · rw [bytes] at rest
      exact List.append_cancel_left (rest.trans (List.take_append_drop size rbuf.contents).symm)
  | write data size =>
    have used_lt := rbuf.used_lt
    have partition := rbuf.used_add_free
    rw [RawBuffer.call, rbuf.raw_write small, queueCall, length_contents]
    cases written : rbuf.writeRingBuffer data size with
    | none =>
      have refused : ¬ (0 < size ∧ size ≤ data.length ∧
          (rbuf.ringBufferUsed : Int) + size ≤ (rbuf.size - 1 : Nat)) := by
        intro fits
        rw [writeRingBuffer, dif_pos (by omega)] at written
        cases written
      rw [if_neg refused]
      exact Option.Rel.none
    | some next =>
      obtain ⟨positive, available, sameSize, contents⟩ := writeRingBuffer_some written
      have room : (rbuf.ringBufferUsed : Int) + size ≤ (rbuf.size - 1 : Nat) := by
        unfold writeRingBuffer at written
        split_ifs at written with fits
        omega
      rw [if_pos ⟨positive, available, room⟩]
      exact Option.Rel.some ⟨rfl, next, sameSize, rfl, contents⟩

theorem raw_perform (calls : List BufferCall) :
    Option.Rel (fun ends shows => shows.2 = ends.2 ∧ Shows rbuf.size shows.1 ends.1)
      (perform (queueCall (rbuf.size - 1)) rbuf.contents calls)
      (perform RawBuffer.call rbuf.raw calls) := by
  induction calls generalizing rbuf with
  | nil => exact Option.Rel.some ⟨rfl, rbuf.raw_shows small⟩
  | cons call calls ih =>
    apply rel_bind (rbuf.raw_call small call)
    intro ends shows first
    obtain ⟨sameReturned, next, sameSize, isRaw, contents⟩ := first
    have later := ih next (sameSize ▸ small)
    rw [contents, ← isRaw, sameSize] at later
    apply rel_bind later
    intro lastEnds lastShows last
    exact Option.Rel.some ⟨by rw [sameReturned, last.1], last.2⟩

omit small in
theorem contents_allocRingBuffer (size : Nat) (positive : 0 < size) (isInt : size < 2147483648) :
    (allocRingBuffer size positive isInt).contents = [] := by
  rw [← List.length_eq_zero_iff, length_contents]
  change (0 + size - 0) % size = 0
  rw [Nat.zero_add, Nat.sub_zero, Nat.mod_self]

end RingBuffer

/-! ## With overflow -/

theorem RawBuffer.writeRingBuffer_fields {rbuf next : RawBuffer} {data : List UInt8} {size : Int}
    (written : rbuf.writeRingBuffer data size = some next) :
    next.size = rbuf.size ∧ next.head = rbuf.head ∧
      next.tail = (rbuf.tail + size).tmod rbuf.size := by
  obtain ⟨free, -, written⟩ := Option.bind_eq_some_iff.mp written
  split_ifs at written
  obtain ⟨stop, stopIs, written⟩ := Option.bind_eq_some_iff.mp written
  obtain ⟨buf, -, written⟩ := Option.bind_eq_some_iff.mp written
  unfold asInt at stopIs
  split_ifs at stopIs
  cases Option.some.inj stopIs
  cases Option.some.inj written
  exact ⟨rfl, rfl, rfl⟩

/-- A full buffer of more than 2^30 bytes cannot tell how many bytes it has. -/
theorem used_overflows {size : Nat} (large : 1073741824 < size) {rbuf : RawBuffer}
    (isSize : rbuf.size = size) (head : rbuf.head = 0) (tail : rbuf.tail = size - 1) :
    rbuf.ringBufferUsed = none := by
  rw [RawBuffer.ringBufferUsed, isSize, head, tail]
  by_cases first : (size : Int) - 1 - 0 ≤ 2147483647
  · rw [RingBuffer.asInt_eq (by omega) first, Option.bind_eq_bind, Option.bind_some, asInt,
      if_neg (by omega)]
    rfl
  · rw [asInt, if_neg (by omega)]
    rfl

theorem not_refinesQueue {size : Nat} (large : 1073741824 < size) : ¬ RefinesQueue size := by
  intro refines
  have full := refines [.write (List.replicate (size - 1) 0) (size - 1 : Nat)]
  have queued : queueCall (size - 1) [] (.write (List.replicate (size - 1) 0) (size - 1 : Nat)) =
      some (List.replicate (size - 1) 0, 0, []) := by
    rw [queueCall, if_pos (by rw [List.length_replicate, List.length_nil]; omega),
      Int.toNat_natCast, List.nil_append, List.take_of_length_le List.length_replicate.le]
  simp only [perform, queued, Option.bind_eq_bind, Option.bind_some] at full
  cases written : (RawBuffer.allocRingBuffer size).writeRingBuffer
      (List.replicate (size - 1) 0) (size - 1 : Nat) with
  | none =>
    rw [RawBuffer.call, written] at full
    cases full
  | some next =>
    rw [RawBuffer.call, written] at full
    obtain ⟨isSize, head, tail⟩ := RawBuffer.writeRingBuffer_fields written
    have last : next.tail = size - 1 := by
      rw [tail]
      change (0 + ((size - 1 : Nat) : Int)).tmod (size : Int) = size - 1
      rw [Int.zero_add, Int.tmod_eq_emod_of_nonneg (Int.natCast_nonneg _),
        Int.emod_eq_of_lt (by omega) (by omega)]
      omega
    cases full with
    | some related =>
      have used := related.2.used
      rw [used_overflows large isSize head last] at used
      cases used

theorem not_refinesQueue_gigabyte : ¬ RefinesQueue 1073741825 := not_refinesQueue (by decide)

/-- The buffer is a queue of `size - 1` bytes if and only if `tail - head + size` is always an
`int`. -/
theorem refinesQueue_iff (size : Nat) (positive : 0 < size) :
    RefinesQueue size ↔ size ≤ 1073741824 := by
  constructor
  · intro refines
    by_contra large
    exact not_refinesQueue (by omega) refines
  · intro small
    have start := (RingBuffer.allocRingBuffer size positive (by omega)).raw_perform small
    rw [RingBuffer.contents_allocRingBuffer] at start
    exact start

theorem refinesQueue_defaultWindow : RefinesQueue 65535 :=
  (refinesQueue_iff 65535 (by decide)).mpr (by decide)

end NetworkLab.Tcp
