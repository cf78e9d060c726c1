import Mathlib.Data.Nat.ModEq
import NetworkLab.Lib.CircularBuffer

/-!
# The ring buffer

`ring_buffer.h`.  A buffer that keeps `head` and `tail` inside its `size` bytes is a
queue of at most `size - 1` bytes, its `contents`.  `size` is an `int`.
-/
set_option autoImplicit false

namespace NetworkLab.Tcp

open Lib.CircularBuffer

structure RingBuffer where
  size : Nat
  head : Nat
  tail : Nat
  buf : List UInt8
  head_lt : head < size
  size_lt : size < 2147483648
  tail_lt : tail < size
  length_buf : buf.length = size

namespace RingBuffer

def allocRingBuffer (size : Nat) (positive : 0 < size) (isInt : size < 2147483648) : RingBuffer :=
  { size := size, head := 0, tail := 0, buf := List.replicate size 0, size_lt := isInt,
    head_lt := positive, tail_lt := positive, length_buf := List.length_replicate }

def ringBufferUsed (rbuf : RingBuffer) : Nat := (rbuf.tail + rbuf.size - rbuf.head) % rbuf.size

def ringBufferFree (rbuf : RingBuffer) : Nat := rbuf.size - rbuf.ringBufferUsed - 1

def ringBufferEmpty (rbuf : RingBuffer) : Bool := rbuf.ringBufferUsed == 0

def ringBufferFull (rbuf : RingBuffer) : Bool := rbuf.ringBufferFree == 0

/-- The bytes copied to the caller and the buffer with its head moved past them. -/
def readRingBuffer (rbuf : RingBuffer) (size : Nat) : List UInt8 × RingBuffer :=
  let len := min rbuf.ringBufferUsed size
  let bytes :=
    if rbuf.size < rbuf.head + len then
      let right := rbuf.size - rbuf.head
      slice rbuf.buf rbuf.head right ++ slice rbuf.buf 0 (len - right)
    else slice rbuf.buf rbuf.head len
  (bytes, { rbuf with
    head := (rbuf.head + len) % rbuf.size,
    head_lt := Nat.mod_lt _ (Nat.zero_lt_of_lt rbuf.head_lt) })

/-- The one or two copies that `write_ring_buffer` makes at `tail`. -/
def writeBlock (rbuf : RingBuffer) (block : List UInt8) : List UInt8 :=
  if rbuf.size < rbuf.tail + block.length then
    let right := rbuf.size - rbuf.tail
    overwrite (overwrite rbuf.buf rbuf.tail (block.take right)) 0 (block.drop right)
  else overwrite rbuf.buf rbuf.tail block

theorem used_lt (rbuf : RingBuffer) : rbuf.ringBufferUsed < rbuf.size :=
  Nat.mod_lt _ (Nat.zero_lt_of_lt rbuf.head_lt)

theorem used_add_free (rbuf : RingBuffer) :
    rbuf.ringBufferUsed + rbuf.ringBufferFree = rbuf.size - 1 := by
  have := rbuf.used_lt
  unfold ringBufferFree
  omega

theorem length_writeBlock (rbuf : RingBuffer) {block : List UInt8}
    (short : block.length ≤ rbuf.size) : (rbuf.writeBlock block).length = rbuf.size := by
  have tail_lt := rbuf.tail_lt
  have length_buf := rbuf.length_buf
  unfold writeBlock
  split_ifs with wraps
  · have first : (overwrite rbuf.buf rbuf.tail (block.take (rbuf.size - rbuf.tail))).length =
        rbuf.size := by
      rw [length_overwrite, length_buf]
      rw [List.length_take, length_buf]
      omega
    rw [length_overwrite, first]
    rw [first, List.length_drop]
    omega
  · rw [length_overwrite, length_buf]
    omega

/-- `none` when the assertion fails, or when `data` is shorter than `size`. -/
def writeRingBuffer (rbuf : RingBuffer) (data : List UInt8) (size : Int) : Option RingBuffer :=
  if fits : 0 < size ∧ size ≤ rbuf.ringBufferFree ∧ size ≤ data.length then
    some { rbuf with
      buf := rbuf.writeBlock (data.take size.toNat),
      tail := (rbuf.tail + size.toNat) % rbuf.size,
      tail_lt := Nat.mod_lt _ (Nat.zero_lt_of_lt rbuf.head_lt),
      length_buf := rbuf.length_writeBlock (by
        have := rbuf.used_add_free
        rw [List.length_take]
        omega) }
  else none

def contents (rbuf : RingBuffer) : List UInt8 :=
  (rbuf.buf.rotate rbuf.head).take rbuf.ringBufferUsed

@[simp] theorem length_contents (rbuf : RingBuffer) :
    rbuf.contents.length = rbuf.ringBufferUsed := by
  have := rbuf.used_lt
  rw [contents, List.length_take_of_le]
  rw [List.length_rotate, rbuf.length_buf]
  omega

theorem head_add_used (rbuf : RingBuffer) :
    (rbuf.head + rbuf.ringBufferUsed) % rbuf.size = rbuf.tail := by
  have head_lt := rbuf.head_lt
  rw [ringBufferUsed, Nat.add_mod_mod,
    show rbuf.head + (rbuf.tail + rbuf.size - rbuf.head) = rbuf.tail + rbuf.size by omega,
    Nat.add_mod_right, Nat.mod_eq_of_lt rbuf.tail_lt]

/-- The used count of a buffer is determined by the distance from head to tail. -/
theorem used_eq {rbuf : RingBuffer} {count : Nat} (short : count < rbuf.size)
    (reaches : (rbuf.head + count) % rbuf.size = rbuf.tail) : rbuf.ringBufferUsed = count := by
  have same : (rbuf.head + rbuf.ringBufferUsed) % rbuf.size = (rbuf.head + count) % rbuf.size :=
    rbuf.head_add_used.trans reaches.symm
  exact Nat.ModEq.eq_of_lt_of_lt (Nat.ModEq.add_left_cancel' _ same) rbuf.used_lt short

theorem readRingBuffer_bytes (rbuf : RingBuffer) (size : Nat) :
    (rbuf.readRingBuffer size).1 = rbuf.contents.take size := by
  have used_lt := rbuf.used_lt
  have head_lt := rbuf.head_lt
  have length_buf := rbuf.length_buf
  rw [contents, List.take_take, min_comm]
  simp only [readRingBuffer]
  split_ifs with wraps
  · rw [← length_buf]
    exact slice_append_slice (by omega) (by omega) (by omega)
  · exact slice_eq_take_rotate (by omega)

theorem readRingBuffer_used (rbuf : RingBuffer) (size : Nat) :
    (rbuf.readRingBuffer size).2.ringBufferUsed =
      rbuf.ringBufferUsed - min rbuf.ringBufferUsed size := by
  have used_lt := rbuf.used_lt
  apply used_eq
  · change _ < rbuf.size
    omega
  · change ((rbuf.head + min rbuf.ringBufferUsed size) % rbuf.size +
      (rbuf.ringBufferUsed - min rbuf.ringBufferUsed size)) % rbuf.size = rbuf.tail
    rw [Nat.mod_add_mod, Nat.add_assoc, Nat.add_sub_cancel' (Nat.min_le_left ..), head_add_used]

theorem readRingBuffer_contents (rbuf : RingBuffer) (size : Nat) :
    (rbuf.readRingBuffer size).1 ++ (rbuf.readRingBuffer size).2.contents = rbuf.contents := by
  have used_lt := rbuf.used_lt
  have length_buf := rbuf.length_buf
  have rotated : (rbuf.readRingBuffer size).2.buf.rotate (rbuf.readRingBuffer size).2.head =
      (rbuf.buf.rotate rbuf.head).rotate (min rbuf.ringBufferUsed size) := by
    change rbuf.buf.rotate ((rbuf.head + min rbuf.ringBufferUsed size) % rbuf.size) = _
    rw [← length_buf, List.rotate_mod, List.rotate_rotate]
  rw [readRingBuffer_bytes, contents, contents, readRingBuffer_used, rotated, List.take_take,
    min_comm size]
  refine take_rotate_read (Nat.min_le_left ..) ?_
  rw [List.length_rotate]
  omega

theorem rotate_writeBlock (rbuf : RingBuffer) {block : List UInt8}
    (short : block.length ≤ rbuf.size) :
    (rbuf.writeBlock block).rotate (rbuf.head + rbuf.ringBufferUsed) =
      block ++ (rbuf.buf.rotate (rbuf.head + rbuf.ringBufferUsed)).drop block.length := by
  have tail_lt := rbuf.tail_lt
  have length_buf := rbuf.length_buf
  have atTail : ∀ cells : List UInt8, cells.length = rbuf.size →
      cells.rotate (rbuf.head + rbuf.ringBufferUsed) = cells.rotate rbuf.tail := by
    intro cells length
    rw [← List.rotate_mod, length, head_add_used]
  rw [atTail _ (rbuf.length_writeBlock short), atTail _ length_buf]
  unfold writeBlock
  split_ifs with wraps
  · rw [← length_buf]
    exact rotate_overwrite_wrap (by omega) (by omega) (by omega)
  · exact rotate_overwrite (by omega)

/-- A write that passes the assertion adds its bytes to the end of the queue. -/
theorem writeRingBuffer_some {rbuf next : RingBuffer} {data : List UInt8} {size : Int}
    (success : rbuf.writeRingBuffer data size = some next) :
    0 < size ∧ size ≤ data.length ∧ next.size = rbuf.size ∧
      next.contents = rbuf.contents ++ data.take size.toNat := by
  unfold writeRingBuffer at success
  split_ifs at success with fits
  obtain ⟨positive, room, available⟩ := fits
  have partition := rbuf.used_add_free
  have used_lt := rbuf.used_lt
  have length_buf := rbuf.length_buf
  have blockLength : (data.take size.toNat).length = size.toNat := by
    rw [List.length_take]
    omega
  have used : next.ringBufferUsed = rbuf.ringBufferUsed + size.toNat := by
    cases Option.some.inj success
    apply used_eq
    · change _ < rbuf.size
      omega
    · change (rbuf.head + (rbuf.ringBufferUsed + size.toNat)) % rbuf.size =
        (rbuf.tail + size.toNat) % rbuf.size
      rw [← Nat.add_assoc, ← Nat.mod_add_mod, head_add_used]
  refine ⟨positive, available, ?_, ?_⟩
  · cases Option.some.inj success
    rfl
  · conv_lhs => rw [contents, used, ← blockLength]
    cases Option.some.inj success
    refine take_rotate_write ?_ ?_ ?_
    · rw [length_writeBlock, length_buf]
      omega
    · omega
    · exact rotate_writeBlock rbuf (by omega)

end RingBuffer

end NetworkLab.Tcp
