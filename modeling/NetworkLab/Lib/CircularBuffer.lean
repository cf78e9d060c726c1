import Mathlib.Data.List.Rotate

/-!
# Circular buffers

A queue in a circular buffer is a prefix of the buffer rotated to its head.  A
block written at the tail, in one piece or in two when it passes the end, extends
that prefix by the block.
-/
set_option autoImplicit false

namespace Lib.CircularBuffer

variable {α : Type*}

def slice (buf : List α) (start count : Nat) : List α := (buf.drop start).take count

def overwrite (buf : List α) (start : Nat) (block : List α) : List α :=
  buf.take start ++ block ++ buf.drop (start + block.length)

theorem exists_split {l : List α} {n : Nat} (short : n ≤ l.length) :
    ∃ front back, l = front ++ back ∧ front.length = n :=
  ⟨l.take n, l.drop n, (List.take_append_drop n l).symm, List.length_take_of_le short⟩

theorem length_overwrite {buf block : List α} {start : Nat}
    (fits : start + block.length ≤ buf.length) :
    (overwrite buf start block).length = buf.length := by
  simp only [overwrite, List.length_append, List.length_take, List.length_drop]
  omega

theorem slice_eq_take_rotate {buf : List α} {head count : Nat} (fits : head + count ≤ buf.length) :
    slice buf head count = (buf.rotate head).take count := by
  obtain ⟨front, back, rfl, rfl⟩ := exists_split (l := buf) (n := head) (by omega)
  have short : count ≤ back.length := by
    rw [List.length_append] at fits
    omega
  rw [List.rotate_append_length_eq, slice, List.drop_left, List.take_append_of_le_length short]

theorem slice_append_slice {buf : List α} {head count : Nat} (inside : head ≤ buf.length)
    (wraps : buf.length ≤ head + count) (short : count ≤ buf.length) :
    slice buf head (buf.length - head) ++ slice buf 0 (count - (buf.length - head)) =
      (buf.rotate head).take count := by
  obtain ⟨front, back, rfl, rfl⟩ := exists_split inside
  rw [List.length_append] at wraps short
  have right : (front ++ back).length - front.length = back.length := by simp
  have left : count - back.length ≤ front.length := by omega
  rw [right, List.rotate_append_length_eq, slice, slice, List.drop_left, List.take_length,
    List.drop_zero, List.take_append_of_le_length left, List.take_append,
    List.take_of_length_le (l := back) (by omega)]

theorem rotate_overwrite {buf block : List α} {tail : Nat}
    (fits : tail + block.length ≤ buf.length) :
    (overwrite buf tail block).rotate tail = block ++ (buf.rotate tail).drop block.length := by
  obtain ⟨front, rest, rfl, rfl⟩ := exists_split (l := buf) (n := tail) (by omega)
  have inRest : block.length ≤ rest.length := by
    rw [List.length_append] at fits
    omega
  obtain ⟨old, back, rfl, sameLength⟩ := exists_split inRest
  have written : overwrite (front ++ (old ++ back)) front.length block =
      front ++ (block ++ back) := by
    simp [overwrite, ← sameLength]
  rw [written, List.rotate_append_length_eq, List.rotate_append_length_eq, ← sameLength]
  simp

theorem rotate_overwrite_wrap {buf block : List α} {tail : Nat} (inside : tail ≤ buf.length)
    (wraps : buf.length ≤ tail + block.length) (short : block.length ≤ buf.length) :
    (overwrite (overwrite buf tail (block.take (buf.length - tail))) 0
        (block.drop (buf.length - tail))).rotate tail =
      block ++ (buf.rotate tail).drop block.length := by
  obtain ⟨front, right, rfl, rfl⟩ := exists_split inside
  have rightLength : (front ++ right).length - front.length = right.length := by simp
  rw [List.length_append] at wraps short
  rw [rightLength]
  obtain ⟨block₁, block₂, rfl, length₁⟩ := exists_split (l := block) (n := right.length) (by omega)
  rw [List.length_append] at wraps short
  obtain ⟨left, middle, rfl, length₂⟩ :=
    exists_split (l := front) (n := block₂.length) (by omega)
  have first : overwrite (left ++ middle ++ right) (left ++ middle).length block₁ =
      left ++ (middle ++ block₁) := by
    have whole : (left ++ middle).length + block₁.length = (left ++ middle ++ right).length := by
      simp [length₁, Nat.add_assoc]
    rw [overwrite, List.append_assoc left middle right, ← List.append_assoc, List.take_left, whole,
      List.drop_length, List.append_nil, List.append_assoc]
  have second : overwrite (left ++ (middle ++ block₁)) 0 block₂ = block₂ ++ (middle ++ block₁) := by
    simp [overwrite, ← length₂]
  have sameTail : (left ++ middle).length = (block₂ ++ middle).length := by
    simp [length₂]
  rw [← length₁, List.take_left, List.drop_left, first, second, List.rotate_append_length_eq,
    sameTail, ← List.append_assoc, List.rotate_append_length_eq]
  have dropped : (block₁ ++ block₂).length = (right ++ left).length := by
    simp [length₁, length₂]
  rw [dropped, ← List.append_assoc right, List.drop_left, List.append_assoc]

/-- What is left of a queue when a block is read off its front. -/
theorem take_rotate_read {queue : List α} {count used : Nat} (inQueue : count ≤ used)
    (inside : used ≤ queue.length) :
    queue.take count ++ (queue.rotate count).take (used - count) = queue.take used := by
  obtain ⟨front, back, rfl, rfl⟩ := exists_split (l := queue) (n := count) (by omega)
  rw [List.length_append] at inside
  rw [List.rotate_append_length_eq, List.take_left,
    List.take_append_of_le_length (by omega), List.take_append,
    List.take_of_length_le (l := front) inQueue]

theorem take_rotate_write {before after block : List α} {head used : Nat}
    (sameLength : after.length = before.length) (fits : used + block.length ≤ before.length)
    (written : after.rotate (head + used) =
      block ++ (before.rotate (head + used)).drop block.length) :
    (after.rotate head).take (used + block.length) = (before.rotate head).take used ++ block := by
  obtain ⟨queue, rest, split, length⟩ := exists_split (l := before.rotate head) (n := used)
    (by rw [List.length_rotate]; omega)
  have newLength : used ≤ (after.rotate head).length := by
    rw [List.length_rotate, sameLength]
    omega
  obtain ⟨newQueue, newRest, newSplit, newQueueLength⟩ := exists_split newLength
  have total : (before.rotate head).length = before.length := List.length_rotate ..
  rw [split, List.length_append] at total
  have inRest : block.length ≤ rest.length := by omega
  rw [← List.rotate_rotate, ← List.rotate_rotate, split, newSplit, ← length,
    List.rotate_append_length_eq, length, ← newQueueLength, List.rotate_append_length_eq,
    List.drop_append_of_le_length inRest, ← List.append_assoc] at written
  obtain ⟨restEq, queueEq⟩ := List.append_inj' written (by omega)
  rw [newSplit, split, restEq, queueEq, ← length, List.take_left, List.take_length_add_append,
    List.take_left]

end Lib.CircularBuffer
