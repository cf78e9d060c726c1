import Mathlib.Data.List.Basic

/-!
# Numbers in a buffer of bytes

Reading and writing are partial: `none` stands for a byte behind the end of the buffer.  The
most significant byte comes first, except where the name says `Little`.
-/
set_option autoImplicit false

namespace Lib.Bytes

def bytes16 (x : UInt16) : List UInt8 := [UInt8.ofNat (x.toNat / 256), UInt8.ofNat x.toNat]

def bytes32 (x : UInt32) : List UInt8 :=
  [UInt8.ofNat (x.toNat / 16777216), UInt8.ofNat (x.toNat / 65536), UInt8.ofNat (x.toNat / 256),
    UInt8.ofNat x.toNat]

def bytes16Little (x : UInt16) : List UInt8 :=
  [UInt8.ofNat x.toNat, UInt8.ofNat (x.toNat / 256)]

def read8 (buffer : List UInt8) (offset : Nat) : Option UInt8 := buffer[offset]?

def read16 (buffer : List UInt8) (offset : Nat) : Option UInt16 := do
  let high ← read8 buffer offset
  let low ← read8 buffer (offset + 1)
  some (UInt16.ofNat (high.toNat * 256 + low.toNat))

def read16Little (buffer : List UInt8) (offset : Nat) : Option UInt16 := do
  let low ← read8 buffer offset
  let high ← read8 buffer (offset + 1)
  some (UInt16.ofNat (high.toNat * 256 + low.toNat))

def read32 (buffer : List UInt8) (offset : Nat) : Option UInt32 := do
  let high ← read16 buffer offset
  let low ← read16 buffer (offset + 2)
  some (UInt32.ofNat (high.toNat * 65536 + low.toNat))

def read32Little (buffer : List UInt8) (offset : Nat) : Option UInt32 := do
  let low ← read16Little buffer offset
  let high ← read16Little buffer (offset + 2)
  some (UInt32.ofNat (high.toNat * 65536 + low.toNat))

def write (buffer : List UInt8) (offset : Nat) (bytes : List UInt8) : Option (List UInt8) :=
  if offset + bytes.length ≤ buffer.length then
    some (buffer.take offset ++ (bytes ++ buffer.drop (offset + bytes.length)))
  else none

/-! ## What is inside -/

theorem exists_read8_iff (buffer : List UInt8) (offset : Nat) :
    (∃ x, read8 buffer offset = some x) ↔ offset + 1 ≤ buffer.length := by
  rw [← Option.isSome_iff_exists, Nat.succ_le_iff]
  simp [read8]

theorem exists_joined_iff {α β γ : Type*} {first : Option α} {second : Option β}
    {middle last size : Nat} (join : α → β → γ) (before : middle ≤ last)
    (firstInside : (∃ a, first = some a) ↔ middle ≤ size)
    (secondInside : (∃ b, second = some b) ↔ last ≤ size) :
    (∃ x, (first.bind fun a => second.bind fun b => some (join a b)) = some x) ↔ last ≤ size := by
  constructor
  · rintro ⟨x, joined⟩
    obtain ⟨a, -, joined⟩ := Option.bind_eq_some_iff.mp joined
    obtain ⟨b, found, -⟩ := Option.bind_eq_some_iff.mp joined
    exact secondInside.mp ⟨b, found⟩
  · intro inside
    obtain ⟨a, rfl⟩ := firstInside.mpr (Nat.le_trans before inside)
    obtain ⟨b, rfl⟩ := secondInside.mpr inside
    exact ⟨join a b, rfl⟩

theorem exists_read16_iff (buffer : List UInt8) (offset : Nat) :
    (∃ x, read16 buffer offset = some x) ↔ offset + 2 ≤ buffer.length :=
  exists_joined_iff _ (Nat.le_succ _) (exists_read8_iff buffer offset)
    (exists_read8_iff buffer (offset + 1))

theorem exists_read16Little_iff (buffer : List UInt8) (offset : Nat) :
    (∃ x, read16Little buffer offset = some x) ↔ offset + 2 ≤ buffer.length :=
  exists_joined_iff _ (Nat.le_succ _) (exists_read8_iff buffer offset)
    (exists_read8_iff buffer (offset + 1))

theorem exists_read32_iff (buffer : List UInt8) (offset : Nat) :
    (∃ x, read32 buffer offset = some x) ↔ offset + 4 ≤ buffer.length :=
  exists_joined_iff _ (Nat.le_add_right _ 2) (exists_read16_iff buffer offset)
    (exists_read16_iff buffer (offset + 2))

theorem exists_read32Little_iff (buffer : List UInt8) (offset : Nat) :
    (∃ x, read32Little buffer offset = some x) ↔ offset + 4 ≤ buffer.length :=
  exists_joined_iff _ (Nat.le_add_right _ 2) (exists_read16Little_iff buffer offset)
    (exists_read16Little_iff buffer (offset + 2))

/-! ## A longer buffer -/

/-- What is read from a buffer is read from every longer one. -/
def Stable {α : Type*} (read : List UInt8 → Option α) : Prop :=
  ∀ buffer behind x, read buffer = some x → read (buffer ++ behind) = some x

theorem Stable.eq {α : Type*} {read : List UInt8 → Option α} (stable : Stable read)
    {buffer behind : List UInt8} {x y : α} (short : read buffer = some x)
    (long : read (buffer ++ behind) = some y) : x = y :=
  Option.some.inj ((stable buffer behind x short).symm.trans long)

theorem stable_some {α : Type*} (x : α) : Stable fun _ => some x := fun _ _ _ same => same

theorem stable_read8 (offset : Nat) : Stable fun buffer => read8 buffer offset := by
  intro buffer behind x found
  have inside := (exists_read8_iff buffer offset).mp ⟨x, found⟩
  exact (List.getElem?_append_left inside).trans found

theorem Stable.bind {α β : Type*} {read : List UInt8 → Option α}
    {next : α → List UInt8 → Option β} (stable : Stable read) (later : ∀ x, Stable (next x)) :
    Stable fun buffer => (read buffer).bind fun x => next x buffer := by
  intro buffer behind y success
  obtain ⟨x, found, success⟩ := Option.bind_eq_some_iff.mp success
  dsimp only
  rw [stable buffer behind x found]
  exact later x buffer behind y success

theorem Stable.map {α β : Type*} {read : List UInt8 → Option α} (f : α → β)
    (stable : Stable read) : Stable fun buffer => (read buffer).map f := by
  intro buffer behind y success
  obtain ⟨x, found, rfl⟩ := Option.map_eq_some_iff.mp success
  dsimp only
  rw [stable buffer behind x found]
  rfl

theorem stable_read16 (offset : Nat) : Stable fun buffer => read16 buffer offset :=
  (stable_read8 offset).bind fun _ => (stable_read8 (offset + 1)).bind fun _ => stable_some _

theorem stable_read16Little (offset : Nat) : Stable fun buffer => read16Little buffer offset :=
  (stable_read8 offset).bind fun _ => (stable_read8 (offset + 1)).bind fun _ => stable_some _

theorem stable_read32 (offset : Nat) : Stable fun buffer => read32 buffer offset :=
  (stable_read16 offset).bind fun _ => (stable_read16 (offset + 2)).bind fun _ => stable_some _

theorem stable_read32Little (offset : Nat) : Stable fun buffer => read32Little buffer offset :=
  (stable_read16Little offset).bind fun _ =>
    (stable_read16Little (offset + 2)).bind fun _ => stable_some _

/-! ## Behind a front, and what was written -/

theorem read8_append (front rest : List UInt8) {offset : Nat} (behind : front.length ≤ offset) :
    read8 (front ++ rest) offset = read8 rest (offset - front.length) :=
  List.getElem?_append_right behind

theorem read16_append (front rest : List UInt8) {offset : Nat} (behind : front.length ≤ offset) :
    read16 (front ++ rest) offset = read16 rest (offset - front.length) := by
  simp only [read16]
  rw [read8_append front rest behind, read8_append front rest (by omega),
    show offset + 1 - front.length = offset - front.length + 1 by omega]

theorem read32_append (front rest : List UInt8) {offset : Nat} (behind : front.length ≤ offset) :
    read32 (front ++ rest) offset = read32 rest (offset - front.length) := by
  simp only [read32]
  rw [read16_append front rest behind, read16_append front rest (by omega),
    show offset + 2 - front.length = offset - front.length + 2 by omega]

theorem join16 (x : UInt16) :
    UInt16.ofNat ((UInt8.ofNat (x.toNat / 256)).toNat * 256 + (UInt8.ofNat x.toNat).toNat) = x := by
  have below := x.toNat_lt
  apply UInt16.toNat_inj.mp
  simp only [UInt16.toNat_ofNat', UInt8.toNat_ofNat']
  omega

theorem join32 (x : UInt32) :
    UInt32.ofNat ((UInt16.ofNat ((UInt8.ofNat (x.toNat / 16777216)).toNat * 256 +
        (UInt8.ofNat (x.toNat / 65536)).toNat)).toNat * 65536 +
      (UInt16.ofNat ((UInt8.ofNat (x.toNat / 256)).toNat * 256 +
        (UInt8.ofNat x.toNat).toNat)).toNat) = x := by
  have below := x.toNat_lt
  apply UInt32.toNat_inj.mp
  simp only [UInt32.toNat_ofNat', UInt16.toNat_ofNat', UInt8.toNat_ofNat']
  omega

theorem read8_cons (x : UInt8) (rest : List UInt8) : read8 (x :: rest) 0 = some x := rfl

theorem read32_bytes32 (x : UInt32) (rest : List UInt8) :
    read32 (bytes32 x ++ rest) 0 = some x := congrArg some (join32 x)

theorem read16Little_append (front rest : List UInt8) {offset : Nat}
    (behind : front.length ≤ offset) :
    read16Little (front ++ rest) offset = read16Little rest (offset - front.length) := by
  simp only [read16Little]
  rw [read8_append front rest behind, read8_append front rest (by omega),
    show offset + 1 - front.length = offset - front.length + 1 by omega]

section Behind

variable (front rest : List UInt8) {size : Nat} (offset : Nat)

theorem read8_behind (place : front.length = size) :
    read8 (front ++ rest) (size + offset) = read8 rest offset := by
  rw [read8_append front rest (by omega), place, Nat.add_sub_cancel_left]

theorem read16_behind (place : front.length = size) :
    read16 (front ++ rest) (size + offset) = read16 rest offset := by
  rw [read16_append front rest (by omega), place, Nat.add_sub_cancel_left]

theorem read16Little_behind (place : front.length = size) :
    read16Little (front ++ rest) (size + offset) = read16Little rest offset := by
  rw [read16Little_append front rest (by omega), place, Nat.add_sub_cancel_left]

theorem read32_behind (place : front.length = size) :
    read32 (front ++ rest) (size + offset) = read32 rest offset := by
  rw [read32_append front rest (by omega), place, Nat.add_sub_cancel_left]

end Behind

@[simp] theorem length_bytes16 (x : UInt16) : (bytes16 x).length = 2 := rfl

@[simp] theorem length_bytes16Little (x : UInt16) : (bytes16Little x).length = 2 := rfl

@[simp] theorem length_bytes32 (x : UInt32) : (bytes32 x).length = 4 := rfl

/-! ## Writing -/

theorem write_append (front old bytes rest : List UInt8) (offset : Nat)
    (place : front.length = offset) (size : old.length = bytes.length) :
    write (front ++ (old ++ rest)) offset bytes = some (front ++ (bytes ++ rest)) := by
  subst place
  have fits : front.length + bytes.length ≤ (front ++ (old ++ rest)).length := by
    simp only [List.length_append]
    omega
  rw [write, if_pos fits, List.take_left, ← size, ← List.append_assoc front old rest,
    ← List.length_append, List.drop_left]

theorem length_write {buffer bytes next : List UInt8} {offset : Nat}
    (written : write buffer offset bytes = some next) : next.length = buffer.length := by
  unfold write at written
  split_ifs at written with fits
  rw [← Option.some.inj written]
  simp only [List.length_append, List.length_take, List.length_drop]
  omega

theorem exists_write_iff (buffer : List UInt8) (offset : Nat) (bytes : List UInt8) :
    (∃ next, write buffer offset bytes = some next) ↔
      offset + bytes.length ≤ buffer.length := by
  unfold write
  split_ifs with fits
  · exact iff_of_true ⟨_, rfl⟩ fits
  · exact iff_of_false (by simp) fits

/-- What is read before the end of a front does not depend on what comes behind. -/
theorem Stable.front_eq {α : Type*} {read : List UInt8 → Option α} (stable : Stable read)
    {front : List UInt8} (inside : ∃ x, read front = some x) (rest rest' : List UInt8) :
    read (front ++ rest) = read (front ++ rest') := by
  obtain ⟨x, found⟩ := inside
  rw [stable front rest x found, stable front rest' x found]

/-- What is read behind a write is read behind the same write to a longer buffer. -/
theorem Stable.after_write {α : Type*} {read : List UInt8 → Option α} (stable : Stable read)
    (offset : Nat) (bytes : List UInt8) :
    Stable fun buffer => (write buffer offset bytes).bind read := by
  intro buffer behind x success
  obtain ⟨next, written, found⟩ := Option.bind_eq_some_iff.mp success
  have longer : write (buffer ++ behind) offset bytes = some (next ++ behind) := by
    unfold write at written ⊢
    split_ifs at written with fits
    have room : offset + bytes.length ≤ (buffer ++ behind).length := by
      rw [List.length_append]
      omega
    rw [if_pos room, ← Option.some.inj written, List.take_append_of_le_length (by omega),
      List.drop_append_of_le_length fits, List.append_assoc, List.append_assoc]
  dsimp only
  rw [longer, Option.bind_some]
  exact stable next behind x found

theorem Stable.before_write {α : Type*} {read : List UInt8 → Option α} (stable : Stable read)
    {buffer bytes next : List UInt8} {offset : Nat}
    (inside : ∃ x, read (buffer.take offset) = some x)
    (written : write buffer offset bytes = some next) : read next = read buffer := by
  unfold write at written
  split_ifs at written
  rw [← Option.some.inj written,
    stable.front_eq inside _ (buffer.drop offset), List.take_append_drop]

theorem read8_write {buffer next : List UInt8} {offset : Nat} {x : UInt8}
    (written : write buffer offset [x] = some next) : read8 next offset = some x := by
  unfold write at written
  split_ifs at written with fits
  have place : (buffer.take offset).length = offset :=
    List.length_take_of_le (Nat.le_of_succ_le fits)
  rw [← Option.some.inj written]
  exact read8_behind _ _ 0 place

theorem read16Little_write {buffer next : List UInt8} {offset : Nat} {x : UInt16}
    (written : write buffer offset (bytes16Little x) = some next) :
    read16Little next offset = some x := by
  unfold write at written
  split_ifs at written with fits
  have place : (buffer.take offset).length = offset := List.length_take_of_le (by omega)
  rw [← Option.some.inj written]
  exact (read16Little_behind _ _ 0 place).trans (congrArg some (join16 x))

theorem read8_behind_write {buffer bytes next : List UInt8} {offset place : Nat}
    (written : write buffer offset bytes = some next) (behind : offset + bytes.length ≤ place) :
    read8 next place = read8 buffer place := by
  unfold write at written
  split_ifs at written with fits
  have front : (buffer.take offset).length = offset := List.length_take_of_le (by omega)
  rw [← Option.some.inj written, read8_append _ _ (by omega), read8_append _ _ (by omega), read8,
    read8, List.getElem?_drop, front]
  congr 1
  omega

theorem read8_outside_write {buffer bytes next : List UInt8} {offset place : Nat}
    (written : write buffer offset bytes = some next)
    (outside : place < offset ∨ offset + bytes.length ≤ place) :
    read8 next place = read8 buffer place := by
  cases outside with
  | inl before =>
      unfold write at written
      split_ifs at written with fits
      have inside : place < (buffer.take offset).length := by
        rw [List.length_take]
        omega
      rw [← Option.some.inj written, read8, List.getElem?_append_left inside,
        List.getElem?_take_of_lt before, read8]
  | inr behind => exact read8_behind_write written behind

theorem read32_behind_write {buffer bytes next : List UInt8} {offset place : Nat}
    (written : write buffer offset bytes = some next) (behind : offset + bytes.length ≤ place) :
    read32 next place = read32 buffer place := by
  simp only [read32, read16]
  rw [read8_behind_write written behind, read8_behind_write written (by omega),
    read8_behind_write written (by omega), read8_behind_write written (by omega)]

/-! ## The bytes of a number that was read -/

theorem drop_of_read8 {buffer : List UInt8} {offset : Nat} {x : UInt8}
    (found : read8 buffer offset = some x) :
    buffer.drop offset = x :: buffer.drop (offset + 1) := by
  obtain ⟨inside, rfl⟩ := List.getElem?_eq_some_iff.mp found
  exact List.drop_eq_getElem_cons inside

theorem drop_of_read16Little {buffer : List UInt8} {offset : Nat} {x : UInt16}
    (found : read16Little buffer offset = some x) :
    ∃ low high : UInt8, buffer.drop offset = low :: high :: buffer.drop (offset + 2) ∧
      x.toNat = high.toNat * 256 + low.toNat := by
  obtain ⟨low, readLow, found⟩ := Option.bind_eq_some_iff.mp found
  obtain ⟨high, readHigh, found⟩ := Option.bind_eq_some_iff.mp found
  refine ⟨low, high, ?_, ?_⟩
  · rw [drop_of_read8 readLow, drop_of_read8 readHigh]
  · have lowSmall := low.toNat_lt
    have highSmall := high.toNat_lt
    rw [← Option.some.inj found, UInt16.toNat_ofNat']
    omega

theorem take_of_read32Little {buffer : List UInt8} {offset : Nat} {x : UInt32}
    (found : read32Little buffer offset = some x) :
    ∃ b0 b1 b2 b3 : UInt8, (buffer.drop offset).take 4 = [b0, b1, b2, b3] ∧
      x.toNat = (b3.toNat * 256 + b2.toNat) * 65536 + (b1.toNat * 256 + b0.toNat) := by
  obtain ⟨low, readLow, found⟩ := Option.bind_eq_some_iff.mp found
  obtain ⟨high, readHigh, found⟩ := Option.bind_eq_some_iff.mp found
  obtain ⟨b0, b1, lowBytes, lowIs⟩ := drop_of_read16Little readLow
  obtain ⟨b2, b3, highBytes, highIs⟩ := drop_of_read16Little readHigh
  refine ⟨b0, b1, b2, b3, ?_, ?_⟩
  · rw [lowBytes, highBytes]
    rfl
  · have lowSmall := low.toNat_lt
    have highSmall := high.toNat_lt
    rw [← Option.some.inj found, UInt32.toNat_ofNat', ← lowIs, ← highIs]
    omega

theorem exists_cut (buffer : List UInt8) (size : Nat) (fits : size ≤ buffer.length) :
    ∃ front rest, buffer = front ++ rest ∧ front.length = size :=
  ⟨buffer.take size, buffer.drop size, (List.take_append_drop size buffer).symm,
    List.length_take_of_le fits⟩

end Lib.Bytes
