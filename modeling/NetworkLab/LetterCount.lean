import Mathlib.Algebra.Group.Int.Defs
import Mathlib.Algebra.Group.Nat.Defs
import Mathlib.Data.List.Basic

/-!
# The letter count of a master and two workers

`master.c` and `worker.c` of `03-socket`.  The master counts the bytes of the file and
sends each worker one half as a range; a worker counts the letters of its range and sends
26 counters back.  A file is the list of its bytes, a stream the bytes that are still to be
read, and `none` stands for an `int` that overflows or an index outside the counters.
-/
set_option autoImplicit false

namespace NetworkLab.LetterCount

abbrev Counters := Vector Int 26

def EOF : Int := -1

/-- The byte as an `unsigned char`, or `EOF`; what is left is the tail. -/
def fgetc (stream : List UInt8) : Int :=
  match stream with
  | [] => EOF
  | byte :: _ => byte.toNat

/-- An `int` in a `char`, which is signed. -/
def toChar (c : Int) : Int := c.bmod 256

def incr (n : Int) : Option Int := if n + 1 < 2 ^ 31 then some (n + 1) else none

def addInt (a b : Int) : Option Int :=
  if -2 ^ 31 ≤ a + b ∧ a + b < 2 ^ 31 then some (a + b) else none

/-- `++((int *)send_msg)[index]`. -/
def bump (counters : Counters) (index : Int) : Option Counters :=
  if inside : 0 ≤ index ∧ index.toNat < 26 then do
    let count ← incr counters[index.toNat]
    some (counters.set index.toNat count)
  else none

def countChar (ac : Int) (counters : Counters) : Option Counters := do
  let counters ← if 97 ≤ ac ∧ ac ≤ 122 then bump counters (ac - 97) else some counters
  if 65 ≤ ac ∧ ac ≤ 90 then bump counters (ac - 65) else some counters

/-- The counting loop with `remaining` turns left of `end - begin`. -/
def countLoop : Nat → List UInt8 → Counters → Option Counters
  | 0, _, counters => some counters
  | remaining + 1, stream, counters =>
    let ac := toChar (fgetc stream)
    if ac = EOF then some counters
    else do
      let counters ← countChar ac counters
      countLoop remaining stream.tail counters

def worker (content : List UInt8) (rangeBegin rangeEnd : Int) : Option Counters :=
  countLoop (rangeEnd - rangeBegin).toNat (content.drop rangeBegin.toNat) (Vector.replicate 26 0)

/-- The loop of the master, whose `fgetc` is compared with `EOF` as an `int`. -/
def countBytes : List UInt8 → Int → Option Int
  | [], numOfChar => some numOfChar
  | _ :: rest, numOfChar => do
    let numOfChar ← incr numOfChar
    countBytes rest numOfChar

def master (content : List UInt8) : Option (Counters × Counters) := do
  let numOfChar ← countBytes content 0
  let middle := numOfChar.tdiv 2
  let recvMsg1 ← worker content 0 middle
  let recvMsg2 ← worker content middle numOfChar
  some (recvMsg1, recvMsg2)

def printed (content : List UInt8) (letter : Fin 26) : Option Int := do
  let received ← master content
  addInt received.1[letter] received.2[letter]

section Specification

def isLetter (letter : Fin 26) (byte : UInt8) : Bool :=
  byte.toNat = 97 + letter ∨ byte.toNat = 65 + letter

def occurrences (letter : Fin 26) (bytes : List UInt8) : Nat := bytes.countP (isLetter letter)

def firstHalf (content : List UInt8) : List UInt8 := content.take (content.length / 2)

def secondHalf (content : List UInt8) : List UInt8 := content.drop (content.length / 2)

/-- Behind a byte that a `char` turns into `EOF` there is no letter. -/
def NoLetterBehind (half : List UInt8) : Prop :=
  ∀ before behind, half = before ++ 255 :: behind →
    ∀ byte ∈ behind, ∀ letter, isLetter letter byte = false

/-- What a worker sees of its half. -/
def seen (half : List UInt8) : List UInt8 := half.takeWhile (· ≠ 255)

end Specification

theorem toChar_small (byte : UInt8) (small : byte.toNat < 128) :
    toChar byte.toNat = byte.toNat := by
  unfold toChar
  rw [Int.bmod_def]
  omega

theorem toChar_large (byte : UInt8) (large : 128 ≤ byte.toNat) :
    toChar byte.toNat = byte.toNat - 256 := by
  have bound := byte.toNat_lt
  unfold toChar
  rw [Int.bmod_def]
  omega

theorem toChar_eq_EOF_iff (byte : UInt8) : toChar byte.toNat = EOF ↔ byte = 255 := by
  have bound := byte.toNat_lt
  have value : byte = 255 ↔ byte.toNat = 255 := UInt8.toNat_inj.symm
  rw [value]
  unfold EOF
  by_cases small : byte.toNat < 128
  · rw [toChar_small byte small]
    omega
  · rw [toChar_large byte (by omega)]
    omega

section Counting

variable {counters : Counters}

theorem bump_letter (index : Int) (letter : Fin 26) (here : index = letter.val)
    (room : counters[letter] + 1 < 2 ^ 31) :
    bump counters index = some (counters.set letter (counters[letter] + 1)) := by
  subst here
  have inside : 0 ≤ (letter.val : Int) ∧ (letter.val : Int).toNat < 26 :=
    ⟨Int.natCast_nonneg _, letter.isLt⟩
  unfold bump
  rw [dif_pos inside]
  have counted : incr counters[letter] = some (counters[letter] + 1) := by
    unfold incr
    rw [if_pos room]
  exact congrArg (fun count => count.bind fun n => some (counters.set letter n)) counted

theorem isLetter_iff (letter : Fin 26) (byte : UInt8) :
    isLetter letter byte = true ↔ byte.toNat = 97 + letter ∨ byte.toNat = 65 + letter := by
  unfold isLetter
  exact decide_eq_true_iff

theorem isLetter_unique {letter other : Fin 26} {byte : UInt8}
    (first : isLetter letter byte = true) (second : isLetter other byte = true) :
    letter = other := by
  rw [isLetter_iff] at first second
  apply Fin.ext
  omega

theorem exists_isLetter {byte : UInt8}
    (range : 97 ≤ byte.toNat ∧ byte.toNat ≤ 122 ∨ 65 ≤ byte.toNat ∧ byte.toNat ≤ 90) :
    ∃ letter, isLetter letter byte = true := by
  cases range with
  | inl lower =>
    refine ⟨⟨byte.toNat - 97, by omega⟩, (isLetter_iff _ _).mpr (Or.inl ?_)⟩
    change byte.toNat = 97 + (byte.toNat - 97)
    omega
  | inr upper =>
    refine ⟨⟨byte.toNat - 65, by omega⟩, (isLetter_iff _ _).mpr (Or.inr ?_)⟩
    change byte.toNat = 65 + (byte.toNat - 65)
    omega

theorem countChar_letter (letter : Fin 26) (byte : UInt8) (found : isLetter letter byte = true)
    (room : counters[letter] + 1 < 2 ^ 31) :
    countChar (toChar byte.toNat) counters =
      some (counters.set letter (counters[letter] + 1)) := by
  have index := letter.isLt
  rw [isLetter_iff] at found
  rw [toChar_small byte (by omega)]
  unfold countChar
  cases found with
  | inl lower =>
    have upper : ¬ (65 ≤ (byte.toNat : Int) ∧ (byte.toNat : Int) ≤ 90) := by omega
    rw [if_pos (by omega), bump_letter _ letter (by omega) room]
    exact if_neg upper
  | inr upper =>
    have lower : ¬ (97 ≤ (byte.toNat : Int) ∧ (byte.toNat : Int) ≤ 122) := by omega
    rw [if_neg lower, ← bump_letter (byte.toNat - 65) letter (by omega) room]
    exact if_pos (by omega)

theorem countChar_other (byte : UInt8) (other : ∀ letter, isLetter letter byte = false) :
    countChar (toChar byte.toNat) counters = some counters := by
  have outside : ¬ (97 ≤ byte.toNat ∧ byte.toNat ≤ 122 ∨ 65 ≤ byte.toNat ∧ byte.toNat ≤ 90) := by
    intro range
    cases exists_isLetter range with
    | intro letter found =>
      rw [other letter] at found
      contradiction
  have value : toChar byte.toNat = byte.toNat ∨ toChar byte.toNat < 0 := by
    have bound := byte.toNat_lt
    by_cases small : byte.toNat < 128
    · exact Or.inl (toChar_small byte small)
    · rw [toChar_large byte (by omega)]
      omega
  generalize toChar byte.toNat = ac at value ⊢
  have lower : ¬ (97 ≤ ac ∧ ac ≤ 122) := by omega
  have upper : ¬ (65 ≤ ac ∧ ac ≤ 90) := by omega
  unfold countChar
  rw [if_neg lower]
  exact if_neg upper

theorem countChar_counts (byte : UInt8) (room : ∀ letter : Fin 26, counters[letter] + 1 < 2 ^ 31) :
    ∃ result, countChar (toChar byte.toNat) counters = some result ∧
      ∀ letter : Fin 26, result[letter] = counters[letter] + occurrences letter [byte] := by
  by_cases some_letter : ∃ letter, isLetter letter byte = true
  · cases some_letter with
    | intro letter found =>
      refine ⟨_, countChar_letter letter byte found (room letter), ?_⟩
      intro other
      unfold occurrences
      by_cases same : letter = other
      · subst same
        rw [List.countP_singleton, if_pos found]
        simp
      · have absent : ¬ isLetter other byte = true := fun second =>
          same (isLetter_unique found second)
        have different : letter.val ≠ other.val := fun equal => same (Fin.ext equal)
        rw [List.countP_singleton, if_neg absent]
        simp [different]
  · have absent : ∀ letter, isLetter letter byte = false := by
      intro letter
      cases found : isLetter letter byte with
      | false => rfl
      | true => exact absurd ⟨letter, found⟩ some_letter
    refine ⟨counters, countChar_other byte absent, ?_⟩
    intro letter
    unfold occurrences
    rw [List.countP_singleton, absent letter]
    simp

/-- The counters behind the loop: what was seen of the bytes in the range. -/
theorem countLoop_counts (remaining : Nat) (stream : List UInt8)
    (room : ∀ letter : Fin 26, counters[letter] + remaining < 2 ^ 31) :
    ∃ result, countLoop remaining stream counters = some result ∧
      ∀ letter : Fin 26,
        result[letter] = counters[letter] + occurrences letter (seen (stream.take remaining)) := by
  induction remaining generalizing stream counters with
  | zero => exact ⟨counters, rfl, fun letter => (Int.add_zero _).symm⟩
  | succ remaining ih =>
    cases stream with
    | nil => exact ⟨counters, rfl, fun letter => (Int.add_zero _).symm⟩
    | cons byte rest =>
      unfold countLoop
      by_cases stops : toChar (fgetc (byte :: rest)) = EOF
      · have last : byte = 255 := (toChar_eq_EOF_iff byte).mp stops
        refine ⟨counters, if_pos stops, ?_⟩
        intro letter
        rw [List.take_succ_cons, seen, List.takeWhile_cons, last]
        exact (Int.add_zero _).symm
      · have goesOn : byte ≠ 255 := fun last => stops ((toChar_eq_EOF_iff byte).mpr last)
        have below : ∀ letter : Fin 26, counters[letter] + 1 < 2 ^ 31 := by
          intro letter
          have := room letter
          omega
        cases countChar_counts byte below with
        | intro next step =>
          have counted : ∀ letter : Fin 26, next[letter] + remaining < 2 ^ 31 := by
            intro letter
            have one : occurrences letter [byte] ≤ 1 := List.countP_le_length
            have := room letter
            rw [step.2 letter]
            omega
          cases ih rest counted with
          | intro result run =>
            refine ⟨result, ?_, ?_⟩
            · rw [if_neg stops]
              change (countChar (toChar byte.toNat) counters).bind (countLoop remaining rest) = _
              rw [step.1, Option.bind_some, run.1]
            · intro letter
              have split : occurrences letter (seen (byte :: rest.take remaining)) =
                  occurrences letter [byte] + occurrences letter (seen (rest.take remaining)) := by
                unfold seen occurrences
                rw [List.takeWhile_cons, if_pos (decide_eq_true goesOn), ← List.countP_append]
                rfl
              rw [run.2 letter, step.2 letter, List.take_succ_cons, split]
              omega

end Counting

theorem countBytes_eq (content : List UInt8) (numOfChar : Int)
    (room : numOfChar + content.length < 2 ^ 31) :
    countBytes content numOfChar = some (numOfChar + content.length) := by
  induction content generalizing numOfChar with
  | nil => exact congrArg some (Int.add_zero _).symm
  | cons byte rest ih =>
    rw [List.length_cons] at room
    have counted : incr numOfChar = some (numOfChar + 1) := by
      unfold incr
      rw [if_pos (by omega)]
    unfold countBytes
    rw [counted, Option.bind_eq_bind, Option.bind_some, ih _ (by omega), List.length_cons]
    apply congrArg some
    omega

theorem worker_counts (content : List UInt8) (first count : Nat) (short : count < 2 ^ 31) :
    ∃ counters, worker content first (first + count : Nat) = some counters ∧
      ∀ letter : Fin 26,
        counters[letter] = occurrences letter (seen ((content.drop first).take count)) := by
  have remaining : (((first + count : Nat) : Int) - first).toNat = count := by omega
  have room : ∀ letter : Fin 26, (Vector.replicate 26 (0 : Int))[letter] + count < 2 ^ 31 := by
    intro letter
    have start : (Vector.replicate 26 (0 : Int))[letter] = 0 := Vector.getElem_replicate _
    omega
  cases countLoop_counts count (content.drop first) room with
  | intro counters run =>
    refine ⟨counters, ?_, ?_⟩
    · unfold worker
      rw [remaining, Int.toNat_natCast, run.1]
    · intro letter
      have start : (Vector.replicate 26 (0 : Int))[letter] = 0 := Vector.getElem_replicate _
      rw [run.2 letter, start, Int.zero_add]

theorem occurrences_eq (letter : Fin 26) (content : List UInt8) :
    occurrences letter content =
      occurrences letter (firstHalf content) + occurrences letter (secondHalf content) := by
  unfold occurrences firstHalf secondHalf
  rw [← List.countP_append, List.take_append_drop]

theorem occurrences_seen_le (letter : Fin 26) (half : List UInt8) :
    occurrences letter (seen half) ≤ occurrences letter half :=
  (List.takeWhile_sublist _).countP_le

theorem occurrences_halves_le (letter : Fin 26) (content : List UInt8) :
    occurrences letter (seen (firstHalf content)) + occurrences letter (seen (secondHalf content)) ≤
      content.length := by
  have first := occurrences_seen_le letter (firstHalf content)
  have second := occurrences_seen_le letter (secondHalf content)
  have whole : occurrences letter content ≤ content.length := List.countP_le_length
  rw [occurrences_eq] at whole
  omega

theorem mem_dropWhile_of_behind {byte : UInt8} {behind : List UInt8} (before : List UInt8)
    (member : byte ∈ behind) : byte ∈ (before ++ 255 :: behind).dropWhile (· ≠ 255) := by
  induction before with
  | nil => exact List.mem_cons_of_mem _ member
  | cons first rest ih =>
    rw [List.cons_append, List.dropWhile_cons]
    by_cases goesOn : first ≠ 255
    · rw [if_pos (decide_eq_true goesOn)]
      exact ih
    · rw [if_neg (by simpa using goesOn)]
      exact List.mem_cons_of_mem _ (List.mem_append_right _ (List.mem_cons_of_mem _ member))

/-- A worker sees all letters of its half exactly when none stands behind the byte at which
it stops. -/
theorem seen_all_iff (half : List UInt8) :
    (∀ letter, occurrences letter (seen half) = occurrences letter half) ↔
      NoLetterBehind half := by
  have split (letter : Fin 26) : occurrences letter half =
      occurrences letter (seen half) + occurrences letter (half.dropWhile (· ≠ 255)) := by
    unfold occurrences seen
    rw [← List.countP_append, List.takeWhile_append_dropWhile]
  constructor
  · intro all before behind place byte member letter
    have unseen : occurrences letter (half.dropWhile (· ≠ 255)) = 0 := by
      have := all letter
      have := split letter
      omega
    have inside : byte ∈ half.dropWhile (· ≠ 255) := by
      rw [place]
      exact mem_dropWhile_of_behind before member
    have absent := List.countP_eq_zero.mp unseen byte inside
    exact Bool.eq_false_iff.mpr absent
  · intro noneBehind letter
    have unseen : occurrences letter (half.dropWhile (· ≠ 255)) = 0 := by
      cases left : half.dropWhile (· ≠ 255) with
      | nil => rfl
      | cons byte behind =>
        have stops : byte = 255 := by
          have first := List.head?_dropWhile_not (· ≠ 255) half
          rw [left] at first
          simpa using first
        have place : half = seen half ++ 255 :: behind := by
          rw [← stops, ← left]
          exact List.takeWhile_append_dropWhile.symm
        apply List.countP_eq_zero.mpr
        intro other member
        cases List.mem_cons.mp member with
        | inl equal =>
          rw [equal, stops, isLetter_iff]
          have index := letter.isLt
          change ¬ (255 = 97 + letter.val ∨ 255 = 65 + letter.val)
          omega
        | inr later =>
          rw [noneBehind _ _ place other later letter]
          exact Bool.false_ne_true
    rw [split letter, unseen, Nat.add_zero]

/-- The printed sum is what both workers saw, in every file of less than `2 ^ 31` bytes. -/
theorem printed_eq (content : List UInt8) (short : content.length < 2 ^ 31) (letter : Fin 26) :
    printed content letter =
      some ((occurrences letter (seen (firstHalf content)) : Int) +
        occurrences letter (seen (secondHalf content))) := by
  have middle : (content.length : Int).tdiv 2 = (content.length / 2 : Nat) := rfl
  have first := worker_counts content 0 (content.length / 2) (by omega)
  have second := worker_counts content (content.length / 2) (content.length - content.length / 2)
    (by omega)
  rw [Nat.zero_add] at first
  rw [Nat.add_sub_cancel' (Nat.div_le_self _ _)] at second
  cases first with
  | intro counters1 first =>
    cases second with
    | intro counters2 second =>
      have sent : master content = some (counters1, counters2) := by
        unfold master
        rw [countBytes_eq content 0 (by omega), Int.zero_add, Option.bind_eq_bind,
          Option.bind_some, middle]
        change (worker content (0 : Nat) _).bind _ = _
        rw [first.1, Option.bind_some]
        change (worker content _ _).bind _ = _
        rw [second.1, Option.bind_some]
      have one := first.2 letter
      have two := second.2 letter
      rw [List.drop_zero] at one
      rw [List.take_of_length_le (Nat.le_of_eq List.length_drop)] at two
      unfold printed
      rw [sent, Option.bind_eq_bind, Option.bind_some]
      change addInt counters1[letter] counters2[letter] = _
      rw [one, two]
      have range := occurrences_halves_le letter content
      unfold firstHalf secondHalf at range
      unfold addInt
      exact if_pos (by omega)

/-- The sums are those of a sequential count exactly when in neither half a letter stands
behind a byte 255. -/
theorem printed_occurrences_iff (content : List UInt8) (short : content.length < 2 ^ 31) :
    (∀ letter, printed content letter = some (occurrences letter content : Int)) ↔
      NoLetterBehind (firstHalf content) ∧ NoLetterBehind (secondHalf content) := by
  rw [← seen_all_iff, ← seen_all_iff]
  constructor
  · intro sums
    constructor
    · intro letter
      have sum := sums letter
      rw [printed_eq content short, Option.some.injEq, occurrences_eq letter content] at sum
      have first := occurrences_seen_le letter (firstHalf content)
      have second := occurrences_seen_le letter (secondHalf content)
      omega
    · intro letter
      have sum := sums letter
      rw [printed_eq content short, Option.some.injEq, occurrences_eq letter content] at sum
      have first := occurrences_seen_le letter (firstHalf content)
      have second := occurrences_seen_le letter (secondHalf content)
      omega
  · intro halves letter
    rw [printed_eq content short, halves.1 letter, halves.2 letter, ← Int.natCast_add,
      ← occurrences_eq]

/-- The theorem at a file in which a letter stands in each half, and the byte 255 behind it. -/
theorem printed_occurrences_of_text :
    ([97, 255, 66, 255] : List UInt8).length < 2 ^ 31 ∧
      ((∀ letter, printed [97, 255, 66, 255] letter =
          some (occurrences letter [97, 255, 66, 255] : Int)) ↔
        NoLetterBehind (firstHalf [97, 255, 66, 255]) ∧
          NoLetterBehind (secondHalf [97, 255, 66, 255])) :=
  ⟨by decide, printed_occurrences_iff [97, 255, 66, 255] (by decide)⟩

/-- The letter behind a byte 255 is not counted. -/
theorem letter_behind_lost :
    ¬ (∀ content : List UInt8, content.length < 2 ^ 31 →
      ∀ letter, printed content letter = some (occurrences letter content : Int)) := by
  intro sums
  have sum := sums [255, 97, 98, 99] (by decide) 0
  revert sum
  decide

end NetworkLab.LetterCount
