import Mathlib.Algebra.Order.Ring.Nat
import Mathlib.Data.List.TakeWhile
import Mathlib.Logic.Function.Basic

/-!
# Addresses in dotted-decimal form

`StrToIp` marks the dots in an array of four and cuts the string between two marks.  The
last cut reads a mark behind the array: which digits of the last octet it takes depends on
the byte that is found there.
-/
set_option autoImplicit false

namespace NetworkLab.Lookup.PTree

/-- The bytes from `loc` on, of which the first four are the array, and the indices that the
call has used so far. -/
structure Loc where
  cell : Nat → UInt8
  used : List Nat

/-- A call that an exception can end. -/
abbrev Call := OptionT (StateM Loc)

def readLoc (k : Nat) : Call UInt8 := do
  modify fun loc => { loc with used := loc.used ++ [k] }
  return (← get).cell k

def writeLoc (k : Nat) (value : UInt8) : Call Unit :=
  modify fun loc => { cell := Function.update loc.cell k value, used := loc.used ++ [k] }

/-- `while (*tmp)`; `offset` is `tmp - s`. -/
def markDots : List Char → Nat → Nat → Call Unit
  | [], _, _ => pure ()
  | c :: rest, offset, num =>
    if c = '.' then do
      writeLoc (num + 1) (UInt8.ofNat offset)
      markDots rest (offset + 1) (num + 1)
    else markDots rest (offset + 1) num

/-- An `int` as a `size_t`. -/
def sizeT (n : Int) : Nat := (n % 2 ^ 64).toNat

/-- `std::string::substr`, which throws when it starts behind the end. -/
def substr (s : List Char) (pos len : Nat) : Call (List Char) :=
  if pos ≤ s.length then pure ((s.drop pos).take len) else failure

def isspace (c : Char) : Bool := c = ' ' || (9 ≤ c.toNat && c.toNat ≤ 13)

def leadingNumber (s : List Char) : Int := Nat.ofDigitChars 10 (s.takeWhile Char.isDigit) 0

def atoi (s : List Char) : Int :=
  match s.dropWhile isspace with
  | '-' :: rest => -leadingNumber rest
  | '+' :: rest => leadingNumber rest
  | rest => leadingNumber rest

def octetAt (s : List Char) (i : Nat) : Call UInt8 := do
  let start ← readLoc i
  let stop ← readLoc (i + 1)
  let part ← substr s (start.toNat + 1) (sizeT (stop.toNat - start.toNat - 1))
  return UInt8.ofInt (atoi part)

def joinOctets (ip4 : List UInt8) : UInt32 :=
  (ip4.foldr (fun octet (sum : UInt32 × UInt64) =>
    ((sum.1.toUInt64 + octet.toUInt64 * sum.2).toUInt32, sum.2 * 256)) (0, 1)).1

def strToIp (s : List Char) : Call UInt32 := do
  writeLoc 0 0
  markDots s 0 0
  let stop ← readLoc 1
  let first ← substr s 0 stop.toNat
  let others ← [1, 2, 3].mapM (octetAt s)
  return joinOctets (UInt8.ofInt (atoi first) :: others)

def octets (ip : UInt32) : List UInt8 :=
  let ip1 := (ip / (256 * 256 * 256)).toUInt8
  let ip := ip % (256 * 256 * 256)
  let ip2 := (ip / (256 * 256)).toUInt8
  let ip := ip % (256 * 256)
  let ip3 := (ip / 256).toUInt8
  let ip4 := (ip % 256).toUInt8
  [ip1, ip2, ip3, ip4]

def decimal (n : UInt8) : List Char := Nat.toDigits 10 n.toNat

def dotted (ip : UInt32) : List Char := ['.'].intercalate ((octets ip).map decimal)

section Numbers

theorem isDigit_decimal {n : UInt8} {c : Char} (member : c ∈ decimal n) : c.isDigit :=
  Nat.isDigit_of_mem_toDigits (by decide) (by decide) member

theorem length_decimal_le (n : UInt8) : (decimal n).length ≤ 3 := by
  have small := n.toNat_lt
  exact (Nat.length_toDigits_le_iff (by decide) (by decide)).mpr (by omega)

theorem not_isspace_of_isDigit {c : Char} (digit : c.isDigit) : isspace c = false := by
  have range : 48 ≤ c.toNat ∧ c.toNat ≤ 57 := Char.isDigit_iff_toNat.mp digit
  have other : c ≠ ' ' := fun same => by
    rw [same] at digit
    exact absurd digit (by decide)
  rw [isspace, decide_eq_false other, Bool.false_or, Bool.and_eq_false_iff]
  exact .inr (decide_eq_false (by omega))

theorem atoi_digits {s : List Char} (digits : ∀ c ∈ s, c.isDigit) :
    atoi s = Nat.ofDigitChars 10 s 0 := by
  have whole : leadingNumber s = Nat.ofDigitChars 10 s 0 := by
    rw [leadingNumber, List.takeWhile_eq_self_iff.mpr digits]
  cases s with
  | nil => exact whole
  | cons c rest =>
      have digit := digits c (by simp)
      have noSpace : (c :: rest).dropWhile isspace = c :: rest := by
        simp [not_isspace_of_isDigit digit]
      unfold atoi
      rw [noSpace]
      split
      · next isMinus =>
          rw [(List.cons.inj isMinus).1] at digit
          exact absurd digit (by decide)
      · next isPlus =>
          rw [(List.cons.inj isPlus).1] at digit
          exact absurd digit (by decide)
      · exact whole

theorem toNat_ofInt (n : Nat) : (UInt8.ofInt n).toNat = n % 256 := by
  rw [UInt8.ofInt, UInt8.toNat_ofNat']
  omega

theorem atoi_decimal (n : UInt8) : UInt8.ofInt (atoi (decimal n)) = n := by
  rw [atoi_digits fun c => isDigit_decimal, decimal, Nat.ofDigitChars_ten_toDigits,
    ← UInt8.toNat_inj, toNat_ofInt]
  exact Nat.mod_eq_of_lt n.toNat_lt

/-- A part of the digits is the whole number only if that is zero. -/
theorem atoi_take_decimal {n : UInt8} {k : Nat} (short : k < (decimal n).length) :
    UInt8.ofInt (atoi ((decimal n).take k)) = n ↔ n = 0 := by
  have split : Nat.ofDigitChars 10 (decimal n) 0 =
      10 ^ ((decimal n).drop k).length * Nat.ofDigitChars 10 ((decimal n).take k) 0 +
        Nat.ofDigitChars 10 ((decimal n).drop k) 0 := by
    rw [← Nat.ofDigitChars_eq_ofDigitChars_zero, ← Nat.ofDigitChars_append, List.take_append_drop]
  have whole : Nat.ofDigitChars 10 (decimal n) 0 = n.toNat := Nat.ofDigitChars_ten_toDigits
  have places : 10 ≤ 10 ^ ((decimal n).drop k).length := by
    apply Nat.le_self_pow
    rw [List.length_drop]
    omega
  rw [atoi_digits fun c member => isDigit_decimal (List.mem_of_mem_take member),
    ← UInt8.toNat_inj, ← UInt8.toNat_inj, toNat_ofInt]
  generalize Nat.ofDigitChars 10 ((decimal n).take k) 0 = value at split ⊢
  generalize 10 ^ ((decimal n).drop k).length = scale at split places
  rw [whole] at split
  have scaled : 10 * value ≤ scale * value := Nat.mul_le_mul_right value places
  have small := n.toNat_lt
  have zero : (0 : UInt8).toNat = 0 := rfl
  constructor
  · intro same
    omega
  · intro isZero
    omega

theorem toNat_joinOctets (a b c d : UInt8) :
    (joinOctets [a, b, c, d]).toNat =
      a.toNat * 2 ^ 24 + b.toNat * 2 ^ 16 + c.toNat * 2 ^ 8 + d.toNat := by
  have := a.toNat_lt
  have := b.toNat_lt
  have := c.toNat_lt
  have := d.toNat_lt
  simp [joinOctets]
  omega

theorem joinOctets_octets (ip : UInt32) : joinOctets (octets ip) = ip := by
  have := ip.toNat_lt
  rw [octets, ← UInt32.toNat_inj, toNat_joinOctets]
  simp
  omega

theorem joinOctets_last (a b c : UInt8) {d e : UInt8} :
    joinOctets [a, b, c, d] = joinOctets [a, b, c, e] ↔ d = e := by
  rw [← UInt32.toNat_inj, ← UInt8.toNat_inj, toNat_joinOctets, toNat_joinOctets]
  omega

end Numbers

section Calls

variable {α β : Type}

/-- The result, if there is one, and what is left of `loc`. -/
def Call.from (call : Call α) (loc : Loc) : Option α × Loc := call.run.run loc

@[simp] theorem from_pure (a : α) (loc : Loc) : Call.from (pure a) loc = (some a, loc) := rfl

theorem from_bind (call : Call α) (next : α → Call β) (loc : Loc) :
    Call.from (call >>= next) loc =
      match call.from loc with
      | (some a, after) => (next a).from after
      | (none, after) => (none, after) := by
  rw [Call.from, OptionT.run_bind, Option.elimM, StateT.run_bind, Call.from]
  cases ended : call.run.run loc with
  | mk result after => cases result <;> rfl

@[simp] theorem from_readLoc (k : Nat) (loc : Loc) :
    (readLoc k).from loc = (some (loc.cell k), { loc with used := loc.used ++ [k] }) := rfl

@[simp] theorem from_writeLoc (k : Nat) (value : UInt8) (loc : Loc) :
    (writeLoc k value).from loc =
      (some (), { cell := Function.update loc.cell k value, used := loc.used ++ [k] }) := rfl

end Calls

section Dots

variable {part : List Char} (rest : List Char) (offset num : Nat)

theorem markDots_digits (digits : ∀ c ∈ part, c.isDigit) :
    markDots (part ++ rest) offset num = markDots rest (offset + part.length) num := by
  induction part generalizing offset with
  | nil => rfl
  | cons c part ih =>
      have noDot : c ≠ '.' := fun same => by
        have digit := digits c (by simp)
        rw [same] at digit
        exact absurd digit (by decide)
      rw [List.cons_append, markDots, if_neg noDot, ih _ fun c member => digits c (by simp [member]),
        List.length_cons]
      congr 1
      omega

theorem markDots_dot : markDots ('.' :: rest) offset num =
    writeLoc (num + 1) (UInt8.ofNat offset) >>= fun _ => markDots rest (offset + 1) (num + 1) := by
  rw [markDots, if_pos rfl]

end Dots

section Text

variable (a b c d : UInt8)

def text : List Char :=
  decimal a ++ '.' :: (decimal b ++ '.' :: (decimal c ++ '.' :: decimal d))

theorem dotted_eq_text (ip : UInt32) : ∃ a b c d, octets ip = [a, b, c, d] ∧
    dotted ip = text a b c d := by
  refine ⟨_, _, _, _, rfl, ?_⟩
  simp [dotted, octets, text, List.intercalate]

def secondDot : Nat := (decimal a).length + 1 + (decimal b).length

def thirdDot : Nat := secondDot a b + 1 + (decimal c).length

theorem thirdDot_lt : thirdDot a b c < 12 := by
  have := length_decimal_le a
  have := length_decimal_le b
  have := length_decimal_le c
  unfold thirdDot secondDot
  omega

theorem length_text : (text a b c d).length = thirdDot a b c + 1 + (decimal d).length := by
  simp [text, thirdDot, secondDot]
  omega

def marked (loc : Loc) : Loc where
  cell := Function.update (Function.update (Function.update loc.cell
    1 (UInt8.ofNat (decimal a).length)) 2 (UInt8.ofNat (secondDot a b)))
    3 (UInt8.ofNat (thirdDot a b c))
  used := loc.used ++ [1, 2, 3]

theorem from_markDots (loc : Loc) :
    (markDots (text a b c d) 0 0).from loc = (some (), marked a b c loc) := by
  have plain : markDots (decimal d) (thirdDot a b c + 1) 3 = pure () := by
    rw [← List.append_nil (decimal d), markDots_digits _ _ _ fun c => isDigit_decimal]
    rfl
  simp only [text, from_bind, from_writeLoc, markDots_digits _ _ _ fun c => isDigit_decimal,
    markDots_dot, Nat.zero_add, Nat.reduceAdd]
  have second : (decimal a).length + 1 + (decimal b).length = secondDot a b := rfl
  have third : secondDot a b + 1 + (decimal c).length = thirdDot a b c := rfl
  rw [second, third, plain, from_pure]
  simp [marked]

theorem mark_toNat {n : Nat} (small : n < 12) : (UInt8.ofNat n).toNat = n :=
  UInt8.toNat_ofNat_of_lt' (by change n < 256; omega)

theorem from_substr_zero (s : List Char) (n : Nat) (loc : Loc) :
    (substr s 0 n).from loc = (some (s.take n), loc) := by
  rw [substr, if_pos (Nat.zero_le _), from_pure, List.drop_zero]

theorem from_octetAt {s before after : List Char} (cut : s = before ++ '.' :: after) {i : Nat}
    {loc : Loc} (start : (loc.cell i).toNat = before.length) :
    (octetAt s i).from loc =
      (some (UInt8.ofInt (atoi (after.take
        (sizeT ((loc.cell (i + 1)).toNat - before.length - 1))))),
        { loc with used := loc.used ++ [i, i + 1] }) := by
  have inside : before.length + 1 ≤ s.length := by simp [cut]
  have rest : s.drop (before.length + 1) = after := by simp [cut]
  simp only [octetAt, from_bind, from_readLoc, start, substr, if_pos inside, from_pure, rest]
  simp

theorem from_octetAt_between {s before after : List Char} (octet : UInt8)
    (cut : s = before ++ '.' :: (decimal octet ++ after)) {i : Nat} {loc : Loc}
    (start : (loc.cell i).toNat = before.length)
    (stop : (loc.cell (i + 1)).toNat = before.length + 1 + (decimal octet).length) :
    (octetAt s i).from loc = (some octet, { loc with used := loc.used ++ [i, i + 1] }) := by
  have short := length_decimal_le octet
  have length : sizeT ((loc.cell (i + 1)).toNat - before.length - 1) = (decimal octet).length := by
    rw [stop, sizeT]
    omega
  rw [from_octetAt cut start, length, List.take_left, atoi_decimal]

/-- How many characters of the last octet the last cut takes, by the byte behind the array. -/
def lastCut (loc : Loc) : Nat := sizeT ((loc.cell 4).toNat - thirdDot a b c - 1)

structure Marks (loc : Loc) : Prop where
  one : (loc.cell 1).toNat = (decimal a).length
  two : (loc.cell 2).toNat = secondDot a b
  three : (loc.cell 3).toNat = thirdDot a b c

theorem marks_marked (loc : Loc) : Marks a b c (marked a b c loc) where
  one := by
    have := length_decimal_le a
    exact mark_toNat (by omega)
  two := by
    have := thirdDot_lt a b c
    exact mark_toNat (by unfold thirdDot at this; omega)
  three := mark_toNat (thirdDot_lt a b c)

variable {a b c} {loc : Loc}

theorem Marks.second (marks : Marks a b c loc) : (octetAt (text a b c d) 1).from loc =
    (some b, { loc with used := loc.used ++ [1, 2] }) :=
  from_octetAt_between b rfl marks.one marks.two

theorem Marks.third (marks : Marks a b c loc) : (octetAt (text a b c d) 2).from loc =
    (some c, { loc with used := loc.used ++ [2, 3] }) := by
  have before : (decimal a ++ '.' :: decimal b).length = secondDot a b := by
    simp [secondDot]
    omega
  refine from_octetAt_between c (by simp [text]; rfl) (marks.two.trans before.symm) ?_
  rw [marks.three, before]
  rfl

theorem Marks.fourth (marks : Marks a b c loc) : (octetAt (text a b c d) 3).from loc =
    (some (UInt8.ofInt (atoi ((decimal d).take (lastCut a b c loc)))),
      { loc with used := loc.used ++ [3, 4] }) := by
  have before : (decimal a ++ '.' :: (decimal b ++ '.' :: decimal c)).length = thirdDot a b c := by
    simp [thirdDot, secondDot]
    omega
  rw [from_octetAt (by simp [text]; rfl) (marks.three.trans before.symm), before]
  rfl

variable (a b c loc)

/-- After `loc[0] = 0`. -/
def entered : Loc :=
  { cell := Function.update loc.cell 0 0, used := loc.used ++ [0] }

theorem from_strToIp :
    (strToIp (text a b c d)).from loc =
      (some (joinOctets [a, b, c, UInt8.ofInt (atoi ((decimal d).take (lastCut a b c loc)))]),
        { cell := (marked a b c (entered loc)).cell
          used := loc.used ++ [0, 1, 2, 3, 1, 1, 2, 2, 3, 3, 4] }) := by
  have here := marks_marked a b c (entered loc)
  have marks (used : List Nat) : Marks a b c { cell := (marked a b c (entered loc)).cell, used } :=
    ⟨here.one, here.two, here.three⟩
  have first : (text a b c d).take (decimal a).length = decimal a := by simp [text]
  have enters : (writeLoc 0 0).from loc = (some (), entered loc) := rfl
  simp only [strToIp, from_bind, enters, from_markDots, from_readLoc, from_substr_zero,
    List.mapM_cons, List.mapM_nil, here.one, first, (marks _).second,
    (marks _).third, (marks _).fourth, from_pure, atoi_decimal]
  simp [marked, entered, lastCut]

end Text

section Result

variable (a b c d : UInt8) (loc : Loc)

/-- The last cut takes the whole octet if the byte behind the array gives a negative length, or
one that reaches the end. -/
theorem lastCut_lt_iff : lastCut a b c loc < (decimal d).length ↔
    thirdDot a b c < (loc.cell 4).toNat ∧ (loc.cell 4).toNat < (text a b c d).length := by
  have dot := thirdDot_lt a b c
  have byte := (loc.cell 4).toNat_lt
  have short := length_decimal_le d
  rw [length_text, lastCut, sizeT]
  omega

/-- The address comes back unless that byte points into the last octet. -/
theorem strToIp_text : ((strToIp (text a b c d)).from loc).1 = some (joinOctets [a, b, c, d]) ↔
    (loc.cell 4).toNat ≤ thirdDot a b c ∨ (text a b c d).length ≤ (loc.cell 4).toNat ∨ d = 0 := by
  rw [from_strToIp, Option.some.injEq, joinOctets_last]
  by_cases short : lastCut a b c loc < (decimal d).length
  · have range := (lastCut_lt_iff a b c d loc).mp short
    rw [atoi_take_decimal short, or_iff_right (by omega), or_iff_right (by omega)]
  · have range := (lastCut_lt_iff a b c d loc).not.mp short
    have whole : (loc.cell 4).toNat ≤ thirdDot a b c ∨
        (text a b c d).length ≤ (loc.cell 4).toNat := by omega
    rw [List.take_of_length_le (Nat.le_of_not_lt short), atoi_decimal]
    exact iff_of_true rfl (or_assoc.mp (.inl whole))

variable {a b c d} in
theorem strToIp_dotted {ip : UInt32} (split : octets ip = [a, b, c, d]) :
    ((strToIp (dotted ip)).from loc).1 = some ip ↔
      (loc.cell 4).toNat ≤ thirdDot a b c ∨ (dotted ip).length ≤ (loc.cell 4).toNat ∨ d = 0 := by
  have isText : dotted ip = text a b c d := by
    obtain ⟨_, _, _, _, same, isText⟩ := dotted_eq_text ip
    cases split.symm.trans same
    exact isText
  rw [isText, ← strToIp_text, ← split, joinOctets_octets]

end Result

/-- The printed address is parsed back, with all indices inside the array; `memory` is what the
stack holds where `loc` will be, and behind it. -/
structure ParsesBack (memory : Nat → UInt8) (ip : UInt32) : Prop where
  value : ((strToIp (dotted ip)).from ⟨memory, []⟩).1 = some ip
  inside : ∀ k ∈ ((strToIp (dotted ip)).from ⟨memory, []⟩).2.used, k < 4

/-- Every call reads `loc[4]`. -/
theorem strToIp_leaves_loc (memory : Nat → UInt8) (ip : UInt32) : ¬ ParsesBack memory ip := by
  intro parses
  obtain ⟨a, b, c, d, -, isText⟩ := dotted_eq_text ip
  have inside := parses.inside
  rw [isText, from_strToIp] at inside
  have outside := inside 4 (by simp)
  omega

/-- 10.0.0.12 is read back as 10.0.0.1 when the byte behind the array is 8. -/
theorem last_octet_cut : ¬ ParsesBack (fun _ => 8) 0x0a00000c := by
  intro parses
  have cut : ((strToIp (dotted 0x0a00000c)).from ⟨fun _ => 8, []⟩).1 = some 0x0a000001 := by
    decide
  have same := cut.symm.trans parses.value
  revert same
  decide

end NetworkLab.Lookup.PTree
