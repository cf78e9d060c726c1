import NetworkLab.Lib.Bytes
import NetworkLab.Lib.OnesComplement

/-!
# The checksum

`checksum` of `checksum.h`, which the stacks share.  The words are summed as they lie in
memory, the least significant byte first.
-/
set_option autoImplicit false

namespace NetworkLab

open Lib.Bytes Lib.OnesComplement

def sumWords (buffer : List UInt8) : Nat → Nat → UInt32 → Option UInt32
  | _, 0, sum => some sum
  | offset, count + 1, sum => do
    let word ← read16Little buffer offset
    sumWords buffer (offset + 2) count (sum + word.toUInt32)

def checksum (buffer : List UInt8) (offset nbytes : Nat) (sum : UInt32) : Option UInt16 := do
  let sum ← sumWords buffer offset (nbytes / 2) sum
  let sum := (sum >>> 16) + (sum &&& 0xffff)
  let sum := sum + (sum >>> 16)
  if nbytes % 2 ≠ 0 then do
    let last ← read8 buffer (offset + nbytes - 1)
    some (~~~(sum + last.toUInt32)).toUInt16
  else some (~~~sum).toUInt16

theorem stable_sumWords (offset count : Nat) (sum : UInt32) :
    Stable fun buffer => sumWords buffer offset count sum := by
  induction count generalizing offset sum with
  | zero => exact stable_some sum
  | succ count ih =>
      exact (stable_read16Little offset).bind fun word => ih (offset + 2) (sum + word.toUInt32)

theorem stable_checksum (offset nbytes : Nat) (sum : UInt32) :
    Stable fun buffer => checksum buffer offset nbytes sum := by
  apply (stable_sumWords offset (nbytes / 2) sum).bind
  intro total
  by_cases odd : nbytes % 2 ≠ 0
  · simp only [if_pos odd]
    exact (stable_read8 (offset + nbytes - 1)).bind fun _ => stable_some _
  · simp only [if_neg odd]
    exact stable_some _

theorem exists_sumWords_iff (buffer : List UInt8) (offset count : Nat) (sum : UInt32) :
    (∃ total, sumWords buffer offset count sum = some total) ↔
      count = 0 ∨ offset + 2 * count ≤ buffer.length := by
  induction count generalizing offset sum with
  | zero => exact iff_of_true ⟨sum, rfl⟩ (.inl rfl)
  | succ count ih =>
      have first := exists_read16Little_iff buffer offset
      rw [sumWords]
      cases found : read16Little buffer offset with
      | none =>
          simp only [found, reduceCtorEq, exists_false, false_iff] at first
          apply iff_of_false
          · simp
          · omega
      | some word =>
          have inside := first.mp ⟨word, found⟩
          have later : (∃ total, sumWords buffer (offset + 2) count (sum + word.toUInt32) =
              some total) ↔ _ := ih (offset + 2) (sum + word.toUInt32)
          exact later.trans (by omega)

theorem exists_checksum_iff (buffer : List UInt8) (offset nbytes : Nat) (sum : UInt32) :
    (∃ result, checksum buffer offset nbytes sum = some result) ↔
      nbytes = 0 ∨ offset + nbytes ≤ buffer.length := by
  have words := exists_sumWords_iff buffer offset (nbytes / 2) sum
  have last := exists_read8_iff buffer (offset + nbytes - 1)
  rw [checksum]
  cases summed : sumWords buffer offset (nbytes / 2) sum with
  | none =>
      simp only [summed, reduceCtorEq, exists_false, false_iff] at words
      apply iff_of_false
      · simp
      · omega
  | some total =>
      have inside := words.mp ⟨total, summed⟩
      rw [Option.bind_eq_bind, Option.bind_some]
      by_cases odd : nbytes % 2 ≠ 0
      · simp only [if_pos odd]
        cases found : read8 buffer (offset + nbytes - 1) with
        | none =>
            simp only [found, reduceCtorEq, exists_false, false_iff] at last
            apply iff_of_false
            · simp
            · omega
        | some byte =>
            have fits := last.mp ⟨byte, found⟩
            exact iff_of_true ⟨_, rfl⟩ (by omega)
      · simp only [if_neg odd]
        exact iff_of_true ⟨_, rfl⟩ (by omega)

/-! ## The Internet checksum -/

def networkWords : List UInt8 → List Nat
  | [] => []
  | [last] => [last.toNat * 256]
  | high :: low :: rest => (high.toNat * 256 + low.toNat) :: networkWords rest

def internetChecksum (bytes : List UInt8) : Nat := 65535 - onesSum 65535 (networkWords bytes)

/-- The 16-bit words as the loop loads them. -/
def memoryWords (bytes : List UInt8) : List Nat := (networkWords bytes).map (swap 256)

theorem networkWords_le (bytes : List UInt8) : ∀ word ∈ networkWords bytes, word ≤ 65535 := by
  induction bytes using networkWords.induct with
  | case1 => simp [networkWords]
  | case2 last =>
    have small := last.toNat_lt
    simp only [networkWords, List.mem_singleton, forall_eq]
    omega
  | case3 high low rest ih =>
    have highSmall := high.toNat_lt
    have lowSmall := low.toNat_lt
    simp only [networkWords, List.mem_cons, forall_eq_or_imp]
    exact ⟨by omega, ih⟩

theorem networkWords_append {front : List UInt8} (rest : List UInt8)
    (even : front.length % 2 = 0) :
    networkWords (front ++ rest) = networkWords front ++ networkWords rest := by
  induction front using networkWords.induct with
  | case1 => rfl
  | case2 last => simp at even
  | case3 high low front ih =>
    have shorter : front.length % 2 = 0 := by
      simp only [List.length_cons] at even
      omega
    simp only [List.cons_append, networkWords, ih shorter]

theorem memoryWords_append {front : List UInt8} (rest : List UInt8)
    (even : front.length % 2 = 0) :
    memoryWords (front ++ rest) = memoryWords front ++ memoryWords rest := by
  rw [memoryWords, networkWords_append rest even, List.map_append]
  rfl

theorem internetChecksum_eq (bytes : List UInt8) :
    internetChecksum bytes = 65535 - folded 65535 (networkWords bytes).sum := by
  rw [internetChecksum, onesSum_eq (by decide) _ (networkWords_le bytes)]

theorem folded_memoryWords (bytes : List UInt8) :
    folded 65535 (memoryWords bytes).sum = swap 256 (folded 65535 (networkWords bytes).sum) :=
  @folded_swap 256 (by decide) (networkWords bytes)

theorem swap_word (high low : UInt8) :
    swap 256 (high.toNat * 256 + low.toNat) = low.toNat * 256 + high.toNat := by
  have small := low.toNat_lt
  unfold swap
  omega

theorem swap_last (last : UInt8) : swap 256 (last.toNat * 256) = last.toNat := by
  have word := swap_word last 0
  simpa using word

def wholeWords : List UInt8 → Nat
  | [] => 0
  | [_] => 0
  | low :: high :: rest => (high.toNat * 256 + low.toNat) + wholeWords rest

def oddByte : List UInt8 → Nat
  | [] => 0
  | [last] => last.toNat
  | _ :: _ :: rest => oddByte rest

theorem sum_memoryWords (bytes : List UInt8) :
    (memoryWords bytes).sum = wholeWords bytes + oddByte bytes := by
  induction bytes using networkWords.induct with
  | case1 => rfl
  | case2 last => simp [memoryWords, networkWords, wholeWords, oddByte, swap_last]
  | case3 high low rest ih =>
    simp only [memoryWords] at ih
    simp only [memoryWords, networkWords, wholeWords, oddByte, List.map_cons, List.sum_cons,
      swap_word, ih]
    omega

theorem oddByte_even {bytes : List UInt8} (even : bytes.length % 2 = 0) : oddByte bytes = 0 := by
  induction bytes using networkWords.induct with
  | case1 => rfl
  | case2 last => simp at even
  | case3 high low rest ih =>
    apply ih
    simp only [List.length_cons] at even
    omega

theorem oddByte_odd {bytes : List UInt8} {last : UInt8} (odd : bytes.length % 2 = 1)
    (found : bytes[bytes.length - 1]? = some last) : oddByte bytes = last.toNat := by
  induction bytes using networkWords.induct with
  | case1 => simp at odd
  | case2 byte =>
    rw [oddByte, ← Option.some.inj found]
  | case3 high low rest ih =>
    simp only [List.length_cons] at odd
    apply ih (by omega)
    have place : (high :: low :: rest).length - 1 = rest.length - 1 + 1 + 1 := by
      simp only [List.length_cons]
      omega
    rwa [place, List.getElem?_cons_succ, List.getElem?_cons_succ] at found

theorem oddByte_lt (bytes : List UInt8) : oddByte bytes < 256 := by
  induction bytes using networkWords.induct with
  | case1 => decide
  | case2 last => exact last.toNat_lt
  | case3 high low rest ih => exact ih

theorem wholeWords_le (bytes : List UInt8) : wholeWords bytes ≤ bytes.length * 65535 := by
  induction bytes using networkWords.induct with
  | case1 => exact Nat.zero_le _
  | case2 last => exact Nat.zero_le _
  | case3 high low rest ih =>
    have highSmall := high.toNat_lt
    have lowSmall := low.toNat_lt
    simp only [wholeWords, List.length_cons]
    omega

/-! ## What `checksum` returns -/

theorem sumWords_eq (front bytes behind : List UInt8) (offset : Nat) (sum : UInt32)
    (place : front.length = offset) :
    sumWords (front ++ (bytes ++ behind)) offset (bytes.length / 2) sum =
      some (sum + UInt32.ofNat (wholeWords bytes)) := by
  induction bytes using networkWords.induct generalizing front offset sum with
  | case1 => exact congrArg some (UInt32.add_zero sum).symm
  | case2 last =>
    have count : [last].length / 2 = 0 := by simp
    rw [count]
    exact congrArg some (UInt32.add_zero sum).symm
  | case3 low high rest ih =>
    have count : (low :: high :: rest).length / 2 = rest.length / 2 + 1 := by
      simp only [List.length_cons]
      omega
    have word : read16Little (front ++ (low :: high :: rest ++ behind)) offset =
        some (UInt16.ofNat (high.toNat * 256 + low.toNat)) :=
      read16Little_behind front _ 0 place
    have shifted : front ++ (low :: high :: rest ++ behind) =
        (front ++ [low, high]) ++ (rest ++ behind) := by simp
    have highSmall := high.toNat_lt
    have lowSmall := low.toNat_lt
    rw [count, sumWords, word, Option.bind_eq_bind, Option.bind_some, shifted,
      ih (front ++ [low, high]) (offset + 2) _ (by simp [place])]
    congr 1
    apply UInt32.toNat_inj.mp
    simp only [UInt32.toNat_add, UInt32.toNat_ofNat', UInt16.toNat_toUInt32, UInt16.toNat_ofNat',
      wholeWords]
    omega

theorem fold_twice {high low : Nat} (highSmall : high < 65536) (lowSmall : low < 65536) :
    (high + low + (high + low) / 65536) % 65536 = folded 65535 (65536 * high + low) := by
  rcases Nat.lt_or_ge (high + low) 65536 with none | carry
  · have quotient : (high + low) / 65536 = 0 := Nat.div_eq_of_lt none
    rw [quotient, Nat.add_zero, Nat.mod_eq_of_lt none]
    apply eq_folded (by decide) (by omega)
    · rw [Nat.ModEq]
      omega
    · omega
  · have quotient : (high + low) / 65536 = 1 := by omega
    have rest : (high + low + 1) % 65536 = high + low + 1 - 65536 := by omega
    rw [quotient, rest]
    apply eq_folded (by decide) (by omega)
    · rw [Nat.ModEq]
      omega
    · omega

/-- Two foldings leave what is left once every carry has been taken round, below bit 16. -/
theorem folding (total : UInt32) :
    let sum := (total >>> 16) + (total &&& 0xffff)
    (sum + (sum >>> 16)).toNat % 65536 = folded 65535 total.toNat := by
  intro sum
  have small := total.toNat_lt
  have sumIs : sum.toNat = total.toNat / 65536 + total.toNat % 65536 := by
    have low : (total &&& 0xffff).toNat = total.toNat % 65536 := by
      rw [UInt32.toNat_and]
      exact Nat.and_two_pow_sub_one_eq_mod total.toNat 16
    have high : (total >>> 16).toNat = total.toNat / 65536 := by
      rw [UInt32.toNat_shiftRight]
      exact Nat.shiftRight_eq_div_pow _ 16
    rw [UInt32.toNat_add, low, high]
    omega
  have carry : (sum >>> 16).toNat = sum.toNat / 65536 := by
    rw [UInt32.toNat_shiftRight]
    exact Nat.shiftRight_eq_div_pow _ 16
  have digits : folded 65535 total.toNat = _ :=
    congrArg (folded 65535) (Nat.div_add_mod total.toNat 65536).symm
  rw [UInt32.toNat_add, carry, sumIs, digits,
    ← fold_twice (by omega) (Nat.mod_lt _ (by decide))]
  omega

theorem toNat_complement (sum : UInt32) :
    (~~~sum).toUInt16.toNat = 65535 - sum.toNat % 65536 := by
  have small := sum.toNat_lt
  rw [UInt32.toNat_toUInt16, UInt32.toNat_not]
  change (4294967296 - 1 - sum.toNat) % 65536 = _
  omega

/-- The words are added modulo 2^32, and a carry of the odd byte is lost. -/
theorem checksum_eq (front bytes behind : List UInt8) (offset : Nat) (sum : UInt32)
    (place : front.length = offset) :
    ∃ result, checksum (front ++ (bytes ++ behind)) offset bytes.length sum = some result ∧
      result.toNat =
        65535 - (folded 65535 ((sum.toNat + wholeWords bytes) % 4294967296) + oddByte bytes) %
          65536 := by
  have total : (sum + UInt32.ofNat (wholeWords bytes)).toNat =
      (sum.toNat + wholeWords bytes) % 4294967296 := by
    rw [UInt32.toNat_add, UInt32.toNat_ofNat']
    exact Nat.add_mod_mod _ _ _
  have folds := folding (sum + UInt32.ofNat (wholeWords bytes))
  rw [total] at folds
  rw [checksum, sumWords_eq front bytes behind offset sum place, Option.bind_eq_bind,
    Option.bind_some, ← folds]
  by_cases odd : bytes.length % 2 ≠ 0
  · have inside : bytes.length - 1 < bytes.length := by omega
    have found : bytes[bytes.length - 1]? = some bytes[bytes.length - 1] :=
      List.getElem?_eq_getElem inside
    have read : read8 (front ++ (bytes ++ behind)) (offset + bytes.length - 1) =
        some bytes[bytes.length - 1] := by
      rw [Nat.add_sub_assoc (by omega), read8_behind front _ _ place]
      exact (List.getElem?_append_left inside).trans found
    simp only [if_pos odd, read]
    refine ⟨_, rfl, ?_⟩
    rw [toNat_complement, oddByte_odd (by omega) found, UInt32.toNat_add, UInt8.toNat_toUInt32]
    omega
  · simp only [if_neg odd]
    refine ⟨_, rfl, ?_⟩
    rw [toNat_complement, oddByte_even (by omega)]
    omega

/-! ## A checksum stored among its words -/

theorem onesSum_networkWords_eq {bytes : List UInt8}
    (full : folded 65535 (memoryWords bytes).sum = 65535) :
    onesSum 65535 (networkWords bytes) = 65535 := by
  have small := folded_le (m := 65535) (by decide) (networkWords bytes).sum
  rw [folded_memoryWords, swap] at full
  rw [onesSum_eq (by decide) _ (networkWords_le bytes)]
  omega

theorem checksum_complements {front bytes behind : List UInt8} {offset : Nat} {sum : UInt16}
    (place : front.length = offset) (even : bytes.length % 2 = 0) (short : bytes.length ≤ 65536)
    (success : checksum (front ++ (bytes ++ behind)) offset bytes.length 0 = some sum) :
    folded 65535 ((memoryWords bytes).sum + sum.toNat) = 65535 := by
  obtain ⟨result, found, value⟩ := checksum_eq front bytes behind offset 0 place
  have words := wholeWords_le bytes
  have small := folded_le (m := 65535) (by decide) (wholeWords bytes)
  have inside : wholeWords bytes < 4294967296 := by omega
  rw [success, Option.some.injEq] at found
  rw [← found, UInt32.toNat_zero, Nat.zero_add, Nat.mod_eq_of_lt inside, oddByte_even even,
    Nat.add_zero, Nat.mod_eq_of_lt (Nat.lt_succ_of_le small)] at value
  rw [sum_memoryWords, oddByte_even even, Nat.add_zero, value]
  exact folded_add_complement (by decide) (wholeWords bytes)

theorem memoryWords_bytes16Little (sum : UInt16) :
    memoryWords (bytes16Little sum) = [sum.toNat] := by
  have small := sum.toNat_lt
  simp only [memoryWords, bytes16Little, networkWords, List.map_cons, List.map_nil, swap_word,
    List.cons.injEq, and_true]
  rw [UInt8.toNat_ofNat', UInt8.toNat_ofNat']
  omega

end NetworkLab
