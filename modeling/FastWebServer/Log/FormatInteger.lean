import Mathlib.Data.Nat.Digits.Lemmas
import FastWebServer.Log.Logging

/-!
# Formatting integers

`convert`, which writes a number of any integer type as a decimal numeral. It never negates: the
remainders of a negative number are not positive, and the table of digits goes as far to the left of
`zero` as to the right. The digits come out from the least one on and are reversed at the end, with
the sign.

`convertLoop_eq` is what the loop writes. The result is the canonical numeral of the value
(`convert_canonical`), with at most 21 bytes for the widest type, and no index of the table outside
of it, because `zeroAt` has no answer there. So the numeral fits where `fromat_integer` has found
room for 32 bytes (`fromatInteger_fits`).
-/

set_option autoImplicit false

namespace FastWebServer.Log

open Cxx

/-! ## Integer types -/

/-- A signed or unsigned integer type of 32 or 64 bits. Narrower values are cast to `int` first. -/
structure IntegerType where
  signed : Bool
  width : ℕ
  wide : width = 32 ∨ width = 64

namespace IntegerType

def least (type : IntegerType) : ℤ := if type.signed then -2 ^ (type.width - 1) else 0

def greatest (type : IntegerType) : ℤ :=
  if type.signed then 2 ^ (type.width - 1) - 1 else 2 ^ type.width - 1

/-- A number of an integer type. -/
structure Value (type : IntegerType) where
  number : ℤ
  lower : type.least ≤ number
  upper : number ≤ type.greatest

variable {type : IntegerType}

theorem least_nonpos (type : IntegerType) : type.least ≤ 0 := by
  unfold least
  split
  · exact neg_nonpos.mpr (by positivity)
  · exact le_rfl

theorem greatest_nonneg (type : IntegerType) : 0 ≤ type.greatest := by
  unfold greatest
  split
  · exact sub_nonneg.mpr (one_le_pow₀ (by decide))
  · exact sub_nonneg.mpr (one_le_pow₀ (by decide))

/-- Truncated division goes towards zero. -/
theorem tdiv_between (number : ℤ) :
    min 0 number ≤ number.tdiv 10 ∧ number.tdiv 10 ≤ max 0 number := by
  rcases le_total 0 number with nonneg | nonpos
  · rw [Int.tdiv_eq_ediv_of_nonneg nonneg]
    omega
  · obtain ⟨positive, rfl⟩ : ∃ positive, number = -positive := ⟨-number, (neg_neg number).symm⟩
    rw [Int.neg_tdiv, Int.tdiv_eq_ediv_of_nonneg (neg_nonpos.mp nonpos)]
    omega

/-- `num / 10`, which is a number of the same type. -/
def Value.div10 (num : type.Value) : type.Value where
  number := num.number.tdiv 10
  lower := by
    have lower := num.lower
    have nonpos := type.least_nonpos
    have between := tdiv_between num.number
    omega
  upper := by
    have upper := num.upper
    have nonneg := type.greatest_nonneg
    have between := tdiv_between num.number
    omega

theorem Value.natAbs_div10 (num : type.Value) :
    num.div10.number.natAbs = num.number.natAbs / 10 := Int.natAbs_tdiv ..

/-- A division that leaves something leaves less. -/
theorem Value.div10_lt {num : type.Value} (more : num.div10.number ≠ 0) :
    num.div10.number.natAbs < num.number.natAbs := by
  have positive := Int.natAbs_pos.mpr more
  rw [natAbs_div10] at positive ⊢
  omega

end IntegerType

/-! ## convert -/

/-- `digits`. -/
def digits : Str := "9876543210123456789".toList

/-- `zero[digit]`, where `zero` is `digits + 9`. -/
def zeroAt (digit : ℤ) : Except Fault Char :=
  if 0 ≤ 9 + digit then
    match digits[(9 + digit).toNat]? with
    | some c => .ok c
    | none => .error .undefinedBehaviour
  else .error .undefinedBehaviour

variable {type : IntegerType}

/-- The `do … while (num != 0)` loop, with the characters written before. -/
def convertLoop (num : type.Value) (written : Str) : Except Fault Str :=
  match zeroAt (num.number.tmod 10) with
  | .error fault => .error fault
  | .ok c =>
      if _more : num.div10.number ≠ 0 then convertLoop num.div10 (written ++ [c])
      else .ok (written ++ [c])
termination_by num.number.natAbs
decreasing_by
  exact IntegerType.Value.div10_lt _more

/-- What `convert` leaves in the buffer, and what it returns. -/
structure Converted where
  buffer : Str
  length : ℕ
deriving Repr, DecidableEq

/-- `convert(buffer, value)`. -/
def convert (value : type.Value) : Except Fault Converted :=
  match convertLoop value [] with
  | .error fault => .error fault
  | .ok written =>
      let written := if value.number < 0 then written ++ ['-'] else written
      .ok ⟨written.reverse ++ ['\x00'], written.length⟩

/-! ## What the loop writes -/

/-- A digit is found on both sides of `zero`. -/
theorem zeroAt_digit {digit : ℤ} (small : digit.natAbs < 10) :
    zeroAt digit = .ok (Nat.digitChar digit.natAbs) := by
  have all : ∀ d < 10, zeroAt (d : ℕ) = .ok (Nat.digitChar d) ∧
      zeroAt (-(d : ℕ)) = .ok (Nat.digitChar d) := by decide
  obtain ⟨n, rfl | rfl⟩ := Int.eq_nat_or_neg digit
  · rw [Int.natAbs_natCast] at small ⊢
    exact (all n small).1
  · rw [Int.natAbs_neg, Int.natAbs_natCast] at small ⊢
    exact (all n small).2

/-- The digits of a number, from the least one on, and one for zero. -/
def lowDigits (n : ℕ) : Str := if n = 0 then ['0'] else (Nat.digits 10 n).map Nat.digitChar

theorem lowDigits_eq (n : ℕ) :
    lowDigits n = Nat.digitChar (n % 10) :: if n / 10 = 0 then [] else lowDigits (n / 10) := by
  unfold lowDigits
  by_cases zero : n = 0
  · rw [if_pos zero, zero]
    rfl
  · rw [if_neg zero, Nat.digits_def' (by decide) (Nat.pos_of_ne_zero zero), List.map_cons]
    by_cases last : n / 10 = 0
    · rw [if_pos last, last]
      rfl
    · rw [if_neg last, if_neg last]

/-- **The loop writes the digits**, from the least one on. -/
theorem convertLoop_eq (num : type.Value) (written : Str) :
    convertLoop num written = .ok (written ++ lowDigits num.number.natAbs) := by
  have small : (num.number.tmod 10).natAbs < 10 := by
    rw [Int.natAbs_tmod]
    exact Nat.mod_lt _ (by decide)
  have digit : (num.number.tmod 10).natAbs = num.number.natAbs % 10 := Int.natAbs_tmod ..
  rw [convertLoop, zeroAt_digit small, digit, lowDigits_eq, ← num.natAbs_div10]
  dsimp only
  by_cases more : num.div10.number ≠ 0
  · rw [dif_pos more, if_neg (Int.natAbs_ne_zero.mpr more), convertLoop_eq num.div10,
      List.append_assoc]
    rfl
  · rw [dif_neg more, if_pos (Int.natAbs_eq_zero.mpr (not_not.mp more))]
termination_by num.number.natAbs
decreasing_by
  exact IntegerType.Value.div10_lt more

/-! ## The numeral of a number -/

/-- The decimal numeral of a natural number, without leading zeros. -/
structure Canonical (n : ℕ) (text : Str) : Prop where
  nonempty : text ≠ []
  decimal : ∀ c ∈ text, c.isDigit = true
  unpadded : text.head? = some '0' → text = ['0']
  value : numeral text = n

/-- The numeral of a number, with a sign for a negative one. -/
def signedText (number : ℤ) (text : Str) : Str := if number < 0 then '-' :: text else text

/-- The number that a text spells. -/
def readBack (text : Str) : ℤ := (signed text).1 * numeral (signed text).2

theorem digitChar_isDigit : ∀ d < 10, (Nat.digitChar d).isDigit = true := by decide

theorem digitChar_value : ∀ d < 10, (Nat.digitChar d).toNat - '0'.toNat = d := by decide

theorem digitChar_zero : ∀ d < 10, Nat.digitChar d = '0' → d = 0 := by decide

/-- Digits are read in the other order. -/
theorem numeral_reverse {values : List ℕ} (small : ∀ d ∈ values, d < 10) :
    numeral (values.map Nat.digitChar).reverse = Nat.ofDigits 10 values := by
  unfold numeral
  rw [List.foldl_reverse]
  induction values with
  | nil => rfl
  | cons d values ih =>
      have rest := ih fun d' member => small d' (List.mem_cons_of_mem _ member)
      rw [List.map_cons, List.foldr_cons, rest, digitChar_value d (small d (List.mem_cons_self ..)),
        Nat.ofDigits_cons, Nat.add_comm, Nat.mul_comm]

/-- **The digits, reversed, are the canonical numeral.** -/
theorem lowDigits_canonical (n : ℕ) : Canonical n (lowDigits n).reverse := by
  unfold lowDigits
  by_cases zero : n = 0
  · rw [if_pos zero, zero]
    exact ⟨by decide, by simp, fun _ => rfl, by decide⟩
  · rw [if_neg zero]
    have nonempty : Nat.digits 10 n ≠ [] := Nat.digits_ne_nil_iff_ne_zero.mpr zero
    have small : ∀ d ∈ Nat.digits 10 n, d < 10 := fun d member =>
      Nat.digits_lt_base (by decide) member
    refine ⟨?_, ?_, ?_, ?_⟩
    · rwa [ne_eq, List.reverse_eq_nil_iff, List.map_eq_nil_iff]
    · intro c member
      obtain ⟨d, digit, rfl⟩ := List.mem_map.mp (List.mem_reverse.mp member)
      exact digitChar_isDigit d (small d digit)
    · intro head
      rw [List.head?_reverse, List.getLast?_map, List.getLast?_eq_some_getLast nonempty,
        Option.map_some, Option.some.injEq] at head
      have last := digitChar_zero _ (small _ (List.getLast_mem nonempty)) head
      exact absurd last (Nat.getLast_digit_ne_zero 10 zero)
    · rw [numeral_reverse small, Nat.ofDigits_digits]

theorem length_lowDigits {n bound : ℕ} (positive : 0 < bound) (small : n < 10 ^ bound) :
    (lowDigits n).length ≤ bound := by
  unfold lowDigits
  split
  · exact positive
  · rw [List.length_map]
    exact (Nat.digits_length_le_iff (by decide) n).mpr small

/-- What is written is read back. -/
theorem readBack_signedText {number : ℤ} {text : Str} (canonical : Canonical number.natAbs text) :
    readBack (signedText number text) = number := by
  unfold readBack signedText
  by_cases negative : number < 0
  · rw [if_pos negative]
    show -1 * (numeral text : ℤ) = number
    rw [canonical.value]
    omega
  · rw [if_neg negative]
    have unsigned : signed text = (1, text) := by
      cases text with
      | nil => rfl
      | cons c rest =>
          have digit := canonical.decimal c (List.mem_cons_self ..)
          unfold signed
          split
          · rename_i minus
            cases minus
            cases digit
          · rename_i plus
            cases plus
            cases digit
          · rfl
    rw [unsigned, canonical.value]
    omega

theorem IntegerType.widest (type : IntegerType) :
    -2 ^ 63 ≤ type.least ∧ type.greatest ≤ 2 ^ 64 - 1 := by
  obtain ⟨signed, width, rfl | rfl⟩ := type
  · cases signed with
    | true => exact ⟨by decide, by decide⟩
    | false => exact ⟨by decide, by decide⟩
  · cases signed with
    | true => exact ⟨by decide, by decide⟩
    | false => exact ⟨by decide, by decide⟩

/-- A numeral of the widest type has no more than 20 characters, its sign included. -/
theorem length_signedText (value : type.Value) :
    (signedText value.number (lowDigits value.number.natAbs).reverse).length ≤ 20 := by
  obtain ⟨least, greatest⟩ := type.widest
  have lower := value.lower
  have upper := value.upper
  unfold signedText
  split
  · have small : value.number.natAbs < 10 ^ 19 := by omega
    rw [List.length_cons, List.length_reverse]
    exact Nat.succ_le_succ (length_lowDigits (by decide) small)
  · have small : value.number.natAbs < 10 ^ 20 := by omega
    rw [List.length_reverse]
    exact length_lowDigits (by decide) small

/-- What `convert` leaves in the buffer. -/
theorem convert_eq (value : type.Value) :
    convert value =
      .ok ⟨signedText value.number (lowDigits value.number.natAbs).reverse ++ ['\x00'],
        (signedText value.number (lowDigits value.number.natAbs).reverse).length⟩ := by
  unfold convert
  rw [convertLoop_eq, List.nil_append]
  unfold signedText
  dsimp only
  split
  · simp only [List.reverse_append, List.length_append, List.length_cons, List.length_nil,
      List.length_reverse]
    rfl
  · rw [List.length_reverse]

/-- **`convert` writes the canonical numeral.** For every number of every type it writes the sign of
a negative number, the canonical numeral and the terminator, at most 21 bytes, and returns the
length without the terminator. Reading it back gives the number. -/
theorem convert_canonical (value : type.Value) :
    ∃ text, Canonical value.number.natAbs text ∧
      convert value = .ok ⟨signedText value.number text ++ ['\x00'],
        (signedText value.number text).length⟩ ∧
      (signedText value.number text ++ ['\x00']).length ≤ 21 ∧
      readBack (signedText value.number text) = value.number := by
  have canonical := lowDigits_canonical value.number.natAbs
  refine ⟨_, canonical, convert_eq value, ?_, readBack_signedText canonical⟩
  rw [List.length_append]
  exact Nat.succ_le_succ (length_signedText value)

/-! ## The stream -/

/-- `max_digit_size`. -/
def maxDigitSize : ℤ := 32

/-- `LogStream::fromat_integer`. The terminator lies behind what is added. -/
def fromatInteger (size : ℕ) (buffer : LogBuffer) (value : type.Value) : Except Fault LogBuffer :=
  if maxDigitSize ≤ buffer.getAvailableSize size then
    match convert value with
    | .error fault => .error fault
    | .ok converted => .ok ⟨buffer.content ++ converted.buffer.take converted.length⟩
  else .ok buffer

/-- **A number is added to the log as its numeral, or not at all**, and with the terminator it stays
inside the buffer. -/
theorem fromatInteger_fits (size : ℕ) (buffer : LogBuffer) (value : type.Value) :
    (buffer.getAvailableSize size < maxDigitSize ∧ fromatInteger size buffer value = .ok buffer) ∨
      ∃ text, Canonical value.number.natAbs text ∧
        fromatInteger size buffer value =
          .ok ⟨buffer.content ++ signedText value.number text⟩ ∧
        (buffer.content ++ signedText value.number text ++ ['\x00']).length ≤ size := by
  unfold fromatInteger
  by_cases room : maxDigitSize ≤ buffer.getAvailableSize size
  · rw [if_pos room]
    have length := length_signedText value
    refine .inr ⟨_, lowDigits_canonical value.number.natAbs, ?_, ?_⟩
    · rw [convert_eq]
      dsimp only
      rw [List.take_left]
    · rw [List.append_assoc, List.length_append, List.length_append, List.length_singleton]
      unfold LogBuffer.getAvailableSize maxDigitSize at room
      omega
  · rw [if_neg room]
    exact .inl ⟨not_le.mp room, rfl⟩

end FastWebServer.Log
