import Mathlib.Algebra.Group.Nat.Defs
import Mathlib.Data.List.Induction
import Mathlib.Data.Nat.Notation

/-!
# Numerals of a fixed width

A number is written in a base with zeros before it up to a width, as `printf` does. Reading takes
digits alone, and it gives the number back (`read_padded`).
-/

set_option autoImplicit false

namespace Numeral

/-- The number with at least `width` digits. -/
def padded (base width n : ℕ) : List Char := (Nat.toDigits base n).leftpad width '0'

/-- The number that some digits spell. -/
def read (base : ℕ) (digit : Char → Option ℕ) (text : List Char) : Option ℕ :=
  text.foldlM (fun n c => (digit c).map (base * n + ·)) 0

/-- The value of a hexadecimal digit. -/
def hexDigit (c : Char) : Option ℕ :=
  if '0' ≤ c ∧ c ≤ '9' then some (c.toNat - '0'.toNat)
  else if 'a' ≤ c ∧ c ≤ 'f' then some (c.toNat - 'a'.toNat + 10)
  else none

theorem hexDigit_digitChar : ∀ d < 16, hexDigit (Nat.digitChar d) = some d := by decide

variable {base : ℕ} {digit : Char → Option ℕ}

/-- One more digit. -/
theorem read_concat (text : List Char) (c : Char) :
    read base digit (text ++ [c]) =
      (read base digit text).bind fun n => (digit c).map (base * n + ·) := by
  unfold read
  rw [List.foldlM_append]
  refine congrArg _ (funext fun n => ?_)
  rw [List.foldlM_cons]
  cases digit c with
  | none => rfl
  | some d => rfl

/-- What is read has digits alone. -/
theorem isSome_of_read {text : List Char} {n : ℕ} (spells : read base digit text = some n) :
    ∀ c ∈ text, (digit c).isSome := by
  induction text using List.reverseRecOn generalizing n with
  | nil => exact fun c member => absurd member List.not_mem_nil
  | append_singleton text c ih =>
      rw [read_concat, Option.bind_eq_some_iff] at spells
      obtain ⟨m, spelt, last⟩ := spells
      obtain ⟨d, digit, -⟩ := Option.map_eq_some_iff.mp last
      intro c' member
      rcases List.mem_append.mp member with earlier | same
      · exact ih spelt c' earlier
      · rw [List.mem_singleton.mp same, digit]
        rfl

/-- A number that fits has the width exactly. -/
theorem length_padded (large : 1 < base) {width n : ℕ} (positive : 0 < width)
    (fits : n < base ^ width) : (padded base width n).length = width := by
  have short := (Nat.length_toDigits_le_iff large positive).mpr fits
  rw [padded, List.length_leftpad, Nat.max_eq_left short]

variable (digits : ∀ d < base, digit (Nat.digitChar d) = some d)
include digits

/-- Zeros before a numeral do not change it. -/
theorem read_zeros (positive : 0 < base) (count : ℕ) (text : List Char) :
    read base digit (List.replicate count '0' ++ text) = read base digit text := by
  have zero : digit '0' = some 0 := digits 0 positive
  induction count with
  | zero => rfl
  | succ count ih =>
      rw [← ih, List.replicate_succ, List.cons_append]
      unfold read
      rw [List.foldlM_cons, zero]
      rfl

theorem read_toDigits (large : 1 < base) (n : ℕ) :
    read base digit (Nat.toDigits base n) = some n := by
  induction n using Nat.strongRecOn with
  | _ n ih =>
      by_cases small : n < base
      · rw [Nat.toDigits_of_lt_base small, ← List.nil_append [_], read_concat, digits n small]
        show some (base * 0 + n) = some n
        rw [Nat.mul_zero, Nat.zero_add]
      · have shorter : n / base < n := Nat.div_lt_self (by omega) large
        rw [Nat.toDigits_of_base_le large (Nat.not_lt.mp small), read_concat, ih _ shorter,
          digits _ (Nat.mod_lt n (by omega))]
        show some (base * (n / base) + n % base) = some n
        rw [Nat.div_add_mod]

/-- **A padded number is read back.** -/
theorem read_padded (large : 1 < base) (width n : ℕ) :
    read base digit (padded base width n) = some n :=
  (read_zeros digits (by omega) _ _).trans (read_toDigits digits large n)

end Numeral
