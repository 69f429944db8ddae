import Mathlib.Data.Int.ModEq
import Mathlib.Data.List.Basic

/-!
# C++ strings and the integers that index them

A C++ `std::string` is a list of characters. The operations here return what
the C++ standard library returns, in the integer types it returns it in: a
position is a `size_t`, the search functions answer `npos` when nothing is
found, and the arithmetic on positions wraps at `2 ^ 64`. A position stored in
an `int` is reduced to 32 bits, and an `int` compared with a position is
extended to 64.

Three operations can fail. `substr` throws when its start lies past the end,
`stoi` when it finds no number or one that is no `int`, and a range between two
iterators is undefined unless it lies inside the string. They answer in
`Except Fault`, so a program that reaches a failing call is a program that
returns a fault.

A byte is the character of its value. A statement about all lists of characters
is in particular one about all strings of bytes.
-/

set_option autoImplicit false

namespace Cxx

/-- A C++ string. -/
abbrev Str := List Char

/-- What a call does instead of returning: throw an exception, or have no
defined behaviour. -/
inductive Fault where
  | outOfRange
  | invalidArgument
  | undefinedBehaviour
deriving Repr, DecidableEq

/-- What ends a program for good: an assertion that fails, or an operation without
defined behaviour. -/
inductive Crash where
  | assertion
  | undefinedBehaviour
deriving Repr, DecidableEq

/-! ## Integer conversions -/

/-- The `size_t` that the searches answer when nothing is found. -/
def npos : ℕ := 2 ^ 64 - 1

/-- A `size_t` stored in an `int`. -/
def toInt (n : ℕ) : ℤ := (n + 2 ^ 31) % 2 ^ 32 - 2 ^ 31

/-- An `int` used as a `size_t`. -/
def toSize (z : ℤ) : ℕ := (z % 2 ^ 64).toNat

/-- Addition of `size_t`. -/
def sizeAdd (a b : ℕ) : ℕ := (a + b) % 2 ^ 64

/-- Subtraction of `size_t`. -/
def sizeSub (a b : ℕ) : ℕ := (a + 2 ^ 64 - b) % 2 ^ 64

/-- An `int` holds every position below `2 ^ 31`. -/
theorem toInt_of_lt {n : ℕ} (bound : n < 2 ^ 31) : toInt n = n := by
  unfold toInt
  omega

/-- Positions in an `int` are in the order of the text. -/
theorem toInt_sub_pos {first last : ℕ} (lt : first < last) (bound : last < 2 ^ 31) :
    ¬ toInt last - toInt first ≤ 0 := by
  rw [toInt_of_lt bound, toInt_of_lt (lt_trans lt bound)]
  omega

theorem toInt_le (n : ℕ) : toInt n ≤ n := by
  unfold toInt
  omega

theorem toSize_natCast {n : ℕ} (bound : n < 2 ^ 64) : toSize n = n := by
  unfold toSize
  omega

theorem sizeSub_of_le {a b : ℕ} (le : b ≤ a) (bound : a < 2 ^ 64) : sizeSub a b = a - b := by
  unfold sizeSub
  omega

/-! ## Searching -/

/-- `s.find(c, start)`: the first position from `start` on that holds `c`. -/
def find (s : Str) (c : Char) (start : ℕ) : ℕ :=
  match (s.drop start).findIdx? (· == c) with
  | some k => start + k
  | none => npos

/-- `s.find(pattern)`: the first position at which `pattern` stands. -/
def findStr (pattern : Str) : Str → ℕ → ℕ
  | [], i => if pattern.isEmpty then i else npos
  | c :: s, i => if pattern.isPrefixOf (c :: s) then i else findStr pattern s (i + 1)

theorem findIdx?_of_not_mem {s : Str} {c : Char} (absent : c ∉ s) :
    s.findIdx? (· == c) = none := by
  rw [List.findIdx?_eq_none_iff]
  intro x member
  simpa using fun same : x = c => absent (same ▸ member)

/-- The first occurrence from `start` on is found where it stands. -/
theorem find_of_drop {s before after : Str} {c : Char} {start : ℕ}
    (tail : s.drop start = before ++ c :: after) (absent : c ∉ before) :
    find s c start = start + before.length := by
  simp [find, tail, List.findIdx?_append, findIdx?_of_not_mem absent, List.findIdx?_cons]

theorem find_zero_append {before after : Str} {c : Char} (absent : c ∉ before) :
    find (before ++ c :: after) c 0 = before.length := by
  rw [find_of_drop rfl absent, Nat.zero_add]

/-- What does not occur is not found. -/
theorem find_of_not_mem {s : Str} {c : Char} {start : ℕ} (absent : c ∉ s.drop start) :
    find s c start = npos := by
  simp only [find, findIdx?_of_not_mem absent]

/-- A text is free of a character, or split at its first occurrence. -/
theorem split_first (s : Str) (c : Char) :
    c ∉ s ∨ ∃ before after, s = before ++ c :: after ∧ c ∉ before := by
  by_cases member : c ∈ s
  · exact .inr (List.eq_append_cons_of_mem member)
  · exact .inl member

/-! ## Up to a character -/

theorem ne_of_not_mem {text : Str} {c : Char} (absent : c ∉ text) :
    ∀ x ∈ text, decide (x ≠ c) = true := by
  intro x member
  simpa using fun same : x = c => absent (same ▸ member)

theorem takeWhile_ne_append {before after : Str} {c : Char} (absent : c ∉ before) :
    (before ++ c :: after).takeWhile (· ≠ c) = before := by
  rw [List.takeWhile_append_of_pos (ne_of_not_mem absent)]
  simp

theorem takeWhile_ne_of_not_mem {text : Str} {c : Char} (absent : c ∉ text) :
    text.takeWhile (· ≠ c) = text := by
  have all := @List.takeWhile_append_of_pos _ (fun x => decide (x ≠ c)) text []
    (ne_of_not_mem absent)
  simpa using all

theorem dropWhile_ne_append {before after : Str} {c : Char} (absent : c ∉ before) :
    (before ++ c :: after).dropWhile (· ≠ c) = c :: after := by
  rw [List.dropWhile_append_of_pos (ne_of_not_mem absent)]
  simp

theorem dropWhile_ne_of_not_mem {text : Str} {c : Char} (absent : c ∉ text) :
    text.dropWhile (· ≠ c) = [] := by
  have all := @List.dropWhile_append_of_pos _ (fun x => decide (x ≠ c)) text []
    (ne_of_not_mem absent)
  simpa using all

/-- A pattern that is found is not longer than the text. -/
theorem length_le_of_findStr {pattern s : Str} {i : ℕ} (there : findStr pattern s i ≠ npos) :
    pattern.length ≤ s.length := by
  induction s generalizing i with
  | nil =>
      unfold findStr at there
      split at there
      · rename_i empty
        simp [List.isEmpty_iff.mp empty]
      · exact absurd rfl there
  | cons c s ih =>
      unfold findStr at there
      split at there
      · rename_i starts
        exact (List.isPrefixOf_iff_prefix.mp starts).length_le
      · exact Nat.le_succ_of_le (ih there)

/-- A pattern that is found is found at the same place of a longer text. -/
theorem findStr_append {pattern s : Str} {i : ℕ} (more : Str)
    (there : findStr pattern s i ≠ npos) : findStr pattern (s ++ more) i = findStr pattern s i := by
  induction s generalizing i with
  | nil =>
      cases pattern with
      | nil => cases more <;> rfl
      | cons d pattern => exact absurd rfl there
  | cons c s ih =>
      have fits := length_le_of_findStr there
      have same : pattern.isPrefixOf (c :: (s ++ more)) = pattern.isPrefixOf (c :: s) := by
        rw [Bool.eq_iff_iff, List.isPrefixOf_iff_prefix, List.isPrefixOf_iff_prefix]
        refine ⟨fun starts => ?_, fun starts => starts.trans (List.prefix_append (c :: s) more)⟩
        exact List.prefix_of_prefix_length_le starts (List.prefix_append (c :: s) more) fits
      rw [List.cons_append]
      unfold findStr at there ⊢
      rw [same]
      split at there
      · rename_i starts
        rw [if_pos starts, if_pos starts]
      · rename_i later
        rw [if_neg later, if_neg later]
        exact ih there

/-- A text that ends before a character the pattern does not have begins with the pattern by
itself. -/
theorem isPrefixOf_append_cons {pattern : Str} {c : Char} (absent : c ∉ pattern) (s more : Str) :
    pattern.isPrefixOf (s ++ c :: more) = pattern.isPrefixOf s := by
  induction pattern generalizing s with
  | nil => cases s <;> rfl
  | cons d pattern ih =>
      obtain ⟨other, later⟩ := not_or.mp (mt List.mem_cons.mpr absent)
      cases s with
      | nil => simp [List.isPrefixOf, Ne.symm other]
      | cons e s => simp only [List.cons_append, List.isPrefixOf, ih later]

/-- A pattern is looked for in vain behind a character it does not have, if it does not stand
in what follows. -/
theorem findStr_append_cons {pattern : Str} {c : Char} {more : Str} (absent : c ∉ pattern)
    (nonempty : pattern ≠ []) (nowhere : ∀ j, findStr pattern (c :: more) j = npos) (s : Str)
    (i : ℕ) : findStr pattern (s ++ c :: more) i = findStr pattern s i := by
  induction s generalizing i with
  | nil =>
      rw [List.nil_append, nowhere, findStr, if_neg]
      rwa [List.isEmpty_iff]
  | cons d s ih =>
      rw [List.cons_append, findStr, findStr, ih, ← List.cons_append,
        isPrefixOf_append_cons absent]

/-! ## Optional positions -/

/-- The first position from `start` on that holds `c`, if there is one. -/
def findOpt (s : Str) (c : Char) (start : ℕ) : Option ℕ :=
  ((s.drop start).findIdx? (· == c)).map (start + ·)

/-- The first position at which `pattern` stands, if there is one. -/
def findStrOpt (pattern : Str) : Str → ℕ → Option ℕ
  | [], i => if pattern.isEmpty then some i else none
  | c :: s, i => if pattern.isPrefixOf (c :: s) then some i else findStrOpt pattern s (i + 1)

theorem find_eq_getD (s : Str) (c : Char) (start : ℕ) :
    find s c start = (findOpt s c start).getD npos := by
  unfold find findOpt
  cases (s.drop start).findIdx? (· == c) <;> rfl

theorem findStr_eq_getD (pattern s : Str) (i : ℕ) :
    findStr pattern s i = (findStrOpt pattern s i).getD npos := by
  induction s generalizing i with
  | nil =>
      unfold findStr findStrOpt
      split <;> rfl
  | cons c s ih =>
      unfold findStr findStrOpt
      split
      · rfl
      · exact ih (i + 1)

/-- A pattern that stands in a text stands inside it. -/
theorem lt_of_findStrOpt {pattern s : Str} {i position : ℕ} (nonempty : pattern ≠ [])
    (there : findStrOpt pattern s i = some position) : position < i + s.length := by
  induction s generalizing i with
  | nil =>
      rw [findStrOpt, if_neg (by rwa [List.isEmpty_iff])] at there
      cases there
  | cons c s ih =>
      rw [List.length_cons]
      unfold findStrOpt at there
      split at there
      · cases there
        omega
      · have := ih there
        omega

/-- A pattern is found in the texts that contain it. -/
theorem findStrOpt_ne_none_iff {pattern s : Str} {i : ℕ} :
    findStrOpt pattern s i ≠ none ↔ pattern <:+: s := by
  induction s generalizing i with
  | nil =>
      rw [findStrOpt, List.infix_nil]
      cases pattern with
      | nil => simp
      | cons d pattern => simp
  | cons c s ih =>
      rw [findStrOpt, List.infix_cons_iff, ← List.isPrefixOf_iff_prefix]
      split
      · rename_i starts
        exact iff_of_true (Option.some_ne_none i) (.inl starts)
      · rename_i later
        rw [ih, or_iff_right later]

/-- The character does not occur, or the text from its first occurrence on starts where the
search ends. -/
theorem findOpt_cases (s : Str) (c : Char) (start : ℕ) :
    findOpt s c start = none ∧ c ∉ s.drop start ∨
      ∃ position text, findOpt s c start = some position ∧ start ≤ position ∧
        position < s.length ∧ (s.drop start).dropWhile (· ≠ c) = c :: text ∧
        s.drop position = c :: text := by
  rcases split_first (s.drop start) c with absent | ⟨before, after, split, absent⟩
  · refine .inl ⟨?_, absent⟩
    rw [findOpt, findIdx?_of_not_mem absent, Option.map_none]
  · have there : s.drop (start + before.length) = c :: after := by
      rw [← List.drop_drop, split, List.drop_left]
    refine .inr ⟨start + before.length, after, ?_, Nat.le_add_right _ _, ?_, ?_, there⟩
    · simp [findOpt, split, List.findIdx?_append, findIdx?_of_not_mem absent, List.findIdx?_cons]
    · have long := congrArg List.length there
      rw [List.length_drop, List.length_cons] at long
      omega
    · rw [split, dropWhile_ne_append absent]

/-- For a search that answers `npos` the text from there on is empty where it finds nothing. -/
theorem find_cases (s : Str) (c : Char) (start : ℕ) :
    find s c start = npos ∧ (s.drop start).dropWhile (· ≠ c) = [] ∨
      find s c start < s.length ∧ ∃ text, (s.drop start).dropWhile (· ≠ c) = c :: text ∧
        s.drop (find s c start) = c :: text := by
  rw [find_eq_getD]
  rcases findOpt_cases s c start with ⟨none, absent⟩ | ⟨position, text, there, -, inside, rest⟩
  · rw [none]
    exact .inl ⟨rfl, dropWhile_ne_of_not_mem absent⟩
  · rw [there]
    exact .inr ⟨inside, text, rest⟩

/-- Dropping up to what a search answers is dropping up to the character. -/
theorem drop_find {s : Str} (c : Char) (start : ℕ) (bound : s.length < npos) :
    s.drop (find s c start) = (s.drop start).dropWhile (· ≠ c) := by
  rcases find_cases s c start with ⟨none, empty⟩ | ⟨-, text, same, there⟩
  · rw [none, empty, List.drop_eq_nil_of_le (Nat.le_of_lt bound)]
  · rw [there, same]

/-! ## Cutting -/

/-- `s.substr(pos, count)`. -/
def substr (s : Str) (pos : ℕ) (count : ℕ) : Except Fault Str :=
  if pos ≤ s.length then .ok ((s.drop pos).take count) else .error .outOfRange

/-- `s.substr(pos)`. -/
def substrFrom (s : Str) (pos : ℕ) : Except Fault Str :=
  if pos ≤ s.length then .ok (s.drop pos) else .error .outOfRange

/-- `string(s.begin() + first, s.begin() + last)`. -/
def range (s : Str) (first last : ℤ) : Except Fault Str :=
  if 0 ≤ first ∧ first ≤ last ∧ last ≤ s.length then
    .ok ((s.drop first.toNat).take (last - first).toNat)
  else
    .error .undefinedBehaviour

theorem substrFrom_of_le {s : Str} {pos : ℕ} (le : pos ≤ s.length) :
    substrFrom s pos = .ok (s.drop pos) := if_pos le

/-- A range inside the string is defined. -/
theorem range_of_bounds {s : Str} {first last : ℤ} (nonneg : 0 ≤ first) (le : first ≤ last)
    (inside : last ≤ s.length) :
    range s first last = .ok ((s.drop first.toNat).take (last - first).toNat) :=
  if_pos ⟨nonneg, le, inside⟩

/-- A range that starts before the string has no meaning. -/
theorem range_of_neg {s : Str} {first last : ℤ} (neg : first < 0) :
    range s first last = .error .undefinedBehaviour :=
  if_neg fun inside => absurd inside.1 (by omega)

/-- A range that is defined in a string is the same range of every longer
string. -/
theorem range_append {s : Str} {first last : ℤ} {piece : Str} (more : Str)
    (cut : range s first last = .ok piece) : range (s ++ more) first last = .ok piece := by
  unfold range at cut
  split at cut
  · rename_i inside
    obtain ⟨nonneg, le, within⟩ := inside
    have bound : first.toNat ≤ s.length := by omega
    rw [range_of_bounds nonneg le (by simp; omega), List.drop_append_of_le_length bound,
      List.take_append_of_le_length (by simp; omega)]
    exact cut
  · cases cut

/-- A range that is defined starts in the string, and ends behind its start. -/
theorem bounds_of_range {s : Str} {first last : ℤ} {piece : Str}
    (cut : range s first last = .ok piece) : 0 ≤ first ∧ first ≤ last := by
  unfold range at cut
  split at cut
  · rename_i within
    exact ⟨within.1, within.2.1⟩
  · cases cut

/-- A range of a string that ends inside a first part of it is the same range of that part. -/
theorem range_of_append {s more : Str} {first last : ℤ} {piece : Str}
    (cut : range (s ++ more) first last = .ok piece) (inside : last ≤ s.length) :
    range s first last = .ok piece := by
  have bounds := bounds_of_range cut
  have part := range_of_bounds bounds.1 bounds.2 inside
  rw [part, ← cut, range_append more part]

/-! ## Text -/

/-- `s.c_str()` as the system calls read it: up to the first zero byte. -/
def cStr (s : Str) : Str := s.takeWhile (· ≠ '\x00')

/-- `to_string` of a non-negative integer. -/
def decimal (n : ℕ) : Str := (Nat.repr n).toList

/-- The characters that `isspace` accepts. -/
def isSpace (c : Char) : Bool :=
  c == ' ' || c == '\t' || c == '\n' || c == '\x0b' || c == '\x0c' || c == '\r'

/-- The value of a numeral. -/
def numeral (digits : Str) : ℕ :=
  digits.foldl (fun value c => value * 10 + (c.toNat - '0'.toNat)) 0

/-- An optional sign, as a factor, and what follows it. -/
def signed : Str → ℤ × Str
  | '-' :: s => (-1, s)
  | '+' :: s => (1, s)
  | s => (1, s)

/-- `stoi(s)`. -/
def stoi (s : Str) : Except Fault ℤ :=
  let (sign, text) := signed (s.dropWhile isSpace)
  let digits := text.takeWhile Char.isDigit
  if digits = [] then .error .invalidArgument
  else
    let value := sign * numeral digits
    if -2 ^ 31 ≤ value ∧ value < 2 ^ 31 then .ok value else .error .outOfRange

end Cxx
