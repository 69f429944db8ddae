import Mathlib.Data.Int.ModEq
import Mathlib.Data.List.Forall2
import Mathlib.Order.Bounds.Basic
import Mathlib.Tactic.IntervalCases
import FastWebServer.Library.ByteMemory
import FastWebServer.Library.CxxString

/-!
# Packing integers

`pack` copies an integer in full and advances by the fewest bytes that hold it.
The code it returns is that count, or the count plus eight when the negated value
was packed. `unpack` reads as many bytes as the code says.

A value is packed as a natural number, its `magnitude`, and `pack_eq` says all
that a pack does in terms of it. Each copy overlaps the slots behind it, but the
bytes before it stay (`packAll_before`), and the code of a value reads as many
bytes as the value was packed to (`unpack_code`). So a list of values is read back
whatever is packed behind it (`packAll_unpackAll`).
-/

set_option autoImplicit false

namespace FastWebServer.Nanolog

open Bytes Cxx

/-! ## Integer types -/

/-- The integer types that are packed. -/
inductive IntType where
  | uint32
  | uint64
  | int32
  | int64
deriving Repr, DecidableEq

namespace IntType

/-- `sizeof(T)`. -/
def size : IntType → ℕ
  | .uint32 | .int32 => 4
  | .uint64 | .int64 => 8

/-- The least value. -/
def min : IntType → ℤ
  | .uint32 | .uint64 => 0
  | .int32 => -2 ^ 31
  | .int64 => -2 ^ 63

/-- The number of values. -/
def span (T : IntType) : ℤ := 256 ^ T.size

/-- `static_cast<T>(z)`. -/
def cast (T : IntType) (z : ℤ) : ℤ := T.min + (z - T.min) % T.span

theorem span_pos (T : IntType) : 0 < T.span := pow_pos (by decide) _

theorem cast_lower (T : IntType) (z : ℤ) : T.min ≤ T.cast z := by
  cases T <;> simp only [cast, min, span, size] <;> omega

theorem cast_upper (T : IntType) (z : ℤ) : T.cast z < T.min + T.span := by
  cases T <;> simp only [cast, min, span, size] <;> omega

/-- A cast changes a number by a multiple of the number of values. -/
theorem cast_modEq (T : IntType) (z : ℤ) : T.cast z ≡ z [ZMOD T.span] := by
  unfold cast
  calc T.min + (z - T.min) % T.span ≡ T.min + (z - T.min) [ZMOD T.span] :=
        (Int.mod_modEq _ _).add_left _
    _ = z := add_sub_cancel T.min z

/-- The cast is the one value of the type that is congruent to the number. -/
theorem cast_eq_of_modEq {T : IntType} {z v : ℤ} (lower : T.min ≤ v) (upper : v < T.min + T.span)
    (congruent : z ≡ v [ZMOD T.span]) : T.cast z = v := by
  have same : T.cast z ≡ v [ZMOD T.span] := (T.cast_modEq z).trans congruent
  have cast_lower := T.cast_lower z
  have cast_upper := T.cast_upper z
  rw [Int.modEq_iff_dvd] at same
  have zero : v - T.cast z = 0 := Int.eq_zero_of_abs_lt_dvd same (by rw [abs_lt]; omega)
  omega

/-- A number of the type is its own cast. -/
theorem cast_of_mem {T : IntType} {z : ℤ} (lower : T.min ≤ z) (upper : z < T.min + T.span) :
    T.cast z = z :=
  cast_eq_of_modEq lower upper rfl

theorem cast_congr {T : IntType} {z z' : ℤ} (congruent : z ≡ z' [ZMOD T.span]) :
    T.cast z = T.cast z' :=
  cast_eq_of_modEq (T.cast_lower z') (T.cast_upper z') (congruent.trans (T.cast_modEq z').symm)

/-- A cast through 64 bits is a cast, since no type is wider. -/
theorem cast_cast (T : IntType) (z : ℤ) : T.cast (IntType.int64.cast z) = T.cast z := by
  have divides : T.span ∣ IntType.int64.span := by cases T <;> decide
  exact cast_congr ((IntType.int64.cast_modEq z).of_dvd divides)

end IntType

/-- A value of one of the types. -/
structure Value where
  type : IntType
  val : ℤ
  lower : type.min ≤ val
  upper : val < type.min + type.span

/-! ## pack -/

/-- What `char **buffer` reaches: the memory, and the address where the next
value goes. -/
structure Cursor where
  memory : Memory
  position : ℕ

/-- The search for the fewest bytes that hold an unsigned value. -/
def fewestBytes (value : ℕ) : ℕ :=
  if value < 1 <<< 8 then 1
  else if value < 1 <<< 16 then 2
  else if value < 1 <<< 24 then 3
  else if value < 1 <<< 32 then 4
  else if value < 1 <<< 40 then 5
  else if value < 1 <<< 48 then 6
  else if value < 1 <<< 56 then 7
  else 8

/-- `pack<T>` for an unsigned type. -/
def packUnsigned (T : IntType) (buffer : Cursor) (value : ℤ) : ℕ × Cursor :=
  let numBytes := fewestBytes value.toNat
  (numBytes, ⟨store buffer.memory buffer.position T.size value.toNat, buffer.position + numBytes⟩)

/-- `pack` for a signed type: as the unsigned type `U`, negated when the value is
between `limit` and zero. -/
def packSigned (U : IntType) (limit : ℤ) (buffer : Cursor) (value : ℤ) : ℕ × Cursor :=
  if 0 ≤ value ∨ value ≤ limit then packUnsigned U buffer (U.cast value)
  else
    let packed := packUnsigned U buffer (U.cast (-value))
    (8 + packed.1, packed.2)

/-- `pack(char **, int32_t)`. -/
def packInt32 : Cursor → ℤ → ℕ × Cursor := packSigned .uint32 (-(1 <<< 24))

/-- `pack(char **, int64_t)`. -/
def packInt64 : Cursor → ℤ → ℕ × Cursor := packSigned .uint64 (-(1 <<< 56))

/-- The overload of `pack` that a value of its type selects. -/
def pack (buffer : Cursor) (value : Value) : ℕ × Cursor :=
  match value.type with
  | .uint32 => packUnsigned .uint32 buffer value.val
  | .uint64 => packUnsigned .uint64 buffer value.val
  | .int32 => packInt32 buffer value.val
  | .int64 => packInt64 buffer value.val

/-- Values packed one after the other, and the codes returned. -/
def packAll (buffer : Cursor) : List Value → List ℕ × Cursor
  | [] => ([], buffer)
  | value :: values =>
      let packed := pack buffer value
      let rest := packAll packed.2 values
      (packed.1 :: rest.1, rest.2)

/-! ## unpack -/

/-- `memcpy(&package, *data_array, num_bytes)` into an `int64_t` that is zero. -/
def copyPackage (memory : Memory) (dataArray numBytes : ℕ) : Except Crash ℤ :=
  if numBytes ≤ 8 then .ok (IntType.int64.cast (load memory dataArray numBytes))
  else .error .undefinedBehaviour

/-- `-package`. -/
def negPackage (package : ℤ) : Except Crash ℤ :=
  if package = IntType.int64.min then .error .undefinedBehaviour else .ok (-package)

/-- `unpack<T>` for an integer type: the value, and the advanced `*data_array`. -/
def unpack (T : IntType) (memory : Memory) (dataArray packCode : ℕ) : Except Crash (ℤ × ℕ) :=
  if packCode ≤ 8 then
    match copyPackage memory dataArray packCode with
    | .error crash => .error crash
    | .ok package => .ok (T.cast package, dataArray + packCode)
  else
    let numBytes := if packCode = 0 then 16 else 0x0f &&& (packCode - 8)
    match copyPackage memory dataArray numBytes with
    | .error crash => .error crash
    | .ok package =>
        match negPackage package with
        | .error crash => .error crash
        | .ok negated => .ok (T.cast negated, dataArray + numBytes)

/-- Values unpacked one after the other, with the type and the code of each. -/
def unpackAll (memory : Memory) (dataArray : ℕ) :
    List (IntType × ℕ) → Except Crash (List ℤ × ℕ)
  | [] => .ok ([], dataArray)
  | (T, packCode) :: rest =>
      match unpack T memory dataArray packCode with
      | .error crash => .error crash
      | .ok (value, dataArray) =>
          match unpackAll memory dataArray rest with
          | .error crash => .error crash
          | .ok (values, dataArray) => .ok (value :: values, dataArray)

/-! ## What a value is packed as -/

/-- What the search finds: the value fits this many bytes, and no fewer. -/
theorem fewestBytes_spec (value : ℕ) :
    ∃ k, fewestBytes value = k + 1 ∧ (value < 256 ^ 8 → value < 256 ^ (k + 1)) ∧
      (k = 0 ∨ 256 ^ k ≤ value) := by
  unfold fewestBytes
  split_ifs with one two three four five six seven
  · exact ⟨0, rfl, fun _ => one, .inl rfl⟩
  · exact ⟨1, rfl, fun _ => two, .inr (Nat.not_lt.mp one)⟩
  · exact ⟨2, rfl, fun _ => three, .inr (Nat.not_lt.mp two)⟩
  · exact ⟨3, rfl, fun _ => four, .inr (Nat.not_lt.mp three)⟩
  · exact ⟨4, rfl, fun _ => five, .inr (Nat.not_lt.mp four)⟩
  · exact ⟨5, rfl, fun _ => six, .inr (Nat.not_lt.mp five)⟩
  · exact ⟨6, rfl, fun _ => seven, .inr (Nat.not_lt.mp six)⟩
  · exact ⟨7, rfl, id, .inr (Nat.not_lt.mp seven)⟩

theorem fewestBytes_pos (value : ℕ) : 1 ≤ fewestBytes value := by
  obtain ⟨k, found, -⟩ := fewestBytes_spec value
  rw [found]
  exact Nat.le_add_left 1 k

/-- **The search finds the fewest bytes**, for every value of 64 bits. -/
theorem fewestBytes_le_iff {value : ℕ} (bound : value < 256 ^ 8) {count : ℕ} (pos : 1 ≤ count) :
    fewestBytes value ≤ count ↔ value < 256 ^ count := by
  obtain ⟨k, found, fits, needs⟩ := fewestBytes_spec value
  rw [found]
  constructor
  · intro enough
    exact (fits bound).trans_le (Nat.pow_le_pow_right (by decide) enough)
  · intro small
    rcases needs with rfl | needs
    · exact pos
    · exact (Nat.pow_lt_pow_iff_right (by decide)).mp (needs.trans_lt small)

namespace IntType

/-- Negative values up to here are packed without being negated. -/
def limit : IntType → ℤ
  | .uint32 | .uint64 => 0
  | .int32 => -2 ^ 24
  | .int64 => -2 ^ 56

/-- The limit of a signed type leaves its top byte free. -/
theorem limit_of_signed {T : IntType} (signed : T.min ≠ 0) :
    T.limit = -256 ^ (T.size - 1) ∧ T.min ≤ T.limit ∧ 256 ^ (T.size - 1) ≤ T.min + T.span := by
  cases T with
  | uint32 | uint64 => exact absurd rfl signed
  | int32 | int64 => decide

end IntType

namespace Value

/-- Whether the negated value is packed. -/
def negated (value : Value) : Bool := value.type.limit < value.val ∧ value.val < 0

/-- The natural number that is packed. -/
def magnitude (value : Value) : ℕ :=
  if value.negated then (-value.val).toNat else (value.val % value.type.span).toNat

/-- The number of bytes that a pack of the value advances by. -/
def width (value : Value) : ℕ := fewestBytes value.magnitude

/-- The code that a pack of the value returns. -/
def code (value : Value) : ℕ := if value.negated then 8 + value.width else value.width

theorem negated_iff (value : Value) :
    value.negated = true ↔ value.type.limit < value.val ∧ value.val < 0 := by
  simp [negated]

/-- The magnitude of a negated value. -/
theorem magnitude_of_negated {value : Value} (negated : value.negated = true) :
    (value.magnitude : ℤ) = -value.val := by
  have bounds := value.negated_iff.1 negated
  rw [magnitude, if_pos negated]
  omega

/-- The magnitude of a value that is not negated is congruent to it. -/
theorem magnitude_modEq {value : Value} (positive : value.negated = false) :
    (value.magnitude : ℤ) ≡ value.val [ZMOD value.type.span] := by
  rw [magnitude, positive, if_neg Bool.false_ne_true,
    Int.toNat_of_nonneg (Int.emod_nonneg _ value.type.span_pos.ne')]
  exact Int.mod_modEq _ _

/-- A magnitude fits the bytes that are copied. -/
theorem magnitude_lt (value : Value) : value.magnitude < 256 ^ value.type.size := by
  cases negated : value.negated with
  | true =>
      have bounds := value.negated_iff.1 negated
      have packed := magnitude_of_negated negated
      cases type : value.type <;> simp only [type, IntType.limit, IntType.size] at * <;> omega
  | false =>
      have below := Int.emod_lt_of_pos value.val value.type.span_pos
      rw [magnitude, negated, if_neg Bool.false_ne_true, Int.toNat_lt' (by positivity)]
      exact_mod_cast below

theorem magnitude_lt_span (value : Value) : (value.magnitude : ℤ) < value.type.span := by
  rw [IntType.span]
  exact_mod_cast value.magnitude_lt

/-- Only values of signed types are negated. -/
theorem signed_of_negated {value : Value} (negated : value.negated = true) :
    value.type.min ≠ 0 := by
  have bounds := value.negated_iff.1 negated
  have lower := value.lower
  omega

theorem width_pos (value : Value) : 1 ≤ value.width := fewestBytes_pos _

/-- A magnitude fits the bytes that are counted, and no fewer. -/
theorem width_le_iff (value : Value) {count : ℕ} (pos : 1 ≤ count) :
    value.width ≤ count ↔ value.magnitude < 256 ^ count := by
  have size : value.type.size ≤ 8 := by cases value.type <;> decide
  refine fewestBytes_le_iff (value.magnitude_lt.trans_le ?_) pos
  exact Nat.pow_le_pow_right (by decide) size

theorem width_le_size (value : Value) : value.width ≤ value.type.size :=
  (value.width_le_iff (by cases value.type <;> decide)).2 value.magnitude_lt

/-- A negated value leaves the top byte free. -/
theorem width_lt_size {value : Value} (negated : value.negated = true) :
    value.width < value.type.size := by
  have bounds := value.negated_iff.1 negated
  have size : 2 ≤ value.type.size := by cases value.type <;> decide
  have small : value.magnitude < 256 ^ (value.type.size - 1) := by
    have packed := magnitude_of_negated negated
    cases type : value.type <;> simp only [type, IntType.limit, IntType.size] at * <;> omega
  have fits := (value.width_le_iff (by omega)).2 small
  omega

end Value

/-- A pack of the magnitude advances by the width. -/
theorem packUnsigned_eq {T : IntType} {value : Value} (buffer : Cursor) {packed : ℤ}
    (size : T.size = value.type.size) (same : packed.toNat = value.magnitude) :
    packUnsigned T buffer packed = (value.width,
      ⟨store buffer.memory buffer.position value.type.size value.magnitude,
        buffer.position + value.width⟩) := by
  rw [packUnsigned, same, size, Value.width]

/-- A pack of an unsigned value. -/
theorem packUnsigned_val {value : Value} (buffer : Cursor) (unsigned : value.type.min = 0) :
    packUnsigned value.type buffer value.val = (value.code,
      ⟨store buffer.memory buffer.position value.type.size value.magnitude,
        buffer.position + value.width⟩) := by
  have lower := value.lower
  have upper := value.upper
  have positive : value.negated = false := by
    rw [Bool.eq_false_iff]
    intro negated
    have bounds := value.negated_iff.1 negated
    omega
  have same : value.val.toNat = value.magnitude := by
    rw [Value.magnitude, positive, if_neg Bool.false_ne_true, Int.emod_eq_of_lt] <;> omega
  rw [packUnsigned_eq buffer rfl same, Value.code, positive, if_neg Bool.false_ne_true]

/-- A pack of a signed value. -/
theorem packSigned_val {U : IntType} {value : Value} {limit : ℤ} (buffer : Cursor)
    (unsigned : U.min = 0) (size : U.size = value.type.size) (same : limit = value.type.limit) :
    packSigned U limit buffer value.val = (value.code,
      ⟨store buffer.memory buffer.position value.type.size value.magnitude,
        buffer.position + value.width⟩) := by
  have span : U.span = value.type.span := by rw [IntType.span, size, IntType.span]
  rw [packSigned, same]
  by_cases direct : 0 ≤ value.val ∨ value.val ≤ value.type.limit
  · have positive : value.negated = false := by
      rw [Bool.eq_false_iff]
      intro negated
      have bounds := value.negated_iff.1 negated
      omega
    have packed : (U.cast value.val).toNat = value.magnitude := by
      rw [Value.magnitude, positive, if_neg Bool.false_ne_true, IntType.cast, unsigned, span]
      simp
    rw [if_pos direct, packUnsigned_eq buffer size packed, Value.code, positive,
      if_neg Bool.false_ne_true]
  · have negated : value.negated = true := by
      rw [value.negated_iff]
      omega
    have packed : (U.cast (-value.val)).toNat = value.magnitude := by
      have magnitude := Value.magnitude_of_negated negated
      have fits := value.magnitude_lt_span
      rw [IntType.cast_of_mem] <;> omega
    rw [if_neg direct, packUnsigned_eq buffer size packed, Value.code, if_pos negated]

/-- **All that a pack does.** -/
theorem pack_eq (buffer : Cursor) (value : Value) :
    pack buffer value = (value.code,
      ⟨store buffer.memory buffer.position value.type.size value.magnitude,
        buffer.position + value.width⟩) := by
  cases type : value.type with
  | uint32 =>
      have packed := packUnsigned_val buffer (show value.type.min = 0 by rw [type]; rfl)
      simp only [pack, type] at packed ⊢
      exact packed
  | uint64 =>
      have packed := packUnsigned_val buffer (show value.type.min = 0 by rw [type]; rfl)
      simp only [pack, type] at packed ⊢
      exact packed
  | int32 =>
      have packed := @packSigned_val .uint32 value (-(1 <<< 24)) buffer rfl (by rw [type]; rfl)
        (by rw [type]; rfl)
      simp only [pack, type] at packed ⊢
      exact packed
  | int64 =>
      have packed := @packSigned_val .uint64 value (-(1 <<< 56)) buffer rfl (by rw [type]; rfl)
        (by rw [type]; rfl)
      simp only [pack, type] at packed ⊢
      exact packed

theorem pack_position (buffer : Cursor) (value : Value) :
    (pack buffer value).2.position = buffer.position + value.width := by
  rw [pack_eq]

/-! ## Reading a value back -/

namespace Value

/-- What the code of the value makes of the number `raw` in the type `T`. -/
def readAs (value : Value) (T : IntType) (raw : ℕ) : ℤ :=
  T.cast (if value.negated then -raw else raw)

/-- The code of a value reads its magnitude as the value. -/
theorem readAs_magnitude (value : Value) :
    value.readAs value.type value.magnitude = value.val := by
  rw [readAs]
  cases negated : value.negated with
  | false => exact IntType.cast_eq_of_modEq value.lower value.upper (magnitude_modEq negated)
  | true =>
      rw [if_pos rfl, magnitude_of_negated negated, neg_neg]
      exact IntType.cast_of_mem value.lower value.upper

theorem size_le (value : Value) : value.type.size ≤ 8 := by cases value.type <;> decide

end Value

/-- **Unpacking with the code of a value** reads as many bytes as it was packed
to, whatever they are. -/
theorem unpack_code (T : IntType) (memory : Memory) (dataArray : ℕ) (value : Value) :
    unpack T memory dataArray value.code =
      .ok (value.readAs T (load memory dataArray value.width), dataArray + value.width) := by
  have pos := value.width_pos
  have raw := load_lt memory dataArray value.width
  cases negated : value.negated with
  | false =>
      have short : value.width ≤ 8 := value.width_le_size.trans value.size_le
      simp only [unpack, Value.code, Value.readAs, negated, Bool.false_eq_true, if_false, short,
        if_true, copyPackage, IntType.cast_cast]
  | true =>
      have short : value.width ≤ 7 := by
        have free := Value.width_lt_size negated
        have size := value.size_le
        omega
      have mask : 0x0f &&& (8 + value.width - 8) = value.width := by
        generalize value.width = width at short
        interval_cases width <;> rfl
      have bound : (load memory dataArray value.width : ℤ) < 2 ^ 56 := by
        exact_mod_cast raw.trans_le (Nat.pow_le_pow_right (by decide) short)
      have read : IntType.int64.cast (load memory dataArray value.width) =
          load memory dataArray value.width := by
        refine IntType.cast_of_mem ?_ ?_ <;> simp only [IntType.min, IntType.span, IntType.size] <;>
          omega
      have notLeast : (load memory dataArray value.width : ℤ) ≠ IntType.int64.min := by
        simp only [IntType.min]
        omega
      have long : ¬ 8 + value.width ≤ 8 := by omega
      have nonzero : 8 + value.width ≠ 0 := by omega
      simp only [unpack, Value.code, Value.readAs, negated, if_true, long, if_false, nonzero, mask,
        copyPackage, value.width_le_size.trans value.size_le, read, negPackage, notLeast]

/-! ## Lists of values -/

theorem packAll_codes (buffer : Cursor) (values : List Value) :
    (packAll buffer values).1 = values.map Value.code := by
  induction values generalizing buffer with
  | nil => rfl
  | cons value values ih => rw [packAll, ih, pack_eq, List.map_cons]

theorem packAll_position (buffer : Cursor) (values : List Value) :
    (packAll buffer values).2.position = buffer.position + (values.map Value.width).sum := by
  induction values generalizing buffer with
  | nil => rfl
  | cons value values ih =>
      rw [packAll, ih, pack_position, List.map_cons, List.sum_cons, Nat.add_assoc]

/-- **No pack changes a byte before its start.** -/
theorem packAll_before {buffer : Cursor} {values : List Value} {a : ℕ}
    (before : a < buffer.position) : (packAll buffer values).2.memory a = buffer.memory a := by
  induction values generalizing buffer with
  | nil => rfl
  | cons value values ih =>
      have later : a < (pack buffer value).2.position := by
        rw [pack_position]
        omega
      rw [packAll, ih later, pack_eq]
      exact store_outside (.inl before)

/-- A value stands where it was packed, whatever is packed behind it. -/
theorem load_packAll {buffer : Cursor} {value : Value} {values : List Value} {memory : Memory}
    (same : ∀ a, buffer.position ≤ a → a < buffer.position + value.width →
      memory a = (packAll buffer (value :: values)).2.memory a) :
    load memory buffer.position value.width = value.magnitude := by
  have own : load memory buffer.position value.width =
      load (pack buffer value).2.memory buffer.position value.width := by
    refine load_congr fun a lower upper => ?_
    have behind : a < (pack buffer value).2.position := by rwa [pack_position]
    rw [same a lower upper, packAll, packAll_before behind]
  rw [own, pack_eq, load_store value.width_le_size]
  exact Nat.mod_eq_of_lt ((value.width_le_iff value.width_pos).1 le_rfl)

/-- Values are unpacked from every memory that holds the bytes they were packed
to. -/
theorem unpackAll_of_same {buffer : Cursor} {values : List Value} {memory : Memory}
    (same : ∀ a, buffer.position ≤ a → a < (packAll buffer values).2.position →
      memory a = (packAll buffer values).2.memory a) :
    unpackAll memory buffer.position ((values.map Value.type).zip (values.map Value.code)) =
      .ok (values.map Value.val, (packAll buffer values).2.position) := by
  induction values generalizing buffer with
  | nil => rfl
  | cons value values ih =>
      have position := packAll_position buffer (value :: values)
      rw [List.map_cons, List.sum_cons] at position
      have first := unpack_code value.type memory buffer.position value
      rw [load_packAll fun a lower upper => same a lower (by omega), value.readAs_magnitude] at first
      have next := pack_position buffer value
      have rest := @ih (pack buffer value).2 fun a lower upper => same a (by omega) upper
      rw [next] at rest
      simp only [List.map_cons, List.zip_cons_cons, unpackAll, first, rest, packAll]

/-- The code reports the fewest bytes that hold the value, or, with eight added,
the negated value. -/
def ReportsFewest (value : Value) (code : ℕ) : Prop :=
  (0 ≤ value.val → IsLeast {count : ℕ | 1 ≤ count ∧ value.val < 256 ^ count} code) ∧
  (value.type.limit < value.val → value.val < 0 →
    ∃ count, code = 8 + count ∧ IsLeast {count : ℕ | 1 ≤ count ∧ -value.val < 256 ^ count} count)

theorem isLeast_width (value : Value) :
    IsLeast {count : ℕ | 1 ≤ count ∧ (value.magnitude : ℤ) < 256 ^ count} value.width := by
  constructor
  · exact ⟨value.width_pos, by exact_mod_cast (value.width_le_iff value.width_pos).1 le_rfl⟩
  · rintro count ⟨pos, fits⟩
    exact (value.width_le_iff pos).2 (by exact_mod_cast fits)

theorem code_reportsFewest (value : Value) : ReportsFewest value value.code := by
  have least := isLeast_width value
  have upper := value.upper
  constructor
  · intro nonneg
    have positive : value.negated = false := by
      rw [Bool.eq_false_iff]
      intro negated
      have bounds := value.negated_iff.1 negated
      omega
    have signed : value.val < value.type.span := by
      have nonpos : value.type.min ≤ 0 := by cases value.type <;> decide
      omega
    have same : (value.magnitude : ℤ) = value.val := by
      rw [Value.magnitude, positive, if_neg Bool.false_ne_true, Int.emod_eq_of_lt nonneg signed,
        Int.toNat_of_nonneg nonneg]
    rw [same] at least
    rwa [Value.code, positive, if_neg Bool.false_ne_true]
  · intro above neg
    have negated := value.negated_iff.2 ⟨above, neg⟩
    rw [Value.magnitude_of_negated negated] at least
    exact ⟨value.width, by rw [Value.code, if_pos negated], least⟩

theorem code_range (value : Value) : 1 ≤ value.code ∧ value.code ≤ 15 := by
  have pos := value.width_pos
  have size := value.size_le
  have short := value.width_le_size
  rw [Value.code]
  split
  · rename_i negated
    have free := Value.width_lt_size negated
    omega
  · omega

/-- **Packed values are read back**, whatever is packed behind them. Every code is
in `1..15` and reports the fewest bytes, and the values are read from the
beginning of the buffer over exactly the bytes that were packed. -/
theorem packAll_unpackAll (buffer : Cursor) (values : List Value) :
    List.Forall₂ (fun value code => 1 ≤ code ∧ code ≤ 15 ∧ ReportsFewest value code) values
        (packAll buffer values).1 ∧
      ∀ later, unpackAll (packAll (packAll buffer values).2 later).2.memory buffer.position
          ((values.map Value.type).zip (packAll buffer values).1) =
        .ok (values.map Value.val, (packAll buffer values).2.position) := by
  rw [packAll_codes]
  constructor
  · rw [List.forall₂_map_right_iff, List.forall₂_same]
    exact fun value _ => ⟨(code_range value).1, (code_range value).2, code_reportsFewest value⟩
  · exact fun later => unpackAll_of_same fun a _ upper => packAll_before upper

end FastWebServer.Nanolog
