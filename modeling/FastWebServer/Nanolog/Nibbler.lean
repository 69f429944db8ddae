import Mathlib.Algebra.Order.BigOperators.Group.List
import Mathlib.Algebra.Group.Action.Defs
import FastWebServer.Nanolog.Packer

/-!
# Reading a stream of nibbles

A package is stored as the codes of its values, two to a byte, and the packed
bytes behind them. `Nibbler` reads the values in order, with one code for each.

`get_next` means to switch between the first and the second nibble of a byte, but
`is_first_nibble != is_first_nibble` compares and stores nothing. So every value
is read with the first code, at multiples of the first width (`getAll_eq`).

A package is therefore read back when all its values have the code of the first.
That is the only way, except that a first value packed negated reads some
unsigned values right that are packed in full (`WrapsRight`, `nibbler_decodes_iff`).
-/

set_option autoImplicit false

namespace FastWebServer.Nanolog

open Bytes Cxx

/-! ## Nibbles -/

/-- The nibbles of one byte: `first` are the low four bits. -/
structure TwoNibbles where
  first : ℕ
  second : ℕ
deriving Repr, DecidableEq

/-- `nibbles[i]`. -/
def twoNibbles (memory : Memory) (nibbles i : ℕ) : TwoNibbles :=
  ⟨(memory (nibbles + i)).toNat % 16, (memory (nibbles + i)).toNat / 16⟩

/-- What one nibble contributes to the size of the package. -/
def addNibble (size : UInt32) (nibble : ℕ) : UInt32 :=
  let size := if nibble = 0 then size + 16 else size
  if 0x8 < nibble then size - 8 else size

/-- The loop of `get_size_of_package` over the full bytes from `i` on. -/
def sizeOfFullBytes (memory : Memory) (nibbles i : ℕ) : ℕ → UInt32 → UInt32
  | 0, size => size
  | count + 1, size =>
      let pair := twoNibbles memory nibbles i
      let size := size + UInt32.ofNat (pair.first + pair.second)
      sizeOfFullBytes memory nibbles (i + 1) count (addNibble (addNibble size pair.first) pair.second)

/-- `get_size_of_package`. -/
def getSizeOfPackage (memory : Memory) (nibbles numNibbles : ℕ) : UInt32 :=
  let size := sizeOfFullBytes memory nibbles 0 (numNibbles / 2) 0
  if numNibbles % 2 = 1 then
    let pair := twoNibbles memory nibbles (numNibbles / 2)
    addNibble (size + UInt32.ofNat pair.first) pair.first
  else size

/-! ## Nibbler -/

structure Nibbler where
  nibblePosition : ℕ
  isFirstNibble : Bool
  numNibbles : ℕ
  currentPackage : ℕ
  endOfPackage : ℕ
deriving Repr, DecidableEq

namespace Nibbler

/-- The constructor. `num_nibbles + 1` is an `int`. -/
def new (memory : Memory) (nibbleStart numNibbles : ℕ) : Except Crash Nibbler :=
  if numNibbles + 1 < 2 ^ 31 then
    .ok {
      nibblePosition := nibbleStart
      isFirstNibble := true
      numNibbles := numNibbles
      currentPackage := nibbleStart + (numNibbles + 1) / 2
      endOfPackage := nibbleStart + (numNibbles + 1) / 2 +
        (getSizeOfPackage memory nibbleStart numNibbles).toNat }
  else .error .undefinedBehaviour

/-- `get_next<T>`. -/
def getNext (memory : Memory) (T : IntType) (nibbler : Nibbler) : Except Crash (ℤ × Nibbler) :=
  if nibbler.currentPackage < nibbler.endOfPackage then
    let pair := twoNibbles memory nibbler.nibblePosition 0
    let nibble := if nibbler.isFirstNibble then pair.first else pair.second
    match unpack T memory nibbler.currentPackage nibble with
    | .error crash => .error crash
    | .ok (next, currentPackage) =>
        let nibbler := { nibbler with currentPackage := currentPackage }
        -- the comparison that follows in the source changes nothing
        if nibbler.isFirstNibble then .ok (next, nibbler)
        else .ok (next, { nibbler with nibblePosition := nibbler.nibblePosition + 1 })
  else .error .assertion

/-- Successive calls of `get_next`. -/
def getAll (memory : Memory) : List IntType → Nibbler → Except Crash (List ℤ × Nibbler)
  | [], nibbler => .ok ([], nibbler)
  | T :: types, nibbler =>
      match nibbler.getNext memory T with
      | .error crash => .error crash
      | .ok (next, nibbler) =>
          match getAll memory types nibbler with
          | .error crash => .error crash
          | .ok (values, nibbler) => .ok (next :: values, nibbler)

end Nibbler

/-! ## Packages -/

/-- The `i`-th nibble of a stream. -/
def nibbleAt (memory : Memory) (nibbles i : ℕ) : ℕ :=
  if i % 2 = 0 then (twoNibbles memory nibbles (i / 2)).first
  else (twoNibbles memory nibbles (i / 2)).second

/-- Where the packed bytes of `count` values stand. -/
def packageStart (start count : ℕ) : ℕ := start + (count + 1) / 2

/-- The number of packed bytes. -/
def packedSize (values : List Value) : ℕ := (values.map Value.width).sum

/-- The memory holds the values from `start` on: their codes as nibbles, and
behind them the bytes that packing them writes. A nibble that no value has may be
anything, and so may the memory behind. -/
structure Holds (memory : Memory) (start : ℕ) (values : List Value) : Prop where
  nibbles : ∀ i (inside : i < values.length),
    nibbleAt memory start i = (values.get ⟨i, inside⟩).code
  bytes : ∃ scratch : Memory, ∀ a, packageStart start values.length ≤ a →
    a < (packAll ⟨scratch, packageStart start values.length⟩ values).2.position →
    memory a = (packAll ⟨scratch, packageStart start values.length⟩ values).2.memory a

/-- The reader returns the values, no assertion fails, and the reader ends at the
end of the package. -/
def Decodes (memory : Memory) (start : ℕ) (values : List Value) : Prop :=
  ∃ nibbler last, Nibbler.new memory start values.length = .ok nibbler ∧
    nibbler.getAll memory (values.map Value.type) = .ok (values.map Value.val, last) ∧
    last.currentPackage = last.endOfPackage

/-! ## The size of a package -/

theorem nibbleAt_first (memory : Memory) (nibbles i : ℕ) :
    (twoNibbles memory nibbles i).first = nibbleAt memory nibbles (2 * i) := by
  simp [nibbleAt]

theorem nibbleAt_second (memory : Memory) (nibbles i : ℕ) :
    (twoNibbles memory nibbles i).second = nibbleAt memory nibbles (2 * i + 1) := by
  have half : (2 * i + 1) / 2 = i := by omega
  simp [nibbleAt, half]

theorem addNibble_add (size more : UInt32) (nibble : ℕ) :
    addNibble (size + more) nibble = addNibble size nibble + more := by
  unfold addNibble
  split <;> split <;> grind

/-- A code contributes the width of its value. -/
theorem addNibble_code (size : UInt32) (value : Value) :
    addNibble (size + UInt32.ofNat value.code) value.code = size + UInt32.ofNat value.width := by
  have pos := value.width_pos
  have short := value.width_le_size.trans value.size_le
  rw [addNibble, Value.code]
  cases value.negated with
  | false =>
      have nonzero : value.width ≠ 0 := by omega
      have low : ¬ 8 < value.width := by omega
      simp only [Bool.false_eq_true, if_false, nonzero, low]
  | true =>
      have nonzero : 8 + value.width ≠ 0 := by omega
      have high : 8 < 8 + value.width := by omega
      simp only [if_true, nonzero, if_false, high, UInt32.ofNat_add]
      grind

section Widths

variable {Packed : Type} {code width : Packed → ℕ}

/-- **The loop adds up the widths**, if each nibble contributes the width of what it stands for. -/
theorem sizeOfFullBytes_eq
    (adds : ∀ (size : UInt32) (x : Packed),
      addNibble (size + UInt32.ofNat (code x)) (code x) = size + UInt32.ofNat (width x))
    {memory : Memory} {nibbles : ℕ} : ∀ (values : List Packed) (i : ℕ) (size : UInt32),
    (∀ k (inside : k < values.length),
      nibbleAt memory nibbles (2 * i + k) = code (values.get ⟨k, inside⟩)) →
    (let size := sizeOfFullBytes memory nibbles i (values.length / 2) size
      if values.length % 2 = 1 then
        let pair := twoNibbles memory nibbles (i + values.length / 2)
        addNibble (size + UInt32.ofNat pair.first) pair.first
      else size) = size + UInt32.ofNat (values.map width).sum
  | [], i, size, _ => by simp [sizeOfFullBytes]
  | [value], i, size, codes => by
      have first : nibbleAt memory nibbles (2 * i) = code value := codes 0 (by simp)
      simp [sizeOfFullBytes, nibbleAt_first, first, adds]
  | first :: second :: values, i, size, codes => by
      have nibble : nibbleAt memory nibbles (2 * i) = code first := codes 0 (by simp)
      have nibble' : nibbleAt memory nibbles (2 * i + 1) = code second := codes 1 (by simp)
      have rest := sizeOfFullBytes_eq adds values (i + 1)
        (size + UInt32.ofNat (width first) + UInt32.ofNat (width second)) fun k inside => by
          have later := codes (k + 2) (by simpa using inside)
          rw [show 2 * (i + 1) + k = 2 * i + (k + 2) by omega, later]
          rfl
      have half : (first :: second :: values).length / 2 = values.length / 2 + 1 := by
        simp only [List.length_cons]
        omega
      have parity : (first :: second :: values).length % 2 = values.length % 2 := by
        simp only [List.length_cons]
        omega
      have both : addNibble (addNibble (size + UInt32.ofNat (code first + code second))
          (code first)) (code second) =
            size + UInt32.ofNat (width first) + UInt32.ofNat (width second) := by
        rw [UInt32.ofNat_add, ← UInt32.add_assoc, addNibble_add, adds, adds]
      rw [half, parity, sizeOfFullBytes, nibbleAt_first, nibbleAt_second, nibble, nibble', both,
        show i + (values.length / 2 + 1) = i + 1 + values.length / 2 by omega, rest]
      simp only [List.map_cons, List.sum_cons, UInt32.ofNat_add]
      grind

/-- **The size of a package** is the sum of the widths, where an `uint32_t` holds it. -/
theorem getSizeOfPackage_eq_sum
    (adds : ∀ (size : UInt32) (x : Packed),
      addNibble (size + UInt32.ofNat (code x)) (code x) = size + UInt32.ofNat (width x))
    {memory : Memory} {nibbles : ℕ} {values : List Packed}
    (codes : ∀ i (inside : i < values.length),
      nibbleAt memory nibbles i = code (values.get ⟨i, inside⟩))
    (bound : (values.map width).sum < 2 ^ 32) :
    (getSizeOfPackage memory nibbles values.length).toNat = (values.map width).sum := by
  have sum := sizeOfFullBytes_eq adds values 0 0 fun k inside => by simpa using codes k inside
  simp only [Nat.zero_add, UInt32.zero_add] at sum
  rw [getSizeOfPackage]
  simp only [sum, UInt32.toNat_ofNat']
  omega

end Widths

theorem getSizeOfPackage_eq {memory : Memory} {start : ℕ} {values : List Value}
    (holds : Holds memory start values) (bound : packedSize values < 2 ^ 31) :
    (getSizeOfPackage memory start values.length).toNat = packedSize values :=
  getSizeOfPackage_eq_sum addNibble_code holds.nibbles (bound.trans (by decide))

/-! ## What the reader returns -/

/-- A package cut into pieces of the first width, all read with the first code. -/
def readPieces (memory : Memory) (first : Value) : ℕ → List IntType → List ℤ
  | _, [] => []
  | position, T :: types =>
      first.readAs T (load memory position first.width) ::
        readPieces memory first (position + first.width) types

namespace Nibbler

/-- At a first nibble the reader stays at it. -/
theorem getNext_first {memory : Memory} {nibbler : Nibbler} {first : Value}
    (atFirst : nibbler.isFirstNibble = true)
    (code : nibbleAt memory nibbler.nibblePosition 0 = first.code) (T : IntType) :
    nibbler.getNext memory T =
      if nibbler.currentPackage < nibbler.endOfPackage then
        .ok (first.readAs T (load memory nibbler.currentPackage first.width),
          { nibbler with currentPackage := nibbler.currentPackage + first.width })
      else .error .assertion := by
  simp only [getNext, atFirst, if_true, nibbleAt_first, Nat.mul_zero, code, unpack_code]

/-- **The values are read in pieces of the first width**, if they are read at all. -/
theorem getAll_ok {memory : Memory} {nibbler last : Nibbler} {first : Value}
    {types : List IntType} {values : List ℤ} (atFirst : nibbler.isFirstNibble = true)
    (code : nibbleAt memory nibbler.nibblePosition 0 = first.code)
    (read : nibbler.getAll memory types = .ok (values, last)) :
    values = readPieces memory first nibbler.currentPackage types ∧
      last = { nibbler with
        currentPackage := nibbler.currentPackage + types.length * first.width } := by
  induction types generalizing nibbler values with
  | nil =>
      cases read
      simp [readPieces]
  | cons T types ih =>
      rw [getAll, getNext_first atFirst code] at read
      split at read
      · cases read
      · rename_i next moved one
        split at one
        · cases one
          split at read
          · cases read
          · rename_i later stands rest
            cases read
            obtain ⟨pieces, stands⟩ := @ih
              { nibbler with currentPackage := nibbler.currentPackage + first.width } _
              atFirst code rest
            refine ⟨by rw [pieces, readPieces], ?_⟩
            rw [stands, List.length_cons, Nat.succ_mul, Nat.add_assoc, Nat.add_comm first.width]
        · cases one

/-- A reader with enough bytes before the end of its package reads them all. -/
theorem getAll_of_room {memory : Memory} {nibbler : Nibbler} {first : Value}
    {types : List IntType} (atFirst : nibbler.isFirstNibble = true)
    (code : nibbleAt memory nibbler.nibblePosition 0 = first.code)
    (room : nibbler.currentPackage + types.length * first.width ≤ nibbler.endOfPackage) :
    nibbler.getAll memory types = .ok (readPieces memory first nibbler.currentPackage types,
      { nibbler with
        currentPackage := nibbler.currentPackage + types.length * first.width }) := by
  induction types generalizing nibbler with
  | nil => simp [getAll, readPieces]
  | cons T types ih =>
      have pos := first.width_pos
      rw [List.length_cons, Nat.succ_mul] at room
      have before : nibbler.currentPackage < nibbler.endOfPackage := by omega
      have rest := @ih { nibbler with currentPackage := nibbler.currentPackage + first.width }
        atFirst code (by simp only; omega)
      rw [getAll, getNext_first atFirst code, if_pos before]
      simp only [rest, readPieces, List.length_cons, Nat.succ_mul]
      rw [Nat.add_assoc, Nat.add_comm first.width]

end Nibbler

/-- **When the reader returns the values**: when the pieces of the first width
read as the values and cover the package. -/
theorem decodes_iff_pieces {memory : Memory} {start : ℕ} {first : Value} {values : List Value}
    (holds : Holds memory start (first :: values))
    (bound : packedSize (first :: values) < 2 ^ 31) :
    Decodes memory start (first :: values) ↔
      (first :: values).length + 1 < 2 ^ 31 ∧
        readPieces memory first (packageStart start (first :: values).length)
          ((first :: values).map Value.type) = (first :: values).map Value.val ∧
        (first :: values).length * first.width = packedSize (first :: values) := by
  have size := getSizeOfPackage_eq holds bound
  have code : nibbleAt memory start 0 = first.code := holds.nibbles 0 (by simp)
  constructor
  · rintro ⟨nibbler, last, made, read, ended⟩
    rw [Nibbler.new] at made
    split at made
    · rename_i short
      cases made
      obtain ⟨pieces, rfl⟩ := Nibbler.getAll_ok rfl code read
      rw [List.length_map, size] at ended
      exact ⟨short, pieces.symm, Nat.add_left_cancel ended⟩
    · cases made
  · rintro ⟨short, pieces, covered⟩
    have room : packageStart start (first :: values).length +
          ((first :: values).map Value.type).length * first.width ≤
        packageStart start (first :: values).length +
          (getSizeOfPackage memory start (first :: values).length).toNat := by
      rw [List.length_map, size, covered]
    have read := @Nibbler.getAll_of_room memory
      { nibblePosition := start
        isFirstNibble := true
        numNibbles := (first :: values).length
        currentPackage := packageStart start (first :: values).length
        endOfPackage := packageStart start (first :: values).length +
          (getSizeOfPackage memory start (first :: values).length).toNat }
      first ((first :: values).map Value.type) rfl code room
    rw [pieces] at read
    exact ⟨_, _, if_pos short, read, by simp only [List.length_map, size, covered]⟩

/-! ## When the pieces are the values -/

/-- The first code reads the value right where it is packed: the value is packed
to as many bytes, and it is negated as the first one is, or it is its own negative
in its type. -/
def ReadAlike (first value : Value) : Prop :=
  value.width = first.width ∧
    (value.negated = first.negated ∨
      first.negated = true ∧ value.type.cast (-value.val) = value.val)

theorem readAs_magnitude_iff {first value : Value} :
    first.readAs value.type value.magnitude = value.val ↔
      value.negated = first.negated ∨
        first.negated = true ∧ value.type.cast (-value.val) = value.val := by
  by_cases same : value.negated = first.negated
  · refine iff_of_true ?_ (.inl same)
    rw [Value.readAs, ← same]
    exact value.readAs_magnitude
  · cases negated : first.negated with
    | false =>
        have negative : value.negated = true := by simpa [negated] using same
        have below := value.negated_iff.1 negative
        have packed := Value.magnitude_of_negated negative
        obtain ⟨limit, least, most⟩ := IntType.limit_of_signed (Value.signed_of_negated negative)
        refine iff_of_false ?_ (by simp [negative])
        rw [Value.readAs, negated, if_neg Bool.false_ne_true,
          IntType.cast_of_mem (by omega) (by omega)]
        omega
    | true =>
        have positive : value.negated = false := by simpa [negated] using same
        have opposite : -(value.magnitude : ℤ) ≡ -value.val [ZMOD value.type.span] :=
          (Value.magnitude_modEq positive).neg
        rw [Value.readAs, negated, if_pos rfl, IntType.cast_congr opposite]
        simp [positive]

/-- A value that the first code reads right from fewer bytes than it is packed to
is unsigned, and the first value is packed negated. -/
theorem width_le_of_readAs {first value : Value} {raw : ℕ} (short : raw < 256 ^ first.width)
    (read : first.readAs value.type raw = value.val) :
    value.width ≤ first.width ∨ first.negated = true ∧ value.type.min = 0 := by
  by_contra neither
  rw [not_or, not_le] at neither
  obtain ⟨wide, signed⟩ := neither
  have larger : raw < value.magnitude := by
    have tooLong := mt (value.width_le_iff first.width_pos).2 (by omega)
    omega
  have inside : (raw : ℤ) < 256 ^ (value.type.size - 1) := by
    have size := value.width_le_size
    exact_mod_cast short.trans_le (Nat.pow_le_pow_right (by decide) (by omega))
  have fits := value.magnitude_lt_span
  cases negated : first.negated with
  | false =>
      rw [Value.readAs, negated, if_neg Bool.false_ne_true] at read
      cases negative : value.negated with
      | false =>
          have congruent : (raw : ℤ) ≡ value.magnitude [ZMOD value.type.span] :=
            ((IntType.cast_modEq _ _).symm.trans (read ▸ Int.ModEq.rfl)).trans
              (Value.magnitude_modEq negative).symm
          rw [Int.ModEq, Int.emod_eq_of_lt (by omega) (by omega),
            Int.emod_eq_of_lt (by omega) fits] at congruent
          omega
      | true =>
          have below := value.negated_iff.1 negative
          obtain ⟨limit, least, most⟩ := IntType.limit_of_signed (Value.signed_of_negated negative)
          rw [IntType.cast_of_mem (by omega) (by omega)] at read
          omega
  | true =>
      have signed : value.type.min ≠ 0 := fun unsigned => signed ⟨negated, unsigned⟩
      obtain ⟨limit, least, most⟩ := IntType.limit_of_signed signed
      rw [Value.readAs, negated, if_pos rfl, IntType.cast_of_mem (by omega) (by omega)] at read
      by_cases zero : value.val = 0
      · have none : value.negated = false := by simp [Value.negated, zero]
        have nothing : value.magnitude = 0 := by simp [Value.magnitude, none, zero]
        omega
      · have negative := value.negated_iff.2 ⟨by omega, by omega⟩
        have packed := Value.magnitude_of_negated negative
        omega

/-- Every value is read from some piece. -/
theorem readPieces_mem {memory : Memory} {first : Value} {position : ℕ} {values : List Value}
    (pieces : readPieces memory first position (values.map Value.type) = values.map Value.val) :
    ∀ value ∈ values, ∃ raw < 256 ^ first.width, first.readAs value.type raw = value.val := by
  induction values generalizing position with
  | nil => exact fun value member => absurd member List.not_mem_nil
  | cons value values ih =>
      simp only [List.map_cons, readPieces, List.cons.injEq] at pieces
      intro other member
      rcases List.mem_cons.1 member with rfl | later
      · exact ⟨_, load_lt _ _ _, pieces.1⟩
      · exact ih pieces.2 other later

/-- Pieces of values that are all packed to the first width are their own bytes. -/
theorem readPieces_aligned {memory : Memory} {first : Value} {buffer : Cursor}
    {values : List Value} (aligned : ∀ value ∈ values, value.width = first.width)
    (same : ∀ a, buffer.position ≤ a → a < (packAll buffer values).2.position →
      memory a = (packAll buffer values).2.memory a) :
    readPieces memory first buffer.position (values.map Value.type) = values.map Value.val ↔
      ∀ value ∈ values, first.readAs value.type value.magnitude = value.val := by
  induction values generalizing buffer with
  | nil => simp [readPieces]
  | cons value values ih =>
      have position := packAll_position buffer (value :: values)
      rw [List.map_cons, List.sum_cons] at position
      have width := aligned value (by simp)
      have own := load_packAll fun a lower upper => same a lower (by omega)
      have rest := @ih (pack buffer value).2 (fun other member => aligned other (by simp [member]))
        fun a lower upper => same a (by rw [pack_position] at lower; omega) upper
      rw [pack_position, width] at rest
      rw [List.map_cons, readPieces, List.map_cons, List.cons.injEq, List.forall_mem_cons, rest,
        ← width, own]

/-- Widths that are at most the first width and add up to as much are the first
width. -/
theorem aligned_of_covered {first : Value} {values : List Value}
    (narrow : ∀ value ∈ values, value.width ≤ first.width)
    (covered : values.length * first.width = packedSize values) :
    ∀ value ∈ values, value.width = first.width := by
  intro value member
  by_contra unequal
  have less : (values.map Value.width).sum < (values.map fun _ => first.width).sum :=
    List.sum_lt_sum Value.width _ narrow ⟨value, member, by have := narrow value member; omega⟩
  rw [List.map_const', List.sum_replicate, smul_eq_mul, covered, packedSize] at less
  exact lt_irrefl _ less

/-! ## The exception -/

/-- The packed bytes of values as one number, the first value lowest. -/
def packedNumber : List Value → ℕ
  | [] => 0
  | value :: values => value.magnitude + 256 ^ value.width * packedNumber values

/-- Cut into pieces of a width, the number has the negatives of the values, in their types. -/
def Negatives (width : ℕ) : ℕ → List Value → Prop
  | _, [] => True
  | number, value :: values =>
      -((number % 256 ^ width : ℕ) : ℤ) ≡ value.val [ZMOD value.type.span] ∧
        Negatives width (number / 256 ^ width) values

/-- The exception: the first value is packed negated, some unsigned value is packed to more bytes,
and the packed bytes are as many pieces of the first width, which are the negatives of the
values. -/
def WrapsRight (first : Value) (values : List Value) : Prop :=
  first.negated = true ∧ (∃ value ∈ values, value.type.min = 0 ∧ first.width < value.width) ∧
    (first :: values).length * first.width = packedSize (first :: values) ∧
    Negatives first.width (packedNumber (first :: values)) (first :: values)

/-- The bytes of a package are its packed number. -/
theorem load_package {memory : Memory} {buffer : Cursor} {values : List Value}
    (same : ∀ a, buffer.position ≤ a → a < (packAll buffer values).2.position →
      memory a = (packAll buffer values).2.memory a) :
    load memory buffer.position (packedSize values) = packedNumber values := by
  induction values generalizing buffer with
  | nil => rfl
  | cons value values ih =>
      have position := packAll_position buffer (value :: values)
      rw [List.map_cons, List.sum_cons] at position
      have own := load_packAll fun a lower upper => same a lower (by omega)
      have rest := @ih (pack buffer value).2
        fun a lower upper => same a (by rw [pack_position] at lower; omega) upper
      rw [pack_position] at rest
      rw [packedSize, List.map_cons, List.sum_cons, load_add, own, packedNumber, ← rest]
      rfl

/-- A negated first code reads a piece as the value that the piece is the negative of. -/
theorem readAs_negated_iff {first value : Value} (negated : first.negated = true) {raw : ℕ} :
    first.readAs value.type raw = value.val ↔ -(raw : ℤ) ≡ value.val [ZMOD value.type.span] := by
  rw [Value.readAs, negated, if_pos rfl]
  constructor
  · intro read
    exact read ▸ (IntType.cast_modEq _ _).symm
  · exact IntType.cast_eq_of_modEq value.lower value.upper

/-- The pieces in the memory are those of the number that the memory holds. -/
theorem readPieces_iff {memory : Memory} {first : Value} (negated : first.negated = true)
    {position number : ℕ} {values : List Value}
    (holds : load memory position (values.length * first.width) = number) :
    readPieces memory first position (values.map Value.type) = values.map Value.val ↔
      Negatives first.width number values := by
  induction values generalizing position number with
  | nil => simp [readPieces, Negatives]
  | cons value values ih =>
      have piece := load_lt memory position first.width
      rw [List.length_cons, Nat.succ_mul, Nat.add_comm, load_add] at holds
      have low : number % 256 ^ first.width = load memory position first.width := by
        rw [← holds, Nat.add_mul_mod_self_left, Nat.mod_eq_of_lt piece]
      have high : number / 256 ^ first.width =
          load memory (position + first.width) (values.length * first.width) := by
        rw [← holds, Nat.add_mul_div_left _ _ (by positivity), Nat.div_eq_of_lt piece, Nat.zero_add]
      rw [List.map_cons, readPieces, List.map_cons, List.cons.injEq, readAs_negated_iff negated,
        @ih (position + first.width) _ high.symm, Negatives, low]

/-- **When a package is read back**: when its length fits the constructor's `int`,
and every value is read alike with the first code, or the exception holds. -/
theorem nibbler_decodes_iff {memory : Memory} {start : ℕ} {first : Value} {values : List Value}
    (holds : Holds memory start (first :: values))
    (bound : packedSize (first :: values) < 2 ^ 31) :
    Decodes memory start (first :: values) ↔
      (first :: values).length + 1 < 2 ^ 31 ∧
        ((∀ value ∈ values, ReadAlike first value) ∨ WrapsRight first values) := by
  rw [decodes_iff_pieces holds bound]
  refine and_congr_right fun _ => ?_
  obtain ⟨scratch, same⟩ := holds.bytes
  have number := @load_package memory ⟨scratch, packageStart start (first :: values).length⟩ _ same
  constructor
  · rintro ⟨pieces, covered⟩
    by_cases wraps : first.negated = true ∧
        ∃ value ∈ values, value.type.min = 0 ∧ first.width < value.width
    · rw [← covered] at number
      exact .inr ⟨wraps.1, wraps.2, covered, (readPieces_iff wraps.1 number).mp pieces⟩
    · have narrow : ∀ value ∈ first :: values, value.width ≤ first.width := by
        intro value member
        obtain ⟨raw, short, read⟩ := readPieces_mem pieces value member
        rcases width_le_of_readAs short read with narrow | ⟨negated, unsigned⟩
        · exact narrow
        · rcases List.mem_cons.1 member with rfl | later
          · exact le_rfl
          · by_contra wide
            exact wraps ⟨negated, value, later, unsigned, by omega⟩
      have aligned := aligned_of_covered narrow covered
      have reads := (@readPieces_aligned memory first
        ⟨scratch, packageStart start (first :: values).length⟩ _ aligned same).1 pieces
      refine .inl fun value member => ?_
      have member' : value ∈ first :: values := List.mem_cons_of_mem _ member
      exact ⟨aligned value member', readAs_magnitude_iff.1 (reads value member')⟩
  · rintro (alike | ⟨negated, -, covered, negatives⟩)
    · have all : ∀ value ∈ first :: values, ReadAlike first value :=
        List.forall_mem_cons.2 ⟨⟨rfl, .inl rfl⟩, alike⟩
      refine ⟨(@readPieces_aligned memory first
        ⟨scratch, packageStart start (first :: values).length⟩ _
        (fun value member => (all value member).1) same).2
        fun value member => readAs_magnitude_iff.2 (all value member).2, ?_⟩
      have widths : (first :: values).map Value.width =
          List.replicate (first :: values).length first.width :=
        List.map_eq_replicate_iff.2 fun value member => (all value member).1
      rw [packedSize, widths, List.sum_replicate, smul_eq_mul]
    · rw [← covered] at number
      exact ⟨(readPieces_iff negated number).mpr negatives, covered⟩

/-! ## Two packages -/

/-- A memory that begins with some bytes. -/
def memoryOf (bytes : List UInt8) : Memory := fun a => bytes.getD a 0

/-- The values `1` and `300`, packed to one and to two bytes. -/
def oneThreeHundred : List Value :=
  [⟨.uint32, 1, by decide, by decide⟩, ⟨.uint32, 300, by decide, by decide⟩]

/-- The package of `1` and `300`. -/
def oneThreeHundredPackage : Memory := memoryOf [0x21, 0x01, 0x2c, 0x01]

/-- The second value is read from one byte, as `44`. -/
theorem oneThreeHundred_misread :
    Holds oneThreeHundredPackage 0 oneThreeHundred ∧ packedSize oneThreeHundred < 2 ^ 31 ∧
      (∃ nibbler last, Nibbler.new oneThreeHundredPackage 0 2 = .ok nibbler ∧
        nibbler.getAll oneThreeHundredPackage [.uint32, .uint32] = .ok ([1, 44], last)) ∧
      ¬ Decodes oneThreeHundredPackage 0 oneThreeHundred := by
  have made : Nibbler.new oneThreeHundredPackage 0 2 = .ok ⟨0, true, 2, 1, 4⟩ := by decide
  have read : (Nibbler.mk 0 true 2 1 4).getAll oneThreeHundredPackage [.uint32, .uint32] =
      .ok ([1, 44], ⟨0, true, 2, 3, 4⟩) := by decide +kernel
  have size : packedSize oneThreeHundred = 3 := by decide
  refine ⟨⟨by decide, fun _ => 0, ?_⟩, by omega, ⟨_, _, made, read⟩, ?_⟩
  · intro a lower upper
    have inside : a < 4 := upper
    have first : 1 ≤ a := lower
    interval_cases a <;> decide
  · rintro ⟨nibbler, last, made', decoded, -⟩
    cases made.symm.trans made'
    cases read.symm.trans decoded

/-- A first value that is packed negated to seven bytes, with values that fill
their types behind it. -/
def fullValues : List Value :=
  [⟨.int64, -2 ^ 55, by decide, by decide⟩, ⟨.int32, -2 ^ 31, by decide, by decide⟩,
    ⟨.uint64, 18446740775174864896, by decide, by decide⟩,
    ⟨.uint64, 18446181132345933826, by decide, by decide⟩,
    ⟨.uint64, 18374966859414961921, by decide, by decide⟩]

/-- The exception exists: these five values are packed to `7`, `4`, `8`, `8` and `8` bytes, and five
pieces of seven are their negatives. -/
example : WrapsRight ⟨.int64, -2 ^ 55, by decide, by decide⟩ fullValues.tail :=
  ⟨by decide, by decide, by decide, by decide +kernel, by decide +kernel, by decide +kernel,
    by decide +kernel, by decide +kernel, trivial⟩

/-- The values `5` and `7`, both packed to one byte. -/
def fiveSeven : List Value :=
  [⟨.uint32, 5, by decide, by decide⟩, ⟨.int32, 7, by decide, by decide⟩]

/-- The package of `5` and `7`. -/
def fiveSevenPackage : Memory := memoryOf [0x11, 0x05, 0x07]

/-- Values with one code are read back. -/
theorem fiveSeven_decodes :
    Holds fiveSevenPackage 0 fiveSeven ∧ Decodes fiveSevenPackage 0 fiveSeven := by
  have holds : Holds fiveSevenPackage 0 fiveSeven := by
    refine ⟨by decide, fun _ => 0, ?_⟩
    intro a lower upper
    have inside : a < 3 := upper
    have first : 1 ≤ a := lower
    interval_cases a <;> decide
  have size : packedSize fiveSeven = 2 := by decide
  refine ⟨holds, (nibbler_decodes_iff holds (by rw [← fiveSeven, size]; omega)).2 ⟨?_, .inl ?_⟩⟩
  · simp
  · exact List.forall_mem_singleton.2 ⟨by decide, .inl (by decide)⟩

end FastWebServer.Nanolog
