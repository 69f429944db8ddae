import FastWebServer.Library.BoundedBuffer
import FastWebServer.Library.FixedArray
import FastWebServer.Log.FormatInteger
import FastWebServer.Log.FrontEnd

/-!
# The stream of a record

`LogStream` writes the parts of a record into a `LogBuffer`, here with its array. A text is copied
where it is shorter than the space that is left. A number is written first, with a terminator, where
32 bytes are left, and `cur_` is moved behind it afterwards, without a test.

A write that leaves the array has no defined behaviour. There is none in any sequence of insertions,
appends and resets, and the buffer holds exactly the parts that fitted when they came
(`logStream_bounded`). The stream refines a `BoundedBuffer` in which each part asks for the room
that its guard asks for (`Keeps.perform`), and the buffer without its array that the front end has
(`Keeps.append_view`, `Keeps.fromatInteger_view`).
-/

set_option autoImplicit false

namespace FastWebServer.Log

open Cxx

/-! ## LogBuffer -/

/-- `small_buffer`. -/
def smallBuffer : ℕ := 4096

/-- `LogBuffer<size>`, with its array and the distance of `cur_` from it. -/
structure LogArray (size : ℕ) where
  data : FixedArray Char size
  cur : ℕ

namespace LogArray

variable {size : ℕ}

/-- The constructor, which leaves the array as it is. -/
def new (data : FixedArray Char size) : LogArray size := ⟨data, 0⟩

/-- `get_length`. -/
def getLength (buffer : LogArray size) : ℤ := toInt buffer.cur

/-- `get_available_size`. -/
def getAvailableSize (buffer : LogArray size) : ℤ := toInt (toSize ((size : ℤ) - buffer.cur))

/-- Bytes are written to `get_current`. -/
def write (buffer : LogArray size) (bytes : Str) : Except Fault (LogArray size) :=
  match buffer.data.copy buffer.cur bytes with
  | .error fault => .error fault
  | .ok data => .ok { buffer with data := data }

/-- `add`. -/
def add (buffer : LogArray size) (len : ℕ) : LogArray size :=
  { buffer with cur := buffer.cur + len }

/-- `append`. The length is compared as an `int`. -/
def append (buffer : LogArray size) (line : Str) : Except Fault (LogArray size) :=
  if buffer.getAvailableSize > toInt line.length then
    match buffer.write line with
    | .error fault => .error fault
    | .ok buffer => .ok (buffer.add line.length)
  else .ok buffer

/-- `reset`. -/
def reset (_ : LogArray size) : LogArray size := ⟨.filled size '\x00', 0⟩

/-- The `get_length` bytes of `get_data`. -/
def content (buffer : LogArray size) : Str := buffer.data.elements.take buffer.getLength.toNat

/-- `LogStream::fromat_integer`. -/
def fromatInteger {type : IntegerType} (buffer : LogArray size) (value : type.Value) :
    Except Fault (LogArray size) :=
  if maxDigitSize ≤ buffer.getAvailableSize then
    match convert value with
    | .error fault => .error fault
    | .ok converted =>
        match buffer.write converted.buffer with
        | .error fault => .error fault
        | .ok buffer => .ok (buffer.add converted.length)
  else .ok buffer

end LogArray

/-! ## What is inserted -/

/-- `double` and `float`, with the text that `"%.12g"` makes of a `double`, which has no more than
31 characters. -/
structure DoubleFormat where
  Double : Type
  Single : Type
  widen : Single → Double
  text : Double → Str
  short : ∀ value, (text value).length ≤ 31

abbrev IntegerType.int : IntegerType := ⟨true, 32, .inl rfl⟩

abbrev IntegerType.unsignedInt : IntegerType := ⟨false, 32, .inl rfl⟩

abbrev IntegerType.long : IntegerType := ⟨true, 64, .inr rfl⟩

abbrev IntegerType.unsignedLong : IntegerType := ⟨false, 64, .inr rfl⟩

/-- A number of 16 bits, cast to an `int`. -/
def ofShort (v : ℤ) (lower : -2 ^ 15 ≤ v) (upper : v < 2 ^ 15) : IntegerType.int.Value where
  number := v
  lower := by
    show -2 ^ 31 ≤ v
    omega
  upper := by
    show v ≤ 2 ^ 31 - 1
    omega

/-- A number of 16 bits, cast to an `unsigned int`. -/
def ofUnsignedShort (v : ℕ) (upper : v < 2 ^ 16) : IntegerType.unsignedInt.Value where
  number := v
  lower := Int.natCast_nonneg v
  upper := by
    show (v : ℤ) ≤ 2 ^ 32 - 1
    omega

/-- What `operator<<` takes. A C string may be null. -/
inductive Insertion (format : DoubleFormat) where
  | bool (v : Bool)
  | short (v : ℤ) (lower : -2 ^ 15 ≤ v) (upper : v < 2 ^ 15)
  | unsignedShort (v : ℕ) (upper : v < 2 ^ 16)
  | int (v : IntegerType.int.Value)
  | unsignedInt (v : IntegerType.unsignedInt.Value)
  | long (v : IntegerType.long.Value)
  | unsignedLong (v : IntegerType.unsignedLong.Value)
  | longLong (v : IntegerType.long.Value)
  | unsignedLongLong (v : IntegerType.unsignedLong.Value)
  | float (v : format.Single)
  | double (v : format.Double)
  | char (v : Char)
  | cString (str : Option Str) (short : ∀ text ∈ str, (cStr text).length < 2 ^ 31)
  | unsignedCString (str : Option Str) (short : ∀ text ∈ str, (cStr text).length < 2 ^ 31)
  | string (v : Str) (short : v.length < 2 ^ 31)

/-- What `snprintf` writes of a text into a buffer of `size` bytes. -/
def snprintf (size : ℕ) (text : Str) : Str := text.take (size - 1) ++ ['\x00']

namespace LogArray

variable {size : ℕ} {format : DoubleFormat}

/-- `operator<<(double)`. -/
def insertDouble (buffer : LogArray size) (v : format.Double) : Except Fault (LogArray size) :=
  if maxDigitSize ≤ buffer.getAvailableSize then
    match buffer.write (snprintf maxDigitSize.toNat (format.text v)) with
    | .error fault => .error fault
    | .ok buffer => .ok (buffer.add (format.text v).length)
  else .ok buffer

/-- `operator<<(const char*)`. -/
def insertCString (buffer : LogArray size) : Option Str → Except Fault (LogArray size)
  | some str => buffer.append (cStr str)
  | none => buffer.append "_null_".toList

/-- `operator<<`. -/
def insert (buffer : LogArray size) : Insertion format → Except Fault (LogArray size)
  | .bool v => buffer.append (if v then "1".toList else "0".toList)
  | .short v lower upper => buffer.fromatInteger (ofShort v lower upper)
  | .unsignedShort v upper => buffer.fromatInteger (ofUnsignedShort v upper)
  | .int v => buffer.fromatInteger v
  | .unsignedInt v => buffer.fromatInteger v
  | .long v => buffer.fromatInteger v
  | .unsignedLong v => buffer.fromatInteger v
  | .longLong v => buffer.fromatInteger v
  | .unsignedLongLong v => buffer.fromatInteger v
  | .float v => buffer.insertDouble (format.widen v)
  | .double v => buffer.insertDouble v
  | .char v => buffer.append [v]
  | .cString str _ => buffer.insertCString str
  | .unsignedCString str _ => buffer.insertCString str
  | .string v _ => buffer.append v

end LogArray

/-- What can be done with a stream: an insertion, `append` and `reset_buffer`. -/
inductive StreamOperation (format : DoubleFormat) where
  | insert (insertion : Insertion format)
  | append (logLine : Str) (short : logLine.length < 2 ^ 31)
  | resetBuffer

namespace LogArray

variable {size : ℕ} {format : DoubleFormat}

/-- What an operation does. -/
def perform (buffer : LogArray size) : StreamOperation format → Except Fault (LogArray size)
  | .insert insertion => buffer.insert insertion
  | .append logLine _ => buffer.append logLine
  | .resetBuffer => .ok buffer.reset

/-- One operation after the other. -/
def performAll : LogArray size → List (StreamOperation format) → Except Fault (LogArray size)
  | buffer, [] => .ok buffer
  | buffer, operation :: operations =>
      match buffer.perform operation with
      | .error fault => .error fault
      | .ok buffer => buffer.performAll operations

end LogArray

/-! ## What an operation puts into the buffer -/

open BoundedBuffer

/-- A text asks for one byte more than it fills. -/
def textPiece (text : Str) : Piece Char := ⟨text, text.length + 1, Nat.lt_succ_self _⟩

/-- A number asks for the 32 bytes of the guard. -/
def numberPiece (text : Str) (short : text.length ≤ 31) : Piece Char :=
  ⟨text, maxDigitSize.toNat, Nat.lt_succ_of_le short⟩

/-- The numeral of an integer. -/
def integerPiece {type : IntegerType} (value : type.Value) : Piece Char :=
  numberPiece (signedText value.number (lowDigits value.number.natAbs).reverse)
    ((length_signedText value).trans (by decide))

variable {format : DoubleFormat}

def doublePiece (v : format.Double) : Piece Char := numberPiece (format.text v) (format.short v)

def cStringPiece : Option Str → Piece Char
  | some str => textPiece (cStr str)
  | none => textPiece "_null_".toList

/-- The rendering of an insertion. -/
def Insertion.piece : Insertion format → Piece Char
  | .bool v => textPiece (if v then "1".toList else "0".toList)
  | .short v lower upper => integerPiece (ofShort v lower upper)
  | .unsignedShort v upper => integerPiece (ofUnsignedShort v upper)
  | .int v => integerPiece v
  | .unsignedInt v => integerPiece v
  | .long v => integerPiece v
  | .unsignedLong v => integerPiece v
  | .longLong v => integerPiece v
  | .unsignedLongLong v => integerPiece v
  | .float v => doublePiece (format.widen v)
  | .double v => doublePiece v
  | .char v => textPiece [v]
  | .cString str _ => cStringPiece str
  | .unsignedCString str _ => cStringPiece str
  | .string v _ => textPiece v

/-- What an operation does to the pieces in the buffer. -/
def StreamOperation.effect : StreamOperation format → Operation Char
  | .insert insertion => .put insertion.piece
  | .append logLine _ => .put (textPiece logLine)
  | .resetBuffer => .clear

/-! ## The buffer and its pieces -/

namespace LogArray

/-- The pieces stand in the array as far as `cur_`, and there is room behind them. -/
structure Keeps {size : ℕ} (buffer : LogArray size) (pieces : List (Piece Char)) : Prop where
  cur : buffer.cur = (text pieces).length
  stored : buffer.data.elements.take buffer.cur = text pieces
  room : (text pieces).length < size

variable {size : ℕ} {buffer : LogArray size} {pieces : List (Piece Char)}

theorem keeps_new (positive : 0 < size) (data : FixedArray Char size) : Keeps (new data) [] :=
  ⟨rfl, List.take_zero, positive⟩

/-- The space that is left is counted right. -/
theorem Keeps.availableSize (keeps : buffer.Keeps pieces) (small : size < 2 ^ 31) :
    buffer.getAvailableSize = size - (text pieces).length := by
  have cur := keeps.cur
  have room := keeps.room
  unfold getAvailableSize toInt toSize
  omega

/-- A piece that fits is written with what is behind it, and `cur_` is moved behind the piece. -/
theorem Keeps.write (keeps : buffer.Keeps pieces) {piece : Piece Char} {bytes : Str}
    (fits : (text pieces).length + piece.room ≤ size) (inside : bytes.length ≤ piece.room)
    (front : piece.text <+: bytes) :
    ∃ written, buffer.write bytes = .ok written ∧
      Keeps (written.add piece.text.length) (step size pieces (.put piece)) := by
  have short := piece.short
  have cur := keeps.cur
  obtain ⟨copied, ran, taken⟩ := @FixedArray.copy_inside _ _ buffer.data buffer.cur bytes (by omega)
  have kept : text (step size pieces (.put piece)) = text pieces ++ piece.text := by
    rw [text_step_put, if_pos fits]
  refine ⟨{ buffer with data := copied }, by rw [LogArray.write, ran], ?_⟩
  refine ⟨?_, ?_, length_step_lt (Nat.zero_lt_of_lt keeps.room) keeps.room _⟩
  · rw [kept, List.length_append, ← cur]
    rfl
  · rw [kept]
    refine (taken piece.text.length front.length_le).trans ?_
    rw [keeps.stored, ← List.prefix_iff_eq_take.mp front]

/-- A piece that does not fit is dropped. -/
theorem Keeps.drop (keeps : buffer.Keeps pieces) {piece : Piece Char}
    (tooLong : ¬ (text pieces).length + piece.room ≤ size) :
    Keeps buffer (step size pieces (.put piece)) := by
  have dropped : step size pieces (.put piece) = pieces := if_neg tooLong
  rwa [dropped]

/-- **A text is appended whole or dropped.** -/
theorem Keeps.append (keeps : buffer.Keeps pieces) (small : size < 2 ^ 31) {line : Str}
    (short : line.length < 2 ^ 31) :
    ∃ after, buffer.append line = .ok after ∧
      Keeps after (step size pieces (.put (textPiece line))) := by
  have available := keeps.availableSize small
  have length := toInt_of_lt short
  unfold LogArray.append
  rw [available, length]
  by_cases fits : (text pieces).length + (textPiece line).room ≤ size
  · have guard : (size : ℤ) - (text pieces).length > line.length := by
      have asked : (text pieces).length + (line.length + 1) ≤ size := fits
      omega
    obtain ⟨written, ran, keeps'⟩ := keeps.write fits (Nat.le_succ _) List.prefix_rfl
    rw [if_pos guard, ran]
    exact ⟨_, rfl, keeps'⟩
  · have guard : ¬ (size : ℤ) - (text pieces).length > line.length := by
      intro room
      have asked : (text pieces).length + (line.length + 1) ≤ size := by omega
      exact fits asked
    rw [if_neg guard]
    exact ⟨_, rfl, keeps.drop fits⟩

/-- The guard of a number is the room that its piece asks for. -/
theorem Keeps.guard_iff (keeps : buffer.Keeps pieces) (small : size < 2 ^ 31) {number : Str}
    (short : number.length ≤ 31) :
    maxDigitSize ≤ buffer.getAvailableSize ↔
      (text pieces).length + (numberPiece number short).room ≤ size := by
  have room : (numberPiece number short).room = 32 := rfl
  rw [keeps.availableSize small, room, maxDigitSize]
  omega

/-- A number that fits is written with its terminator. -/
theorem Keeps.writeNumber (keeps : buffer.Keeps pieces) {number : Str}
    (short : number.length ≤ 31)
    (fits : (text pieces).length + (numberPiece number short).room ≤ size) :
    ∃ written, buffer.write (number ++ ['\x00']) = .ok written ∧
      Keeps (written.add number.length) (step size pieces (.put (numberPiece number short))) := by
  have inside : (number ++ ['\x00']).length ≤ (numberPiece number short).room := by
    have room : (numberPiece number short).room = 32 := rfl
    rw [List.length_append, room, List.length_singleton]
    omega
  exact keeps.write fits inside (List.prefix_append _ _)

/-- **An integer is written whole or dropped**, and its terminator is inside the array. -/
theorem Keeps.fromatInteger (keeps : buffer.Keeps pieces) (small : size < 2 ^ 31)
    {type : IntegerType} (value : type.Value) :
    ∃ after, buffer.fromatInteger value = .ok after ∧
      Keeps after (step size pieces (.put (integerPiece value))) := by
  unfold LogArray.fromatInteger
  by_cases fits : (text pieces).length + (integerPiece value).room ≤ size
  · obtain ⟨written, ran, keeps'⟩ := keeps.writeNumber _ fits
    rw [if_pos ((keeps.guard_iff small _).mpr fits), convert_eq]
    dsimp only
    rw [ran]
    exact ⟨_, rfl, keeps'⟩
  · rw [if_neg (mt (keeps.guard_iff small _).mp fits)]
    exact ⟨_, rfl, keeps.drop fits⟩

/-- **A double is written whole or dropped**, and its terminator is inside the array. -/
theorem Keeps.insertDouble (keeps : buffer.Keeps pieces) (small : size < 2 ^ 31)
    (v : format.Double) :
    ∃ after, buffer.insertDouble v = .ok after ∧
      Keeps after (step size pieces (.put (doublePiece v))) := by
  have short := format.short v
  have all : snprintf maxDigitSize.toNat (format.text v) = format.text v ++ ['\x00'] := by
    have whole : (format.text v).take 31 = format.text v := List.take_of_length_le short
    show (format.text v).take 31 ++ _ = _
    rw [whole]
  unfold LogArray.insertDouble
  rw [all]
  by_cases fits : (text pieces).length + (doublePiece v).room ≤ size
  · obtain ⟨written, ran, keeps'⟩ := keeps.writeNumber _ fits
    rw [if_pos ((keeps.guard_iff small _).mpr fits), ran]
    exact ⟨_, rfl, keeps'⟩
  · rw [if_neg (mt (keeps.guard_iff small _).mp fits)]
    exact ⟨_, rfl, keeps.drop fits⟩

theorem Keeps.insertCString (keeps : buffer.Keeps pieces) (small : size < 2 ^ 31)
    {str : Option Str} (short : ∀ text ∈ str, (cStr text).length < 2 ^ 31) :
    ∃ after, buffer.insertCString str = .ok after ∧
      Keeps after (step size pieces (.put (cStringPiece str))) := by
  cases str with
  | none => exact keeps.append small (by decide)
  | some str => exact keeps.append small (short str rfl)

/-- **An insertion puts its piece into the buffer.** -/
theorem Keeps.insert (keeps : buffer.Keeps pieces) (small : size < 2 ^ 31)
    (insertion : Insertion format) :
    ∃ after, buffer.insert insertion = .ok after ∧
      Keeps after (step size pieces (.put insertion.piece)) := by
  cases insertion with
  | bool v =>
      cases v with
      | true => exact keeps.append small (by decide)
      | false => exact keeps.append small (by decide)
  | short v lower upper => exact keeps.fromatInteger small (ofShort v lower upper)
  | unsignedShort v upper => exact keeps.fromatInteger small (ofUnsignedShort v upper)
  | int v | unsignedInt v | long v | unsignedLong v | longLong v | unsignedLongLong v =>
      exact keeps.fromatInteger small v
  | float v => exact keeps.insertDouble small (format.widen v)
  | double v => exact keeps.insertDouble small v
  | char v => exact keeps.append small (by simp)
  | cString str short | unsignedCString str short => exact keeps.insertCString small short
  | string v short => exact keeps.append small short

/-- **An operation does to the array what it does to the pieces.** -/
theorem Keeps.perform (keeps : buffer.Keeps pieces) (small : size < 2 ^ 31)
    (operation : StreamOperation format) :
    ∃ after, buffer.perform operation = .ok after ∧
      Keeps after (step size pieces operation.effect) := by
  cases operation with
  | insert insertion => exact keeps.insert small insertion
  | append logLine short => exact keeps.append small short
  | resetBuffer => exact ⟨_, rfl, keeps_new (Nat.zero_lt_of_lt keeps.room) _⟩

/-- **A sequence of operations stays inside the array**, and leaves the pieces that fitted. -/
theorem Keeps.performAll (keeps : buffer.Keeps pieces) (small : size < 2 ^ 31)
    (operations : List (StreamOperation format)) :
    ∃ after, buffer.performAll operations = .ok after ∧
      Keeps after ((operations.map StreamOperation.effect).foldl (step size) pieces) := by
  induction operations generalizing buffer pieces with
  | nil => exact ⟨buffer, rfl, keeps⟩
  | cons operation operations ih =>
      obtain ⟨next, ran, keeps'⟩ := keeps.perform small operation
      obtain ⟨after, ran', keeps''⟩ := ih keeps'
      exact ⟨after, by rw [LogArray.performAll, ran]; exact ran', keeps''⟩

/-- What the array holds is what is read from it. -/
theorem Keeps.content (keeps : buffer.Keeps pieces) (small : size < 2 ^ 31) :
    buffer.getLength = (text pieces).length ∧ buffer.content = text pieces := by
  have cur := keeps.cur
  have room := keeps.room
  have length : buffer.getLength = buffer.cur := toInt_of_lt (by omega)
  refine ⟨by rw [length, cur], ?_⟩
  rw [LogArray.content, length, Int.toNat_natCast]
  exact keeps.stored

/-! ## The buffer without its array -/

/-- The buffer as what it holds. -/
def view (buffer : LogArray size) : LogBuffer := ⟨buffer.content⟩

/-- **`append` does to the array what it does to the content.** -/
theorem Keeps.append_view (keeps : buffer.Keeps pieces) (small : size < 2 ^ 31) {line : Str}
    (short : line.length < 2 ^ 31) :
    ∃ after, buffer.append line = .ok after ∧ after.view = buffer.view.append size line := by
  obtain ⟨after, ran, keeps'⟩ := keeps.append small short
  have room : (textPiece line).room = line.length + 1 := rfl
  refine ⟨after, ran, ?_⟩
  unfold view LogBuffer.append LogBuffer.getAvailableSize
  rw [(keeps'.content small).2, (keeps.content small).2, text_step_put, room]
  dsimp only
  by_cases fits : (text pieces).length + (line.length + 1) ≤ size
  · rw [if_pos fits, if_pos (by omega)]
    rfl
  · rw [if_neg fits, if_neg (by omega)]

/-- **`fromat_integer` does to the array what it does to the content.** -/
theorem Keeps.fromatInteger_view (keeps : buffer.Keeps pieces) (small : size < 2 ^ 31)
    {type : IntegerType} (value : type.Value) :
    ∃ after, buffer.fromatInteger value = .ok after ∧
      Log.fromatInteger size buffer.view value = .ok after.view := by
  obtain ⟨after, ran, keeps'⟩ := keeps.fromatInteger small value
  have room : (integerPiece value).room = 32 := rfl
  refine ⟨after, ran, ?_⟩
  unfold view Log.fromatInteger LogBuffer.getAvailableSize maxDigitSize
  rw [(keeps'.content small).2, (keeps.content small).2, text_step_put, room]
  dsimp only
  by_cases fits : (text pieces).length + 32 ≤ size
  · rw [if_pos fits, if_pos (by omega), convert_eq]
    dsimp only
    rw [List.take_left]
    rfl
  · rw [if_neg fits, if_neg (by omega)]

end LogArray

/-! ## The bound -/

/-- **The buffer of a stream is never left.** A sequence of insertions, appends and resets writes
inside the array alone, and its length stays below 4096. The buffer holds the renderings that fitted
when they came, one behind the other. It is shorter than a buffer of the log, so a new one takes it,
and the front end never drops it. -/
theorem logStream_bounded (format : DoubleFormat) (data : FixedArray Char smallBuffer)
    (operations : List (StreamOperation format)) :
    ∃ stream, (LogArray.new data).performAll operations = .ok stream ∧
      0 ≤ stream.getLength ∧ stream.getLength < smallBuffer ∧
      stream.content = text (kept smallBuffer (operations.map StreamOperation.effect)) ∧
      LogBuffer.empty.append smallBuffer stream.content = ⟨stream.content⟩ ∧
      ∀ run, (frontMachine smallBuffer).Reachable run →
        ∃ front, append smallBuffer stream.content run.front = .ok front ∧
          contents { run with front := front }.buffers =
            contents run.buffers ++ stream.content := by
  have positive : 0 < smallBuffer := by decide
  have small : smallBuffer < 2 ^ 31 := by decide
  obtain ⟨stream, ran, keeps⟩ := (LogArray.keeps_new positive data).performAll small operations
  obtain ⟨length, content⟩ := keeps.content small
  have room := keeps.room
  have short : stream.content.length < smallBuffer := by rwa [content]
  refine ⟨stream, ran, by omega, by omega, content, ?_, ?_⟩
  · have fits : LogBuffer.empty.getAvailableSize smallBuffer > stream.content.length := by
      simp only [LogBuffer.getAvailableSize, LogBuffer.empty, List.length_nil]
      omega
    rw [LogBuffer.append, if_pos fits, LogBuffer.empty, List.nil_append]
  · intro run reachable
    exact FrontRun.contents_append positive reachable short

end FastWebServer.Log
