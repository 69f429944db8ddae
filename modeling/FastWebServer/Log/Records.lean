import FastWebServer.Log.DroppedLines
import FastWebServer.Log.Logger

/-!
# From a statement to the file

A statement `LOG << ...` makes a record on the stack of its thread and hands it to the log. Both
buffers have the same size: the record is shorter than it (`Statement.record_eq`), so the log takes
every record whole, and what is known of short lines is known of all records (`records_located`).
-/

set_option autoImplicit false

namespace FastWebServer.Log

open Cxx BoundedBuffer

/-! ## Statements -/

/-- What the destructor inserts, as operations on the buffer. -/
def closing (format : DoubleFormat) (location : Location) : List (Operation Char) :=
  ((Logger.ending format location).map .insert).map StreamOperation.effect

/-- The destructor passes on what has been kept, and it has not filled the buffer. -/
theorem Logger.destroy_eq {size : ℕ} (format : DoubleFormat) (small : size < 2 ^ 31)
    {logger : Logger size} {pieces : List (Piece Char)} (keeps : logger.logStream.Keeps pieces) :
    let all := (closing format logger.location).foldl (step size) pieces
    logger.destroy format = .ok (text all) ∧ (text all).length < size := by
  intro all
  obtain ⟨after, ran, ended⟩ := keeps.performAll small ((ending format logger.location).map .insert)
  have inserted : logger.insertAll format (ending format logger.location) =
      .ok { logger with logStream := after } := congrArg (Except.map _) ran
  have destroyed : logger.destroy format = .ok after.content := congrArg (Except.map _) inserted
  exact ⟨destroyed.trans (congrArg Except.ok (ended.content small).2), ended.room⟩

/-- A statement `LOG << ...`, with the bytes that it finds in its buffer. -/
structure Statement (size : ℕ) (format : DoubleFormat) where
  data : FixedArray Char size
  time : TimeText
  location : Location
  insertions : List (Insertion format)

theorem bind_ok {Value Answer : Type} (value : Value) (next : Value → Except Fault Answer) :
    (Except.ok value).bind next = next value := rfl

namespace Statement

variable {size : ℕ} {format : DoubleFormat}

/-- The record that the statement passes to `output`. -/
def record (statement : Statement size format) : Except Fault Str :=
  (Logger.new statement.data statement.time statement.location).bind fun started =>
    (started.insertAll format statement.insertions).bind fun logger => logger.destroy format

/-- What the statement puts into the buffer, from the time to the line feed. -/
def operations (statement : Statement size format) : List (Operation Char) :=
  recorded format statement.time statement.insertions ++ closing format statement.location

theorem record_of {statement : Statement size format} {started logger : Logger size}
    (built : Logger.new statement.data statement.time statement.location = .ok started)
    (inserted : started.insertAll format statement.insertions = .ok logger) :
    statement.record = logger.destroy format := by
  rw [record, built, bind_ok, inserted, bind_ok]

/-- **The record of a statement** are the insertions that fitted, whole and in order, and it is
shorter than the buffer. -/
theorem record_eq (positive : 0 < size) (small : size < 2 ^ 31) (statement : Statement size format) :
    statement.record = .ok (text (kept size statement.operations)) ∧
      (text (kept size statement.operations)).length < size := by
  obtain ⟨started, stream, built, inserted, keeps⟩ := Logger.exists_inserted format positive small
    statement.data statement.time statement.location statement.insertions
  have destroyed := @Logger.destroy_eq _ format small ⟨stream, statement.location⟩ _ keeps
  have all : kept size statement.operations =
      (closing format statement.location).foldl (step size)
        (kept size (recorded format statement.time statement.insertions)) :=
    List.foldl_append ..
  rw [all]
  refine ⟨?_, destroyed.2⟩
  exact (record_of built inserted).trans destroyed.1

end Statement

/-! ## Records in the log -/

/-- The bytes of the front are those of the lines that it holds. -/
theorem Grouped.contents {size : ℕ} {front : Front} {groups : List (List Str)} {last : List Str}
    (grouped : Grouped size front groups last) :
    Log.contents front.buffers = (groups ++ [last]).flatten.flatten :=
  contents_eq (List.rel_append grouped.list (.cons grouped.cur .nil))

/-- **From a statement to the file.** In every run of the log whose lines are records of statements,
every record is in the file, dropped with the tail of a batch of more than 25 buffers, or in the
buffers. And every further statement, whatever it inserts, has a record, made of whole insertions in
their order, which the log takes whole behind what is in front. -/
theorem records_located {format : DoubleFormat} {system : System}
    (reachable : (machine smallBuffer).Reachable system)
    (records : ∀ line ∈ system.appended, ∃ statement : Statement smallBuffer format,
      statement.record = .ok line) :
    (∃ kept dropped waiting, LinesLocated smallBuffer system kept dropped waiting) ∧
      ∀ statement : Statement smallBuffer format, ∃ front,
        let record := text (kept smallBuffer statement.operations)
        statement.record = .ok record ∧ append smallBuffer record system.front = .ok front ∧
          contents front.buffers = contents system.front.buffers ++ record := by
  have positive : 0 < smallBuffer := by decide
  have small : smallBuffer < 2 ^ 31 := by decide
  have short : ∀ line ∈ system.appended, line.length < smallBuffer := by
    intro line member
    obtain ⟨statement, made⟩ := records line member
    obtain ⟨same, short⟩ := statement.record_eq positive small
    obtain rfl := Except.ok.inj (made.symm.trans same)
    exact short
  obtain ⟨kept, dropped, inFlight, groups, last, placed⟩ :=
    placed_of_reachable positive reachable short
  refine ⟨⟨kept, dropped, _, placed.located⟩, fun statement => ?_⟩
  obtain ⟨same, fits⟩ := statement.record_eq positive small
  obtain ⟨front, groups', last', accepted, grouped, lines⟩ := append_grouped placed.front fits
  refine ⟨front, same, accepted, ?_⟩
  rw [grouped.contents, placed.front.contents, lines, List.flatten_append, List.flatten_singleton]

/-- A statement with one digit, `LOG << 7.0f`, at noon. -/
def sevenAtNoon : Statement smallBuffer digitFormat :=
  ⟨FixedArray.filled smallBuffer '\x00', noon, mainLine, [.float (7 : Fin 10)]⟩

/-- The record of the first statement is in front, and that of a second one goes behind it. -/
theorem twoRecords_located :
    ∃ system first front, (machine smallBuffer).Reachable system ∧
      sevenAtNoon.record = .ok first ∧ system.appended = [first] ∧
      (∃ kept dropped waiting, LinesLocated smallBuffer system kept dropped waiting) ∧
      append smallBuffer first system.front = .ok front ∧
      contents front.buffers = contents system.front.buffers ++ first := by
  have positive : 0 < smallBuffer := by decide
  obtain ⟨made, fits⟩ := sevenAtNoon.record_eq positive (by decide)
  obtain ⟨front, -, -, accepted, -⟩ := append_grouped (placed_new positive).front fits
  have reachable : (machine smallBuffer).Reachable _ :=
    (Runs.Machine.Reachable.start rfl).step (Step.append (by decide) accepted)
  have records : ∀ line ∈ [text (kept smallBuffer sevenAtNoon.operations)],
      ∃ statement : Statement smallBuffer digitFormat, statement.record = .ok line := by
    intro line member
    obtain rfl := List.mem_singleton.mp member
    exact ⟨sevenAtNoon, made⟩
  obtain ⟨located, next⟩ := records_located reachable records
  obtain ⟨front', made', accepted', behind⟩ := next sevenAtNoon
  exact ⟨_, _, front', reachable, made', rfl, located, accepted', behind⟩

end FastWebServer.Log
