import FastWebServer.Log.LogStream

/-!
# The record of a Logger

A `Logger` begins its record with the time, takes any insertions, and in its destructor ends it with
the place in the source and a line feed, which are insertions as all others.

An insertion that does not fit is dropped, and nothing is set aside for the line feed. So a record
that fills its buffer to the last byte or the last but one has no line feed of its own
(`record_endsLine_iff`), and the next record goes on in its line (`fullRecord_unended`).
-/

set_option autoImplicit false

namespace FastWebServer.Log

open Cxx BoundedBuffer

/-! ## Logger -/

/-- The C string that `format_time` leaves in the 26 bytes of `str_time`. -/
structure TimeText where
  text : Str
  short : text.length < 26

/-- `__FILE__` and `__LINE__`. -/
structure Location where
  logName : Str
  numLines : IntegerType.int.Value
  short : logName.length < 2 ^ 31

/-- `Logger`, with the members of its `LogImplement`. The size is that of the buffer. -/
structure Logger (size : ℕ) where
  logStream : LogArray size
  location : Location

namespace Logger

variable {size : ℕ}

/-- The constructor, which runs `format_time`. -/
def new (data : FixedArray Char size) (time : TimeText) (location : Location) :
    Except Fault (Logger size) :=
  ((LogArray.new data).insertCString (some time.text)).map fun logStream => ⟨logStream, location⟩

variable (format : DoubleFormat)

/-- Insertions into `log_stream()`. -/
def insertAll (logger : Logger size) (insertions : List (Insertion format)) :
    Except Fault (Logger size) :=
  (logger.logStream.performAll (insertions.map .insert)).map fun logStream =>
    { logger with logStream := logStream }

/-- What the destructor inserts. -/
def ending (location : Location) : List (Insertion format) :=
  [.cString (some " -- ".toList) (by rintro _ ⟨⟩; decide), .string location.logName location.short,
    .char ':', .int location.numLines, .char '\n']

/-- The destructor, with the record that it passes to `output`. -/
def destroy (logger : Logger size) : Except Fault Str :=
  (logger.insertAll format (ending format logger.location)).map fun logger =>
    logger.logStream.content

end Logger

/-! ## Which records end their line -/

section Lines

variable (size : ℕ)

/-- The length behind a text, if it is appended where it fits. -/
def level (length count : ℕ) : ℕ := if length + count < size then length + count else length

/-- The separator and the name leave room for a colon and a line feed, or a line feed is the last
character of a full buffer, where the content has filled it or where the name has. -/
def LineFits (content name : Str) : Prop :=
  level size (level size content.length 4) name.length + 2 < size ∨
    content.length + 1 = size ∧ content.getLast? = some '\n' ∨
    level size content.length 4 + name.length + 1 = size ∧ name.getLast? = some '\n'

/-- A content with a text appended if it fits. -/
def appended (content line : Str) : Str :=
  if content.length + line.length < size then content ++ line else content

theorem length_appended (content line : Str) :
    (appended size content line).length = level size content.length line.length := by
  unfold appended level
  split
  · exact List.length_append
  · rfl

variable {size}

theorem appended_fits {content line : Str} (fits : content.length + line.length < size) :
    appended size content line = content ++ line := if_pos fits

theorem appended_full {content line : Str}
    (full : ¬ content.length + line.length < size) : appended size content line = content :=
  if_neg full

theorem text_put_text (pieces : List (Piece Char)) (line : Str) :
    text (step size pieces (.put (textPiece line))) = appended size (text pieces) line :=
  text_step_put pieces (textPiece line)

/-- The last insertions, behind a content that leaves room for two characters, or not. -/
theorem getLast_ending {located number : Str} (room : located.length < size)
    (short : number.length ≤ 20) {numbered : Str}
    (inserted : numbered = appended size located [':'] ++ number ∧
        (appended size located [':']).length + 32 ≤ size ∨
      numbered = appended size located [':']) :
    (appended size numbered ['\n']).getLast? = some '\n' ↔
      located.length + 2 < size ∨
        located.length + 1 = size ∧ located.getLast? = some '\n' := by
  have colon : [':'].length = 1 := rfl
  have lineFeed : ['\n'].length = 1 := rfl
  by_cases enough : located.length + 2 < size
  · have marked : appended size located [':'] = located ++ [':'] := appended_fits (by omega)
    have length : (appended size located [':']).length = located.length + 1 := by
      rw [marked, List.length_append, colon]
    have fits : numbered.length + ['\n'].length < size := by
      rcases inserted with ⟨rfl, guard⟩ | rfl
      · rw [List.length_append]
        omega
      · omega
    rw [appended_fits fits, List.getLast?_concat]
    exact iff_of_true rfl (.inl enough)
  · have marked : (appended size located [':']).length + 1 = size := by
      rw [length_appended, colon]
      unfold level
      split
      · omega
      · omega
    have same : numbered = appended size located [':'] := by
      rcases inserted with ⟨-, guard⟩ | same
      · omega
      · exact same
    rw [same, appended_full (by omega)]
    by_cases full : located.length + 1 = size
    · rw [appended_full (by omega)]
      exact ⟨fun last => .inr ⟨full, last⟩, fun ends => (ends.resolve_left enough).2⟩
    · rw [appended_fits (by omega), List.getLast?_concat]
      exact iff_of_false (by decide) fun ends => full (ends.resolve_left enough).1

/-- The separator does not end a line. -/
theorem separated_ends_iff (size : ℕ) (content : Str) :
    ((appended size content " -- ".toList).length + 1 = size ∧
        (appended size content " -- ".toList).getLast? = some '\n') ↔
      content.length + 1 = size ∧ content.getLast? = some '\n' := by
  have separator : " -- ".toList.length = 4 := rfl
  by_cases fits : content.length + " -- ".toList.length < size
  · have last : (content ++ " -- ".toList).getLast? = some ' ' :=
      List.getLast?_append_of_ne_nil _ (by decide)
    rw [appended_fits fits, last]
    refine iff_of_false (fun ends => ?_) fun ends => ?_
    · exact absurd ends.2 (by decide)
    · omega
  · rw [appended_full fits]

/-- A full buffer ends with a line feed if the last text that filled it does. -/
theorem located_ends_iff (size : ℕ) (content name : Str) :
    ((appended size (appended size content " -- ".toList) name).length + 1 = size ∧
        (appended size (appended size content " -- ".toList) name).getLast? = some '\n') ↔
      content.length + 1 = size ∧ content.getLast? = some '\n' ∨
        level size content.length 4 + name.length + 1 = size ∧ name.getLast? = some '\n' := by
  have length : (appended size content " -- ".toList).length = level size content.length 4 :=
    length_appended size content " -- ".toList
  by_cases named : (appended size content " -- ".toList).length + name.length < size
  · rw [appended_fits named, List.length_append]
    cases name with
    | nil =>
        have noEnd : ¬ (level size content.length 4 + 0 + 1 = size ∧
            ([] : Str).getLast? = some '\n') := fun ends => by cases ends.2
        rw [List.append_nil, List.length_nil, Nat.add_zero, separated_ends_iff size content,
          or_iff_left noEnd]
    | cons c name =>
        have notFull : ¬ (content.length + 1 = size ∧ content.getLast? = some '\n') := by
          rintro ⟨full, -⟩
          have stays : level size content.length 4 = content.length := if_neg (by omega)
          rw [length, stays, List.length_cons] at named
          omega
        rw [List.getLast?_append_of_ne_nil _ (List.cons_ne_nil c name), length,
          or_iff_right notFull]
  · have tooLong : ¬ (level size content.length 4 + name.length + 1 = size ∧
        name.getLast? = some '\n') := by
      rintro ⟨full, -⟩
      omega
    rw [appended_full named, separated_ends_iff size content, or_iff_left tooLong]

/-- The pieces that the destructor leaves. -/
theorem kept_ending (format : DoubleFormat) (location : Location) (pieces : List (Piece Char)) :
    (((Logger.ending format location).map .insert).map StreamOperation.effect).foldl (step size)
        pieces =
      step size (step size (step size (step size (step size pieces
        (.put (textPiece " -- ".toList))) (.put (textPiece location.logName)))
        (.put (textPiece [':']))) (.put (integerPiece location.numLines)))
        (.put (textPiece ['\n'])) := by
  have separator : cStringPiece (some " -- ".toList) = textPiece " -- ".toList :=
    congrArg textPiece (by decide)
  simp only [Logger.ending, List.map_cons, List.map_nil, List.foldl_cons, List.foldl_nil,
    StreamOperation.effect, Insertion.piece, separator]

end Lines

variable {size : ℕ}

/-- **The destructor ends the line** where the line fits. -/
theorem Logger.destroy_endsLine_iff (format : DoubleFormat) (small : size < 2 ^ 31)
    {logger : Logger size} {pieces : List (Piece Char)} (keeps : logger.logStream.Keeps pieces) :
    ∃ record, logger.destroy format = .ok record ∧
      (record.getLast? = some '\n' ↔
        LineFits size logger.logStream.content logger.location.logName) := by
  obtain ⟨after, ran, ended⟩ :=
    keeps.performAll small ((ending format logger.location).map .insert)
  have inserted : logger.insertAll format (ending format logger.location) =
      .ok { logger with logStream := after } := congrArg (Except.map _) ran
  refine ⟨after.content, congrArg (Except.map _) inserted, ?_⟩
  have positive : 0 < size := Nat.zero_lt_of_lt keeps.room
  rw [(ended.content small).2, (keeps.content small).2, kept_ending, text_put_text]
  -- the number is short, so behind it there is room for the line feed
  have numbered := @text_step_put _ size (step size (step size (step size pieces
    (.put (textPiece " -- ".toList))) (.put (textPiece logger.location.logName)))
    (.put (textPiece [':']))) (integerPiece logger.location.numLines)
  rw [text_put_text, text_put_text, text_put_text] at numbered
  have room : (appended size (appended size (text pieces) " -- ".toList)
      logger.location.logName).length < size := by
    rw [← text_put_text, ← text_put_text]
    exact length_step_lt positive (length_step_lt positive keeps.room _) _
  rw [getLast_ending room (length_signedText logger.location.numLines) ?_, located_ends_iff,
    length_appended, length_appended]
  · rfl
  · rw [numbered]
    split
    · rename_i guard
      exact .inl ⟨rfl, guard⟩
    · exact .inr rfl

/-- What is put into the buffer before the destructor. -/
def recorded (format : DoubleFormat) (time : TimeText) (insertions : List (Insertion format)) :
    List (Operation Char) :=
  .put (cStringPiece (some time.text)) :: insertions.map fun insertion => .put insertion.piece

/-- The buffer keeps the time and the insertions of a logger. -/
theorem Logger.exists_inserted (format : DoubleFormat) (positive : 0 < size)
    (small : size < 2 ^ 31) (data : FixedArray Char size) (time : TimeText) (location : Location)
    (insertions : List (Insertion format)) :
    ∃ started stream, Logger.new data time location = .ok started ∧
      started.insertAll format insertions = .ok ⟨stream, location⟩ ∧
      stream.Keeps (kept size (recorded format time insertions)) := by
  have short : ∀ text ∈ some time.text, (cStr text).length < 2 ^ 31 := by
    rintro text ⟨⟩
    have front : cStr time.text <+: time.text := List.takeWhile_prefix _
    have shorter := front.length_le
    have short := time.short
    omega
  obtain ⟨stream, ran, keeps⟩ := (LogArray.keeps_new positive data).insertCString small short
  obtain ⟨after, ran', keeps'⟩ := keeps.performAll small (insertions.map .insert)
  rw [List.map_map] at keeps'
  exact ⟨⟨stream, location⟩, after, congrArg (Except.map _) ran, congrArg (Except.map _) ran',
    keeps'⟩

/-- **Which records end their line.** A record of a new logger with any insertions ends with a line
feed exactly if its line fits behind what has been kept of the time and the insertions. -/
theorem record_endsLine_iff (format : DoubleFormat) (data : FixedArray Char smallBuffer)
    (time : TimeText) (location : Location) (insertions : List (Insertion format)) :
    ∃ started logger record, Logger.new data time location = .ok started ∧
      started.insertAll format insertions = .ok logger ∧ logger.destroy format = .ok record ∧
      (record.getLast? = some '\n' ↔
        LineFits smallBuffer (text (kept smallBuffer (recorded format time insertions)))
          location.logName) := by
  have small : smallBuffer < 2 ^ 31 := by decide
  obtain ⟨started, stream, built, inserted, keeps⟩ :=
    Logger.exists_inserted format (by decide) small data time location insertions
  obtain ⟨record, ended, fits⟩ :=
    @Logger.destroy_endsLine_iff _ format small ⟨stream, location⟩ _ keeps
  rw [(keeps.content small).2] at fits
  exact ⟨started, ⟨stream, location⟩, record, built, inserted, ended, fits⟩

/-! ## A full record -/

/-- A time as it is written. -/
def noon : TimeText := ⟨"2022-08-06 12:00:00\n".toList, by decide⟩

/-- A place in the source. -/
def mainLine : Location := ⟨"main.cpp".toList, ⟨43, by decide, by decide⟩, by decide⟩

/-- A body of 4075 characters, which fill the buffer behind the time. -/
def longBody : Str := List.replicate 4075 'a'

theorem length_longBody : longBody.length = 4075 := List.length_replicate

/-- A format whose numbers are digits. -/
def digitFormat : DoubleFormat := ⟨Fin 10, Fin 10, id, fun v => [Nat.digitChar v], fun _ => by simp⟩

/-- The time and one string, as they are kept. -/
theorem text_kept_string (format : DoubleFormat) (time : TimeText) (body : Str)
    (short : body.length < 2 ^ 31) :
    text (kept size (recorded format time [.string body short])) =
      appended size (appended size [] (cStr time.text)) body := by
  simp only [kept, recorded, List.map_cons, List.map_nil, List.foldl_cons, List.foldl_nil,
    Insertion.piece, cStringPiece, text_put_text]
  rfl

/-- The body stands behind the time. -/
theorem text_kept_longBody (short : longBody.length < 2 ^ 31) :
    text (kept smallBuffer (recorded digitFormat noon [.string longBody short])) =
      noon.text ++ longBody := by
  have whole : cStr noon.text = noon.text := by decide
  have length : noon.text.length = 20 := by decide
  have bodyLength := length_longBody
  have size : smallBuffer = 4096 := rfl
  have time : appended smallBuffer [] noon.text = noon.text :=
    appended_fits (by rw [List.length_nil]; omega)
  rw [text_kept_string, whole, time]
  exact appended_fits (by omega)

/-- **A record without an end**: behind a body that fills the buffer, nothing of the end fits. -/
theorem fullRecord_unended :
    ∃ started logger record,
      Logger.new (FixedArray.filled smallBuffer '\x00') noon mainLine = .ok started ∧
        started.insertAll digitFormat
            [.string longBody (by rw [length_longBody]; decide)] = .ok logger ∧
          logger.destroy digitFormat = .ok record ∧ record.getLast? ≠ some '\n' := by
  have small : smallBuffer < 2 ^ 31 := by decide
  obtain ⟨started, stream, built, inserted, keeps⟩ :=
    Logger.exists_inserted digitFormat (by decide) small (FixedArray.filled smallBuffer '\x00') noon
      mainLine [.string longBody (by rw [length_longBody]; decide)]
  obtain ⟨record, ended, fits⟩ :=
    @Logger.destroy_endsLine_iff _ digitFormat small ⟨stream, mainLine⟩ _ keeps
  refine ⟨started, _, record, built, inserted, ended, mt fits.mp ?_⟩
  rw [(keeps.content small).2, text_kept_longBody]
  have full : (noon.text ++ longBody).length = 4095 := by
    rw [List.length_append, length_longBody]
    rfl
  have last : (noon.text ++ longBody).getLast? = some 'a' := by
    rw [List.getLast?_append, longBody, List.getLast?_replicate]
    rfl
  have stays : ∀ count, 0 < count → level smallBuffer 4095 count = 4095 := by
    intro count positive
    refine if_neg ?_
    show ¬ 4095 + count < 4096
    omega
  have name : 0 < mainLine.logName.length := by decide
  rintro (room | ⟨-, ends⟩ | ⟨length, -⟩)
  · rw [full, stays 4 (by decide), stays _ name] at room
    exact absurd room (by decide)
  · rw [last] at ends
    exact absurd ends (by decide)
  · rw [full, stays 4 (by decide)] at length
    have length : 4095 + mainLine.logName.length + 1 = 4096 := length
    omega

end FastWebServer.Log
