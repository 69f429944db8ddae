import FastWebServer.Http.ParseHeaders

/-!
# The lines of a header block

What `parse_Headers` reads, as a text: characters that `H_START` skips, and then lines
(`Lines`). A `HeaderLine` carries what the states of the automaton check. They check the
characters of a key after the first one, and of a value after the first one. The first
character of a key is looked at by the state before (`Begins`), and the first character of a
value by none: `H_SPACES_AFTER_COLON` takes it whatever it is.

A line that fits the `int` positions of the scan is read and stored (`scan_line`).
Conversely the text read so far consists of lines and the beginning of one more, with the marks
where its parts start and end (`Stands`, `headerStep_stands`).
-/

set_option autoImplicit false

namespace FastWebServer

open Cxx

/-! ## Lines -/

/-- A line of a header block, as the automaton reads it. -/
structure HeaderLine where
  keyHead : Char
  keyTail : Str
  valueHead : Char
  valueTail : Str
  keyTail_plain : ∀ c ∈ keyTail, c ≠ ':' ∧ c ≠ '\n' ∧ c ≠ '\r'
  valueTail_plain : '\r' ∉ valueTail
  valueTail_short : valueTail.length ≤ 255

namespace HeaderLine

def key (line : HeaderLine) : Str := line.keyHead :: line.keyTail

def value (line : HeaderLine) : Str := line.valueHead :: line.valueTail

/-- The line as far as its carriage return. -/
def body (line : HeaderLine) : Str := line.key ++ ':' :: ' ' :: (line.value ++ ['\r'])

/-- The line with its end. -/
def text (line : HeaderLine) : Str := line.body ++ ['\n']

/-- How far into the line its value starts. -/
def valueAt (line : HeaderLine) : ℕ := line.key.length + 2

/-- How far into the line its value ends. -/
def valueTo (line : HeaderLine) : ℕ := line.key.length + 2 + line.value.length

theorem length_body (line : HeaderLine) : line.body.length = line.valueTo + 1 := by
  simp only [body, valueTo, List.length_append, List.length_cons, List.length_nil]
  omega

theorem length_text (line : HeaderLine) : line.text.length = line.valueTo + 2 := by
  rw [text, List.length_append, length_body, List.length_singleton]

/-- What the scan checks of a line that starts at `p`, in the `int`s that hold its positions. -/
structure Passes (line : HeaderLine) (p : ℕ) : Prop where
  keyStart : 0 ≤ toInt p
  keyOrder : toInt p < toInt (p + line.key.length)
  valueStart : 0 ≤ toInt (p + line.valueAt)
  near : ∀ n < line.valueTail.length,
    ¬ 255 < sizeSub (p + line.valueAt + 1 + n) (toSize (toInt (p + line.valueAt)))
  valueOrder : toInt (p + line.valueAt) < toInt (p + line.valueTo)

/-- Positions in the order of the text, as `int`s. -/
theorem toInt_lt_toInt {first last : ℕ} (lt : first < last) (bound : last < 2 ^ 31) :
    toInt first < toInt last :=
  sub_pos.mp (Int.not_le.mp (toInt_sub_pos lt bound))

/-- A line that fits the positions of the scan passes. -/
theorem passes_of_fits {line : HeaderLine} {p : ℕ} (fits : p + line.valueTo < 2 ^ 31) :
    line.Passes p := by
  have order : p + line.valueAt < p + line.valueTo := by simp [valueAt, valueTo, value]
  have keyTo : p + line.key.length < p + line.valueAt := by simp [valueAt]
  have keyFrom : p < p + line.key.length := by simp [key]
  have valueEnd : p + line.valueAt + 1 + line.valueTail.length = p + line.valueTo := by
    simp only [valueAt, valueTo, value, List.length_cons]
    omega
  have short := line.valueTail_short
  refine ⟨?_, toInt_lt_toInt keyFrom (by omega), ?_, ?_, toInt_lt_toInt order fits⟩
  · rw [toInt_of_lt (by omega)]
    exact Int.natCast_nonneg p
  · rw [toInt_of_lt (by omega)]
    exact Int.natCast_nonneg _
  · intro n inside
    rw [toInt_of_lt (by omega), toSize_natCast (by omega), sizeSub_of_le (by omega) (by omega)]
    omega

/-- The text that the marks of the key cut out. -/
def keyIn (line : HeaderLine) (buffer : Str) (p : ℕ) : Str :=
  (buffer.drop (toInt p).toNat).take (toInt (p + line.key.length) - toInt p).toNat

/-- The text that the marks of the value cut out. -/
def valueIn (line : HeaderLine) (buffer : Str) (p : ℕ) : Str :=
  (buffer.drop (toInt (p + line.valueAt)).toNat).take
    (toInt (p + line.valueTo) - toInt (p + line.valueAt)).toNat

/-- The marks of a line that passes lie inside a buffer that has the line. -/
theorem Passes.range_key {line : HeaderLine} {p : ℕ} {buffer : Str} (passes : line.Passes p)
    (inside : p + line.valueTo ≤ buffer.length) :
    range buffer (toInt p) (toInt (p + line.key.length)) = .ok (line.keyIn buffer p) := by
  have keyTo := toInt_le (p + line.key.length)
  have before : p + line.key.length ≤ p + line.valueTo := by
    unfold valueTo
    omega
  exact range_of_bounds passes.keyStart passes.keyOrder.le
    (keyTo.trans (Int.ofNat_le.mpr (before.trans inside)))

theorem Passes.range_value {line : HeaderLine} {p : ℕ} {buffer : Str} (passes : line.Passes p)
    (inside : p + line.valueTo ≤ buffer.length) :
    range buffer (toInt (p + line.valueAt)) (toInt (p + line.valueTo)) =
      .ok (line.valueIn buffer p) :=
  range_of_bounds passes.valueStart passes.valueOrder.le
    ((toInt_le _).trans (Int.ofNat_le.mpr inside))

/-- The marks of a line that fits cut out its key. -/
theorem keyIn_of_fits {before rest : Str} {line : HeaderLine}
    (fits : before.length + line.valueTo < 2 ^ 31) :
    line.keyIn (before ++ line.body ++ rest) before.length = line.key := by
  have keyTo : before.length + line.key.length < 2 ^ 31 := by
    unfold valueTo at fits
    omega
  rw [keyIn, toInt_of_lt keyTo, toInt_of_lt (by omega), Int.toNat_natCast, Nat.cast_add,
    add_sub_cancel_left, Int.toNat_natCast]
  simp [body]

/-- The marks of a line that fits cut out its value. -/
theorem valueIn_of_fits {before rest : Str} {line : HeaderLine}
    (fits : before.length + line.valueTo < 2 ^ 31) :
    line.valueIn (before ++ line.body ++ rest) before.length = line.value := by
  have split : before ++ line.body ++ rest =
      (before ++ line.key ++ [':', ' ']) ++ (line.value ++ '\r' :: rest) := by
    simp [body]
  have start : before.length + line.valueAt = (before ++ line.key ++ [':', ' ']).length := by
    simp only [valueAt, List.length_append, List.length_cons, List.length_nil]
    omega
  have length : before.length + line.valueTo =
      (before ++ line.key ++ [':', ' ']).length + line.value.length := by
    simp only [valueTo, List.length_append, List.length_cons, List.length_nil]
    omega
  rw [length] at fits
  rw [valueIn, start, length, toInt_of_lt fits, toInt_of_lt (by omega), split, Int.toNat_natCast,
    List.drop_left, Nat.cast_add, add_sub_cancel_left, Int.toNat_natCast, List.take_left]

end HeaderLine

/-- A character that may begin a key behind these lines. -/
def Begins (lines : List HeaderLine) (c : Char) : Prop :=
  if lines = [] then c ≠ '\n' ∧ c ≠ 'r' else c ≠ '\r'

/-- A text of skipped characters and, behind them, of these lines, all of which pass. -/
inductive Lines : Str → List HeaderLine → Prop where
  | skip {skipped : Str} (all : ∀ c ∈ skipped, c = '\n' ∨ c = 'r') : Lines skipped []
  | line {before : Str} {lines : List HeaderLine} (earlier : Lines before lines)
      (line : HeaderLine) (begins : Begins lines line.keyHead)
      (passes : line.Passes before.length) : Lines (before ++ line.text) (lines ++ [line])

/-- A text without lines has skipped characters only. -/
theorem Lines.skipped {before : Str} {lines : List HeaderLine} (reads : Lines before lines)
    (none : lines = []) : ∀ c ∈ before, c = '\n' ∨ c = 'r' := by
  cases reads with
  | skip all => exact all
  | line => exact absurd none (List.append_ne_nil_of_right_ne_nil _ (List.cons_ne_nil _ _))

/-! ## Reading a line -/

section Reading

variable {buffer rest : Str} {i : ℕ} {scan : HeaderScan}

/-- The loop makes one pass. -/
theorem scan_cons {c : Char} {scan' : HeaderScan} (unfinished : scan.finished = false)
    (step : headerStep buffer i c scan = .next scan') :
    scanHeaders buffer (c :: rest) i scan = scanHeaders buffer rest (i + 1) scan' := by
  rw [scanHeaders, if_neg (by simp [unfinished])]
  simp only [step]

/-- A text whose characters do not change the state is passed over. -/
theorem scan_over {text : Str} (unfinished : scan.finished = false)
    (stays : ∀ k c, text[k]? = some c → headerStep buffer (i + k) c scan = .next scan) :
    scanHeaders buffer (text ++ rest) i scan = scanHeaders buffer rest (i + text.length) scan := by
  induction text generalizing i with
  | nil => rfl
  | cons c text ih =>
      have first : headerStep buffer i c scan = .next scan := stays 0 c rfl
      rw [List.cons_append, scan_cons unfinished first, ih, List.length_cons]
      · congr 1
        omega
      · intro k d there
        have same : i + 1 + k = i + (k + 1) := by omega
        rw [same]
        exact stays (k + 1) d there

/-- The characters that `H_START` skips. -/
theorem scan_skip {skipped : Str} (unfinished : scan.finished = false)
    (start : scan.parseState = .start) (all : ∀ c ∈ skipped, c = '\n' ∨ c = 'r') :
    scanHeaders buffer (skipped ++ rest) i scan =
      scanHeaders buffer rest (i + skipped.length) scan := by
  apply scan_over unfinished
  intro k c there
  have skips := all c (List.mem_of_getElem? there)
  simp only [headerStep, start, if_pos skips]

/-- The characters of a key after the first. -/
theorem scan_keyTail {tail : Str} (unfinished : scan.finished = false)
    (inKey : scan.parseState = .key) (plain : ∀ c ∈ tail, c ≠ ':' ∧ c ≠ '\n' ∧ c ≠ '\r') :
    scanHeaders buffer (tail ++ rest) i scan = scanHeaders buffer rest (i + tail.length) scan := by
  apply scan_over unfinished
  intro k c there
  obtain ⟨noColon, noFeed, noReturn⟩ := plain c (List.mem_of_getElem? there)
  have others : ¬ (c = '\n' ∨ c = '\r') := not_or.mpr ⟨noFeed, noReturn⟩
  simp only [headerStep, inKey, if_neg noColon, if_neg others]

/-- The characters of a value after the first, near its start. -/
theorem scan_valueTail {tail : Str} (unfinished : scan.finished = false)
    (inValue : scan.parseState = .value) (plain : '\r' ∉ tail)
    (near : ∀ n < tail.length, ¬ 255 < sizeSub (i + n) (toSize scan.valueStart)) :
    scanHeaders buffer (tail ++ rest) i scan =
      scanHeaders buffer rest (i + tail.length) scan := by
  apply scan_over unfinished
  intro k c there
  have inside := (List.getElem?_eq_some_iff.mp there).1
  have noReturn : c ≠ '\r' := fun same => plain (same ▸ List.mem_of_getElem? there)
  simp only [headerStep, inValue, if_neg noReturn, if_neg (near k inside)]

theorem headerStep_space (inColon : scan.parseState = .colon) :
    headerStep buffer i ' ' scan = .next { scan with parseState := .spacesAfterColon } := by
  simp only [headerStep, inColon, if_true]

/-- Whatever stands behind the space begins the value. -/
theorem headerStep_valueHead {c : Char} (afterSpace : scan.parseState = .spacesAfterColon) :
    headerStep buffer i c scan =
      .next { scan with parseState := .value, valueStart := toInt i } := by
  simp only [headerStep, afterSpace]

theorem headerStep_return (inValue : scan.parseState = .value)
    (order : scan.valueStart < toInt i) :
    headerStep buffer i '\r' scan = .next { scan with parseState := .cr, valueEnd := toInt i } := by
  have longer : ¬ toInt i - scan.valueStart ≤ 0 := Int.not_le.mpr (sub_pos.mpr order)
  simp only [headerStep, inValue, if_true, if_neg longer]

/-- A scan that stands behind the carriage return of a line, with the marks where the parts of
the line are when it starts at `p`. -/
structure Cut (line : HeaderLine) (p : ℕ) (scan : HeaderScan) : Prop where
  parseState : scan.parseState = .cr
  unfinished : scan.finished = false
  keyStart : scan.keyStart = toInt p
  keyEnd : scan.keyEnd = toInt (p + line.key.length)
  valueStart : scan.valueStart = toInt (p + line.valueAt)
  valueEnd : scan.valueEnd = toInt (p + line.valueTo)

/-- From behind the first character of a line to its carriage return. -/
theorem scan_body {line : HeaderLine} {p : ℕ} (unfinished : scan.finished = false)
    (inKey : scan.parseState = .key) (mark : scan.keyStart = toInt p) (passes : line.Passes p) :
    ∃ scan', scanHeaders buffer (line.keyTail ++ ':' :: ' ' :: line.valueHead ::
        (line.valueTail ++ '\r' :: rest)) (p + 1) scan =
          scanHeaders buffer rest (p + line.body.length) scan' ∧
      Cut line p scan' ∧ scan'.headers = scan.headers := by
  have keyTo : p + 1 + line.keyTail.length = p + line.key.length := by
    rw [HeaderLine.key, List.length_cons]
    omega
  have valueAt : p + line.key.length + 1 + 1 = p + line.valueAt := rfl
  have valueTo : p + line.valueAt + 1 + line.valueTail.length = p + line.valueTo := by
    simp only [HeaderLine.valueAt, HeaderLine.valueTo, HeaderLine.value, List.length_cons]
    omega
  have colon : headerStep buffer (p + line.key.length) ':' scan =
      .next { scan with parseState := .colon, keyEnd := toInt (p + line.key.length) } := by
    have longer := Int.not_le.mpr (sub_pos.mpr passes.keyOrder)
    simp only [headerStep, inKey, mark, if_true, if_neg longer]
  have passed := @scan_valueTail buffer ('\r' :: rest) (p + line.valueAt + 1)
    { scan with
      parseState := .value
      keyEnd := toInt (p + line.key.length)
      valueStart := toInt (p + line.valueAt) } line.valueTail unfinished rfl
    line.valueTail_plain passes.near
  have stop := @headerStep_return buffer (p + line.valueTo)
    { scan with
      parseState := .value
      keyEnd := toInt (p + line.key.length)
      valueStart := toInt (p + line.valueAt) } rfl passes.valueOrder
  refine ⟨{ scan with
    parseState := .cr
    keyEnd := toInt (p + line.key.length)
    valueStart := toInt (p + line.valueAt)
    valueEnd := toInt (p + line.valueTo) }, ?_, ⟨rfl, unfinished, mark, rfl, rfl, rfl⟩, rfl⟩
  rw [scan_keyTail unfinished inKey line.keyTail_plain, keyTo, scan_cons unfinished colon]
  rw [scan_cons (by exact unfinished) (headerStep_space rfl)]
  rw [scan_cons (by exact unfinished) (headerStep_valueHead rfl), valueAt]
  rw [passed, valueTo, scan_cons (by exact unfinished) stop, line.length_body]
  rfl

/-- A scan that waits for the first character of the line behind these. -/
def Awaits (lines : List HeaderLine) (scan : HeaderScan) : Prop :=
  scan.finished = false ∧ scan.parseState = if lines = [] then .start else .lf

/-- The first character of a key. -/
theorem headerStep_keyHead {lines : List HeaderLine} {c : Char} (awaits : Awaits lines scan)
    (begins : Begins lines c) :
    ∃ scan', headerStep buffer i c scan = .next scan' ∧ scan'.finished = false ∧
      scan'.parseState = .key ∧ scan'.keyStart = toInt i ∧ scan'.headers = scan.headers := by
  obtain ⟨unfinished, state⟩ := awaits
  unfold Begins at begins
  by_cases first : lines = []
  · rw [if_pos first] at state begins
    refine ⟨{ scan with parseState := .key, keyStart := toInt i, readCur := toInt i }, ?_,
      unfinished, rfl, rfl, rfl⟩
    simp only [headerStep, state, if_neg (not_or.mpr begins)]
  · rw [if_neg first] at state begins
    refine ⟨{ scan with parseState := .key, keyStart := toInt i }, ?_, unfinished, rfl, rfl, rfl⟩
    simp only [headerStep, state, if_neg begins]

/-- A line is read to its carriage return. -/
theorem scan_toReturn {lines : List HeaderLine} {line : HeaderLine} {p : ℕ}
    (awaits : Awaits lines scan) (begins : Begins lines line.keyHead) (passes : line.Passes p) :
    ∃ scan', scanHeaders buffer (line.body ++ rest) p scan =
        scanHeaders buffer rest (p + line.body.length) scan' ∧
      Cut line p scan' ∧ scan'.headers = scan.headers := by
  obtain ⟨head, step, unfinished, inKey, mark, same⟩ :=
    @headerStep_keyHead buffer p scan _ _ awaits begins
  obtain ⟨scan', passed, cut, same'⟩ :=
    @scan_body buffer rest head line p unfinished inKey mark passes
  refine ⟨scan', ?_, cut, same'.trans same⟩
  have split : line.body ++ rest = line.keyHead :: (line.keyTail ++ ':' :: ' ' :: line.valueHead ::
      (line.valueTail ++ '\r' :: rest)) := by
    simp [HeaderLine.body, HeaderLine.key, HeaderLine.value]
  rw [split, scan_cons awaits.1 step, passed]

/-- **The line feed of a line stores what its marks cut out.** -/
theorem headerStep_lineFeed {line : HeaderLine} {p : ℕ} (cut : Cut line p scan)
    (passes : line.Passes p) (inside : p + line.valueTo ≤ buffer.length) :
    headerStep buffer i '\n' scan = .next { scan with
      parseState := .lf
      headers := scan.headers.store (line.keyIn buffer p) (line.valueIn buffer p)
      readCur := toInt i } := by
  simp only [headerStep, cut.parseState, cut.keyStart, cut.keyEnd, cut.valueStart, cut.valueEnd,
    passes.range_key inside, passes.range_value inside, if_true]

/-- **A line that passes is read and stored.** -/
theorem scan_line {before more : Str} {lines : List HeaderLine} {line : HeaderLine}
    (awaits : Awaits lines scan) (begins : Begins lines line.keyHead)
    (passes : line.Passes before.length) :
    ∃ scan', scanHeaders (before ++ line.body ++ more) (line.text ++ rest) before.length scan =
        scanHeaders (before ++ line.body ++ more) rest (before ++ line.text).length scan' ∧
      Awaits (lines ++ [line]) scan' ∧
      scan'.headers = scan.headers.store (line.keyIn (before ++ line.body ++ more) before.length)
        (line.valueIn (before ++ line.body ++ more) before.length) ∧
      scan'.readCur = toInt (before ++ line.body).length := by
  have split : line.text ++ rest = line.body ++ '\n' :: rest := by simp [HeaderLine.text]
  have inside : before.length + line.valueTo ≤ (before ++ line.body ++ more).length := by
    simp only [List.length_append, line.length_body]
    omega
  obtain ⟨middle, passed, cut, same⟩ := @scan_toReturn (before ++ line.body ++ more)
    ('\n' :: rest) scan lines line before.length awaits begins passes
  have stored := @headerStep_lineFeed (before ++ line.body ++ more)
    (before.length + line.body.length) middle line before.length cut passes inside
  refine ⟨{ middle with
    parseState := .lf
    headers := middle.headers.store (line.keyIn (before ++ line.body ++ more) before.length)
      (line.valueIn (before ++ line.body ++ more) before.length)
    readCur := toInt (before.length + line.body.length) }, ?_, ⟨cut.unfinished, ?_⟩, by rw [same],
    by rw [List.length_append]⟩
  · rw [split, passed, scan_cons cut.unfinished stored]
    congr 1
    rw [List.length_append, HeaderLine.text, List.length_append, List.length_singleton]
    omega
  · exact (if_neg (List.append_ne_nil_of_right_ne_nil _ (List.cons_ne_nil _ _))).symm

/-- The blank line behind a line ends the block. -/
theorem scan_blankLine (unfinished : scan.finished = false) (state : scan.parseState = .lf) :
    scanHeaders buffer ('\r' :: '\n' :: rest) i scan =
      scanHeaders buffer rest (i + 2) { scan with parseState := .endLf } := by
  have first : headerStep buffer i '\r' scan = .next { scan with parseState := .endCr } := by
    simp only [headerStep, state, if_true]
  have second : headerStep buffer (i + 1) '\n' { scan with parseState := .endCr } =
      .next { scan with parseState := .endLf } := by
    simp only [headerStep, if_true]
  rw [scan_cons unfinished first, scan_cons (by exact unfinished) second]

end Reading

/-- These lines, one after the other. -/
def linesText (lines : List HeaderLine) : Str := lines.flatMap HeaderLine.text

/-- The headers of these lines, stored one after the other. -/
def storeLines (headers : HeaderMap) (lines : List HeaderLine) : HeaderMap :=
  lines.foldl (fun headers line => headers.store line.key line.value) headers

/-- **Lines are read from the start of a block**, and stored where they fit the positions of the
scan. -/
theorem scan_lines {before : Str} {lines : List HeaderLine} (reads : Lines before lines)
    (headers : HeaderMap) (more rest : Str) :
    ∃ scan, scanHeaders (before ++ more) (before ++ rest) 0 (.enter .start headers) =
        scanHeaders (before ++ more) rest before.length scan ∧
      Awaits lines scan ∧
      (before.length < 2 ^ 31 + 2 → scan.headers = storeLines headers lines) := by
  induction reads generalizing more rest with
  | @skip skipped all =>
      refine ⟨.enter .start headers, ?_, ⟨rfl, rfl⟩, fun _ => rfl⟩
      rw [scan_skip rfl rfl all, Nat.zero_add]
  | @line before lines earlier line begins passes ih =>
      have whole : before ++ line.text ++ more = before ++ line.body ++ '\n' :: more := by
        simp [HeaderLine.text]
      have split : before ++ line.text ++ more = before ++ (line.text ++ more) :=
        List.append_assoc _ _ _
      obtain ⟨middle, passed, awaits, stored⟩ := ih (line.text ++ more) (line.text ++ rest)
      obtain ⟨scan, passed', awaits', stored', -⟩ := @scan_line rest middle before ('\n' :: more)
        lines line awaits begins passes
      refine ⟨scan, ?_, awaits', fun fits => ?_⟩
      · rw [split, List.append_assoc, passed, ← split, whole, passed']
      · rw [List.length_append, line.length_text] at fits
        rw [stored', stored (by omega), HeaderLine.keyIn_of_fits (by omega),
          HeaderLine.valueIn_of_fits (by omega), storeLines, storeLines, List.foldl_append]
        rfl

/-! ## Lines that do not fit -/

section Stopped

variable {buffer rest : Str} {i j : ℕ} {scan last : HeaderScan}

/-- A scan that stops has made its first pass. -/
theorem step_of_stopped {c : Char} (unfinished : scan.finished = false)
    (stopped : scanHeaders buffer (c :: rest) i scan = .stopped j last) :
    ∃ scan', headerStep buffer i c scan = .next scan' ∧
      scanHeaders buffer rest (i + 1) scan' = .stopped j last := by
  rw [scanHeaders, if_neg (by simp [unfinished])] at stopped
  cases step : headerStep buffer i c scan with
  | next scan' => exact ⟨scan', rfl, by simpa only [step] using stopped⟩
  | error scan' => simp only [step, reduceCtorEq] at stopped
  | fault fault => simp only [step, reduceCtorEq] at stopped

/-- A scan that stops has passed over the value, near its start. -/
theorem scan_valueTail_of_stopped {tail : Str} (unfinished : scan.finished = false)
    (inValue : scan.parseState = .value) (plain : '\r' ∉ tail)
    (stopped : scanHeaders buffer (tail ++ rest) i scan = .stopped j last) :
    (∀ n < tail.length, ¬ 255 < sizeSub (i + n) (toSize scan.valueStart)) ∧
      scanHeaders buffer rest (i + tail.length) scan = .stopped j last := by
  induction tail generalizing i with
  | nil => exact ⟨fun n inside => absurd inside (Nat.not_lt_zero n), stopped⟩
  | cons c tail ih =>
      obtain ⟨noReturn, plain⟩ := not_or.mp (mt List.mem_cons.mpr plain)
      obtain ⟨scan', step, stopped⟩ := step_of_stopped unfinished stopped
      simp only [headerStep, inValue, if_neg (Ne.symm noReturn)] at step
      split at step
      · cases step
      · rename_i here
        cases step
        obtain ⟨near, later⟩ := ih plain stopped
        refine ⟨?_, ?_⟩
        · intro n inside
          cases n with
          | zero => exact here
          | succ n =>
              rw [Nat.add_comm n 1, ← Nat.add_assoc]
              exact near n (Nat.lt_of_succ_lt_succ inside)
        · rwa [List.length_cons, Nat.add_comm tail.length 1, ← Nat.add_assoc]

/-- A colon that ends a key stands behind its start. -/
theorem order_of_colon {scan' : HeaderScan} (inKey : scan.parseState = .key)
    (step : headerStep buffer i ':' scan = .next scan') :
    scan.keyStart < toInt i ∧ scan' = { scan with parseState := .colon, keyEnd := toInt i } := by
  simp only [headerStep, inKey, if_true] at step
  split at step
  · cases step
  · rename_i longer
    exact ⟨sub_pos.mp (Int.not_le.mp longer), (ScanStep.next.inj step).symm⟩

/-- A carriage return that ends a value stands behind its start. -/
theorem order_of_return {scan' : HeaderScan} (inValue : scan.parseState = .value)
    (step : headerStep buffer i '\r' scan = .next scan') :
    scan.valueStart < toInt i ∧ scan' = { scan with parseState := .cr, valueEnd := toInt i } := by
  simp only [headerStep, inValue, if_true] at step
  split at step
  · cases step
  · rename_i longer
    exact ⟨sub_pos.mp (Int.not_le.mp longer), (ScanStep.next.inj step).symm⟩

/-- A line feed that is passed cuts out a key and a value. -/
theorem ranges_of_lineFeed {scan' : HeaderScan} (atReturn : scan.parseState = .cr)
    (step : headerStep buffer i '\n' scan = .next scan') :
    ∃ key value, range buffer scan.keyStart scan.keyEnd = .ok key ∧
      range buffer scan.valueStart scan.valueEnd = .ok value := by
  simp only [headerStep, atReturn, if_true] at step
  split at step
  · rename_i key value cutKey cutValue
    exact ⟨key, value, cutKey, cutValue⟩
  · cases step
  · cases step

/-- The positions of a line that was passed are below `2 ^ 31`. -/
theorem fits_of_order {p keyLength valueLength : ℕ} (near : p < 2 ^ 31 + 2)
    (keyShort : keyLength < 2 ^ 31) (valueShort : valueLength ≤ 256) (keyStart : 0 ≤ toInt p)
    (keyOrder : toInt p < toInt (p + keyLength)) (valueStart : 0 ≤ toInt (p + (keyLength + 2)))
    (valueOrder : toInt (p + (keyLength + 2)) < toInt (p + (keyLength + 2 + valueLength))) :
    p + (keyLength + 2 + valueLength) < 2 ^ 31 := by
  unfold toInt at keyStart keyOrder valueStart valueOrder
  omega

/-- A line that passes near the beginning of the buffer fits, if its key does. -/
theorem HeaderLine.Passes.fits {line : HeaderLine} {p : ℕ} (passes : line.Passes p)
    (near : p < 2 ^ 31 + 2) (short : line.key.length < 2 ^ 31) : p + line.valueTo < 2 ^ 31 := by
  have valueShort : line.value.length ≤ 256 := by
    rw [value, List.length_cons]
    exact Nat.succ_le_succ line.valueTail_short
  exact fits_of_order near short valueShort passes.keyStart passes.keyOrder passes.valueStart
    passes.valueOrder

/-- **A line that the scan gets past passes.** -/
theorem passes_of_stopped {lines : List HeaderLine} {line : HeaderLine} {p : ℕ}
    (awaits : Awaits lines scan) (begins : Begins lines line.keyHead)
    (stopped : scanHeaders buffer (line.text ++ rest) p scan = .stopped j last) :
    line.Passes p := by
  have split : line.text ++ rest = line.keyHead :: (line.keyTail ++ ':' :: ' ' :: line.valueHead ::
      (line.valueTail ++ '\r' :: '\n' :: rest)) := by
    simp [HeaderLine.text, HeaderLine.body, HeaderLine.key, HeaderLine.value]
  have keyTo : p + 1 + line.keyTail.length = p + line.key.length := by
    rw [HeaderLine.key, List.length_cons]
    omega
  have valueAt : p + line.key.length + 1 + 1 = p + line.valueAt := rfl
  have valueTo : p + line.valueAt + 1 + line.valueTail.length = p + line.valueTo := by
    simp only [HeaderLine.valueAt, HeaderLine.valueTo, HeaderLine.value, List.length_cons]
    omega
  obtain ⟨head, first, unfinished, inKey, mark, -⟩ :=
    @headerStep_keyHead buffer p scan _ _ awaits begins
  rw [split, scan_cons awaits.1 first, scan_keyTail unfinished inKey line.keyTail_plain, keyTo]
    at stopped
  -- the colon
  obtain ⟨middle, step, stopped⟩ := step_of_stopped unfinished stopped
  obtain ⟨keyOrder, rfl⟩ := order_of_colon inKey step
  -- the space, and the value
  obtain ⟨middle, step, stopped⟩ := step_of_stopped (by exact unfinished) stopped
  rw [headerStep_space rfl] at step
  cases step
  obtain ⟨middle, step, stopped⟩ := step_of_stopped (by exact unfinished) stopped
  rw [headerStep_valueHead rfl, valueAt] at step
  cases step
  rw [valueAt] at stopped
  obtain ⟨near, stopped⟩ :=
    scan_valueTail_of_stopped (by exact unfinished) rfl line.valueTail_plain stopped
  rw [valueTo] at stopped
  -- the carriage return
  obtain ⟨middle, step, stopped⟩ := step_of_stopped (by exact unfinished) stopped
  obtain ⟨valueOrder, rfl⟩ := order_of_return rfl step
  -- the line feed cuts out both ranges
  obtain ⟨last, step, -⟩ := step_of_stopped (by exact unfinished) stopped
  obtain ⟨key, value, cutKey, cutValue⟩ := ranges_of_lineFeed rfl step
  rw [mark] at cutKey keyOrder
  exact ⟨(bounds_of_range cutKey).1, keyOrder, (bounds_of_range cutValue).1, near, valueOrder⟩

end Stopped

/-! ## What has been read -/

/-- A key at the end of the text, behind these lines, with the mark of its start. -/
structure KeyStands (before : Str) (lines : List HeaderLine) (c : Char) (tail : Str)
    (scan : HeaderScan) : Prop where
  begins : Begins lines c
  plain : ∀ x ∈ tail, x ≠ ':' ∧ x ≠ '\n' ∧ x ≠ '\r'
  keyStart : scan.keyStart = toInt before.length

/-- The same of a key that its colon has ended. -/
structure KeyEnded (before : Str) (lines : List HeaderLine) (c : Char) (tail : Str)
    (scan : HeaderScan) : Prop extends KeyStands before lines c tail scan where
  keyEnd : scan.keyEnd = toInt (before ++ c :: tail).length
  order : scan.keyStart < scan.keyEnd

/-- A value that starts behind such a text, with the mark of its start. -/
structure ValueStands (before tail : Str) (scan : HeaderScan) : Prop where
  plain : '\r' ∉ tail
  short : tail.length ≤ 255
  valueStart : scan.valueStart = toInt before.length
  near : ∀ n < tail.length, ¬ 255 < sizeSub (before.length + 1 + n) (toSize scan.valueStart)

/-- The text read so far: lines, and the beginning of one more. -/
def Stands (read : Str) (scan : HeaderScan) : Prop :=
  ∃ before lines, Lines before lines ∧
    match scan.parseState with
    | .start => lines = [] ∧ read = before
    | .key => ∃ c tail, read = before ++ c :: tail ∧ KeyStands before lines c tail scan
    | .colon => ∃ c tail, read = before ++ c :: tail ++ [':'] ∧ KeyEnded before lines c tail scan
    | .spacesAfterColon => ∃ c tail, read = before ++ c :: tail ++ [':', ' '] ∧
        KeyEnded before lines c tail scan
    | .value => ∃ c tail v tail', read = before ++ c :: tail ++ [':', ' '] ++ v :: tail' ∧
        KeyEnded before lines c tail scan ∧
        ValueStands (before ++ c :: tail ++ [':', ' ']) tail' scan
    | .cr => ∃ line : HeaderLine, read = before ++ line.body ∧ Begins lines line.keyHead ∧
        Cut line before.length scan ∧
        (0 ≤ scan.keyStart → 0 ≤ scan.valueStart → line.Passes before.length)
    | .lf => lines ≠ [] ∧ read = before
    | .endCr => lines ≠ [] ∧ read = before ++ ['\r']
    | .endLf => lines ≠ [] ∧ ∃ more, read = before ++ '\r' :: '\n' :: more

theorem stands_enter (headers : HeaderMap) : Stands [] (.enter .start headers) :=
  ⟨[], [], .skip (fun _ member => absurd member List.not_mem_nil), rfl, rfl⟩

/-- No value goes on for more than 255 characters behind its first. -/
theorem short_of_near {start count : ℕ} (before : count ≤ 255)
    (near : ¬ 255 < sizeSub (start + 1 + count) (toSize (toInt start))) : count + 1 ≤ 255 := by
  unfold sizeSub toSize toInt at near
  omega

/-- One more character of a key. -/
theorem KeyStands.concat {before tail : Str} {lines : List HeaderLine} {c d : Char}
    {scan : HeaderScan} (stands : KeyStands before lines c tail scan)
    (noColon : d ≠ ':') (others : ¬ (d = '\n' ∨ d = '\r')) :
    KeyStands before lines c (tail ++ [d]) scan := by
  refine ⟨stands.begins, ?_, stands.keyStart⟩
  intro x member
  rcases List.mem_append.mp member with member | member
  · exact stands.plain x member
  · exact List.mem_singleton.mp member ▸ ⟨noColon, not_or.mp others⟩

/-- One more character of a value. -/
theorem ValueStands.concat {before tail : Str} {c : Char} {scan : HeaderScan}
    (stands : ValueStands before tail scan) (noReturn : c ≠ '\r')
    (near : ¬ 255 < sizeSub (before.length + 1 + tail.length) (toSize scan.valueStart)) :
    ValueStands before (tail ++ [c]) scan := by
  refine ⟨?_, ?_, stands.valueStart, ?_⟩
  · intro member
    rcases List.mem_append.mp member with member | member
    · exact stands.plain member
    · exact noReturn (List.mem_singleton.mp member).symm
  · rw [List.length_append, List.length_singleton]
    rw [stands.valueStart] at near
    exact short_of_near stands.short near
  · intro n inside
    rw [List.length_append, List.length_singleton] at inside
    rcases Nat.lt_succ_iff_lt_or_eq.mp inside with earlier | last
    · exact stands.near n earlier
    · rw [last]
      exact near

/-- The carriage return that ends a value completes a line. -/
theorem cut_of_return {before tail tail' : Str} {lines : List HeaderLine} {c v : Char}
    {scan : HeaderScan} (unfinished : scan.finished = false)
    (ended : KeyEnded before lines c tail scan)
    (stands : ValueStands (before ++ c :: tail ++ [':', ' ']) tail' scan)
    (order : scan.valueStart <
      toInt (before ++ c :: tail ++ [':', ' '] ++ v :: tail').length) :
    ∃ line : HeaderLine,
      before ++ c :: tail ++ [':', ' '] ++ v :: tail' ++ ['\r'] = before ++ line.body ∧
      Begins lines line.keyHead ∧
      Cut line before.length { scan with
        parseState := .cr
        valueEnd := toInt (before ++ c :: tail ++ [':', ' '] ++ v :: tail').length } ∧
      (0 ≤ scan.keyStart → 0 ≤ scan.valueStart → line.Passes before.length) := by
  have keyEnd : (before ++ c :: tail).length = before.length + (c :: tail).length :=
    List.length_append
  have valueStart : (before ++ c :: tail ++ [':', ' ']).length =
      before.length + ((c :: tail).length + 2) := by
    rw [List.length_append, keyEnd, Nat.add_assoc]
    rfl
  have valueEnd : (before ++ c :: tail ++ [':', ' '] ++ v :: tail').length =
      before.length + ((c :: tail).length + 2 + (v :: tail').length) := by
    rw [List.length_append, valueStart, Nat.add_assoc]
  have keyOrder := ended.order
  have near := stands.near
  rw [ended.keyStart, ended.keyEnd, keyEnd] at keyOrder
  rw [stands.valueStart, valueStart] at near
  rw [stands.valueStart, valueStart, valueEnd] at order
  refine ⟨⟨c, tail, v, tail', ended.plain, stands.plain, stands.short⟩, ?_, ended.begins,
    ⟨rfl, unfinished, ended.keyStart, ?_, ?_, congrArg toInt valueEnd⟩, fun key value => ?_⟩
  · simp [HeaderLine.body, HeaderLine.key, HeaderLine.value]
  · exact ended.keyEnd.trans (congrArg toInt keyEnd)
  · exact stands.valueStart.trans (congrArg toInt valueStart)
  · rw [ended.keyStart] at key
    rw [stands.valueStart, valueStart] at value
    exact ⟨key, keyOrder, value, near, order⟩

/-- **One pass keeps the text divided into lines.** -/
theorem headerStep_stands {buffer read : Str} {c : Char} {scan scan' : HeaderScan}
    (stands : Stands read scan) (unfinished : scan.finished = false)
    (step : headerStep buffer read.length c scan = .next scan') : Stands (read ++ [c]) scan' := by
  obtain ⟨before, lines, earlier, now⟩ := stands
  cases state : scan.parseState with
  | start =>
      simp only [state] at now
      obtain ⟨none, rfl⟩ := now
      simp only [headerStep, state] at step
      split at step
      · rename_i skips
        cases step
        refine ⟨read ++ [c], [], .skip ?_, ?_⟩
        · intro x member
          rcases List.mem_append.mp member with member | member
          · exact earlier.skipped none x member
          · exact List.mem_singleton.mp member ▸ skips
        · simp [state]
      · rename_i begins
        cases step
        have head : Begins lines c := by
          rw [Begins, if_pos none]
          exact not_or.mp begins
        exact ⟨read, lines, earlier, c, [], rfl, head, by simp, rfl⟩
  | key =>
      simp only [state] at now
      obtain ⟨d, tail, rfl, key⟩ := now
      by_cases colon : c = ':'
      · subst colon
        obtain ⟨order, rfl⟩ := order_of_colon state step
        exact ⟨before, lines, earlier, d, tail, rfl, ⟨key.begins, key.plain, key.keyStart⟩, rfl,
          order⟩
      · simp only [headerStep, state, if_neg colon] at step
        split at step
        · cases step
        · rename_i others
          cases step
          refine ⟨before, lines, earlier, ?_⟩
          simp only [state]
          exact ⟨d, tail ++ [c], by simp, key.concat colon others⟩
  | colon =>
      simp only [state] at now
      obtain ⟨d, tail, rfl, ended⟩ := now
      simp only [headerStep, state] at step
      split at step
      · rename_i space
        cases step
        exact ⟨before, lines, earlier, d, tail, by rw [space]; simp,
          ⟨ended.begins, ended.plain, ended.keyStart⟩, ended.keyEnd, ended.order⟩
      · cases step
  | spacesAfterColon =>
      simp only [state] at now
      obtain ⟨d, tail, rfl, ended⟩ := now
      simp only [headerStep, state] at step
      cases step
      exact ⟨before, lines, earlier, d, tail, c, [], rfl,
        ⟨⟨ended.begins, ended.plain, ended.keyStart⟩, ended.keyEnd, ended.order⟩,
        List.not_mem_nil, by decide, rfl, fun n inside => absurd inside (Nat.not_lt_zero n)⟩
  | value =>
      simp only [state] at now
      obtain ⟨d, tail, v, tail', rfl, ended, value⟩ := now
      by_cases carriage : c = '\r'
      · subst carriage
        obtain ⟨order, rfl⟩ := order_of_return state step
        exact ⟨before, lines, earlier, cut_of_return unfinished ended value order⟩
      · have length : (before ++ d :: tail ++ [':', ' '] ++ v :: tail').length =
            (before ++ d :: tail ++ [':', ' ']).length + 1 + tail'.length := by
          rw [List.length_append, List.length_cons]
          omega
        simp only [headerStep, state, if_neg carriage] at step
        split at step
        · cases step
        · rename_i near
          cases step
          rw [length] at near
          refine ⟨before, lines, earlier, ?_⟩
          simp only [state]
          exact ⟨d, tail, v, tail' ++ [c], by simp, ended, value.concat carriage near⟩
  | cr =>
      simp only [state] at now
      obtain ⟨line, rfl, begins, cut, passes⟩ := now
      by_cases newline : c = '\n'
      · subst newline
        obtain ⟨key, value, cutKey, cutValue⟩ := ranges_of_lineFeed state step
        have passed := passes (bounds_of_range cutKey).1 (bounds_of_range cutValue).1
        simp only [headerStep, state, cutKey, cutValue, if_true] at step
        cases step
        refine ⟨before ++ line.text, lines ++ [line], .line earlier line begins passed, by simp, ?_⟩
        rw [HeaderLine.text, List.append_assoc]
      · simp only [headerStep, state, if_neg newline, reduceCtorEq] at step
  | lf =>
      simp only [state] at now
      obtain ⟨some, rfl⟩ := now
      simp only [headerStep, state] at step
      split at step
      · rename_i carriage
        cases step
        exact ⟨read, lines, earlier, some, by rw [carriage]⟩
      · rename_i begins
        cases step
        exact ⟨read, lines, earlier, c, [], rfl, by rwa [Begins, if_neg some], by simp, rfl⟩
  | endCr =>
      simp only [state] at now
      obtain ⟨some, rfl⟩ := now
      simp only [headerStep, state] at step
      split at step
      · rename_i newline
        cases step
        exact ⟨before, lines, earlier, some, [], by rw [newline]; simp⟩
      · cases step
  | endLf =>
      simp only [state] at now
      obtain ⟨some, more, rfl⟩ := now
      simp only [headerStep, state] at step
      cases step
      exact ⟨before, lines, earlier, some, more ++ [c], by simp⟩

end FastWebServer
