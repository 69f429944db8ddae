import FastWebServer.Http.HeaderLines
import FastWebServer.Http.KeptLine

/-!
# What a call reads behind a header line

Behind a header line a text is a row of header lines and a rest, which is no further line: either
a block can go on with it or end with it (`Unrefused`), or it cannot (`Refused`). Every text is
such a row (`exists_row`), since a text that completes a line is the text of a `HeaderLine`
(`exists_line_of_completed`).

A call that stands behind a line stores the lines of the row and stands behind the last of them
(`BehindLine.row`), and what it answers there depends on the rest (`parseHeaders_unrefused`,
`parseHeaders_refused`).
-/

set_option autoImplicit false

namespace FastWebServer

open Cxx

/-! ## Lines that are completed -/

/-- The rest of a key is read over. -/
theorem readLine_keyTail {tail : Str} (plain : ∀ c ∈ tail, c ≠ ':' ∧ c ≠ '\n' ∧ c ≠ '\r')
    (count : ℕ) (rest : Str) : readLine .key count (tail ++ rest) = readLine .key count rest := by
  induction tail with
  | nil => rfl
  | cons c tail ih =>
      obtain ⟨noColon, noFeed, noReturn⟩ := plain c List.mem_cons_self
      rw [List.cons_append, readLine, if_neg noColon, if_neg (not_or.mpr ⟨noFeed, noReturn⟩)]
      exact ih fun x member => plain x (List.mem_cons_of_mem _ member)

/-- The rest of a value is read over, if it is short. -/
theorem readLine_valueTail {tail : Str} {count : ℕ} (plain : '\r' ∉ tail)
    (short : count + tail.length ≤ 255) (rest : Str) :
    readLine .value count (tail ++ rest) = readLine .value (count + tail.length) rest := by
  induction tail generalizing count with
  | nil => rfl
  | cons c tail ih =>
      obtain ⟨other, plain⟩ := not_or.mp (mt List.mem_cons.mpr plain)
      rw [List.length_cons] at short ⊢
      rw [List.cons_append, readLine, if_neg (Ne.symm other), if_neg (by omega),
        ih plain (by omega), Nat.add_right_comm, Nat.add_assoc]

/-- The text of a line completes it. -/
theorem completed_of_line (line : HeaderLine) {c : Char} {text rest : Str}
    (whole : c :: text = line.text ++ rest) : readLine .key 0 text = .completed := by
  have split : line.text ++ rest = line.keyHead :: (line.keyTail ++ ':' :: ' ' :: line.valueHead ::
      (line.valueTail ++ '\r' :: '\n' :: rest)) := by
    simp [HeaderLine.text, HeaderLine.body, HeaderLine.key, HeaderLine.value]
  rw [(List.cons.inj (whole.trans split)).2, readLine_keyTail line.keyTail_plain]
  simp only [readLine, if_true]
  rw [readLine_valueTail line.valueTail_plain (by simpa using line.valueTail_short)]
  simp only [readLine, if_true]

/-! ## Rows of lines -/

/-- A row of lines that can stand behind a header line, and a rest. -/
structure Row (text : Str) (lines : List HeaderLine) (rest : Str) : Prop where
  whole : text = linesText lines ++ rest
  heads : ∀ line ∈ lines, line.keyHead ≠ '\r'

/-- The first line of a row is completed. -/
theorem Row.completed {c : Char} {text rest : Str} {lines : List HeaderLine}
    (row : Row (c :: text) lines rest) (some : lines ≠ []) :
    readLine .key 0 text = .completed := by
  obtain ⟨first, later, rfl⟩ := List.exists_cons_of_ne_nil some
  have whole : c :: text = first.text ++ (linesText later ++ rest) := by
    rw [row.whole, linesText, linesText, List.flatMap_cons, List.append_assoc]
  exact completed_of_line first whole

/-- The scan of a call has just read the line feed of a header line, with the text `rest` before
it. -/
structure BehindLine (http : HttpData) (before rest : Str) (scan : HeaderScan) : Prop where
  buffer : http.bufferIn = before ++ '\n' :: rest
  reached : scanHeaders http.bufferIn http.bufferIn 0 (.enter http.parseState http.headers) =
    scanHeaders http.bufferIn rest (before.length + 1) scan
  short : http.bufferIn.length < 2 ^ 31
  state : scan.parseState = .lf
  unfinished : scan.finished = false
  readCur : scan.readCur = before.length

/-- One line is read from behind another, and stored. -/
theorem scan_next {buffer before more : Str} {line : HeaderLine} {scan : HeaderScan}
    (whole : buffer = before ++ (line.text ++ more)) (begins : line.keyHead ≠ '\r')
    (short : buffer.length < 2 ^ 31) (state : scan.parseState = .lf)
    (unfinished : scan.finished = false) :
    ∃ scan', scanHeaders buffer (line.text ++ more) before.length scan =
        scanHeaders buffer more (before ++ line.text).length scan' ∧
      scan'.parseState = .lf ∧ scan'.finished = false ∧
      scan'.readCur = (before ++ line.body).length ∧
      scan'.headers = scan.headers.store line.key line.value := by
  have split : before ++ (line.text ++ more) = before ++ line.body ++ '\n' :: more := by
    simp [HeaderLine.text]
  have fits : before.length + line.valueTo < 2 ^ 31 := by
    rw [whole, split, List.length_append, List.length_append, line.length_body] at short
    omega
  have within : (before ++ line.body).length < 2 ^ 31 := by
    rw [whole, split, List.length_append] at short
    omega
  have some : [line] ≠ [] := List.cons_ne_nil _ _
  obtain ⟨scan', passed, ⟨running, behind⟩, stored, readCur⟩ :=
    @scan_line more scan before ('\n' :: more) [line] line
      ⟨unfinished, state.trans (if_neg some).symm⟩ (by rwa [Begins, if_neg some])
      (HeaderLine.passes_of_fits fits)
  rw [whole, split]
  refine ⟨scan', passed, behind.trans (if_neg (by simp)), running, ?_, ?_⟩
  · rw [readCur, toInt_of_lt within]
  · rw [stored, HeaderLine.keyIn_of_fits fits, HeaderLine.valueIn_of_fits fits]

/-- **A row of lines is read from behind a line**, and stored. -/
theorem scan_row {buffer before text rest : Str} {first : HeaderLine} {lines : List HeaderLine}
    {scan : HeaderScan} (row : Row text (first :: lines) rest) (whole : buffer = before ++ text)
    (short : buffer.length < 2 ^ 31) (state : scan.parseState = .lf)
    (unfinished : scan.finished = false) :
    ∃ before' scan', buffer = before' ++ '\n' :: rest ∧
      scanHeaders buffer text before.length scan =
        scanHeaders buffer rest (before'.length + 1) scan' ∧
      scan'.parseState = .lf ∧ scan'.finished = false ∧ scan'.readCur = before'.length ∧
      scan'.headers = storeLines scan.headers (first :: lines) := by
  induction lines generalizing first before text scan with
  | nil =>
      have text_eq : text = first.text ++ rest := by rw [row.whole, linesText]; simp
      subst text_eq
      obtain ⟨scan', passed, behind, running, readCur, stored⟩ :=
        scan_next whole (row.heads first List.mem_cons_self) short state unfinished
      refine ⟨before ++ first.body, scan', ?_, ?_, behind, running, readCur, stored⟩
      · simp [whole, HeaderLine.text]
      · rw [passed, HeaderLine.text, ← List.append_assoc, List.length_append, List.length_singleton]
  | cons second lines ih =>
      have text_eq : text = first.text ++ (linesText (second :: lines) ++ rest) := by
        rw [row.whole, linesText, linesText, List.flatMap_cons, List.append_assoc]
      subst text_eq
      obtain ⟨scan', passed, behind, running, -, stored⟩ :=
        scan_next whole (row.heads first List.mem_cons_self) short state unfinished
      have later : Row (linesText (second :: lines) ++ rest) (second :: lines) rest :=
        ⟨rfl, fun line member => row.heads line (List.mem_cons_of_mem _ member)⟩
      obtain ⟨before', last, buffer', passed', behind', running', readCur, stored'⟩ :=
        ih later (whole.trans (List.append_assoc _ _ _).symm) behind running
      refine ⟨before', last, buffer', passed.trans passed', behind', running', readCur, ?_⟩
      rw [stored', stored]
      rfl

namespace BehindLine

variable {http : HttpData} {before text rest : Str} {scan : HeaderScan}

/-- A call that stands behind a line stands behind the row of lines that follows it. -/
theorem row {lines : List HeaderLine} (behind : BehindLine http before text scan)
    (row : Row text lines rest) :
    ∃ before' scan', BehindLine http before' rest scan' ∧
      scan'.headers = storeLines scan.headers lines := by
  cases lines with
  | nil =>
      have text_eq : text = rest := row.whole
      exact ⟨before, scan, text_eq ▸ behind, rfl⟩
  | cons first lines =>
      have length : before.length + 1 = (before ++ ['\n']).length := by simp
      obtain ⟨before', scan', buffer, passed, state, unfinished, readCur, stored⟩ :=
        @scan_row http.bufferIn (before ++ ['\n']) text rest first lines scan row
          (by rw [behind.buffer]; simp) behind.short behind.state behind.unfinished
      refine ⟨before', scan', ⟨buffer, ?_, behind.short, state, unfinished, readCur⟩, stored⟩
      rw [behind.reached, length, passed]

/-- A call whose kept line feed is read with a line behind it stands behind a row of lines. -/
theorem enter {first : HeaderLine} {lines : List HeaderLine} (state : http.parseState = .lf)
    (short : http.bufferIn.length < 2 ^ 31) (row : Row http.bufferIn (first :: lines) rest) :
    ∃ before scan, BehindLine http before rest scan ∧
      scan.headers = storeLines http.headers (first :: lines) := by
  obtain ⟨before, scan, buffer, passed, behind, unfinished, readCur, stored⟩ :=
    @scan_row http.bufferIn [] http.bufferIn rest first lines
      (.enter http.parseState http.headers) row rfl short state rfl
  exact ⟨before, scan, ⟨buffer, passed, short, behind, unfinished, readCur⟩, stored⟩

end BehindLine

/-! ## What is answered there -/

/-- The answer of a call that finds `rest` behind the last line. -/
def answerBehind (rest : Str) : HeaderState := if ['\r', '\n'] <+: rest then .success else .again

/-- What it leaves of the buffer: what follows the blank line, less one character, or all from the
line feed on. -/
def keptBehind (rest : Str) : Str := if ['\r', '\n'] <+: rest then rest.drop 3 else '\n' :: rest

namespace BehindLine

variable {http : HttpData} {before rest : Str} {scan : HeaderScan}

/-- A call that has stopped inside the block keeps what is behind the line. -/
theorem again (behind : BehindLine http before rest scan) (open' : ¬ ['\r', '\n'] <+: rest)
    {j : ℕ} {last : HeaderScan}
    (stopped : scanHeaders http.bufferIn rest (before.length + 1) scan = .stopped j last)
    (inside : last.parseState ≠ .endLf) (readCur : last.readCur = scan.readCur)
    (headers : last.headers = scan.headers) :
    http.parseHeaders = .ok (answerBehind rest, { http with
      bufferIn := keptBehind rest, parseState := last.parseState, headers := scan.headers }) := by
  have within : before.length ≤ http.bufferIn.length := by
    rw [behind.buffer, List.length_append]
    exact Nat.le_add_right _ _
  have cut : toSize last.readCur = before.length := by
    rw [readCur, behind.readCur, toSize_natCast (by have := behind.short; omega)]
  have keeps : http.bufferIn.drop before.length = '\n' :: rest := by
    rw [behind.buffer, List.drop_left]
  unfold HttpData.parseHeaders
  simp only [behind.reached, stopped, if_neg inside, cut, substrFrom_of_le within, keeps, headers,
    answerBehind, keptBehind, if_neg open']

end BehindLine

end FastWebServer
