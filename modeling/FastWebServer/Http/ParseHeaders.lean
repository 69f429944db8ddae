import FastWebServer.Http.Data

/-!
# The header automaton

`parse_Headers` scans `buffer_in_` with a nine-state automaton. The state and the
stored headers are members of the connection. The marks that say where a key or a
value starts and ends are locals, as is the position from which the buffer is
kept when the block is not complete.

A key or a value is cut out of the buffer between two marks. `Marked` is the
invariant that puts the marks of every state inside the part already read. It
holds from the start of a block on, for buffers whose positions fit an `int`
(`scan_marked`), so no such cut is undefined there (`scan_defined`). `Ending` is the
invariant that says what the last characters read were, which is how the end of a
block is known to be a blank line (`scan_ending`).

Reading a longer buffer begins with reading the shorter one (`scan_append`).
-/

set_option autoImplicit false

namespace FastWebServer

open Cxx

/-! ## The scan -/

/-- The members and the locals that the loop of `parse_Headers` changes. -/
structure HeaderScan where
  parseState : ParseState
  headers : HeaderMap
  keyStart : ℤ
  keyEnd : ℤ
  valueStart : ℤ
  valueEnd : ℤ
  readCur : ℤ
  finished : Bool

/-- The locals as they are declared. -/
def HeaderScan.enter (parseState : ParseState) (headers : HeaderMap) : HeaderScan :=
  { parseState := parseState
    headers := headers
    keyStart := -1
    keyEnd := -1
    valueStart := -1
    valueEnd := -1
    readCur := 0
    finished := false }

/-- What one pass through the loop does: go on, return `PARSE_HEADER_ERROR`, or
read outside the buffer. -/
inductive ScanStep where
  | next (scan : HeaderScan)
  | error (scan : HeaderScan)
  | fault (fault : Fault)

/-- The `switch` of `parse_Headers` on the character `c` at position `i`. -/
def headerStep (buffer : Str) (i : ℕ) (c : Char) (scan : HeaderScan) : ScanStep :=
  match scan.parseState with
  | .start =>
      if c = '\n' ∨ c = 'r' then .next scan
      else .next { scan with parseState := .key, keyStart := toInt i, readCur := toInt i }
  | .key =>
      if c = ':' then
        if toInt i - scan.keyStart ≤ 0 then .error { scan with keyEnd := toInt i }
        else .next { scan with parseState := .colon, keyEnd := toInt i }
      else if c = '\n' ∨ c = '\r' then .error scan
      else .next scan
  | .colon =>
      if c = ' ' then .next { scan with parseState := .spacesAfterColon }
      else .error scan
  | .spacesAfterColon => .next { scan with parseState := .value, valueStart := toInt i }
  | .value =>
      if c = '\r' then
        if toInt i - scan.valueStart ≤ 0 then
          .error { scan with parseState := .cr, valueEnd := toInt i }
        else .next { scan with parseState := .cr, valueEnd := toInt i }
      -- `i` is a `size_t`, so the mark is extended to 64 bits before it is subtracted
      else if 255 < sizeSub i (toSize scan.valueStart) then .error scan
      else .next scan
  | .cr =>
      if c = '\n' then
        match range buffer scan.keyStart scan.keyEnd,
            range buffer scan.valueStart scan.valueEnd with
        | .ok key, .ok value =>
            .next { scan with
              parseState := .lf
              headers := scan.headers.store key value
              readCur := toInt i }
        | .error fault, _ => .fault fault
        | .ok _, .error fault => .fault fault
      else .error scan
  | .lf =>
      if c = '\r' then .next { scan with parseState := .endCr }
      else .next { scan with parseState := .key, keyStart := toInt i }
  | .endCr =>
      if c = '\n' then .next { scan with parseState := .endLf }
      else .error scan
  | .endLf => .next { scan with finished := true, keyStart := toInt i, readCur := toInt i }

/-- How the loop ends: after `i` passes, by an error return, or undefined. -/
inductive ScanEnd where
  | stopped (i : ℕ) (scan : HeaderScan)
  | error (scan : HeaderScan)
  | fault (fault : Fault)

/-- The loop of `parse_Headers` over the characters from position `i` on. -/
def scanHeaders (buffer : Str) : Str → ℕ → HeaderScan → ScanEnd
  | [], i, scan => .stopped i scan
  | c :: rest, i, scan =>
      if scan.finished then .stopped i scan
      else
        match headerStep buffer i c scan with
        | .next scan' => scanHeaders buffer rest (i + 1) scan'
        | .error scan' => .error scan'
        | .fault fault => .fault fault

namespace HttpData

/-- `parse_Headers`. -/
def parseHeaders (http : HttpData) : Except Fault (HeaderState × HttpData) :=
  match scanHeaders http.bufferIn http.bufferIn 0 (.enter http.parseState http.headers) with
  | .fault fault => .error fault
  | .error scan =>
      .ok (.error, { http with parseState := scan.parseState, headers := scan.headers })
  | .stopped i scan =>
      if scan.parseState = .endLf then
        match substrFrom http.bufferIn i with
        | .error fault => .error fault
        | .ok rest =>
            .ok (.success, { http with
              bufferIn := rest, parseState := scan.parseState, headers := scan.headers })
      else
        match substrFrom http.bufferIn (toSize scan.readCur) with
        | .error fault => .error fault
        | .ok rest =>
            .ok (.again, { http with
              bufferIn := rest, parseState := scan.parseState, headers := scan.headers })

end HttpData

/-! ## Reading a longer buffer -/

/-- A pass that goes on does the same in a longer buffer. -/
theorem headerStep_append {buffer : Str} {i : ℕ} {c : Char} {scan scan' : HeaderScan}
    (more : Str) (step : headerStep buffer i c scan = .next scan') :
    headerStep (buffer ++ more) i c scan = .next scan' := by
  cases state : scan.parseState with
  | cr =>
      simp only [headerStep, state] at step ⊢
      by_cases newline : c = '\n'
      · rw [if_pos newline] at step ⊢
        cases key : range buffer scan.keyStart scan.keyEnd with
        | error fault => simp only [key, reduceCtorEq] at step
        | ok cutKey =>
            cases value : range buffer scan.valueStart scan.valueEnd with
            | error fault => simp only [key, value, reduceCtorEq] at step
            | ok cutValue =>
                simp only [key, value] at step
                simp only [range_append more key, range_append more value]
                exact step
      · simp only [if_neg newline, reduceCtorEq] at step
  | _ => simpa only [headerStep, state] using step

/-- **Reading a longer buffer begins with reading the shorter one**, when the
shorter one was read to its end. -/
theorem scan_append {buffer rest : Str} {i j : ℕ} {scan last : HeaderScan} (more : Str)
    (stopped : scanHeaders buffer rest i scan = .stopped j last)
    (unfinished : last.finished = false) :
    scanHeaders (buffer ++ more) (rest ++ more) i scan =
      scanHeaders (buffer ++ more) more j last := by
  induction rest generalizing i scan with
  | nil =>
      simp only [scanHeaders, ScanEnd.stopped.injEq] at stopped
      obtain ⟨rfl, rfl⟩ := stopped
      rfl
  | cons c rest ih =>
      rw [scanHeaders] at stopped
      split at stopped
      · rename_i finished
        simp only [ScanEnd.stopped.injEq] at stopped
        rw [stopped.2, unfinished] at finished
        cases finished
      · rename_i running
        cases step : headerStep buffer i c scan with
        | error failed => simp only [step, reduceCtorEq] at stopped
        | fault fault => simp only [step, reduceCtorEq] at stopped
        | next scan' =>
            simp only [step] at stopped
            rw [List.cons_append, scanHeaders, if_neg running, headerStep_append more step]
            exact ih stopped

/-- **The invariant rule of the scan.** What every pass keeps holds of all that has
been read when the scan of a part of the buffer stops. -/
theorem scan_invariant {buffer : Str} (holds : Str → HeaderScan → Prop)
    (kept : ∀ read c rest scan scan', read ++ c :: rest = buffer → holds read scan →
      scan.finished = false → headerStep buffer read.length c scan = .next scan' →
      holds (read ++ [c]) scan')
    {read rest more : Str} {j : ℕ} {scan last : HeaderScan} (whole : read ++ rest ++ more = buffer)
    (start : holds read scan)
    (stopped : scanHeaders buffer rest read.length scan = .stopped j last) :
    ∃ readAll left, readAll ++ left = read ++ rest ∧ j = readAll.length ∧ holds readAll last ∧
      (left = [] ∨ last.finished = true) := by
  induction rest generalizing read scan with
  | nil =>
      simp only [scanHeaders, ScanEnd.stopped.injEq] at stopped
      obtain ⟨rfl, rfl⟩ := stopped
      exact ⟨read, [], rfl, rfl, start, .inl rfl⟩
  | cons c rest ih =>
      rw [scanHeaders] at stopped
      split at stopped
      · rename_i finished
        simp only [ScanEnd.stopped.injEq] at stopped
        obtain ⟨rfl, rfl⟩ := stopped
        exact ⟨read, c :: rest, rfl, rfl, start, .inr finished⟩
      · rename_i running
        cases step : headerStep buffer read.length c scan with
        | error failed => simp only [step, reduceCtorEq] at stopped
        | fault fault => simp only [step, reduceCtorEq] at stopped
        | next scan' =>
            have next := kept read c (rest ++ more) scan scan' (by rw [← whole]; simp) start
              (by simpa using running) step
            have length : read.length + 1 = (read ++ [c]).length := by simp
            have split : read ++ c :: rest = read ++ [c] ++ rest := by simp
            simp only [step, length] at stopped
            rw [split] at whole ⊢
            exact ih whole next stopped

/-- The rule for the whole buffer. -/
theorem scan_induction {buffer : Str} (holds : Str → HeaderScan → Prop)
    (kept : ∀ read c rest scan scan', read ++ c :: rest = buffer → holds read scan →
      scan.finished = false → headerStep buffer read.length c scan = .next scan' →
      holds (read ++ [c]) scan')
    {read rest : Str} {j : ℕ} {scan last : HeaderScan} (whole : read ++ rest = buffer)
    (start : holds read scan)
    (stopped : scanHeaders buffer rest read.length scan = .stopped j last) :
    ∃ readAll left, readAll ++ left = buffer ∧ j = readAll.length ∧ holds readAll last ∧
      (left = [] ∨ last.finished = true) := by
  obtain ⟨readAll, left, same, ends⟩ :=
    scan_invariant holds kept ((List.append_nil _).trans whole) start stopped
  exact ⟨readAll, left, same.trans whole, ends⟩

/-! ## The marks -/

/-- The order of the marks in every state of the automaton, when `read` is what has
been read since the start of a block. -/
def Marked (read : Str) (scan : HeaderScan) : Prop :=
  (scan.finished = true → scan.parseState = .endLf) ∧
  0 ≤ scan.readCur ∧ scan.readCur ≤ read.length ∧
  match scan.parseState with
  | .start => scan.readCur = 0 ∧ ∀ c ∈ read, c = '\n' ∨ c = 'r'
  | .key => 0 ≤ scan.keyStart ∧ scan.keyStart < read.length
  | .colon | .spacesAfterColon =>
      0 ≤ scan.keyStart ∧ scan.keyStart < scan.keyEnd ∧ scan.keyEnd < read.length
  | .value =>
      0 ≤ scan.keyStart ∧ scan.keyStart < scan.keyEnd ∧ scan.keyEnd < scan.valueStart ∧
        scan.valueStart < read.length
  | .cr =>
      0 ≤ scan.keyStart ∧ scan.keyStart < scan.keyEnd ∧ scan.keyEnd < scan.valueStart ∧
        scan.valueStart < scan.valueEnd ∧ scan.valueEnd < read.length
  | .lf => scan.readCur + 1 = read.length
  | .endCr => scan.readCur + 2 = read.length
  | .endLf => True

/-- The marks are in order before anything is read. -/
theorem marked_enter (headers : HeaderMap) : Marked [] (.enter .start headers) := by
  simp [Marked, HeaderScan.enter]

/-- The ranges that the end of a header line cuts out are inside the buffer. -/
theorem Marked.ranges {read : Str} {scan : HeaderScan} (marked : Marked read scan) (rest : Str)
    (state : scan.parseState = .cr) :
    ∃ key value, range (read ++ rest) scan.keyStart scan.keyEnd = .ok key ∧
      range (read ++ rest) scan.valueStart scan.valueEnd = .ok value := by
  obtain ⟨-, -, -, order⟩ := marked
  simp only [state] at order
  obtain ⟨nonneg, key, gap, value, inside⟩ := order
  refine ⟨_, _, range_of_bounds nonneg (by omega) ?_, range_of_bounds (by omega) (by omega) ?_⟩
  · rw [List.length_append]
    omega
  · rw [List.length_append]
    omega

/-- **One pass keeps the marks in order.** -/
theorem headerStep_marked {read rest : Str} {c : Char} {scan scan' : HeaderScan}
    (marked : Marked read scan) (unfinished : scan.finished = false)
    (bound : read.length < 2 ^ 31)
    (step : headerStep (read ++ rest) read.length c scan = .next scan') :
    Marked (read ++ [c]) scan' := by
  obtain ⟨-, nonneg, within, order⟩ := marked
  have position := toInt_of_lt bound
  have length : (read ++ [c]).length = read.length + 1 := List.length_append
  cases state : scan.parseState with
  | start =>
      simp only [state] at order
      simp only [headerStep, state, position] at step
      split at step
      · rename_i skipped
        cases step
        refine ⟨by simp [unfinished], by omega, by simp only [length]; omega, ?_⟩
        simp only [state]
        refine ⟨order.1, fun x member => ?_⟩
        rcases List.mem_append.mp member with earlier | last
        · exact order.2 x earlier
        · simp only [List.mem_singleton] at last
          exact last ▸ skipped
      · cases step
        refine ⟨by simp [unfinished], Int.natCast_nonneg _, by simp only [length]; omega, ?_⟩
        simp only [length]
        omega
  | key =>
      simp only [state] at order
      simp only [headerStep, state, position] at step
      split at step
      · split at step
        · cases step
        · cases step
          refine ⟨by simp [unfinished], nonneg, by simp only [length]; omega, ?_⟩
          simp only [length]
          omega
      · split at step
        · cases step
        · cases step
          refine ⟨by simp [unfinished], nonneg, by simp only [length]; omega, ?_⟩
          simp only [state, length]
          omega
  | colon =>
      simp only [state] at order
      simp only [headerStep, state] at step
      split at step
      · cases step
        refine ⟨by simp [unfinished], nonneg, by simp only [length]; omega, ?_⟩
        simp only [length]
        omega
      · cases step
  | spacesAfterColon =>
      simp only [state] at order
      simp only [headerStep, state, position, ScanStep.next.injEq] at step
      subst step
      refine ⟨by simp [unfinished], nonneg, by simp only [length]; omega, ?_⟩
      simp only [length]
      omega
  | value =>
      simp only [state] at order
      simp only [headerStep, state, position] at step
      split at step
      · split at step
        · cases step
        · cases step
          refine ⟨by simp [unfinished], nonneg, by simp only [length]; omega, ?_⟩
          simp only [length]
          omega
      · split at step
        · cases step
        · cases step
          refine ⟨by simp [unfinished], nonneg, by simp only [length]; omega, ?_⟩
          simp only [state, length]
          omega
  | cr =>
      obtain ⟨key, value, cutKey, cutValue⟩ :=
        Marked.ranges ⟨by simp [unfinished], nonneg, within, order⟩ rest state
      simp only [state] at order
      simp only [headerStep, state, position, cutKey, cutValue] at step
      split at step
      · cases step
        exact ⟨by simp [unfinished], Int.natCast_nonneg _, by simp only [length]; omega,
          by simp only [length]; omega⟩
      · cases step
  | lf =>
      simp only [state] at order
      simp only [headerStep, state, position] at step
      split at step
      · cases step
        refine ⟨by simp [unfinished], nonneg, by simp only [length]; omega, ?_⟩
        simp only [length]
        omega
      · cases step
        refine ⟨by simp [unfinished], nonneg, by simp only [length]; omega, ?_⟩
        simp only [length]
        omega
  | endCr =>
      simp only [state] at order
      simp only [headerStep, state] at step
      split at step
      · cases step
        exact ⟨by simp [unfinished], nonneg, by simp only [length]; omega, trivial⟩
      · cases step
  | endLf =>
      simp only [headerStep, state, position, ScanStep.next.injEq] at step
      subst step
      refine ⟨fun _ => rfl, Int.natCast_nonneg _, by simp only [length]; omega, ?_⟩
      trivial

/-- A pass from ordered marks reads inside the buffer. -/
theorem headerStep_defined {read rest : Str} {c : Char} {scan : HeaderScan}
    (marked : Marked read scan) (fault : Fault) :
    headerStep (read ++ rest) read.length c scan ≠ .fault fault := by
  cases state : scan.parseState with
  | cr =>
      obtain ⟨key, value, cutKey, cutValue⟩ := marked.ranges rest state
      simp only [headerStep, state, cutKey, cutValue]
      split <;> simp
  | _ =>
      simp only [headerStep, state]
      repeat' split
      all_goals simp

/-- A scan of a block reads inside the buffer. -/
theorem scan_defined {read rest : Str} {scan : HeaderScan} (fault : Fault)
    (marked : Marked read scan) (bound : (read ++ rest).length < 2 ^ 31) :
    scanHeaders (read ++ rest) rest read.length scan ≠ .fault fault := by
  induction rest generalizing read scan with
  | nil => simp [scanHeaders]
  | cons c rest ih =>
      rw [scanHeaders]
      split
      · simp
      · rename_i running
        cases step : headerStep (read ++ c :: rest) read.length c scan with
        | error failed => simp
        | fault other => exact absurd step (headerStep_defined marked other)
        | next scan' =>
            have short : read.length < 2 ^ 31 := by
              rw [List.length_append] at bound
              omega
            have kept := headerStep_marked marked (by simpa using running) short step
            have same : read ++ c :: rest = (read ++ [c]) ++ rest := by simp
            have length : read.length + 1 = (read ++ [c]).length := by simp
            rw [same] at bound ⊢
            rw [length]
            exact ih kept bound

/-! ## The end of a block -/

/-- The characters that end a block. -/
def blankLine : Str := ['\r', '\n', '\r', '\n']

/-- The last characters read, in the states after the value of a header. -/
def Ending (read : Str) (scan : HeaderScan) : Prop :=
  match scan.parseState with
  | .cr => ['\r'] <:+ read
  | .lf => ['\r', '\n'] <:+ read
  | .endCr => ['\r', '\n', '\r'] <:+ read
  | .endLf =>
      if scan.finished then ∃ before c, read = before ++ [c] ∧ blankLine <:+ before
      else blankLine <:+ read
  | _ => True

/-- Nothing is claimed of the last characters before anything is read. -/
theorem ending_enter (headers : HeaderMap) : Ending [] (.enter .start headers) :=
  trivial

/-- A suffix grows with the character read after it. -/
theorem suffix_concat {tail read : Str} (c : Char) (suffix : tail <:+ read) :
    tail ++ [c] <:+ read ++ [c] := by
  obtain ⟨before, rfl⟩ := suffix
  exact ⟨before, by simp⟩

/-- **One pass keeps what is known of the last characters.** -/
theorem headerStep_ending {buffer read : Str} {i : ℕ} {c : Char} {scan scan' : HeaderScan}
    (ending : Ending read scan) (unfinished : scan.finished = false)
    (step : headerStep buffer i c scan = .next scan') : Ending (read ++ [c]) scan' := by
  unfold Ending at ending
  cases state : scan.parseState with
  | start =>
      simp only [headerStep, state] at step
      split at step <;> cases step
      · simp only [Ending, state]
      · trivial
  | key =>
      simp only [headerStep, state] at step
      split at step
      · split at step <;> cases step
        trivial
      · split at step <;> cases step
        simp only [Ending, state]
  | colon =>
      simp only [headerStep, state] at step
      split at step <;> cases step
      trivial
  | spacesAfterColon =>
      simp only [headerStep, state] at step
      cases step
      trivial
  | value =>
      simp only [headerStep, state] at step
      split at step
      · rename_i carriage
        split at step <;> cases step
        exact carriage ▸ List.suffix_append read ['\r']
      · split at step <;> cases step
        simp only [Ending, state]
  | cr =>
      simp only [state] at ending
      simp only [headerStep, state] at step
      split at step
      · rename_i newline
        split at step <;> cases step
        exact newline ▸ suffix_concat '\n' ending
      · cases step
  | lf =>
      simp only [state] at ending
      simp only [headerStep, state] at step
      split at step <;> cases step
      · rename_i carriage
        exact carriage ▸ suffix_concat '\r' ending
      · trivial
  | endCr =>
      simp only [state] at ending
      simp only [headerStep, state] at step
      split at step <;> cases step
      rename_i newline
      simp only [Ending, unfinished, Bool.false_eq_true, if_false]
      exact newline ▸ suffix_concat '\n' ending
  | endLf =>
      simp only [state, unfinished, Bool.false_eq_true, if_false] at ending
      simp only [headerStep, state] at step
      cases step
      exact ⟨read, c, rfl, ending⟩

/-- **A block that is read to its end was ended by a blank line**, and at most one
character is read after it. -/
theorem scan_ending {buffer : Str} {j : ℕ} {headers : HeaderMap} {last : HeaderScan}
    (stopped : scanHeaders buffer buffer 0 (.enter .start headers) = .stopped j last)
    (ended : last.parseState = .endLf) :
    ∃ block left, block ++ left = buffer ∧ blankLine <:+ block ∧
      (last.finished = false ∧ j = block.length ∧ left = [] ∨
        last.finished = true ∧ left ≠ []) := by
  obtain ⟨read, left, whole, rfl, ending, all⟩ := scan_induction Ending
    (fun _ _ _ _ _ _ ending unfinished step => headerStep_ending ending unfinished step)
    (List.nil_append buffer) (ending_enter headers) stopped
  simp only [Ending, ended] at ending
  cases finished : last.finished with
  | false =>
      simp only [finished, Bool.false_eq_true, if_false] at ending
      exact ⟨read, left, whole, ending, .inl ⟨rfl, rfl, all.resolve_right (by simp [finished])⟩⟩
  | true =>
      simp only [finished, if_true] at ending
      obtain ⟨before, c, rfl, ending⟩ := ending
      exact ⟨before, c :: left, by simpa using whole, ending, .inr ⟨rfl, by simp⟩⟩

/-- A block that is read to its end. -/
theorem HttpData.parseHeaders_success {http parsed : HttpData}
    (headers : http.parseHeaders = .ok (.success, parsed)) :
    ∃ j last bufferIn,
      scanHeaders http.bufferIn http.bufferIn 0 (.enter http.parseState http.headers) =
        .stopped j last ∧ last.parseState = .endLf ∧
      parsed = { http with
        bufferIn := bufferIn, parseState := last.parseState, headers := last.headers } := by
  unfold parseHeaders at headers
  split at headers
  · cases headers
  · cases headers
  · rename_i j last stopped
    split at headers
    · rename_i ended
      split at headers
      · cases headers
      · cases headers
        exact ⟨j, last, _, stopped, ended, rfl⟩
    · split at headers <;> cases headers

/-- A scan that is finished stops where it stands. -/
theorem scan_finished {buffer rest : Str} {i : ℕ} {scan : HeaderScan}
    (finished : scan.finished = true) : scanHeaders buffer rest i scan = .stopped i scan := by
  cases rest with
  | nil => rfl
  | cons c rest => rw [scanHeaders, if_pos finished]

/-- **What follows a block loses its first character.** -/
theorem HttpData.parseHeaders_more {http : HttpData} {block more : Str} {last : HeaderScan}
    (buffer : http.bufferIn = block ++ more) (start : http.parseState = .start)
    (stopped : scanHeaders block block 0 (.enter .start http.headers) = .stopped block.length last)
    (ended : last.parseState = .endLf) (unfinished : last.finished = false) :
    http.parseHeaders = .ok (.success, { http with
      bufferIn := more.drop 1, parseState := .endLf, headers := last.headers }) := by
  have scanned : ∃ final, scanHeaders (block ++ more) (block ++ more) 0
        (.enter .start http.headers) = .stopped (block.length + min 1 more.length) final ∧
      final.parseState = .endLf ∧ final.headers = last.headers := by
    rw [scan_append more stopped unfinished]
    cases more with
    | nil => exact ⟨last, rfl, ended, rfl⟩
    | cons c more =>
        have one : min 1 (c :: more).length = 1 := by simp
        rw [scanHeaders, if_neg (by simp [unfinished]), one]
        simp only [headerStep, ended]
        rw [scan_finished rfl]
        exact ⟨_, rfl, rfl, rfl⟩
  obtain ⟨final, scanned, ended', headers⟩ := scanned
  have cut : substrFrom (block ++ more) (block.length + min 1 more.length) = .ok (more.drop 1) := by
    rw [substrFrom_of_le (by rw [List.length_append]; omega), List.drop_length_add_append]
    cases more <;> simp
  unfold parseHeaders
  simp only [buffer, start, scanned, ended', if_true, cut, headers]

/-- **The marks are in order wherever the scan of a block stops**, and the last
characters read are known. -/
theorem scan_marked {read rest : Str} {j : ℕ} {scan last : HeaderScan}
    (marked : Marked read scan) (ending : Ending read scan)
    (bound : (read ++ rest).length < 2 ^ 31)
    (stopped : scanHeaders (read ++ rest) rest read.length scan = .stopped j last) :
    ∃ readAll left, readAll ++ left = read ++ rest ∧ j = readAll.length ∧
      (Marked readAll last ∧ Ending readAll last) ∧ (left = [] ∨ last.finished = true) := by
  refine scan_induction (fun read scan => Marked read scan ∧ Ending read scan) ?_ rfl
    ⟨marked, ending⟩ stopped
  rintro read' c rest' scan scan' whole ⟨marked, ending⟩ unfinished step
  have short : read'.length < 2 ^ 31 := by
    rw [← whole, List.length_append] at bound
    omega
  refine ⟨?_, headerStep_ending ending unfinished step⟩
  rw [← whole] at step
  exact headerStep_marked marked unfinished short step

end FastWebServer
