import FastWebServer.Http.HeaderLines
import FastWebServer.Http.BlankLine

/-!
# What is stored of a header block

`headersStored` lists the headers that one call of `parse_Headers` stores, whatever the call
returns in the end. They are what is added to `headers_` (`parseHeaders_headers`).

Most characters of a key or a value have passed the check of a state. Three have not: the first
character of a key, which `H_START` or `H_LF` takes, the first character of a value, and a line
feed further on in a value, which `H_VALUE` does not look for. The headers that are stored are
clean exactly when the lines of the buffer have none of these (`headersClean_iff`).
-/

set_option autoImplicit false

namespace FastWebServer

open Cxx

/-! ## The headers of one call -/

/-- The key and the value that a pass stores. -/
def headerStored (buffer : Str) (c : Char) (scan : HeaderScan) : Option (Str × Str) :=
  if scan.parseState = .cr ∧ c = '\n' then
    match range buffer scan.keyStart scan.keyEnd, range buffer scan.valueStart scan.valueEnd with
    | .ok key, .ok value => some (key, value)
    | _, _ => none
  else none

/-- The headers that the loop of `parse_Headers` stores from position `i` on, in order. -/
def headersStored (buffer : Str) : Str → ℕ → HeaderScan → List (Str × Str)
  | [], _, _ => []
  | c :: rest, i, scan =>
      if scan.finished then []
      else
        match headerStep buffer i c scan with
        | .next scan' =>
            (headerStored buffer c scan).toList ++ headersStored buffer rest (i + 1) scan'
        | .error _ => []
        | .fault _ => []

/-- These headers, stored one after the other. -/
def storeAll (headers : HeaderMap) (stored : List (Str × Str)) : HeaderMap :=
  stored.foldl (fun headers header => headers.store header.1 header.2) headers

/-- A pass that goes on stores its header, if it has one. -/
theorem headerStep_headers {buffer : Str} {i : ℕ} {c : Char} {scan scan' : HeaderScan}
    (step : headerStep buffer i c scan = .next scan') :
    scan'.headers = storeAll scan.headers (headerStored buffer c scan).toList := by
  cases state : scan.parseState with
  | cr =>
      by_cases newline : c = '\n'
      · subst newline
        obtain ⟨key, value, cutKey, cutValue⟩ := ranges_of_lineFeed state step
        simp only [headerStep, state, cutKey, cutValue, if_true] at step
        cases step
        simp only [headerStored, state, cutKey, cutValue, and_self, if_true]
        rfl
      · simp only [headerStep, state, if_neg newline, reduceCtorEq] at step
  | _ =>
      have nothing : headerStored buffer c scan = none := by simp [headerStored, state]
      rw [nothing]
      simp only [headerStep, state] at step
      repeat' split at step
      all_goals cases step
      all_goals rfl

/-- A pass that returns an error stores nothing. -/
theorem headerStep_error {buffer : Str} {i : ℕ} {c : Char} {scan scan' : HeaderScan}
    (step : headerStep buffer i c scan = .error scan') : scan'.headers = scan.headers := by
  cases state : scan.parseState <;> simp only [headerStep, state] at step
  all_goals repeat' split at step
  all_goals cases step
  all_goals rfl

/-- **What the loop adds to the headers is what it stores.** -/
theorem scan_headers {buffer rest : Str} {i : ℕ} {scan last : HeaderScan}
    (ends : (∃ j, scanHeaders buffer rest i scan = .stopped j last) ∨
      scanHeaders buffer rest i scan = .error last) :
    last.headers = storeAll scan.headers (headersStored buffer rest i scan) := by
  induction rest generalizing i scan with
  | nil =>
      rcases ends with ⟨j, stopped⟩ | failed
      · rw [scanHeaders, ScanEnd.stopped.injEq] at stopped
        rw [← stopped.2]
        rfl
      · cases failed
  | cons c rest ih =>
      rw [scanHeaders] at ends
      rw [headersStored]
      split at ends
      · rename_i finished
        rcases ends with ⟨j, stopped⟩ | failed
        · rw [ScanEnd.stopped.injEq] at stopped
          rw [if_pos finished, ← stopped.2]
          rfl
        · cases failed
      · rename_i running
        rw [if_neg running]
        cases step : headerStep buffer i c scan with
        | next scan' =>
            simp only [step] at ends ⊢
            rw [ih ends, headerStep_headers step]
            exact List.foldl_append.symm
        | error scan' =>
            simp only [step, reduceCtorEq, exists_false, false_or, ScanEnd.error.injEq] at ends
            rw [← ends, headerStep_error step]
            rfl
        | fault fault => simp only [step, reduceCtorEq, exists_false, or_self] at ends

/-- Further headers are those of a scan that goes on. -/
theorem headersStored_append {buffer read rest : Str} {i j : ℕ} {scan last : HeaderScan}
    (stopped : scanHeaders buffer read i scan = .stopped j last)
    (unfinished : last.finished = false) :
    headersStored buffer (read ++ rest) i scan =
      headersStored buffer read i scan ++ headersStored buffer rest j last := by
  induction read generalizing i scan with
  | nil =>
      rw [scanHeaders, ScanEnd.stopped.injEq] at stopped
      rw [← stopped.1, ← stopped.2]
      rfl
  | cons c read ih =>
      rw [scanHeaders] at stopped
      split at stopped
      · rename_i finished
        rw [ScanEnd.stopped.injEq] at stopped
        rw [stopped.2, unfinished] at finished
        cases finished
      · rename_i running
        cases step : headerStep buffer i c scan with
        | next scan' =>
            simp only [step] at stopped
            rw [List.cons_append, headersStored, headersStored, if_neg running, if_neg running]
            simp only [step]
            rw [ih stopped, List.append_assoc]
        | error scan' => simp only [step, reduceCtorEq] at stopped
        | fault fault => simp only [step, reduceCtorEq] at stopped

/-- **The invariant rule of what is stored.** A header is stored by a line feed at which the
invariant of the passes holds. -/
theorem stored_induction {buffer : Str} (holds : Str → HeaderScan → Prop)
    (kept : ∀ read c rest scan scan', read ++ c :: rest = buffer → holds read scan →
      scan.finished = false → headerStep buffer read.length c scan = .next scan' →
      holds (read ++ [c]) scan')
    {read rest : Str} {scan : HeaderScan} {header : Str × Str} (whole : read ++ rest = buffer)
    (start : holds read scan)
    (member : header ∈ headersStored buffer rest read.length scan) :
    ∃ readAll left last, readAll ++ '\n' :: left = buffer ∧ holds readAll last ∧
      headerStored buffer '\n' last = some header := by
  induction rest generalizing read scan with
  | nil => exact absurd member List.not_mem_nil
  | cons c rest ih =>
      rw [headersStored] at member
      split at member
      · exact absurd member List.not_mem_nil
      · rename_i running
        cases step : headerStep buffer read.length c scan with
        | error failed => simp only [step, List.not_mem_nil] at member
        | fault fault => simp only [step, List.not_mem_nil] at member
        | next scan' =>
            have next := kept read c rest scan scan' whole start (by simpa using running) step
            have length : read.length + 1 = (read ++ [c]).length := by simp
            simp only [step, length] at member
            rcases List.mem_append.mp member with here | later
            · have stored := Option.mem_toList.mp here
              have newline : c = '\n' := by
                by_contra other
                simp [headerStored, other] at stored
              subst newline
              exact ⟨read, rest, scan, whole, start, stored⟩
            · exact ih (by simpa using whole) next later

namespace HttpData

/-- The headers that one call of `parse_Headers` stores. -/
def headersStored (http : HttpData) : List (Str × Str) :=
  FastWebServer.headersStored http.bufferIn http.bufferIn 0 (.enter http.parseState http.headers)

/-- **A call adds to the headers what it stores**, whatever it returns. -/
theorem parseHeaders_headers {http after : HttpData} {code : HeaderState}
    (parsed : http.parseHeaders = .ok (code, after)) :
    after.headers = storeAll http.headers http.headersStored := by
  unfold parseHeaders at parsed
  split at parsed
  · cases parsed
  · rename_i last failed
    cases parsed
    exact scan_headers (.inr failed)
  · rename_i j last stopped
    have stored := scan_headers (.inl ⟨j, stopped⟩)
    split at parsed
    · split at parsed
      · cases parsed
      · cases parsed
        exact stored
    · split at parsed
      · cases parsed
      · cases parsed
        exact stored

end HttpData

/-! ## Clean headers -/

/-- A header with no character in it that ends a key or a line. -/
structure CleanHeader (header : Str × Str) : Prop where
  keyNonempty : header.1 ≠ []
  keyPlain : ∀ c ∈ header.1, c ≠ ':' ∧ c ≠ '\r' ∧ c ≠ '\n'
  valuePlain : ∀ c ∈ header.2, c ≠ '\r' ∧ c ≠ '\n'

/-- A line without the characters that no state checks. -/
structure HeaderLine.Harmless (line : HeaderLine) : Prop where
  keyHead : line.keyHead ≠ ':' ∧ line.keyHead ≠ '\r' ∧ line.keyHead ≠ '\n'
  valueHead : line.valueHead ≠ '\r' ∧ line.valueHead ≠ '\n'
  valueTail : '\n' ∉ line.valueTail

/-- The other characters have been checked. -/
theorem harmless_iff (line : HeaderLine) : line.Harmless ↔ CleanHeader (line.key, line.value) := by
  constructor
  · intro harmless
    refine ⟨List.cons_ne_nil _ _, ?_, ?_⟩
    · intro c member
      rcases List.mem_cons.mp member with rfl | member
      · exact harmless.keyHead
      · obtain ⟨noColon, noFeed, noReturn⟩ := line.keyTail_plain c member
        exact ⟨noColon, noReturn, noFeed⟩
    · intro c member
      rcases List.mem_cons.mp member with rfl | member
      · exact harmless.valueHead
      · exact ⟨fun same => line.valueTail_plain (same ▸ member),
          fun same => harmless.valueTail (same ▸ member)⟩
  · intro clean
    exact ⟨clean.keyPlain _ List.mem_cons_self, clean.valuePlain _ List.mem_cons_self,
      fun member => (clean.valuePlain _ (List.mem_cons_of_mem _ member)).2 rfl⟩

/-- The buffer has this line behind this text, and the scan gets past it. -/
def LineAt (buffer before : Str) (line : HeaderLine) : Prop :=
  ∃ lines rest, Lines before lines ∧ Begins lines line.keyHead ∧ line.Passes before.length ∧
    buffer = before ++ line.body ++ '\n' :: rest

/-- No line of the buffer has a character that no state checks. A line that ends so far behind
that an `int` does not hold its positions is looked at where its marks lie instead. -/
def NothingSmuggled (buffer : Str) : Prop :=
  ∀ before line, LineAt buffer before line →
    if before.length + line.valueTo < 2 ^ 31 then line.Harmless
    else CleanHeader (line.keyIn buffer before.length, line.valueIn buffer before.length)

/-- What is stored at the end of a line is what its marks cut out. -/
theorem headerStored_of_cut {buffer : Str} {line : HeaderLine} {p : ℕ} {scan : HeaderScan}
    (cut : Cut line p scan) (passes : line.Passes p) (inside : p + line.valueTo ≤ buffer.length) :
    headerStored buffer '\n' scan = some (line.keyIn buffer p, line.valueIn buffer p) := by
  simp only [headerStored, cut.parseState, cut.keyStart, cut.keyEnd, cut.valueStart, cut.valueEnd,
    passes.range_key inside, passes.range_value inside, and_self, if_true]

/-- A line of the buffer ends inside it. -/
theorem LineAt.inside {buffer before : Str} {line : HeaderLine}
    (there : LineAt buffer before line) :
    before.length + line.valueTo ≤ buffer.length := by
  obtain ⟨lines, rest, -, -, -, rfl⟩ := there
  simp only [List.length_append, line.length_body]
  omega

/-- **Every line of the buffer is stored.** -/
theorem stored_of_lineAt {buffer before : Str} {line : HeaderLine} (headers : HeaderMap)
    (there : LineAt buffer before line) :
    (line.keyIn buffer before.length, line.valueIn buffer before.length) ∈
      headersStored buffer buffer 0 (.enter .start headers) := by
  have inside := there.inside
  obtain ⟨lines, rest, reads, begins, passes, whole⟩ := there
  obtain ⟨scan, passed, awaits, -⟩ :=
    scan_lines reads headers (line.body ++ '\n' :: rest) line.body
  rw [← List.append_assoc, ← whole] at passed
  obtain ⟨last, passed', cut, -⟩ :=
    @scan_toReturn buffer [] scan lines line before.length awaits begins passes
  rw [List.append_nil, scanHeaders] at passed'
  have stored := headerStored_of_cut cut passes inside
  have step := @headerStep_lineFeed buffer (before.length + line.body.length) last line
    before.length cut passes inside
  have split := @headersStored_append buffer (before ++ line.body) ('\n' :: rest) 0
    (before.length + line.body.length) (.enter .start headers) last (passed.trans passed')
    cut.unfinished
  rw [← whole] at split
  rw [split, headersStored, if_neg (by simp [cut.unfinished])]
  simp only [step, stored, List.mem_append, Option.toList_some, List.mem_singleton, true_or,
    or_true]

/-- **Every header is stored from a line of the buffer.** -/
theorem lineAt_of_stored {buffer : Str} {headers : HeaderMap} {header : Str × Str}
    (member : header ∈ headersStored buffer buffer 0 (.enter .start headers)) :
    ∃ before line, LineAt buffer before line ∧
      header = (line.keyIn buffer before.length, line.valueIn buffer before.length) := by
  obtain ⟨read, rest, scan, whole, ⟨before, lines, reads, now⟩, stored⟩ :=
    stored_induction Stands
      (fun _ _ _ _ _ _ stands unfinished step => headerStep_stands stands unfinished step)
      (List.nil_append buffer) (stands_enter headers) member
  have state : scan.parseState = .cr := by
    by_contra other
    simp [headerStored, other] at stored
  simp only [state] at now
  obtain ⟨line, rfl, begins, cut, passes⟩ := now
  have started : 0 ≤ scan.keyStart ∧ 0 ≤ scan.valueStart := by
    simp only [headerStored, state, and_self, if_true] at stored
    split at stored
    · rename_i cutKey cutValue
      exact ⟨(bounds_of_range cutKey).1, (bounds_of_range cutValue).1⟩
    · cases stored
  have there : LineAt buffer before line :=
    ⟨lines, rest, reads, begins, passes started.1 started.2, whole.symm⟩
  refine ⟨before, line, there, ?_⟩
  rw [headerStored_of_cut cut (passes started.1 started.2) there.inside] at stored
  exact (Option.some.inj stored).symm

namespace HttpData

/-- **The headers that a call stores are clean exactly when nothing is smuggled into a line of
the buffer.** -/
theorem headersClean_iff {http : HttpData} (start : http.parseState = .start) :
    (∀ code after, http.parseHeaders = .ok (code, after) →
      after.headers = storeAll http.headers http.headersStored) ∧
    ((∀ header ∈ http.headersStored, CleanHeader header) ↔ NothingSmuggled http.bufferIn) := by
  refine ⟨fun code after parsed => parseHeaders_headers parsed, ?_⟩
  unfold headersStored
  rw [start]
  constructor
  · intro clean before line there
    have stored := clean _ (stored_of_lineAt http.headers there)
    split
    · rename_i fits
      obtain ⟨lines, rest, -, -, -, whole⟩ := there
      rw [whole, HeaderLine.keyIn_of_fits fits, HeaderLine.valueIn_of_fits fits] at stored
      exact (harmless_iff line).mpr stored
    · exact stored
  · intro nothing header member
    obtain ⟨before, line, there, rfl⟩ := lineAt_of_stored member
    have checked := nothing before line there
    split at checked
    · rename_i fits
      obtain ⟨lines, rest, -, -, -, whole⟩ := there
      rw [whole, HeaderLine.keyIn_of_fits fits, HeaderLine.valueIn_of_fits fits]
      exact (harmless_iff line).mp checked
    · exact checked

/-- A header that is stored as it stands. -/
theorem plainHeader_clean :
    (afterLineFeed "A: b\r\n\r\n".toList).headersStored = [("A".toList, "b".toList)] ∧
      NothingSmuggled (afterLineFeed "A: b\r\n\r\n".toList).bufferIn := by
  have stored : (afterLineFeed "A: b\r\n\r\n".toList).headersStored =
      [("A".toList, "b".toList)] := by decide +kernel
  refine ⟨stored, (@headersClean_iff (afterLineFeed "A: b\r\n\r\n".toList) rfl).2.mp ?_⟩
  intro header member
  rw [stored, List.mem_singleton] at member
  rw [member]
  exact ⟨by decide, by simp, by simp⟩

/-- **A carriage return is smuggled into a value, a line feed into a value and into a key, and a
colon into a key.** -/
theorem terminators_smuggled :
    (∃ after, (afterLineFeed "A: \r\r\n\r\n".toList).parseHeaders = .ok (.success, after) ∧
      after.headers "A".toList = some "\r".toList) ∧
    (afterLineFeed "A: \r\r\n\r\n".toList).headersStored = [("A".toList, "\r".toList)] ∧
    ¬ (∀ header ∈ (afterLineFeed "A: \r\r\n\r\n".toList).headersStored, CleanHeader header) ∧
    (afterLineFeed "A: b\nc\r\n\nB: d\r\n:: e\r\n\r\n".toList).headersStored =
      [("A".toList, "b\nc".toList), ("\nB".toList, "d".toList), (":".toList, "e".toList)] := by
  have stored : (afterLineFeed "A: \r\r\n\r\n".toList).headersStored =
      [("A".toList, "\r".toList)] := by decide +kernel
  obtain ⟨after, accepted, -⟩ := exists_of_blockRead (by decide +kernel :
    blockRead (afterLineFeed "A: \r\r\n\r\n".toList) = .ok (.success, []))
  refine ⟨⟨after, accepted, ?_⟩, stored, ?_, by decide +kernel⟩
  · rw [parseHeaders_headers accepted, stored]
    decide
  · intro clean
    rw [stored] at clean
    exact absurd rfl ((clean _ (List.mem_singleton.mpr rfl)).valuePlain '\r' (by decide)).1

end HttpData

end FastWebServer
