import FastWebServer.Http.ParseHeaders

/-!
# Header lines that are cut

A call of `parse_Headers` that begins inside a header line has no mark of where its key begins, so
that the end of this line cuts out a range that starts in front of the buffer. `readLine` says how
a text goes on with a line: it completes the line, it breaks it with a character that cannot stand
there, or it leaves it unfinished. As long as the line is not completed the missing mark does no
harm (`scan_unfinished`, `scan_broken`).

`parseHeaders_faults_iff` says that completing such a line is the one way in which `parse_Headers`
comes to an operation without defined behaviour: a call from any state of the automaton, on any
buffer whose positions fit an `int`, does so exactly if the buffer completes the line that the call
begins in. A call that begins between two lines, or at the end of the block, begins with marks that
are in order, or puts them in order with its first or second character (`Anchored`).
-/

set_option autoImplicit false

namespace FastWebServer

open Cxx

/-! ## The rest of a line -/

/-- How a text goes on with a header line. -/
inductive LineReading where
  | unfinished
  | broken
  | completed
  deriving DecidableEq

/-- The reading of a text from the state in which the automaton stands in a line. Inside a value,
`count` characters have been read behind the first one. -/
def readLine : ParseState → ℕ → Str → LineReading
  | .key, count, c :: rest =>
      if c = ':' then readLine .colon count rest
      else if c = '\n' ∨ c = '\r' then .broken
      else readLine .key count rest
  | .colon, count, c :: rest =>
      if c = ' ' then readLine .spacesAfterColon count rest else .broken
  | .spacesAfterColon, _, _ :: rest => readLine .value 0 rest
  | .value, count, c :: rest =>
      if c = '\r' then readLine .cr count rest
      else if 255 ≤ count then .broken
      else readLine .value (count + 1) rest
  | .cr, _, c :: _ => if c = '\n' then .completed else .broken
  | _, _, _ => .unfinished

/-- No line is read before the first one. -/
@[simp] theorem readLine_start (count : ℕ) (text : Str) :
    readLine .start count text = .unfinished := by
  cases text <;> rfl

/-- The text completes the header line in which the automaton stands. -/
def completesLine (parseState : ParseState) (count : ℕ) (text : Str) : Bool :=
  readLine parseState count text = .completed

/-- The states inside a header line. -/
def MidLine (parseState : ParseState) : Prop :=
  parseState = .key ∨ parseState = .colon ∨ parseState = .spacesAfterColon ∨
    parseState = .value ∨ parseState = .cr

/-- A scan at position `i`, inside a line whose key begins before it, in the buffer or in front of
it. -/
structure Inside (i count : ℕ) (scan : HeaderScan) : Prop where
  unfinished : scan.finished = false
  midLine : MidLine scan.parseState
  key : scan.parseState = .key → scan.keyStart < i
  value : scan.parseState = .value → scan.valueStart + 1 + count = i ∧ -1 ≤ scan.valueStart

/-- A call that begins inside a line. -/
theorem inside_enter {parseState : ParseState} (headers : HeaderMap)
    (midLine : MidLine parseState) : Inside 0 0 (.enter parseState headers) :=
  ⟨rfl, midLine, fun _ => Int.negSucc_lt_zero 0, fun _ => ⟨rfl, le_rfl⟩⟩

/-- The length of a value is measured from its mark, and from `-1` where there is none. -/
theorem sizeSub_mark {i count : ℕ} {mark : ℤ} (measured : mark + 1 + count = i) (marked : -1 ≤ mark)
    (bound : i < 2 ^ 31) : sizeSub i (toSize mark) = count + 1 := by
  unfold sizeSub toSize
  omega

/-- What a pass inside a line does: it goes on in the line, which is read as before, or it breaks
the line, or it stands at the line feed that completes it. -/
inductive LineStep (i count : ℕ) (c : Char) (scan : HeaderScan) : Prop
  | goesOn (count' : ℕ) (scan' : HeaderScan)
      (step : ∀ buffer, headerStep buffer i c scan = .next scan')
      (inside : Inside (i + 1) count' scan') (headers : scan'.headers = scan.headers)
      (readCur : scan'.readCur = scan.readCur) (keyStart : scan'.keyStart = scan.keyStart)
      (reading : ∀ rest, readLine scan.parseState count (c :: rest) =
        readLine scan'.parseState count' rest)
  | breaks (scan' : HeaderScan) (step : ∀ buffer, headerStep buffer i c scan = .error scan')
      (headers : scan'.headers = scan.headers)
      (reading : ∀ rest, readLine scan.parseState count (c :: rest) = .broken)
  | completes (state : scan.parseState = .cr) (newline : c = '\n')
      (reading : ∀ rest, readLine scan.parseState count (c :: rest) = .completed)

theorem lineStep {i count : ℕ} {scan : HeaderScan} (inside : Inside i count scan)
    (short : i < 2 ^ 31) (c : Char) : LineStep i count c scan := by
  have position := toInt_of_lt short
  obtain ⟨unfinished, state | state | state | state | state, key, value⟩ := inside
  · have ordered : ¬ ((i : ℤ) - scan.keyStart ≤ 0) := by
      have := key state
      omega
    by_cases colon : c = ':'
    · refine .goesOn count { scan with parseState := .colon, keyEnd := i } (fun _ => ?_)
        ⟨unfinished, .inr (.inl rfl), by simp, by simp⟩ rfl rfl rfl (fun _ => ?_)
      · simp only [headerStep, state, position, if_pos colon, if_neg ordered]
      · simp only [state, readLine, if_pos colon]
    · by_cases ends : c = '\n' ∨ c = '\r'
      · refine .breaks scan (fun _ => ?_) rfl (fun _ => ?_)
        · simp only [headerStep, state, if_neg colon, if_pos ends]
        · simp only [state, readLine, if_neg colon, if_pos ends]
      · refine .goesOn count scan (fun _ => ?_)
          ⟨unfinished, .inl state, fun _ => ?_, by simp [state]⟩ rfl rfl rfl (fun _ => ?_)
        · simp only [headerStep, state, if_neg colon, if_neg ends]
        · have := key state
          omega
        · simp only [state, readLine, if_neg colon, if_neg ends]
  · by_cases space : c = ' '
    · refine .goesOn count { scan with parseState := .spacesAfterColon } (fun _ => ?_)
        ⟨unfinished, .inr (.inr (.inl rfl)), by simp, by simp⟩ rfl rfl rfl (fun _ => ?_)
      · simp only [headerStep, state, if_pos space]
      · simp only [state, readLine, if_pos space]
    · refine .breaks scan (fun _ => ?_) rfl (fun _ => ?_)
      · simp only [headerStep, state, if_neg space]
      · simp only [state, readLine, if_neg space]
  · refine .goesOn 0 { scan with parseState := .value, valueStart := i } (fun _ => ?_)
      ⟨unfinished, .inr (.inr (.inr (.inl rfl))), by simp, fun _ => ⟨by simp, by simp⟩⟩
      rfl rfl rfl (fun _ => ?_)
    · simp only [headerStep, state, position]
    · simp only [state, readLine]
  · obtain ⟨measured, marked⟩ := value state
    have ordered : ¬ ((i : ℤ) - scan.valueStart ≤ 0) := by omega
    by_cases ends : c = '\r'
    · refine .goesOn count { scan with parseState := .cr, valueEnd := i } (fun _ => ?_)
        ⟨unfinished, .inr (.inr (.inr (.inr rfl))), by simp, by simp⟩ rfl rfl rfl (fun _ => ?_)
      · simp only [headerStep, state, position, if_pos ends, if_neg ordered]
      · simp only [state, readLine, if_pos ends]
    · by_cases long : 255 ≤ count
      · refine .breaks scan (fun _ => ?_) rfl (fun _ => ?_)
        · simp only [headerStep, state, sizeSub_mark measured marked short, if_neg ends,
            if_pos (Nat.lt_succ_of_le long)]
        · simp only [state, readLine, if_neg ends, if_pos long]
      · refine .goesOn (count + 1) scan (fun _ => ?_)
          ⟨unfinished, .inr (.inr (.inr (.inl state))), by simp [state], fun _ => ?_⟩
          rfl rfl rfl (fun _ => ?_)
        · simp only [headerStep, state, sizeSub_mark measured marked short, if_neg ends]
          rw [if_neg (by omega)]
        · exact ⟨by push_cast; omega, marked⟩
        · simp only [state, readLine, if_neg ends, if_neg long]
  · by_cases newline : c = '\n'
    · exact .completes state newline (fun _ => by simp only [state, readLine, if_pos newline])
    · refine .breaks scan (fun _ => ?_) rfl (fun _ => ?_)
      · simp only [headerStep, state, if_neg newline]
      · simp only [state, readLine, if_neg newline]

/-- **A text that leaves the line unfinished is read to its end**, and nothing is stored. -/
theorem scan_unfinished {buffer rest : Str} {i count : ℕ} {scan : HeaderScan}
    (inside : Inside i count scan) (bound : i + rest.length < 2 ^ 31)
    (reading : readLine scan.parseState count rest = .unfinished) :
    ∃ last, scanHeaders buffer rest i scan = .stopped (i + rest.length) last ∧
      last.parseState ≠ .endLf ∧ last.headers = scan.headers ∧ last.readCur = scan.readCur := by
  induction rest generalizing i count scan with
  | nil =>
      refine ⟨scan, rfl, ?_, rfl, rfl⟩
      rcases inside.midLine with state | state | state | state | state <;> simp [state]
  | cons c rest ih =>
      rw [List.length_cons] at bound ⊢
      rw [scanHeaders, if_neg (by simp [inside.unfinished])]
      cases lineStep inside (by omega) c with
      | goesOn count' scan' step inside' headers readCur _ same =>
          obtain ⟨last, stopped, ended, kept, cur⟩ :=
            ih inside' (by omega) ((same rest).symm.trans reading)
          rw [step, show i + (rest.length + 1) = i + 1 + rest.length by omega]
          exact ⟨last, stopped, ended, kept.trans headers, cur.trans readCur⟩
      | breaks scan' _ _ broken => cases reading.symm.trans (broken rest)
      | completes _ _ completed => cases reading.symm.trans (completed rest)

/-- **A text that breaks the line ends the scan**, and nothing is stored. -/
theorem scan_broken {buffer rest : Str} {i count : ℕ} {scan : HeaderScan}
    (inside : Inside i count scan) (bound : i + rest.length < 2 ^ 31)
    (reading : readLine scan.parseState count rest = .broken) :
    ∃ last, scanHeaders buffer rest i scan = .error last ∧ last.headers = scan.headers := by
  induction rest generalizing i count scan with
  | nil => rcases inside.midLine with state | state | state | state | state <;>
      simp [state, readLine] at reading
  | cons c rest ih =>
      rw [List.length_cons] at bound
      rw [scanHeaders, if_neg (by simp [inside.unfinished])]
      cases lineStep inside (by omega) c with
      | goesOn count' scan' step inside' headers _ _ same =>
          obtain ⟨last, failed, kept⟩ := ih inside' (by omega) ((same rest).symm.trans reading)
          rw [step]
          exact ⟨last, failed, kept.trans headers⟩
      | breaks scan' step headers _ =>
          rw [step]
          exact ⟨scan', rfl, headers⟩
      | completes _ _ completed => cases reading.symm.trans (completed rest)

/-- **A text that completes the line is read up to its line feed** as in any other buffer. -/
theorem scan_completed {rest : Str} {i count : ℕ} {scan : HeaderScan}
    (inside : Inside i count scan) (bound : i + rest.length < 2 ^ 31)
    (reading : readLine scan.parseState count rest = .completed) :
    ∃ line more last, rest = line ++ '\n' :: more ∧
      (∀ buffer, scanHeaders buffer line i scan = .stopped (i + line.length) last) ∧
      last.finished = false ∧ last.parseState = .cr ∧ last.headers = scan.headers ∧
      last.keyStart = scan.keyStart := by
  induction rest generalizing i count scan with
  | nil => rcases inside.midLine with state | state | state | state | state <;>
      simp [state, readLine] at reading
  | cons c rest ih =>
      rw [List.length_cons] at bound
      cases lineStep inside (by omega) c with
      | goesOn count' scan' step inside' headers _ keyStart same =>
          obtain ⟨line, more, last, whole, stopped, running, state, kept, start⟩ :=
            ih inside' (by omega) ((same rest).symm.trans reading)
          refine ⟨c :: line, more, last, by rw [whole]; rfl, fun buffer => ?_, running, state,
            kept.trans headers, start.trans keyStart⟩
          rw [scanHeaders, if_neg (by simp [inside.unfinished]), step, List.length_cons,
            show i + (line.length + 1) = i + 1 + line.length by omega]
          exact stopped buffer
      | breaks _ _ _ broken => cases reading.symm.trans (broken rest)
      | completes state newline _ =>
          exact ⟨[], rest, scan, by rw [newline]; rfl, fun _ => rfl, inside.unfinished, state, rfl,
            rfl⟩

/-- A scan that is read in two parts. -/
theorem scan_split {buffer line more : Str} {i j : ℕ} {scan last : HeaderScan}
    (stopped : scanHeaders buffer line i scan = .stopped j last) (running : last.finished = false) :
    scanHeaders buffer (line ++ more) i scan = scanHeaders buffer more j last := by
  induction line generalizing i scan with
  | nil =>
      cases stopped
      rfl
  | cons c line ih =>
      rw [scanHeaders] at stopped
      split at stopped
      · rename_i finished
        cases stopped
        rw [running] at finished
        cases finished
      · rename_i unfinished
        rw [List.cons_append, scanHeaders, if_neg unfinished]
        cases step : headerStep buffer i c scan with
        | next scan' => exact ih (by simpa [step] using stopped)
        | error failed => simp [step] at stopped
        | fault fault => simp [step] at stopped

/-- **A scan inside a line without a beginning comes to undefined behaviour exactly if the line is
completed.** -/
theorem scan_faults_iff {buffer rest : Str} {i count : ℕ} {scan : HeaderScan}
    (inside : Inside i count scan) (before : scan.keyStart < 0) (bound : i + rest.length < 2 ^ 31) :
    (∃ fault, scanHeaders buffer rest i scan = .fault fault) ↔
      completesLine scan.parseState count rest = true := by
  rw [completesLine, decide_eq_true_eq]
  cases reading : readLine scan.parseState count rest with
  | unfinished =>
      obtain ⟨last, stopped, -⟩ := @scan_unfinished buffer rest i count scan inside bound reading
      simp [stopped]
  | broken =>
      obtain ⟨last, failed, -⟩ := @scan_broken buffer rest i count scan inside bound reading
      simp [failed]
  | completed =>
      obtain ⟨line, more, last, rfl, stopped, running, state, -, start⟩ :=
        scan_completed inside bound reading
      -- the line ends, and its key is cut out
      refine iff_of_true ⟨.undefinedBehaviour, ?_⟩ rfl
      rw [scan_split (stopped buffer) running, scanHeaders, if_neg (by simp [running])]
      simp only [headerStep, state, if_true, range_of_neg (start ▸ before)]

/-! ## Between two lines -/

/-- The marks are in order, or the scan has begun at a line end and has not come to a key yet. -/
def Anchored (read : Str) (scan : HeaderScan) : Prop :=
  Marked read scan ∨
    scan.finished = false ∧ scan.readCur = 0 ∧
      (scan.parseState = .lf ∨ scan.parseState = .endCr)

theorem anchored_enter {parseState : ParseState} (headers : HeaderMap)
    (outside : parseState = .start ∨ parseState = .lf ∨ parseState = .endCr ∨ parseState = .endLf) :
    Anchored [] (.enter parseState headers) := by
  rcases outside with rfl | rfl | rfl | rfl
  · exact .inl (marked_enter headers)
  · exact .inr ⟨rfl, rfl, .inl rfl⟩
  · exact .inr ⟨rfl, rfl, .inr rfl⟩
  · exact .inl (by simp [Marked, HeaderScan.enter])

theorem headerStep_anchored {read rest : Str} {c : Char} {scan scan' : HeaderScan}
    (anchored : Anchored read scan) (unfinished : scan.finished = false)
    (bound : read.length < 2 ^ 31)
    (step : headerStep (read ++ rest) read.length c scan = .next scan') :
    Anchored (read ++ [c]) scan' := by
  rcases anchored with marked | ⟨-, readCur, state | state⟩
  · exact .inl (headerStep_marked marked unfinished bound step)
  · simp only [headerStep, state, toInt_of_lt bound] at step
    split at step
    · cases step
      exact .inr ⟨unfinished, readCur, .inr rfl⟩
    · -- the character begins a key
      cases step
      refine .inl ⟨by simp [unfinished], readCur.ge, ?_, ?_⟩
      · simp [readCur]; omega
      · simp
  · simp only [headerStep, state] at step
    split at step
    · cases step
      refine .inl ⟨by simp [unfinished], readCur.ge, ?_, trivial⟩
      simp [readCur]; omega
    · cases step

theorem headerStep_anchored_defined {read rest : Str} {c : Char} {scan : HeaderScan}
    (anchored : Anchored read scan) (fault : Fault) :
    headerStep (read ++ rest) read.length c scan ≠ .fault fault := by
  rcases anchored with marked | ⟨-, -, state | state⟩
  · exact headerStep_defined marked fault
  · simp only [headerStep, state]
    split <;> simp
  · simp only [headerStep, state]
    split <;> simp

/-- A scan that begins outside a line reads inside the buffer. -/
theorem scan_anchored_defined {read rest : Str} {scan : HeaderScan} (fault : Fault)
    (anchored : Anchored read scan) (bound : (read ++ rest).length < 2 ^ 31) :
    scanHeaders (read ++ rest) rest read.length scan ≠ .fault fault := by
  induction rest generalizing read scan with
  | nil => simp [scanHeaders]
  | cons c rest ih =>
      rw [scanHeaders]
      split
      · simp
      · rename_i running
        cases step : headerStep (read ++ c :: rest) read.length c scan with
        | error failed => simp
        | fault other => exact absurd step (headerStep_anchored_defined anchored other)
        | next scan' =>
            have short : read.length < 2 ^ 31 := by
              rw [List.length_append] at bound
              omega
            have kept := headerStep_anchored anchored (by simpa using running) short step
            have same : read ++ c :: rest = (read ++ [c]) ++ rest := by simp
            have length : read.length + 1 = (read ++ [c]).length := by simp
            rw [same] at bound ⊢
            rw [length]
            exact ih kept bound

/-! ## A whole call -/

/-- The position from which the buffer is kept is the one of a character, or is left as it was. -/
theorem headerStep_readCur {buffer : Str} {i : ℕ} {c : Char} {scan scan' : HeaderScan}
    (step : headerStep buffer i c scan = .next scan') :
    scan'.readCur = scan.readCur ∨ scan'.readCur = toInt i := by
  unfold headerStep at step
  repeat' split at step
  all_goals (cases step <;> simp)

/-- A scan stops inside the buffer, and so does what is kept of it. -/
theorem scan_inside {buffer : Str} {j : ℕ} {parseState : ParseState} {headers : HeaderMap}
    {last : HeaderScan} (bound : buffer.length < 2 ^ 31)
    (stopped : scanHeaders buffer buffer 0 (.enter parseState headers) = .stopped j last) :
    j ≤ buffer.length ∧ toSize last.readCur ≤ buffer.length := by
  obtain ⟨read, left, rfl, rfl, ⟨nonneg, within⟩, -⟩ := scan_induction
    (fun read scan => 0 ≤ scan.readCur ∧ scan.readCur ≤ read.length)
    (fun read c rest scan scan' whole inside _ step => by
      have short : read.length < 2 ^ 31 := by
        rw [← whole, List.length_append] at bound
        omega
      have length : (read ++ [c]).length = read.length + 1 := List.length_append
      rcases headerStep_readCur step with same | here
      · rw [same, length]
        omega
      · rw [here, toInt_of_lt short, length]
        omega)
    (List.nil_append buffer) (show (0 : ℤ) ≤ 0 ∧ (0 : ℤ) ≤ 0 from ⟨le_rfl, le_rfl⟩) stopped
  rw [List.length_append] at bound ⊢
  unfold toSize
  omega

namespace HttpData

variable {http : HttpData}

theorem parseHeaders_faults (bound : http.bufferIn.length < 2 ^ 31) :
    (∃ fault, http.parseHeaders = .error fault) ↔
      ∃ fault, scanHeaders http.bufferIn http.bufferIn 0 (.enter http.parseState http.headers) =
        .fault fault := by
  unfold parseHeaders
  cases scanned : scanHeaders http.bufferIn http.bufferIn 0
      (.enter http.parseState http.headers) with
  | fault fault => simp
  | error scan => simp
  | stopped i scan =>
      obtain ⟨stops, kept⟩ := scan_inside bound scanned
      simp only [substrFrom_of_le stops, substrFrom_of_le kept]
      split <;> simp

/-- **When `parse_Headers` comes to undefined behaviour.** -/
theorem parseHeaders_faults_iff (bound : http.bufferIn.length < 2 ^ 31) :
    (∃ fault, http.parseHeaders = .error fault) ↔
      completesLine http.parseState 0 http.bufferIn = true := by
  rw [parseHeaders_faults bound]
  have inside (midLine : MidLine http.parseState) :
      (∃ fault, scanHeaders http.bufferIn http.bufferIn 0
        (.enter http.parseState http.headers) = .fault fault) ↔
        completesLine http.parseState 0 http.bufferIn = true :=
    scan_faults_iff (inside_enter http.headers midLine) (by decide : (-1 : ℤ) < 0)
      (by simpa using bound)
  have outside (between : http.parseState = .start ∨ http.parseState = .lf ∨
      http.parseState = .endCr ∨ http.parseState = .endLf) :
      ¬ ∃ fault, scanHeaders http.bufferIn http.bufferIn 0
        (.enter http.parseState http.headers) = .fault fault := by
    rintro ⟨fault, faults⟩
    exact scan_anchored_defined fault (anchored_enter http.headers between)
      (by simpa using bound) (by simpa using faults)
  cases state : http.parseState with
  | key => exact state ▸ inside (.inl state)
  | colon => exact state ▸ inside (.inr (.inl state))
  | spacesAfterColon => exact state ▸ inside (.inr (.inr (.inl state)))
  | value => exact state ▸ inside (.inr (.inr (.inr (.inl state))))
  | cr => exact state ▸ inside (.inr (.inr (.inr (.inr state))))
  | _ =>
      exact state ▸ iff_of_false (outside (by simp [state]))
        (by simp [state, completesLine, readLine])

end HttpData

end FastWebServer
