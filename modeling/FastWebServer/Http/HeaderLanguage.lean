import FastWebServer.Http.HeaderRoundTrip

/-!
# The language of the header automaton

`Block` is the set of header blocks, as a text: characters that `H_START` skips, a first line,
further lines and a blank line. On a buffer whose positions fit an `int`, `parse_Headers` succeeds
exactly if the buffer begins with a block, asks for more exactly if it does not but goes on to
one, and refuses every other buffer (`headerLanguage`).

That a buffer which begins with a block is accepted, and that an accepted one begins with a block,
is what the modules before this one say of lines. For the refused buffers `Stage` is the automaton
without the positions: it gets through every block, and the scan of a buffer whose positions fit
fails only where it does (`scan_stages`).
-/

set_option autoImplicit false

namespace FastWebServer

open Cxx

/-! ## Blocks -/

/-- Lines that can stand behind the characters that `H_START` skips. -/
def Heads : List HeaderLine → Prop
  | [] => True
  | first :: later => (first.keyHead ≠ '\n' ∧ first.keyHead ≠ 'r') ∧
      ∀ line ∈ later, line.keyHead ≠ '\r'

/-- A header block, with the pairs of its lines. -/
def Block (word : Str) (headers : List (Str × Str)) : Prop :=
  ∃ skipped lines, (∀ c ∈ skipped, c = '\n' ∨ c = 'r') ∧ Heads lines ∧ lines ≠ [] ∧
    word = skipped ++ linesText lines ++ ['\r', '\n'] ∧
    headers = lines.map fun line => (line.key, line.value)

/-- One more line can stand behind others. -/
theorem Heads.concat {lines : List HeaderLine} {line : HeaderLine} (heads : Heads lines)
    (begins : Begins lines line.keyHead) : Heads (lines ++ [line]) := by
  cases lines with
  | nil => exact ⟨by simpa [Begins] using begins, by simp⟩
  | cons first later =>
      refine ⟨heads.1, ?_⟩
      intro other member
      rcases List.mem_append.mp member with earlier | last
      · exact heads.2 other earlier
      · rw [List.mem_singleton.mp last]
        simpa [Begins] using begins

/-- What has been read of lines. -/
theorem Lines.heads {before : Str} {lines : List HeaderLine} (reads : Lines before lines) :
    ∃ skipped, (∀ c ∈ skipped, c = '\n' ∨ c = 'r') ∧ Heads lines ∧
      before = skipped ++ linesText lines := by
  induction reads with
  | @skip skipped all => exact ⟨skipped, all, trivial, (List.append_nil skipped).symm⟩
  | line earlier line begins passes ih =>
      obtain ⟨skipped, all, heads, rfl⟩ := ih
      exact ⟨skipped, all, heads.concat begins, by simp [linesText]⟩

/-- Lines with a blank line behind them are a block. -/
theorem Lines.block {before : Str} {lines : List HeaderLine} (reads : Lines before lines)
    (some : lines ≠ []) :
    Block (before ++ ['\r', '\n']) (lines.map fun line => (line.key, line.value)) := by
  obtain ⟨skipped, all, heads, rfl⟩ := reads.heads
  exact ⟨skipped, lines, all, heads, some, rfl, rfl⟩

/-- A line behind lines, with a blank line behind it, is a block. -/
theorem Lines.blockWith {before : Str} {lines : List HeaderLine} (reads : Lines before lines)
    (line : HeaderLine) (begins : Begins lines line.keyHead) :
    ∃ headers, Block (before ++ line.text ++ ['\r', '\n']) headers := by
  obtain ⟨skipped, all, heads, rfl⟩ := reads.heads
  exact ⟨_, skipped, lines ++ [line], all, heads.concat begins, by simp,
    by simp [linesText], rfl⟩

/-- The lines of a block whose text fits can be read. -/
theorem lines_of_heads {skipped : Str} {lines : List HeaderLine}
    (all : ∀ c ∈ skipped, c = '\n' ∨ c = 'r') (heads : Heads lines)
    (fits : (skipped ++ linesText lines).length < 2 ^ 31 + 2) :
    Lines (skipped ++ linesText lines) lines := by
  cases lines with
  | nil => simpa [linesText] using Lines.skip all
  | cons first later =>
      have text : skipped ++ linesText (first :: later) =
          skipped ++ first.text ++ linesText later := by simp [linesText]
      rw [text] at fits ⊢
      have short : skipped.length + first.valueTo < 2 ^ 31 := by
        rw [List.length_append, List.length_append, first.length_text] at fits
        omega
      exact lines_of_fits (.line (.skip all) first (by simpa [Begins] using heads.1)
        (HeaderLine.passes_of_fits short)) (List.cons_ne_nil _ _) heads.2 fits

namespace HttpData

/-- **A buffer that begins with a block is accepted**, with the headers of the block. -/
theorem parseHeaders_block {http : HttpData} {word : Str} {headers : List (Str × Str)}
    (fresh : http.AtBlockStart) (short : http.bufferIn.length < 2 ^ 31)
    (begins : word <+: http.bufferIn) (block : Block word headers) :
    ∃ after, http.parseHeaders = .ok (.success, after) ∧
      after.headers = storeAll HeaderMap.empty headers := by
  obtain ⟨more, whole⟩ := begins
  obtain ⟨skipped, lines, all, heads, some, rfl, rfl⟩ := block
  have fits : (skipped ++ linesText lines).length < 2 ^ 31 + 2 := by
    rw [← whole, List.length_append, List.length_append] at short
    omega
  obtain ⟨after, accepted, stored⟩ :=
    parseHeaders_lines fresh whole.symm (lines_of_heads all heads fits) some fits
  exact ⟨after, accepted, by rw [stored, storeLines_eq]⟩

/-- **An accepted buffer begins with a block.** -/
theorem block_of_success {http after : HttpData} (fresh : http.AtBlockStart)
    (accepted : http.parseHeaders = .ok (.success, after)) :
    ∃ word headers, word <+: http.bufferIn ∧ Block word headers := by
  obtain ⟨j, last, -, stopped, ended, -⟩ := parseHeaders_success accepted
  rw [fresh.1] at stopped
  obtain ⟨read, left, whole, -, ⟨before, lines, reads, now⟩, -⟩ := scan_induction Stands
    (fun _ _ _ _ _ _ stands unfinished step => headerStep_stands stands unfinished step)
    (List.nil_append http.bufferIn) (stands_enter http.headers) stopped
  simp only [ended] at now
  obtain ⟨some, more, rfl⟩ := now
  exact ⟨_, _, ⟨more ++ left, by rw [← whole]; simp⟩, reads.block some⟩

end HttpData

/-! ## Completing a block -/

/-- A key that has been read goes on to a line. -/
theorem KeyStands.line {before tail : Str} {lines : List HeaderLine} {c : Char} {scan : HeaderScan}
    (stands : KeyStands before lines c tail scan) :
    ∃ line : HeaderLine, Begins lines line.keyHead ∧
      ∃ rest, line.text = c :: tail ++ [':', ' '] ++ rest :=
  ⟨⟨c, tail, 'v', [], stands.plain, List.not_mem_nil, Nat.zero_le _⟩, stands.begins,
    ['v', '\r', '\n'], by simp [HeaderLine.text, HeaderLine.body, HeaderLine.key, HeaderLine.value]⟩

/-- **What has been read goes on to a block**, from every state. -/
theorem block_of_stands {read : Str} {scan : HeaderScan} (stands : Stands read scan) :
    ∃ word headers, Block word headers ∧ (read <+: word ∨ scan.parseState = .endLf) := by
  obtain ⟨before, lines, reads, now⟩ := stands
  cases state : scan.parseState with
  | start =>
      simp only [state] at now
      obtain ⟨rfl, rfl⟩ := now
      obtain ⟨headers, block⟩ := reads.blockWith
        ⟨'k', [], 'v', [], by simp, List.not_mem_nil, Nat.zero_le _⟩ (by simp [Begins])
      exact ⟨_, headers, block, .inl ⟨_, (List.append_assoc _ _ _).symm⟩⟩
  | key =>
      simp only [state] at now
      obtain ⟨c, tail, rfl, key⟩ := now
      obtain ⟨line, begins, rest, text⟩ := key.line
      obtain ⟨headers, block⟩ := reads.blockWith line begins
      exact ⟨_, headers, block, .inl ⟨[':', ' '] ++ rest ++ ['\r', '\n'], by simp [text]⟩⟩
  | colon =>
      simp only [state] at now
      obtain ⟨c, tail, rfl, key⟩ := now
      obtain ⟨line, begins, rest, text⟩ := key.toKeyStands.line
      obtain ⟨headers, block⟩ := reads.blockWith line begins
      exact ⟨_, headers, block, .inl ⟨' ' :: rest ++ ['\r', '\n'], by simp [text]⟩⟩
  | spacesAfterColon =>
      simp only [state] at now
      obtain ⟨c, tail, rfl, key⟩ := now
      obtain ⟨line, begins, rest, text⟩ := key.toKeyStands.line
      obtain ⟨headers, block⟩ := reads.blockWith line begins
      exact ⟨_, headers, block, .inl ⟨rest ++ ['\r', '\n'], by simp [text]⟩⟩
  | value =>
      simp only [state] at now
      obtain ⟨c, tail, v, tail', rfl, key, value⟩ := now
      obtain ⟨headers, block⟩ := reads.blockWith
        ⟨c, tail, v, tail', key.plain, value.plain, value.short⟩ key.begins
      refine ⟨_, headers, block, .inl ⟨['\r', '\n', '\r', '\n'], ?_⟩⟩
      simp [HeaderLine.text, HeaderLine.body, HeaderLine.key, HeaderLine.value]
  | cr =>
      simp only [state] at now
      obtain ⟨line, rfl, begins, -⟩ := now
      obtain ⟨headers, block⟩ := reads.blockWith line begins
      exact ⟨_, headers, block, .inl ⟨['\n', '\r', '\n'], by simp [HeaderLine.text]⟩⟩
  | lf =>
      simp only [state] at now
      obtain ⟨some, rfl⟩ := now
      exact ⟨_, _, reads.block some, .inl (List.prefix_append _ _)⟩
  | endCr =>
      simp only [state] at now
      obtain ⟨some, rfl⟩ := now
      exact ⟨_, _, reads.block some, .inl ⟨['\n'], by simp⟩⟩
  | endLf =>
      simp only [state] at now
      exact ⟨_, _, reads.block now.1, .inr rfl⟩

/-! ## The automaton without positions -/

/-- A state of the automaton, with the number of characters behind the first of a value. -/
inductive Stage where
  | start
  | key
  | colon
  | spacesAfterColon
  | value (more : ℕ)
  | cr
  | lf
  | endCr
  | endLf

namespace Stage

/-- The next state, if the character is allowed. -/
def next : Stage → Char → Option Stage
  | start, c => if c = '\n' ∨ c = 'r' then some start else some key
  | key, c => if c = ':' then some colon else if c = '\n' ∨ c = '\r' then none else some key
  | colon, c => if c = ' ' then some spacesAfterColon else none
  | spacesAfterColon, _ => some (value 0)
  | value more, c =>
      if c = '\r' then some cr else if more < 255 then some (value (more + 1)) else none
  | cr, c => if c = '\n' then some lf else none
  | lf, c => if c = '\r' then some endCr else some key
  | endCr, c => if c = '\n' then some endLf else none
  | endLf, _ => some endLf

/-- The state behind a text. -/
def run : Stage → Str → Option Stage
  | stage, [] => some stage
  | stage, c :: text => (stage.next c).bind fun stage' => stage'.run text

theorem run_cons {stage stage' : Stage} {c : Char} {text : Str}
    (step : stage.next c = some stage') :
    stage.run (c :: text) = stage'.run text := by
  rw [run, step]
  rfl

theorem run_append (stage : Stage) (text more : Str) :
    stage.run (text ++ more) = (stage.run text).bind fun stage' => stage'.run more := by
  induction text generalizing stage with
  | nil => rfl
  | cons c text ih =>
      rw [List.cons_append, run, run]
      cases stage.next c with
      | none => rfl
      | some stage' => exact ih stage'

/-- A text whose characters do not change the state. -/
theorem run_over {stage : Stage} {text : Str} (stays : ∀ c ∈ text, stage.next c = some stage) :
    stage.run text = some stage := by
  induction text with
  | nil => rfl
  | cons c text ih =>
      rw [run_cons (stays c List.mem_cons_self)]
      exact ih fun x member => stays x (List.mem_cons_of_mem _ member)

/-- The characters of a value behind the first. -/
theorem run_value {more : ℕ} {tail : Str} (plain : '\r' ∉ tail) (short : more + tail.length ≤ 255) :
    (value more).run tail = some (value (more + tail.length)) := by
  induction tail generalizing more with
  | nil => rfl
  | cons c tail ih =>
      obtain ⟨noReturn, plain⟩ := not_or.mp (mt List.mem_cons.mpr plain)
      rw [List.length_cons] at short ⊢
      have step : (value more).next c = some (value (more + 1)) := by
        rw [next, if_neg (Ne.symm noReturn), if_pos (by omega)]
      rw [run_cons step, ih plain (by omega)]
      congr 2
      omega

/-- A line is allowed where its key can begin. -/
theorem run_line {stage : Stage} {line : HeaderLine} (begins : stage.next line.keyHead = some key) :
    stage.run line.text = some lf := by
  have text : line.text = line.keyHead :: (line.keyTail ++ ':' :: ' ' :: line.valueHead ::
      (line.valueTail ++ ['\r', '\n'])) := by
    simp [HeaderLine.text, HeaderLine.body, HeaderLine.key, HeaderLine.value]
  have stays : ∀ c ∈ line.keyTail, key.next c = some key := by
    intro c member
    obtain ⟨noColon, noFeed, noReturn⟩ := line.keyTail_plain c member
    rw [next, if_neg noColon, if_neg (not_or.mpr ⟨noFeed, noReturn⟩)]
  have value := @run_value 0 line.valueTail line.valueTail_plain
    (by rw [Nat.zero_add]; exact line.valueTail_short)
  rw [text, run_cons begins, run_append, run_over stays, Option.bind_some]
  rw [run_cons rfl, run_cons rfl, run_cons rfl, run_append, value]
  rfl

/-- Lines are allowed behind a line. -/
theorem run_lines {lines : List HeaderLine} (heads : ∀ line ∈ lines, line.keyHead ≠ '\r') :
    lf.run (linesText lines) = some lf := by
  induction lines with
  | nil => rfl
  | cons line lines ih =>
      have begins : lf.next line.keyHead = some key := by
        rw [next, if_neg (heads line List.mem_cons_self)]
      rw [linesText, List.flatMap_cons, ← linesText, run_append, run_line begins]
      exact ih fun line member => heads line (List.mem_cons_of_mem _ member)

/-- **The automaton gets through every block**, and so through every part that a block begins
with. -/
theorem run_block {word : Str} {headers : List (Str × Str)} (block : Block word headers) :
    start.run word = some endLf := by
  obtain ⟨skipped, lines, all, heads, some, rfl, -⟩ := block
  cases lines with
  | nil => exact absurd rfl some
  | cons first later =>
      have begins : start.next first.keyHead = Option.some key := by
        rw [next, if_neg (not_or.mpr heads.1)]
      have skips : start.run skipped = Option.some start := by
        apply run_over
        intro c member
        rw [next, if_pos (all c member)]
      rw [linesText, List.flatMap_cons, ← linesText, run_append, run_append, skips,
        Option.bind_some, run_append, run_line begins, Option.bind_some, run_lines heads.2]
      rfl

theorem run_of_isPrefix {text word : Str} {headers : List (Str × Str)} (begins : text <+: word)
    (block : Block word headers) : start.run text ≠ none := by
  intro stuck
  obtain ⟨more, rfl⟩ := begins
  have through := run_block block
  rw [run_append, stuck] at through
  cases through

end Stage

/-- The scan stands where the automaton without positions does. -/
def At (read : Str) (scan : HeaderScan) : Stage → Prop
  | .start => scan.parseState = .start
  | .key => scan.parseState = .key
  | .colon => scan.parseState = .colon
  | .spacesAfterColon => scan.parseState = .spacesAfterColon
  | .value more => scan.parseState = .value ∧ scan.valueStart + 1 + more = read.length
  | .cr => scan.parseState = .cr
  | .lf => scan.parseState = .lf
  | .endCr => scan.parseState = .endCr
  | .endLf => scan.parseState = .endLf

/-- **One pass does what the automaton without positions does**, where the positions fit. -/
theorem headerStep_stage {buffer read : Str} {c : Char} {scan : HeaderScan} {stage : Stage}
    (stands : At read scan stage) (marked : Marked read scan) (short : read.length < 2 ^ 31) :
    (∀ failed, headerStep buffer read.length c scan = .error failed → stage.next c = none) ∧
      ∀ scan', headerStep buffer read.length c scan = .next scan' →
        ∃ stage', stage.next c = some stage' ∧ At (read ++ [c]) scan' stage' := by
  obtain ⟨-, -, -, order⟩ := marked
  have position := toInt_of_lt short
  cases stage with
  | start =>
      have state : scan.parseState = .start := stands
      simp only [headerStep, state, Stage.next]
      split
      · exact ⟨by simp, fun scan' step => ⟨_, rfl, by cases step; exact state⟩⟩
      · exact ⟨by simp, fun scan' step => ⟨_, rfl, by cases step; rfl⟩⟩
  | key =>
      have state : scan.parseState = .key := stands
      simp only [state] at order
      have longer : ¬ ((read.length : ℤ) - scan.keyStart ≤ 0) := by omega
      simp only [headerStep, state, Stage.next, position, if_neg longer]
      split
      · exact ⟨by simp, fun scan' step => ⟨_, rfl, by cases step; rfl⟩⟩
      · split
        · exact ⟨fun _ _ => rfl, by simp⟩
        · exact ⟨by simp, fun scan' step => ⟨_, rfl, by cases step; exact state⟩⟩
  | colon =>
      have state : scan.parseState = .colon := stands
      simp only [headerStep, state, Stage.next]
      split
      · exact ⟨by simp, fun scan' step => ⟨_, rfl, by cases step; rfl⟩⟩
      · exact ⟨fun _ _ => rfl, by simp⟩
  | spacesAfterColon =>
      have state : scan.parseState = .spacesAfterColon := stands
      simp only [headerStep, state, Stage.next, position]
      exact ⟨by simp, fun scan' step => ⟨_, rfl, by cases step; exact ⟨rfl, by simp⟩⟩⟩
  | value more =>
      obtain ⟨state, count⟩ := stands
      simp only [state] at order
      have longer : ¬ ((read.length : ℤ) - scan.valueStart ≤ 0) := by omega
      have near : 255 < sizeSub read.length (toSize scan.valueStart) ↔ ¬ more < 255 := by
        have mark : scan.valueStart = ((read.length - 1 - more : ℕ) : ℤ) := by omega
        rw [mark, toSize_natCast (by omega), sizeSub_of_le (by omega) (by omega)]
        omega
      simp only [headerStep, state, Stage.next, position, if_neg longer, near, ite_not]
      split
      · exact ⟨by simp, fun scan' step => ⟨_, rfl, by cases step; rfl⟩⟩
      · split
        · refine ⟨by simp, fun scan' step => ⟨_, rfl, ?_⟩⟩
          cases step
          exact ⟨state, by rw [List.length_append, List.length_singleton]; omega⟩
        · exact ⟨fun _ _ => rfl, by simp⟩
  | cr =>
      have state : scan.parseState = .cr := stands
      simp only [headerStep, state, Stage.next]
      split
      · refine ⟨fun failed step => ?_, fun scan' step => ⟨_, rfl, ?_⟩⟩
        · split at step <;> cases step
        · split at step <;> cases step
          rfl
      · exact ⟨fun _ _ => rfl, by simp⟩
  | lf =>
      have state : scan.parseState = .lf := stands
      simp only [headerStep, state, Stage.next]
      split
      · exact ⟨by simp, fun scan' step => ⟨_, rfl, by cases step; rfl⟩⟩
      · exact ⟨by simp, fun scan' step => ⟨_, rfl, by cases step; rfl⟩⟩
  | endCr =>
      have state : scan.parseState = .endCr := stands
      simp only [headerStep, state, Stage.next]
      split
      · exact ⟨by simp, fun scan' step => ⟨_, rfl, by cases step; rfl⟩⟩
      · exact ⟨fun _ _ => rfl, by simp⟩
  | endLf =>
      have state : scan.parseState = .endLf := stands
      simp only [headerStep, state, Stage.next]
      exact ⟨by simp, fun scan' step => ⟨_, rfl, by cases step; rfl⟩⟩

/-- **A scan that fails has read what the automaton without positions does not allow.** -/
theorem scan_stages {read rest : Str} {scan last : HeaderScan} {stage : Stage}
    (stands : At read scan stage) (marked : Marked read scan)
    (short : (read ++ rest).length < 2 ^ 31)
    (failed : scanHeaders (read ++ rest) rest read.length scan = .error last) :
    stage.run rest = none := by
  induction rest generalizing read scan stage with
  | nil => cases failed
  | cons c rest ih =>
      have within : read.length < 2 ^ 31 := by
        rw [List.length_append] at short
        omega
      have split : read ++ c :: rest = read ++ [c] ++ rest := by simp
      have length : read.length + 1 = (read ++ [c]).length := by simp
      rw [scanHeaders] at failed
      split at failed
      · cases failed
      · rename_i running
        obtain ⟨stops, goes⟩ :=
          @headerStep_stage (read ++ c :: rest) read c scan stage stands marked within
        cases step : headerStep (read ++ c :: rest) read.length c scan with
        | fault fault => simp only [step, reduceCtorEq] at failed
        | error scan' => rw [Stage.run, stops scan' step, Option.bind_none]
        | next scan' =>
            obtain ⟨stage', next, stands'⟩ := goes scan' step
            have kept := headerStep_marked marked (by simpa using running) within step
            simp only [step, length] at failed
            rw [Stage.run_cons next]
            rw [split] at short failed
            exact ih stands' kept short failed

/-! ## The language -/

/-- The buffer has a block to begin with. -/
def BeginsWithBlock (buffer : Str) : Prop :=
  ∃ word headers, word <+: buffer ∧ Block word headers

/-- The buffer is what a block begins with. -/
def GoesOnToBlock (buffer : Str) : Prop :=
  ∃ word headers, buffer <+: word ∧ Block word headers

namespace HttpData

/-- What a call answers whose buffer is not accepted. -/
theorem goesOn_of_again {http after : HttpData} (fresh : http.AtBlockStart)
    (asked : http.parseHeaders = .ok (.again, after)) (short : http.bufferIn.length < 2 ^ 31) :
    GoesOnToBlock http.bufferIn := by
  obtain ⟨scan, stopped, -, -, unfinished, inside, -⟩ := parseHeaders_again fresh short asked
  obtain ⟨read, left, whole, -, stands, ended⟩ := scan_induction Stands
    (fun _ _ _ _ _ _ stands unfinished step => headerStep_stands stands unfinished step)
    (List.nil_append http.bufferIn) (stands_enter HeaderMap.empty) stopped
  have nothing : left = [] := ended.resolve_right (by simp [unfinished])
  rw [nothing, List.append_nil] at whole
  obtain ⟨word, headers, block, begins | ended⟩ := block_of_stands stands
  · exact ⟨word, headers, whole ▸ begins, block⟩
  · exact absurd ended inside

/-- What a call refuses is not what a block begins with. -/
theorem not_goesOn_of_error {http after : HttpData} (fresh : http.AtBlockStart)
    (refused : http.parseHeaders = .ok (.error, after)) (short : http.bufferIn.length < 2 ^ 31) :
    ¬ GoesOnToBlock http.bufferIn := by
  rintro ⟨word, headers, begins, block⟩
  have failed : ∃ last, scanHeaders http.bufferIn http.bufferIn 0 (.enter .start HeaderMap.empty) =
      .error last := by
    unfold parseHeaders at refused
    rw [fresh.1, fresh.2] at refused
    split at refused
    · cases refused
    · rename_i last failed
      exact ⟨last, failed⟩
    · split at refused
      · split at refused <;> cases refused
      · split at refused <;> cases refused
  obtain ⟨last, failed⟩ := failed
  exact Stage.run_of_isPrefix begins block
    (@scan_stages [] http.bufferIn (.enter .start HeaderMap.empty) last .start rfl
      (marked_enter HeaderMap.empty) short failed)

/-- A call on a buffer whose positions fit returns. -/
theorem parseHeaders_returns {http : HttpData} (fresh : http.AtBlockStart)
    (short : http.bufferIn.length < 2 ^ 31) :
    ∃ code after, http.parseHeaders = .ok (code, after) := by
  unfold parseHeaders
  rw [fresh.1, fresh.2]
  cases scanned : scanHeaders http.bufferIn http.bufferIn 0 (.enter .start HeaderMap.empty) with
  | fault fault =>
      exact absurd scanned
        (@scan_defined [] http.bufferIn _ fault (marked_enter HeaderMap.empty) short)
  | error last => exact ⟨_, _, rfl⟩
  | stopped i last =>
      obtain ⟨read, left, whole, rfl, ⟨marked, -⟩, -⟩ :=
        @scan_marked [] http.bufferIn i _ last (marked_enter HeaderMap.empty)
          (ending_enter HeaderMap.empty) short scanned
      rw [List.nil_append] at whole
      have inside : read.length ≤ http.bufferIn.length := by
        rw [← whole, List.length_append]
        omega
      have kept : toSize last.readCur ≤ http.bufferIn.length := by
        obtain ⟨-, nonneg, within, -⟩ := marked
        obtain ⟨cur, same⟩ := Int.eq_ofNat_of_zero_le nonneg
        rw [same] at within ⊢
        rw [toSize_natCast (by omega)]
        omega
      simp only [substrFrom_of_le inside, substrFrom_of_le kept]
      split
      · exact ⟨_, _, rfl⟩
      · exact ⟨_, _, rfl⟩

/-- The marks stay in order in a buffer whose positions fit. -/
theorem marked_kept {buffer : Str} (short : buffer.length < 2 ^ 31) (read : Str) (c : Char)
    (rest : Str) (scan scan' : HeaderScan) (whole : read ++ c :: rest = buffer)
    (marked : Marked read scan) (unfinished : scan.finished = false)
    (step : headerStep buffer read.length c scan = .next scan') : Marked (read ++ [c]) scan' := by
  have within : read.length < 2 ^ 31 := by
    rw [← whole, List.length_append] at short
    omega
  rw [← whole] at step
  exact headerStep_marked marked unfinished within step

/-- **The language of `parse_Headers`.** On a buffer whose positions fit an `int` a call from the
start of a block succeeds exactly if the buffer begins with a block, asks for more exactly if it
does not but a block begins with it, and fails in every other case. Where it succeeds the headers
are those of the block, the last value of each key, and where it stores one the marks are in order
in what has been read. -/
theorem headerLanguage {http : HttpData} (fresh : http.AtBlockStart)
    (short : http.bufferIn.length < 2 ^ 31) :
    (∃ code after, http.parseHeaders = .ok (code, after) ∧
      (code = .success ↔ BeginsWithBlock http.bufferIn) ∧
      (code = .again ↔ ¬ BeginsWithBlock http.bufferIn ∧ GoesOnToBlock http.bufferIn) ∧
      (code = .error ↔ ¬ BeginsWithBlock http.bufferIn ∧ ¬ GoesOnToBlock http.bufferIn) ∧
      ∀ word headers, word <+: http.bufferIn → Block word headers → ∀ key,
        after.headers key =
          (headers.reverse.find? (fun header => header.1 = key)).map Prod.snd) ∧
    ∀ read rest scan, http.bufferIn = read ++ '\n' :: rest →
      scanHeaders http.bufferIn read 0 (.enter .start HeaderMap.empty) =
        .stopped read.length scan →
      scan.finished = false → scan.parseState = .cr →
      0 ≤ scan.keyStart ∧ scan.keyStart < scan.keyEnd ∧ scan.keyEnd < scan.valueStart ∧
        scan.valueStart < scan.valueEnd ∧ scan.valueEnd < read.length := by
  constructor
  · obtain ⟨code, after, parsed⟩ := parseHeaders_returns fresh short
    have begins : ∀ word headers, word <+: http.bufferIn → Block word headers →
        code = .success ∧ after.headers = storeAll HeaderMap.empty headers := by
      intro word headers starts block
      obtain ⟨after', accepted, stored⟩ := parseHeaders_block fresh short starts block
      cases parsed.symm.trans accepted
      exact ⟨rfl, stored⟩
    have accepts : code = .success ↔ BeginsWithBlock http.bufferIn := by
      constructor
      · rintro rfl
        exact block_of_success fresh parsed
      · rintro ⟨word, headers, starts, block⟩
        exact (begins word headers starts block).1
    refine ⟨code, after, parsed, accepts, ?_, ?_, ?_⟩
    · constructor
      · rintro rfl
        exact ⟨fun starts => absurd (accepts.mpr starts) (by simp),
          goesOn_of_again fresh parsed short⟩
      · rintro ⟨without, goesOn⟩
        cases code with
        | success => exact absurd (accepts.mp rfl) without
        | again => rfl
        | error => exact absurd goesOn (not_goesOn_of_error fresh parsed short)
    · constructor
      · rintro rfl
        exact ⟨fun starts => absurd (accepts.mpr starts) (by simp),
          not_goesOn_of_error fresh parsed short⟩
      · rintro ⟨without, nowhere⟩
        cases code with
        | success => exact absurd (accepts.mp rfl) without
        | again => exact absurd (goesOn_of_again fresh parsed short) nowhere
        | error => rfl
    · intro word headers starts block key
      rw [(begins word headers starts block).2, storeAll_apply]
      exact Option.or_none
  · intro read rest scan whole stopped unfinished state
    obtain ⟨readAll, left, same, -, marked, ended⟩ :=
      @scan_invariant http.bufferIn Marked (marked_kept short) [] read ('\n' :: rest) _ _ scan
        whole.symm (marked_enter HeaderMap.empty) stopped
    have nothing : left = [] := ended.resolve_right (by simp [unfinished])
    rw [nothing, List.append_nil, List.nil_append] at same
    subst same
    obtain ⟨-, -, -, order⟩ := marked
    simpa only [state] using order

/-- A block, and the beginning of one. -/
theorem hostLine_language :
    BeginsWithBlock "\nA: b\r\n\r\n".toList ∧
      ¬ BeginsWithBlock "\nHost".toList ∧ GoesOnToBlock "\nHost".toList := by
  obtain ⟨after, accepted, -⟩ := exists_of_blockRead (by decide +kernel :
    blockRead (afterLineFeed "A: b\r\n\r\n".toList) = .ok (.success, []))
  obtain ⟨⟨code, _, parsed, accepts, -⟩, -⟩ :=
    @headerLanguage (afterLineFeed "A: b\r\n\r\n".toList) ⟨rfl, rfl⟩ (by decide)
  obtain ⟨⟨code', _, parsed', -, asks, -⟩, -⟩ :=
    @headerLanguage splitInsideKey ⟨rfl, rfl⟩ (by decide)
  cases accepted.symm.trans parsed
  have asked : splitInsideKey.parseHeaders = .ok (.again, splitInsideKeyKept) := rfl
  cases asked.symm.trans parsed'
  exact ⟨accepts.mp rfl, asks.mp rfl⟩

end HttpData

end FastWebServer
