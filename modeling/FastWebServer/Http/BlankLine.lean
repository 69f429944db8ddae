import FastWebServer.Http.ParseHeaders

/-!
# What follows the blank line

`parse_Headers` reaches `H_END_LF` on the last character of the blank line, and it is only in
the pass after that, on the first character of what follows, that it notices. The `for`
statement has then advanced past that character as well.

The block that a call accepts is the first part of the buffer that is accepted by itself, to
its end (`ReadTo`, `scan_readTo`). What follows it stays in the buffer without its first
character, so nothing is lost exactly when nothing follows (`afterBlankLine_iff`).
-/

set_option autoImplicit false

namespace FastWebServer

open Cxx

/-! ## What has been read -/

/-- The scan of a text by itself, from the start of a block, stops at the end of the text. -/
def ReadTo (headers : HeaderMap) (read : Str) (scan : HeaderScan) : Prop :=
  scanHeaders read read 0 (.enter .start headers) = .stopped read.length scan ∧
    scan.finished = false

/-- The marks at which ranges end do not lie ahead. -/
def Behind (read : Str) (scan : HeaderScan) : Prop :=
  scan.keyEnd ≤ read.length ∧ scan.valueEnd ≤ read.length

/-- A pass that goes on sets the end of a range to its position or leaves it, and only the pass
after the blank line finishes the loop. -/
theorem headerStep_ends {buffer : Str} {i : ℕ} {c : Char} {scan scan' : HeaderScan}
    (step : headerStep buffer i c scan = .next scan') :
    (scan'.keyEnd = scan.keyEnd ∨ scan'.keyEnd = toInt i) ∧
      (scan'.valueEnd = scan.valueEnd ∨ scan'.valueEnd = toInt i) ∧
      (scan.parseState = .endLf ∧ scan'.finished = true ∨
        scan.parseState ≠ .endLf ∧ scan'.finished = scan.finished) := by
  cases state : scan.parseState with
  | endLf =>
      simp only [headerStep, state, ScanStep.next.injEq] at step
      subst step
      exact ⟨.inl rfl, .inl rfl, .inl ⟨rfl, rfl⟩⟩
  | _ =>
      simp only [headerStep, state] at step
      repeat' split at step
      all_goals cases step
      all_goals exact ⟨by simp, by simp, .inr ⟨by simp, rfl⟩⟩

/-- One pass leaves the marks behind. -/
theorem headerStep_behind {buffer read : Str} {c : Char} {scan scan' : HeaderScan}
    (behind : Behind read scan) (step : headerStep buffer read.length c scan = .next scan') :
    Behind (read ++ [c]) scan' := by
  have position := toInt_le read.length
  have longer : ((read ++ [c]).length : ℤ) = read.length + 1 := by simp
  obtain ⟨key, value, -⟩ := headerStep_ends step
  unfold Behind at behind ⊢
  rw [longer]
  omega

/-- A pass reads nothing behind its character. -/
theorem headerStep_of_append {read rest : Str} {c : Char} {scan scan' : HeaderScan}
    (behind : Behind read scan)
    (step : headerStep (read ++ c :: rest) read.length c scan = .next scan') :
    headerStep (read ++ [c]) read.length c scan = .next scan' := by
  cases state : scan.parseState with
  | cr =>
      have split : read ++ c :: rest = (read ++ [c]) ++ rest := by simp
      have longer : (read.length : ℤ) ≤ (read ++ [c]).length := by simp
      rw [split] at step
      simp only [headerStep, state] at step ⊢
      by_cases newline : c = '\n'
      · rw [if_pos newline] at step ⊢
        cases key : range ((read ++ [c]) ++ rest) scan.keyStart scan.keyEnd with
        | error fault => simp only [key, reduceCtorEq] at step
        | ok cutKey =>
            cases value : range ((read ++ [c]) ++ rest) scan.valueStart scan.valueEnd with
            | error fault => simp only [key, value, reduceCtorEq] at step
            | ok cutValue =>
                simp only [key, value] at step
                simp only [range_of_append key (behind.1.trans longer),
                  range_of_append value (behind.2.trans longer)]
                exact step
      · simp only [if_neg newline, reduceCtorEq] at step
  | _ => simpa only [headerStep, state] using step

/-- A text that has been read, and one more character. -/
theorem ReadTo.step {headers : HeaderMap} {read rest : Str} {c : Char} {scan scan' : HeaderScan}
    (reads : ReadTo headers read scan) (behind : Behind read scan)
    (step : headerStep (read ++ c :: rest) read.length c scan = .next scan') :
    scanHeaders (read ++ [c]) (read ++ [c]) 0 (.enter .start headers) =
      .stopped (read ++ [c]).length scan' := by
  rw [scan_append [c] reads.1 reads.2, scanHeaders, if_neg (by simp [reads.2])]
  simp only [headerStep_of_append behind step, scanHeaders]
  simp

/-- **A scan that meets the end of a block meets it at the end of a first part of the buffer**,
and it reads at most one character more. -/
theorem scan_readTo {buffer : Str} {j : ℕ} {headers : HeaderMap} {last : HeaderScan}
    (stopped : scanHeaders buffer buffer 0 (.enter .start headers) = .stopped j last)
    (ended : last.parseState = .endLf) :
    ∃ block rest final, buffer = block ++ rest ∧ ReadTo headers block final ∧
      final.parseState = .endLf := by
  obtain ⟨read, left, whole, -, holds, -⟩ := scan_induction
    (fun read scan => scan.finished = false ∧ ReadTo headers read scan ∧ Behind read scan ∨
      scan.finished = true ∧ ∃ before c final, read = before ++ [c] ∧
        ReadTo headers before final ∧ final.parseState = .endLf)
    (by
      rintro read c rest scan scan' whole (⟨-, reads, behind⟩ | ⟨finished, -⟩) unfinished step
      · rw [← whole] at step
        obtain ⟨-, -, ⟨ends, finished⟩ | ⟨-, same⟩⟩ := headerStep_ends step
        · exact .inr ⟨finished, read, c, scan, rfl, reads, ends⟩
        · have running := same.trans reads.2
          exact .inl ⟨running, ⟨reads.step behind step, running⟩, headerStep_behind behind step⟩
      · rw [unfinished] at finished
        cases finished)
    (List.nil_append buffer)
    (.inl ⟨rfl, ⟨rfl, rfl⟩, by simp [Behind, HeaderScan.enter]⟩) stopped
  rcases holds with ⟨-, reads, -⟩ | ⟨-, before, c, final, rfl, reads, ends⟩
  · exact ⟨read, left, last, whole.symm, reads, ended⟩
  · exact ⟨before, c :: left, final, by rw [← whole]; simp, reads, ends⟩

/-- A block is not read to its end as the beginning of a longer one. -/
theorem not_readTo_longer {headers : HeaderMap} {block more : Str} {c : Char}
    {final final' : HeaderScan} (reads : ReadTo headers block final)
    (ended : final.parseState = .endLf) : ¬ ReadTo headers (block ++ c :: more) final' := by
  rintro ⟨stopped, unfinished⟩
  rw [scan_append (c :: more) reads.1 reads.2, scanHeaders, if_neg (by simp [reads.2])] at stopped
  simp only [headerStep, ended] at stopped
  rw [scan_finished rfl, ScanEnd.stopped.injEq] at stopped
  rw [← stopped.2] at unfinished
  cases unfinished

/-- A buffer has one block that is read to its end. -/
theorem readTo_unique {headers : HeaderMap} {block block' rest rest' : Str}
    {final final' : HeaderScan} (reads : ReadTo headers block final)
    (ended : final.parseState = .endLf) (reads' : ReadTo headers block' final')
    (ended' : final'.parseState = .endLf) (same : block ++ rest = block' ++ rest') :
    block = block' := by
  rcases List.append_eq_append_iff.mp same with ⟨more, rfl, -⟩ | ⟨more, rfl, -⟩
  · cases more with
    | nil => rw [List.append_nil]
    | cons c more => exact absurd reads' (not_readTo_longer reads ended)
  · cases more with
    | nil => rw [List.append_nil]
    | cons c more => exact absurd reads (not_readTo_longer reads' ended')

namespace HttpData

/-- The header block of a request: it ends with a blank line, and it is accepted to its end. -/
structure HeaderBlock (http : HttpData) (block : Str) : Prop where
  ends : blankLine <:+ block
  accepted : ∃ after, parseHeaders { http with bufferIn := block } = .ok (.success, after) ∧
    after.bufferIn = []

/-- A blank line does not end one character after a blank line. -/
theorem not_blankLine_concat {block : Str} {c : Char} (ends : blankLine <:+ block) :
    ¬ blankLine <:+ block ++ [c] := by
  rintro ⟨before, same⟩
  obtain ⟨earlier, rfl⟩ := ends
  have backwards := congrArg List.reverse same
  simp [blankLine] at backwards

/-- A header block is a text that the automaton reads to the end of a block. -/
theorem headerBlock_iff {http : HttpData} {block : Str} (start : http.parseState = .start) :
    HeaderBlock http block ↔
      ∃ final, ReadTo http.headers block final ∧ final.parseState = .endLf := by
  have blank : ∀ {read final}, ReadTo http.headers read final → final.parseState = .endLf →
      blankLine <:+ read := by
    intro read final reads ended
    obtain ⟨before, left, rfl, suffix, ⟨-, -, rfl⟩ | ⟨finished, -⟩⟩ := scan_ending reads.1 ended
    · rwa [List.append_nil]
    · rw [reads.2] at finished
      cases finished
  constructor
  · rintro ⟨ends, after, accepted, empty⟩
    obtain ⟨j, last, -, stopped, ended, -⟩ := parseHeaders_success accepted
    rw [start] at stopped
    obtain ⟨before, rest, final, rfl, reads, ended⟩ := scan_readTo stopped ended
    have parsed := @parseHeaders_more { http with bufferIn := before ++ rest } before rest final
      rfl start reads.1 ended reads.2
    cases accepted.symm.trans parsed
    cases rest with
    | nil => exact ⟨final, by rwa [List.append_nil], ended⟩
    | cons c rest =>
        obtain rfl : rest = [] := empty
        exact absurd ends (not_blankLine_concat (blank reads ended))
  · rintro ⟨final, reads, ended⟩
    have parsed := @parseHeaders_more { http with bufferIn := block } block [] final
      (List.append_nil block).symm start reads.1 ended reads.2
    exact ⟨blank reads ended, _, parsed, rfl⟩

/-- **What follows the blank line is kept exactly when nothing follows it.** A buffer that is
accepted has one header block, and what follows that loses its first character. -/
theorem afterBlankLine_iff {http after : HttpData} (start : http.parseState = .start)
    (accepted : http.parseHeaders = .ok (.success, after)) :
    ∃ block rest, http.bufferIn = block ++ rest ∧ HeaderBlock http block ∧
      (∀ block' rest', http.bufferIn = block' ++ rest' → HeaderBlock http block' →
        block' = block) ∧
      (after.bufferIn = rest ↔ rest = []) := by
  obtain ⟨j, last, -, stopped, ended, -⟩ := parseHeaders_success accepted
  rw [start] at stopped
  obtain ⟨block, rest, final, split, reads, ended⟩ := scan_readTo stopped ended
  refine ⟨block, rest, split, (headerBlock_iff start).mpr ⟨final, reads, ended⟩, ?_, ?_⟩
  · intro block' rest' split' ends
    obtain ⟨final', reads', ended'⟩ := (headerBlock_iff start).mp ends
    exact (readTo_unique reads ended reads' ended' (split.symm.trans split')).symm
  · have parsed := parseHeaders_more split start reads.1 ended reads.2
    cases accepted.symm.trans parsed
    cases rest with
    | nil => exact iff_of_true rfl rfl
    | cons c rest =>
        refine iff_of_false (fun same => ?_) (List.cons_ne_nil c rest)
        exact absurd (congrArg List.length same) (by simp)

/-- A connection that has read a request line, with these bytes after it. -/
def afterLineFeed (bytes : Str) : HttpData :=
  { HttpData.new 5 with bufferIn := '\n' :: bytes, processState := .parseHeaders }

/-- What is read of a block, as far as it decides what is left. -/
def blockRead (http : HttpData) : Except Fault (HeaderState × Str) :=
  http.parseHeaders.map fun read => (read.1, read.2.bufferIn)

theorem exists_of_blockRead {http : HttpData} {state : HeaderState} {left : Str}
    (read : http.blockRead = .ok (state, left)) :
    ∃ after, http.parseHeaders = .ok (state, after) ∧ after.bufferIn = left := by
  unfold blockRead at read
  cases parsed : http.parseHeaders with
  | error fault => simp [parsed, Except.map] at read
  | ok result =>
      obtain ⟨state', after⟩ := result
      simp only [parsed, Except.map, Except.ok.injEq, Prod.mk.injEq] at read
      exact ⟨after, by rw [read.1], read.2⟩

/-- A block with nothing behind it. -/
theorem lastBlock_kept :
    ∃ after, (afterLineFeed "A: b\r\n\r\n".toList).parseHeaders = .ok (.success, after) ∧
      ∃ block rest, (afterLineFeed "A: b\r\n\r\n".toList).bufferIn = block ++ rest ∧
        HeaderBlock (afterLineFeed "A: b\r\n\r\n".toList) block ∧
        (after.bufferIn = rest ↔ rest = []) := by
  obtain ⟨after, accepted, -⟩ := exists_of_blockRead
    (by decide +kernel : blockRead (afterLineFeed "A: b\r\n\r\n".toList) = .ok (.success, []))
  obtain ⟨block, rest, split, ends, -, kept⟩ :=
    @afterBlankLine_iff (afterLineFeed "A: b\r\n\r\n".toList) after rfl accepted
  exact ⟨after, accepted, block, rest, split, ends, kept⟩

/-- **The first byte of the body is lost.** -/
theorem body_loses :
    (afterLineFeed "A: b\r\n\r\nbody".toList).bufferIn =
        "\nA: b\r\n\r\n".toList ++ "body".toList ∧
      HeaderBlock (afterLineFeed "A: b\r\n\r\nbody".toList) "\nA: b\r\n\r\n".toList ∧
      ∃ after, (afterLineFeed "A: b\r\n\r\nbody".toList).parseHeaders = .ok (.success, after) ∧
        after.bufferIn = "ody".toList ∧ after.bufferIn ≠ "body".toList := by
  obtain ⟨after, accepted, left⟩ := exists_of_blockRead (by decide +kernel :
    blockRead (afterLineFeed "A: b\r\n\r\nbody".toList) = .ok (.success, "ody".toList))
  obtain ⟨alone, whole, nothing⟩ := exists_of_blockRead (by decide +kernel :
    blockRead { afterLineFeed "A: b\r\n\r\nbody".toList with
      bufferIn := "\nA: b\r\n\r\n".toList } = .ok (.success, []))
  exact ⟨by decide, ⟨by decide, alone, whole, nothing⟩, after, accepted, left, by rw [left]; decide⟩

end HttpData

end FastWebServer
