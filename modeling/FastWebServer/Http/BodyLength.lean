import FastWebServer.Http.Pipelining

/-!
# The declared length of a body

The stage `STATE_RECV_BODY` of `handle_read`. `declaredLength` is the length that a request declares
for its body, if it declares one that a body can have. `BodyAnswered` is what the stage is for: a
request without such a length is answered with 400, one whose body has not arrived waits, and one
whose body has arrived is analysed.

`stoi` throws for a text without a number and for a number that is no `int`, and nothing in
`handle_read` catches it. A negative length is compared as a `size_t`, so that it waits for more
than ever arrives. The stage does its work exactly if it meets neither (`bodyAnswered_iff`).
-/

set_option autoImplicit false

namespace FastWebServer

open Cxx

namespace Conn

/-! ## Reaching the stage -/

/-- `handle_read` reaches the body of a request. -/
structure ReachesBody (conn read : Conn) : Prop where
  wentOn : front conn = .ok (.goOn, read)
  body : read.http.processState = .recvBody

theorem stages_reached {conn read : Conn} (reaches : ReachesBody conn read) :
    stages conn = back read := by
  rw [stages_eq, Stage.before_goOn reaches.wentOn]

/-! ## What the stage is for -/

/-- The length that a request declares for its body: its `Content-length` is an `int` that is not
negative. -/
def declaredLength (headers : HeaderMap) : Option ℕ :=
  match headers "Content-length".toList with
  | none => none
  | some value =>
      match stoi value with
      | .error _ => none
      | .ok contentLength => if contentLength < 0 then none else some contentLength.toNat

/-- `handle_read` returns. A request without a length for its body is answered with 400 and has
failed, one whose body has not arrived is left as it is, and one whose body has arrived goes on to
the analysis. -/
def BodyAnswered (conn read : Conn) : Prop :=
  ∃ flow after, stages conn = .ok (flow, after) ∧ conn.handleRead = .ok after.finishRead ∧
    match declaredLength read.http.headers with
    | none => ∃ message, after = read.fail.handleError ⟨400, message⟩
    | some length =>
        if read.http.bufferIn.length < length then after = read
        else analysisStage (read.enter .analysis) = .ok (flow, after)

/-! ## What the stage does -/

variable {conn read : Conn}

theorem stoi_lt {value : Str} {number : ℤ} (parsed : stoi value = .ok number) :
    number < 2 ^ 31 := by
  unfold stoi at parsed
  dsimp only at parsed
  split at parsed
  · cases parsed
  · split at parsed
    · rename_i bounds
      cases parsed
      exact bounds.2
    · cases parsed

/-- An analysis leaves the state of the body behind. -/
theorem analysisStage_leaves {flow : Flow} {after : Conn}
    (ran : analysisStage (read.enter .analysis) = .ok (flow, after)) :
    after.http.processState ≠ .recvBody := by
  obtain ⟨keepAlive, bufferOut, analyzed, -⟩ :=
    (read.enter .analysis).http.analyzeRequest_eq (read.enter .analysis).io.files
  obtain ⟨io, actions, -, reported⟩ := reportError_eq
    ((read.enter .analysis).http.analyzeRequest (read.enter .analysis).io.files).report
    { read.enter .analysis with http :=
        { (read.enter .analysis).http with keepAlive := keepAlive, bufferOut := bufferOut } }
  have analysing : (read.enter .analysis).http.processState = .analysis := rfl
  unfold analysisStage at ran
  dsimp only at ran
  rw [if_pos analysing, analyzed, reported] at ran
  split at ran
  · cases ran
    exact ProcessState.noConfusion
  · cases ran
    exact ProcessState.noConfusion

theorem analysisStage_returns (conn : Conn) :
    ∃ after, analysisStage conn = .ok (.leave, after) := by
  unfold analysisStage
  split
  · dsimp only
    split
    · exact ⟨_, rfl⟩
    · exact ⟨_, rfl⟩
  · exact ⟨_, rfl⟩

/-- Without a `Content-length` the request is answered with 400. -/
theorem answered_missing (reaches : ReachesBody conn read)
    (missing : read.http.headers "Content-length".toList = none) : BodyAnswered conn read := by
  have looped : stages conn = .ok (.leave, read.fail.handleError lackOfContentLength) := by
    rw [stages_reached reaches]
    unfold back Stage.before bodyStage
    rw [if_pos reaches.body, missing]
  refine ⟨_, _, looped, by rw [handleRead_eq, looped]; rfl, ?_⟩
  unfold declaredLength
  rw [missing]
  exact ⟨_, rfl⟩

/-- What `stoi` throws leaves `handle_read`. -/
theorem handleRead_throws (reaches : ReachesBody conn read) {value : Str} {fault : Fault}
    (stored : read.http.headers "Content-length".toList = some value)
    (thrown : stoi value = .error fault) : stages conn = .error fault := by
  rw [stages_reached reaches]
  unfold back Stage.before bodyStage
  rw [if_pos reaches.body, stored]
  dsimp only
  rw [thrown]

/-- A length that is read is compared as a `size_t`. -/
theorem stages_length (reaches : ReachesBody conn read) {value : Str} {contentLength : ℤ}
    (stored : read.http.headers "Content-length".toList = some value)
    (parsed : stoi value = .ok contentLength) :
    stages conn =
      if read.http.bufferIn.length < toSize contentLength then .ok (.leave, read)
      else analysisStage (read.enter .analysis) := by
  rw [stages_reached reaches]
  unfold back Stage.before bodyStage
  rw [if_pos reaches.body, stored]
  dsimp only
  rw [parsed]
  dsimp only
  by_cases short : read.http.bufferIn.length < toSize contentLength
  · rw [if_pos short, if_pos short]
  · rw [if_neg short, if_neg short]

/-- A length that is not negative is waited for. -/
theorem answered_natural (reaches : ReachesBody conn read) {value : Str} {length : ℕ}
    (stored : read.http.headers "Content-length".toList = some value)
    (parsed : stoi value = .ok (length : ℤ)) : BodyAnswered conn read := by
  have small := stoi_lt parsed
  have size : toSize (length : ℤ) = length := by
    unfold toSize
    omega
  have looped := stages_length reaches stored parsed
  rw [size] at looped
  have declared : declaredLength read.http.headers = some length := by
    unfold declaredLength
    rw [stored]
    dsimp only
    rw [parsed]
    dsimp only
    rw [if_neg (by omega), Int.toNat_natCast]
  unfold BodyAnswered
  simp only [declared]
  by_cases short : read.http.bufferIn.length < length
  · rw [if_pos short] at looped
    refine ⟨_, _, looped, by rw [handleRead_eq, looped]; rfl, ?_⟩
    rw [if_pos short]
  · rw [if_neg short] at looped
    obtain ⟨after, analysed⟩ := analysisStage_returns (read.enter .analysis)
    rw [analysed] at looped
    refine ⟨_, _, looped, by rw [handleRead_eq, looped]; rfl, ?_⟩
    rw [if_neg short]
    exact analysed

/-- A negative length is not refused. -/
theorem unanswered_negative (reaches : ReachesBody conn read) {value : Str} {contentLength : ℤ}
    (stored : read.http.headers "Content-length".toList = some value)
    (parsed : stoi value = .ok contentLength) (negative : contentLength < 0) :
    ¬ BodyAnswered conn read := by
  have undeclared : declaredLength read.http.headers = none := by
    unfold declaredLength
    rw [stored]
    dsimp only
    rw [parsed]
    dsimp only
    rw [if_pos negative]
  rintro ⟨flow, after, looped, -, answered⟩
  simp only [undeclared] at answered
  obtain ⟨message, refused⟩ := answered
  rw [stages_length reaches stored parsed] at looped
  split at looped
  · -- it waits, and has called nothing
    cases looped
    have same := congrArg (fun conn => conn.loop.log.length) refused
    simp [handleError, record, Loop.record, fail] at same
  · -- it is analysed
    apply analysisStage_leaves looped
    rw [refused]
    exact reaches.body

/-- **The body of a request is answered for exactly** if its `Content-length` is missing or is read
as an `int` that is not negative. -/
theorem bodyAnswered_iff (reaches : ReachesBody conn read) :
    BodyAnswered conn read ↔
      ∀ value, read.http.headers "Content-length".toList = some value →
        ∃ length : ℕ, stoi value = .ok (length : ℤ) := by
  constructor
  · intro answered value stored
    cases parsed : stoi value with
    | error fault =>
        obtain ⟨flow, after, looped, -⟩ := answered
        rw [handleRead_throws reaches stored parsed] at looped
        cases looped
    | ok contentLength =>
        by_cases negative : contentLength < 0
        · exact absurd answered (unanswered_negative reaches stored parsed negative)
        · obtain ⟨length, rfl⟩ := Int.eq_ofNat_of_zero_le (not_lt.mp negative)
          exact ⟨length, rfl⟩
  · intro declares
    cases stored : read.http.headers "Content-length".toList with
    | none => exact answered_missing reaches stored
    | some value =>
        obtain ⟨length, parsed⟩ := declares value stored
        exact answered_natural reaches stored parsed

/-! ## Two requests -/

/-- A request with this `Content-length` and without a body arrives. -/
def posting (contentLength : String) : Conn :=
  arriving ["POST /a HTTP/1.1\r\nContent-length: ".toList ++ contentLength.toList ++ blankLine]

/-- A request without a body that says so is answered for. -/
theorem zeroLength_answered : ∃ read, BodyAnswered (posting "0") read := by
  obtain ⟨read, reaches, stored⟩ : ∃ read, ReachesBody (posting "0") read ∧
      read.http.headers "Content-length".toList = some "0".toList := ⟨_, ⟨rfl, rfl⟩, rfl⟩
  refine ⟨read, (bodyAnswered_iff reaches).mpr fun value found => ⟨0, ?_⟩⟩
  cases stored.symm.trans found
  decide

/-- A length that is a word ends the program. -/
theorem wordLength_throws :
    ∃ read, ReachesBody (posting "b") read ∧
      (posting "b").handleRead = .error .invalidArgument ∧ ¬ BodyAnswered (posting "b") read := by
  obtain ⟨read, reaches, stored⟩ : ∃ read, ReachesBody (posting "b") read ∧
      read.http.headers "Content-length".toList = some "b".toList := ⟨_, ⟨rfl, rfl⟩, rfl⟩
  have word : stoi "b".toList = .error .invalidArgument := by decide
  have thrown := handleRead_throws reaches stored word
  refine ⟨read, reaches, by rw [handleRead_eq, thrown]; rfl, ?_⟩
  rintro ⟨flow, after, looped, -⟩
  rw [thrown] at looped
  cases looped

end Conn

end FastWebServer
