import FastWebServer.Library.CxxString
import Mathlib.Data.List.TakeDrop

/-!
# Appending a line to the log file

`AppendUtil::append` passes a line to `fwrite`, and what is not accepted it passes again, until
`fwrite` accepts nothing. Here `fwrite` answers by a script.

Each call is passed the line from where the earlier calls have got to (`Follows`), so the bytes that
are accepted are a prefix of the line, and they are the whole line unless a call after the first
accepts nothing (`append_accepts`).
-/

set_option autoImplicit false

namespace FastWebServer.Log

open Cxx

/-! ## AppendUtil -/

/-- What `fwrite` answers in each call, and what `ferror` says after it. -/
structure FileScript where
  fwrite : ℕ → (len : ℕ) → Fin (len + 1)
  ferror : ℕ → Bool

/-- A call of `fwrite`. -/
structure Call where
  passed : Str
  finished : ℕ
  within : finished ≤ passed.length

/-- `AppendUtil`, with the calls of `fwrite` and the text on `stderr`. -/
structure AppendUtil where
  calls : List Call
  stderr : Str

/-- A line, whose length is a `size_t`. -/
structure Line where
  text : Str
  short : text.length < 2 ^ 64

namespace AppendUtil

variable (script : FileScript)

/-- `write`. The bytes that are passed are read from `string_line`. -/
def write (util : AppendUtil) (stringLine : Str) (len : ℕ) : Except Fault (ℕ × AppendUtil) :=
  if inside : len ≤ stringLine.length then
    let finished := script.fwrite util.calls.length len
    have within : finished ≤ (stringLine.take len).length := by
      rw [List.length_take_of_le inside]
      exact Nat.le_of_lt_succ finished.isLt
    .ok (finished, { util with calls := util.calls ++ [⟨stringLine.take len, finished, within⟩] })
  else .error .undefinedBehaviour

/-- What is printed on `stderr` where a call accepts nothing. -/
def complain (util : AppendUtil) : AppendUtil :=
  if script.ferror util.calls.length then
    { util with stderr := util.stderr ++ "AppendUtil::".toList }
  else util

/-- The loop of `append`, with an answer if it comes to its end within some steps. -/
def appendLoop (line : Str) : ℕ → ℕ → ℕ → AppendUtil → Option (Except Fault AppendUtil)
  | 0, _, _, _ => none
  | steps + 1, finished, remained, util =>
      if remained > 0 then
        match util.write script (line.drop finished) remained with
        | .error fault => some (.error fault)
        | .ok (newFinished, util) =>
            if newFinished = 0 then some (.ok (util.complain script))
            else
              let finished := sizeAdd finished newFinished
              appendLoop line steps finished (sizeSub line.length finished) util
      else some (.ok util)

/-- `append`. -/
def append (steps : ℕ) (util : AppendUtil) (line : Str) : Option (Except Fault AppendUtil) :=
  match util.write script line line.length with
  | .error fault => some (.error fault)
  | .ok (finished, util) =>
      appendLoop script line steps finished (sizeSub line.length finished) util

end AppendUtil

/-! ## Calls that follow each other -/

/-- The bytes that some calls accept. -/
def accepted (calls : List Call) : Str := calls.flatMap fun call => call.passed.take call.finished

/-- Each call is passed the line from where the calls before it have got to. -/
def Follows (line : Str) : ℕ → List Call → Prop
  | _, [] => True
  | start, call :: calls =>
      call.passed = line.drop start ∧ Follows line (start + call.finished) calls

/-- Where some calls get to. -/
def reached (start : ℕ) (calls : List Call) : ℕ := start + (calls.map Call.finished).sum

@[simp] theorem reached_nil (start : ℕ) : reached start [] = start := rfl

@[simp] theorem reached_cons (start : ℕ) (call : Call) (calls : List Call) :
    reached start (call :: calls) = reached (start + call.finished) calls := by
  unfold reached
  rw [List.map_cons, List.sum_cons, Nat.add_assoc]

/-- Calls that follow each other accept a piece of the line, without a gap. -/
theorem Follows.accepted {line : Str} {start : ℕ} {calls : List Call}
    (follows : Follows line start calls) (within : start ≤ line.length) :
    line.take start ++ accepted calls = line.take (reached start calls) ∧
      reached start calls ≤ line.length := by
  induction calls generalizing start with
  | nil => exact ⟨List.append_nil _, within⟩
  | cons call calls ih =>
      obtain ⟨passed, follows⟩ := follows
      have bound := call.within
      rw [passed, List.length_drop] at bound
      obtain ⟨taken, inside⟩ := ih follows (by omega)
      have joined : line.take (start + call.finished) =
          line.take start ++ call.passed.take call.finished := by
        rw [passed]
        exact List.take_add ..
      rw [reached_cons]
      refine ⟨?_, inside⟩
      rw [← taken, joined, List.append_assoc]
      rfl

/-! ## The loop -/

variable (script : FileScript) {line : Str}

theorem AppendUtil.complain_calls (util : AppendUtil) :
    util.complain script = ⟨util.calls, (util.complain script).stderr⟩ := by
  unfold complain
  split
  · rfl
  · rfl

/-- A write of the rest of a line is defined. -/
theorem AppendUtil.write_rest (util : AppendUtil) {start : ℕ} (within : start ≤ line.length) :
    ∃ call : Call, call.passed = line.drop start ∧ start + call.finished ≤ line.length ∧
      util.write script (line.drop start) (line.length - start) =
        .ok (call.finished, { util with calls := util.calls ++ [call] }) := by
  have whole : (line.drop start).take (line.length - start) = line.drop start :=
    List.take_of_length_le (by rw [List.length_drop])
  have answer := (script.fwrite util.calls.length (line.length - start)).isLt
  refine ⟨⟨_, script.fwrite util.calls.length (line.length - start), ?_⟩, whole, ?_,
    dif_pos (by rw [List.length_drop])⟩
  · rw [whole, List.length_drop]
    omega
  · show start + (script.fwrite util.calls.length (line.length - start) : ℕ) ≤ _
    omega

/-- The loop, entered where the line has been accepted up to `start`, makes some calls and returns.
They take the rest of the line, or one of them accepts nothing. -/
structure LoopEnds (line : Str) (start : ℕ) (util : AppendUtil) (calls : List Call)
    (stderr : Str) : Prop where
  returns : ∀ steps, line.length - start ≤ steps →
    util.appendLoop script line (steps + 1) start (line.length - start) =
      some (.ok ⟨util.calls ++ calls, stderr⟩)
  follows : Follows line start calls
  whole : reached start calls = line.length ↔ ∀ call ∈ calls, call.finished ≠ 0

variable {script}

/-- Behind the whole line there is no call. -/
theorem loopEnds_done (line : Str) (util : AppendUtil) :
    LoopEnds script line line.length util [] util.stderr where
  returns := by
    intro steps _
    have nothing : ¬ line.length - line.length > 0 := by omega
    rw [AppendUtil.appendLoop, if_neg nothing, List.append_nil]
  follows := trivial
  whole := iff_of_true rfl (List.forall_mem_nil _)

variable {start : ℕ} {util : AppendUtil} {call : Call}

/-- Where nothing is accepted the loop is left with a rest. -/
theorem loopEnds_stuck (more : start < line.length) (passed : call.passed = line.drop start)
    (wrote : util.write script (line.drop start) (line.length - start) =
      .ok (call.finished, { util with calls := util.calls ++ [call] }))
    (stuck : call.finished = 0) :
    LoopEnds script line start util [call]
      (AppendUtil.complain script { util with calls := util.calls ++ [call] }).stderr where
  returns := by
    intro steps _
    rw [AppendUtil.appendLoop, if_pos (by omega), wrote]
    dsimp only
    rw [if_pos stuck, AppendUtil.complain_calls]
  follows := ⟨passed, trivial⟩
  whole := by
    rw [reached_cons, reached_nil, stuck]
    refine iff_of_false (by omega) ?_
    intro accepts
    exact accepts call (List.mem_singleton_self call) stuck

/-- Where something is accepted the loop goes on behind it. -/
theorem LoopEnds.cons {calls : List Call} {stderr : Str} (short : line.length < 2 ^ 64)
    (passed : call.passed = line.drop start) (inside : start + call.finished ≤ line.length)
    (wrote : util.write script (line.drop start) (line.length - start) =
      .ok (call.finished, { util with calls := util.calls ++ [call] }))
    (accepts : call.finished ≠ 0)
    (ends : LoopEnds script line (start + call.finished)
      { util with calls := util.calls ++ [call] } calls stderr) :
    LoopEnds script line start util (call :: calls) stderr where
  returns := by
    intro steps enough
    obtain ⟨steps, rfl⟩ : ∃ fewer, steps = fewer + 1 := ⟨steps - 1, by omega⟩
    have next : sizeAdd start call.finished = start + call.finished :=
      Nat.mod_eq_of_lt (by omega)
    have rest : sizeSub line.length (start + call.finished) =
        line.length - (start + call.finished) := sizeSub_of_le inside short
    rw [AppendUtil.appendLoop, if_pos (by omega), wrote]
    dsimp only
    rw [if_neg accepts, next, rest, ends.returns steps (by omega), List.append_assoc]
    rfl
  follows := ⟨passed, ends.follows⟩
  whole := by rw [reached_cons, ends.whole, List.forall_mem_cons, and_iff_right accepts]

variable (script)

/-- **The loop ends.** -/
theorem exists_loopEnds (short : line.length < 2 ^ 64) (within : start ≤ line.length)
    (util : AppendUtil) : ∃ calls stderr, LoopEnds script line start util calls stderr := by
  induction left : line.length - start using Nat.strong_induction_on generalizing start util with
  | _ left' ih =>
      subst left
      rcases within.eq_or_lt with rfl | more
      · exact ⟨[], util.stderr, loopEnds_done line util⟩
      · obtain ⟨call, passed, inside, wrote⟩ := util.write_rest script within
        by_cases stuck : call.finished = 0
        · exact ⟨[call], _, loopEnds_stuck more passed wrote stuck⟩
        · obtain ⟨calls, stderr, ends⟩ := ih (line.length - (start + call.finished)) (by omega)
            inside { util with calls := util.calls ++ [call] } rfl
          exact ⟨call :: calls, stderr, ends.cons short passed inside wrote stuck⟩

/-- **The bytes that are accepted are a prefix of the line.** `append` ends after no more steps than
the line has bytes, and one. Each of its calls is passed the line from where the calls before it
have got to, and what they accept is the whole line unless a call after the first accepts
nothing. -/
theorem append_accepts (util : AppendUtil) (line : Line) :
    ∃ calls stderr,
      (∀ steps, line.text.length < steps →
        util.append script steps line.text = some (.ok ⟨util.calls ++ calls, stderr⟩)) ∧
      Follows line.text 0 calls ∧ accepted calls <+: line.text ∧
      (accepted calls = line.text ↔ ∀ call ∈ calls.tail, call.finished ≠ 0) := by
  obtain ⟨first, passed, inside, wrote⟩ := util.write_rest script (Nat.zero_le line.text.length)
  rw [List.drop_zero, Nat.sub_zero] at wrote
  rw [Nat.zero_add] at inside
  obtain ⟨calls, stderr, ends⟩ :=
    exists_loopEnds script line.short inside { util with calls := util.calls ++ [first] }
  have all : Follows line.text 0 (first :: calls) := by
    refine ⟨passed, ?_⟩
    rw [Nat.zero_add]
    exact ends.follows
  obtain ⟨taken, bound⟩ := all.accepted (Nat.zero_le _)
  rw [List.take_zero, List.nil_append] at taken
  rw [reached_cons, Nat.zero_add] at taken bound
  refine ⟨first :: calls, stderr, ?_, all, ?_, ?_⟩
  · intro steps enough
    obtain ⟨steps, rfl⟩ : ∃ fewer, steps = fewer + 1 := ⟨steps - 1, by omega⟩
    have rest : sizeSub line.text.length first.finished = line.text.length - first.finished :=
      sizeSub_of_le inside line.short
    unfold AppendUtil.append
    rw [wrote]
    dsimp only
    rw [rest, ends.returns steps (by omega), List.append_assoc]
    rfl
  · rw [taken]
    exact List.take_prefix _ _
  · rw [List.tail_cons, ← ends.whole, taken, List.take_eq_self_iff]
    exact ⟨fun enough => Nat.le_antisymm bound enough, fun same => same.ge⟩

end FastWebServer.Log
