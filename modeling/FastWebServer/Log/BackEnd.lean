import FastWebServer.Log.FrontEnd

/-!
# The loop of the back end

The thread of the log, step by step (`System.threadFunc`), among appends from any
threads and a call of `stop` (`Step`).

The first iteration of the loop starts from two empty spares, and all its assertions
hold: a spare that is missing in front has been used up by pushing a buffer, so the
batch has a buffer for each spare that the swap gives away. The refill then leaves
both pointers empty that it should have set. So a second iteration fails its first
assertion, and the assertions hold in a run exactly when the flag is down whenever
the loop condition is tested after an iteration (`assertsHold_iff`).
-/

set_option autoImplicit false

namespace FastWebServer.Log

open Cxx

/-! ## The system -/

/-- Where the thread stands. -/
inductive Pc
  /-- `start` has not been called. -/
  | idle
  /-- Before the latch is counted down. -/
  | starting
  /-- At the first test of the loop condition. -/
  | head
  /-- At the head of the loop body. -/
  | entered
  /-- Waiting on the condition. -/
  | waiting
  /-- A batch has been swapped out and the lock is released. -/
  | swapped
  /-- The batch has been written. -/
  | written
  /-- At the test of the loop condition after an iteration. -/
  | again
  /-- The loop has been left. -/
  | exited
  | done
  /-- An assertion has failed or an empty pointer has been followed. -/
  | aborted
deriving Repr, DecidableEq

/-- The thread has been created and has not returned. -/
def Pc.active : Pc → Bool
  | idle | done | aborted => false
  | _ => true

/-- The log, with the lines appended so far in the order of the lock, and the batches
swapped out so far. -/
structure System where
  front : Front
  back : Back
  log : AppendLog
  isRunning : Bool
  pc : Pc
  appended : List Str
  batches : List BufferList
deriving Repr, DecidableEq

namespace System

/-- A log that has been constructed. -/
def new : System := ⟨.new, .new, .new, false, .idle, [], []⟩

/-- `start`. -/
def start (system : System) : System := { system with isRunning := true, pc := .starting }

/-- `stop`, up to the join. -/
def stop (system : System) : System := { system with isRunning := false }

/-- The section with the lock held, after the wait. -/
def swap (system : System) : System :=
  { system with
    front := (swapBuffers system.front system.back).1
    back := (swapBuffers system.front system.back).2
    batches := system.batches ++ [(swapBuffers system.front system.back).2.bufferListOutput]
    pc := .swapped }

/-- `thread_func`: the next step of the thread. -/
def threadFunc (system : System) : System :=
  match system.pc with
  | .idle | .done | .aborted => system
  | .starting => { system with pc := if system.isRunning then .head else .aborted }
  | .head | .again => { system with pc := if system.isRunning then .entered else .exited }
  | .entered =>
      if headAsserts system.back then
        if system.front.bufferList.isEmpty then { system with pc := .waiting } else system.swap
      else { system with pc := .aborted }
  -- the wait ends by a notification, by its time or for no reason
  | .waiting => system.swap
  | .swapped =>
      match writeBatch system.back system.log with
      | .error _ => { system with pc := .aborted }
      | .ok (back, log) => { system with back := back, log := log, pc := .written }
  | .written =>
      match refillSpares system.back system.log with
      | .error _ => { system with pc := .aborted }
      | .ok (back, log) => { system with back := back, log := log, pc := .again }
  | .exited => { system with log := system.log.flush, pc := .done }

end System

/-- One step of the log: a call of `append` by some thread, a step of the thread of
the log, `start`, or `stop` after `start` has returned. -/
inductive Step (size : ℕ) : System → System → Prop
  | append {system : System} {line : Str} {front : Front} (alive : system.pc ≠ .aborted)
      (accepted : append size line system.front = .ok front) :
      Step size system { system with front := front, appended := system.appended ++ [line] }
  | appendCrashes {system : System} {line : Str} {crash : Crash} (alive : system.pc ≠ .aborted)
      (crashed : append size line system.front = .error crash) :
      Step size system { system with pc := .aborted }
  | start {system : System} (idle : system.pc = .idle) : Step size system system.start
  | thread {system : System} (active : system.pc.active = true) :
      Step size system system.threadFunc
  | stop {system : System} (running : system.isRunning = true)
      (started : system.pc ≠ .starting ∧ system.pc ≠ .aborted) : Step size system system.stop

/-- The runs of a log with buffers of `size` bytes. -/
def machine (size : ℕ) : Runs.Machine System where
  start system := system = .new
  step := Step size

/-! ## The assertions -/

/-- No assertion fails here and no empty pointer is followed. -/
structure System.AssertsHold (system : System) : Prop where
  /-- The thread runs with the flag up. -/
  starting : system.pc = .starting → system.isRunning = true
  /-- At the head of the loop both spares are there and empty, and the batch is empty. -/
  entered : system.pc = .entered → headAsserts system.back = true
  /-- After the swap there is a batch. -/
  swapped : system.pc = .swapped → system.back.bufferListOutput ≠ []
  /-- Each refill finds a buffer. -/
  written : system.pc = .written → ∃ refilled, refillSpares system.back system.log = .ok refilled
  /-- There is a current buffer for `append`. -/
  current : system.front.curBuffer ≠ none
  alive : system.pc ≠ .aborted

/-- When the loop condition is tested after an iteration, the flag is down. -/
def LeavesWhenTested (system next : System) : Prop :=
  system.pc = .again → next.pc ≠ .again → system.isRunning = false

instance (system next : System) : Decidable (LeavesWhenTested system next) :=
  inferInstanceAs (Decidable (system.pc = .again → next.pc ≠ .again → system.isRunning = false))

/-! ## The buffers in front -/

/-- The current buffer is there, so are those of the list, and where the spare is
missing one has been pushed. -/
structure FrontReady (front : Front) : Prop where
  cur : front.curBuffer ≠ none
  list : ∀ buffer ∈ front.bufferList, buffer ≠ none
  next : front.nextBuffer = none → front.bufferList ≠ []

theorem frontReady_new : FrontReady .new :=
  ⟨by simp [Front.new], by simp [Front.new], by simp [Front.new]⟩

/-- An append with a current buffer is done, and leaves the front end ready. -/
theorem FrontReady.append {front : Front} (ready : FrontReady front) (size : ℕ) (line : Str) :
    ∃ front', append size line front = .ok front' ∧ FrontReady front' := by
  obtain ⟨cur, present⟩ := Option.ne_none_iff_exists'.mp ready.cur
  obtain ⟨front', result, ⟨-, rfl⟩ | rfl⟩ := append_cases present size line
  · exact ⟨_, result, by simp, ready.list, ready.next⟩
  · refine ⟨_, result, by simp, fun buffer mem => ?_, by simp⟩
    rcases List.mem_append.mp mem with earlier | last
    · exact ready.list buffer earlier
    · simp [List.mem_singleton.mp last]

/-! ## The first iteration -/

/-- The loop over a batch reaches its end when all its buffers are there. -/
theorem writeBuffers_passes {list : BufferList} (present : ∀ buffer ∈ list, buffer ≠ none)
    (log : AppendLog) :
    ∃ log', writeBuffers list log = .ok log' ∧ log'.passed = log.passed ++ contents list := by
  induction list generalizing log with
  | nil => exact ⟨log, rfl, by simp [contents]⟩
  | cons buffer rest ih =>
      obtain ⟨full, rfl⟩ := Option.ne_none_iff_exists'.mp (present buffer (List.mem_cons_self ..))
      obtain ⟨log', written, passed⟩ :=
        ih (fun other mem => present other (List.mem_cons_of_mem _ mem)) (log.append full.content)
      refine ⟨log', written, ?_⟩
      rw [passed, AppendLog.append_passed, List.append_assoc]
      rfl

/-- What the thread has between its steps, up to the end of the first iteration. -/
def BackReady (system : System) : Prop :=
  match system.pc with
  | .starting => system.back = .new ∧ system.isRunning = true
  | .idle | .head | .entered | .waiting => system.back = .new
  | .swapped | .written =>
      system.back.logBuffer1 = none ∧ system.back.bufferListOutput ≠ [] ∧
        (∀ buffer ∈ system.back.bufferListOutput, buffer ≠ none) ∧
        (system.back.logBuffer2 = none → 2 ≤ system.back.bufferListOutput.length)
  | .again => system.back.logBuffer1 = none
  | .exited | .done => True
  | .aborted => False

/-- Both sides are ready. -/
structure Ready (system : System) : Prop where
  front : FrontReady system.front
  back : BackReady system

/-- The swap of the first iteration. -/
theorem Ready.swap {system : System} (front : FrontReady system.front)
    (back : system.back = .new) : Ready system.swap := by
  refine ⟨⟨?_, ?_, ?_⟩, ?_⟩
  · simp [System.swap, swapBuffers, back, Back.new]
  · simp [System.swap, swapBuffers, back, Back.new]
  · simp only [System.swap, swapBuffers, back, Back.new]
    split <;> simp_all
  · refine ⟨rfl, by simp [System.swap, swapBuffers], ?_, ?_⟩
    · intro buffer mem
      rcases List.mem_append.mp mem with earlier | last
      · exact front.list buffer earlier
      · rw [List.mem_singleton.mp last]
        exact front.cur
    · intro moved
      have missing : system.front.nextBuffer = none := by
        by_contra present
        simp [System.swap, swapBuffers, back, Back.new, Option.isNone_iff_eq_none, present] at moved
      have pushed := List.length_pos_iff.mpr (front.next missing)
      simp only [System.swap, swapBuffers, List.length_append, List.length_singleton]
      omega

/-- **A batch of buffers that are there is written**, all that is not dropped of it. -/
theorem writeBatch_passes {back : Back} (some : back.bufferListOutput ≠ [])
    (present : ∀ buffer ∈ back.bufferListOutput, buffer ≠ none) (log : AppendLog) :
    ∃ log', writeBatch back log =
        .ok ({ back with bufferListOutput := (dropExcess back.bufferListOutput).take 2 }, log') ∧
      log'.passed = log.passed ++ contents (dropExcess back.bufferListOutput) := by
  have kept := (isPrefix_dropExcess back.bufferListOutput).subset
  obtain ⟨log', written, passed⟩ :=
    writeBuffers_passes (fun buffer mem => present buffer (kept mem)) log
  refine ⟨log', ?_, passed⟩
  simp only [writeBatch, List.isEmpty_iff, if_neg some, written]

theorem min_length_dropExcess {α : Type} (batch : List α) :
    ((dropExcess batch).take 2).length = min 2 batch.length := by
  unfold dropExcess
  split
  · simp only [List.length_take]
    omega
  · exact List.length_take

/-- The refill finds a buffer for each spare that is missing. -/
theorem refillSpares_ok {back : Back} (first : back.logBuffer1 = none)
    (some : back.bufferListOutput ≠ [])
    (enough : back.logBuffer2 = none → 2 ≤ back.bufferListOutput.length) (log : AppendLog) :
    ∃ back' log', refillSpares back log = .ok (back', log') ∧ back'.logBuffer1 = none := by
  have taken : refill back.logBuffer1 back.bufferListOutput =
      .ok (none, back.bufferListOutput.dropLast) := by
    simp [refill, first, some]
  simp only [refillSpares, taken]
  cases second : back.logBuffer2 with
  | some spare => exact ⟨_, _, rfl, rfl⟩
  | none =>
      have left : back.bufferListOutput.dropLast ≠ [] := by
        have length := enough second
        rw [← List.length_pos_iff, List.length_dropLast]
        omega
      have taken' : refill none back.bufferListOutput.dropLast =
          .ok (none, back.bufferListOutput.dropLast.dropLast) := by
        simp [refill, left]
      simp only [taken']
      exact ⟨_, _, rfl, rfl⟩

/-- **A step of the thread keeps both sides ready**, unless it starts a second
iteration. -/
theorem Ready.thread {system : System} (ready : Ready system)
    (leaves : LeavesWhenTested system system.threadFunc) : Ready system.threadFunc := by
  obtain ⟨front, back⟩ := ready
  unfold LeavesWhenTested at leaves
  unfold BackReady at back
  unfold System.threadFunc at leaves ⊢
  cases stands : system.pc <;> simp only [stands] at back leaves ⊢
  case idle | done => exact ⟨front, by simp only [BackReady, stands, back]⟩
  case starting => exact ⟨front, by simp only [BackReady, back.2, if_true, back.1]⟩
  case head =>
      refine ⟨front, ?_⟩
      cases system.isRunning with
      | true => exact back
      | false => exact trivial
  case again =>
      have down : system.isRunning = false := by
        apply leaves trivial
        split <;> simp
      exact ⟨front, by simp [BackReady, down]⟩
  case entered =>
      have asserted : headAsserts system.back = true := by rw [back]; rfl
      rw [if_pos asserted]
      split
      · exact ⟨front, back⟩
      · exact .swap front back
  case waiting => exact .swap front back
  case swapped =>
      obtain ⟨first, some, present, enough⟩ := back
      obtain ⟨log', written, -⟩ := writeBatch_passes some present system.log
      have length := min_length_dropExcess system.back.bufferListOutput
      have positive := List.length_pos_iff.mpr some
      rw [written]
      refine ⟨front, first, ?_, ?_, fun second => ?_⟩
      · rw [← List.length_pos_iff, length]
        omega
      · intro buffer mem
        exact present buffer ((isPrefix_dropExcess _).subset (List.mem_of_mem_take mem))
      · have two := enough second
        simp only [length]
        omega
  case written =>
      obtain ⟨first, some, -, enough⟩ := back
      obtain ⟨back', log', refilled, missing⟩ := refillSpares_ok first some enough system.log
      rw [refilled]
      exact ⟨front, missing⟩
  case exited => exact ⟨front, trivial⟩

variable {size : ℕ}

/-- **Each step keeps both sides ready**, unless it starts a second iteration. -/
theorem Step.ready {system next : System} (step : Step size system next) (ready : Ready system)
    (leaves : LeavesWhenTested system next) : Ready next := by
  cases step with
  | @append line front alive accepted =>
      obtain ⟨front', result, ready'⟩ := ready.front.append size line
      obtain rfl : front' = front := by simpa [result] using accepted
      exact ⟨ready', ready.back⟩
  | @appendCrashes line crash alive crashed =>
      obtain ⟨front', result, -⟩ := ready.front.append size line
      simp [result] at crashed
  | start idle =>
      have back : system.back = .new := by simpa [BackReady, idle] using ready.back
      exact ⟨ready.front, back, rfl⟩
  | thread active => exact ready.thread leaves
  | stop running started =>
      refine ⟨ready.front, ?_⟩
      have back := ready.back
      simp only [BackReady, System.stop] at back ⊢
      cases stands : system.pc <;> simp_all

/-- Ready sides give every assertion. -/
theorem Ready.assertsHold {system : System} (ready : Ready system) : system.AssertsHold := by
  have back := ready.back
  unfold BackReady at back
  refine ⟨?_, ?_, ?_, ?_, ready.front.cur, ?_⟩
  · intro stands
    simp only [stands] at back
    exact back.2
  · intro stands
    simp only [stands] at back
    rw [back]
    rfl
  · intro stands
    simp only [stands] at back
    exact back.2.1
  · intro stands
    simp only [stands] at back
    obtain ⟨first, some, -, enough⟩ := back
    obtain ⟨back', log', refilled, -⟩ := refillSpares_ok first some enough system.log
    exact ⟨_, refilled⟩
  · intro stands
    simp only [stands] at back

/-- **A second iteration fails its first assertion.** -/
theorem Step.fails {system next : System} (step : Step size system next) (ready : Ready system)
    (enters : ¬ LeavesWhenTested system next) : ¬ next.AssertsHold := by
  simp only [LeavesWhenTested, Classical.not_imp, Bool.not_eq_false] at enters
  obtain ⟨again, moved, running⟩ := enters
  have missing : system.back.logBuffer1 = none := by simpa [BackReady, again] using ready.back
  cases step with
  | append | stop => exact absurd again moved
  | start idle => simp [again] at idle
  | @appendCrashes line crash alive crashed =>
      obtain ⟨front', result, -⟩ := ready.front.append size line
      simp [result] at crashed
  | thread active =>
      intro asserts
      have asserted := asserts.entered (by simp [System.threadFunc, again, running])
      simp [System.threadFunc, again, headAsserts, missing, isSpare] at asserted

/-! ## All assertions -/

/-- **When the assertions hold.** A run goes through states in which all assertions
hold exactly when the flag is down whenever the loop condition is tested after an
iteration. -/
theorem assertsHold_iff {run : List System} (isRun : (machine size).IsRun run) :
    (∀ system ∈ run, system.AssertsHold) ↔ run.IsChain LeavesWhenTested := by
  refine @Runs.Machine.IsRun.holds_iff _ _ _ Ready _ _ isRun ?_ (fun _ => Ready.assertsHold)
    (fun _ _ ready step => step.ready ready) (fun _ _ ready step => step.fails ready)
  rintro _ rfl
  exact ⟨frontReady_new, rfl⟩

/-- The thread takes `n` steps. -/
def System.threadSteps : ℕ → System → System
  | 0, system => system
  | n + 1, system => System.threadSteps n system.threadFunc

/-- A log that is started, and goes through an iteration up to the second test. -/
def iterated : System := System.new.start.threadSteps 6

theorem iterated_reachable (size : ℕ) : (machine size).Reachable iterated := by
  have started : (machine size).Reachable System.new.start :=
    .step (.start rfl) (.start rfl)
  exact (((((started.step (.thread rfl)).step (.thread rfl)).step (.thread rfl)).step
    (.thread rfl)).step (.thread rfl)).step (.thread rfl)

/-- **The second iteration fails**, in a run without a single line. -/
theorem iterated_fails :
    (machine 4096).Reachable iterated.threadFunc ∧ ¬ iterated.threadFunc.AssertsHold := by
  refine ⟨(iterated_reachable 4096).step (.thread rfl), fun asserts => ?_⟩
  have asserted := asserts.entered rfl
  exact absurd asserted (by decide)

/-- The same run, with `stop` called before the second test. -/
def stoppedInTime : List System :=
  [.new, System.new.start, System.new.start.threadSteps 1, System.new.start.threadSteps 2,
    System.new.start.threadSteps 3, System.new.start.threadSteps 4,
    System.new.start.threadSteps 5, iterated, iterated.stop, iterated.stop.threadFunc,
    iterated.stop.threadFunc.threadFunc]

theorem stoppedInTime_isRun : (machine 4096).IsRun stoppedInTime := by
  refine ⟨by simp [stoppedInTime, machine], ?_⟩
  simp only [stoppedInTime, List.isChain_cons_cons, List.isChain_singleton, and_true]
  exact ⟨.start rfl, .thread rfl, .thread rfl, .thread rfl, .thread rfl, .thread rfl, .thread rfl,
    .stop rfl (by decide), .thread rfl, .thread rfl⟩

/-- The thread returns, and no assertion has failed. -/
theorem stoppedInTime_asserts :
    iterated.stop.threadFunc.threadFunc.pc = .done ∧
      ∀ system ∈ stoppedInTime, system.AssertsHold :=
  ⟨rfl, (assertsHold_iff stoppedInTime_isRun).mpr (by decide)⟩

end FastWebServer.Log
