import FastWebServer.Log.BackEnd

/-!
# Stopping the log

When `stop` returns, the thread has left its loop and flushed the file. What the
buffers of the front end hold is not looked at after the loop. So the lines appended
before the call are in the file when the thread still had a swap before it, which it
has only inside an iteration, or when there was nothing left in front
(`stop_drains_iff`).

The argument follows the lines: those passed to the file, those of the batch in
flight and those in front are together the appended lines (`Conserved`), and only a
swap moves a line out of the front end (`Step.conserved`).
-/

set_option autoImplicit false

namespace FastWebServer.Log

open Cxx

/-! ## Where the lines are -/

/-- The batch that has been swapped out and not been written. -/
def System.inFlight (system : System) : BufferList :=
  if system.pc = .swapped then system.back.bufferListOutput else []

/-- The buffers of the front end. -/
def Front.buffers (front : Front) : BufferList := front.bufferList ++ [front.curBuffer]

/-- The lines passed to the file, those in flight and those in front are the appended
lines. -/
structure Conserved (size : ℕ) (system : System) (passed : List Str)
    (inFlight groups : List (List Str)) (last : List Str) : Prop where
  front : Grouped size system.front groups last
  batch : List.Forall₂ (HoldsLines size) system.inFlight inFlight
  file : system.log.passed = passed.flatten
  appended : passed ++ inFlight.flatten ++ (groups ++ [last]).flatten = system.appended
  idle : system.pc = .idle → system.isRunning = false
  waiting : system.pc = .waiting → headAsserts system.back = true
  swapped : system.pc = .swapped →
    system.back.bufferListOutput ≠ [] ∧ system.back.bufferListOutput ∈ system.batches
  done : system.pc = .done → system.log.flushed = system.log.passed.length

variable {size : ℕ} {system next : System} {passed : List Str}
  {inFlight groups : List (List Str)} {last : List Str}

theorem Conserved.contents_front (conserved : Conserved size system passed inFlight groups last) :
    contents system.front.buffers = (groups ++ [last]).flatten.flatten :=
  contents_eq (List.rel_append conserved.front.list (.cons conserved.front.cur .nil))

theorem conserved_new (positive : 0 < size) : Conserved size .new [] [] [] [] where
  front := ⟨.nil, holdsLines_empty positive, .inr rfl⟩
  batch := .nil
  file := rfl
  appended := rfl
  idle _ := rfl
  waiting := by simp [System.new]
  swapped := by simp [System.new]
  done := by simp [System.new]

/-- A step that moves no line. -/
theorem Conserved.unmoved (conserved : Conserved size system passed inFlight groups last)
    (front : next.front = system.front) (file : next.log.passed = system.log.passed)
    (appended : next.appended = system.appended) (noBatch : system.pc ≠ .swapped)
    (idle : next.pc ≠ .idle) (waiting : next.pc = .waiting → headAsserts next.back = true)
    (swapped : next.pc ≠ .swapped)
    (done : next.pc = .done → next.log.flushed = next.log.passed.length) :
    Conserved size next passed inFlight groups last where
  front := front ▸ conserved.front
  batch := by
    have before := conserved.batch
    rw [System.inFlight, if_neg noBatch] at before
    rwa [System.inFlight, if_neg swapped]
  file := file ▸ conserved.file
  appended := appended ▸ conserved.appended
  idle stands := absurd stands idle
  waiting := waiting
  swapped stands := absurd stands swapped
  done := done

/-- The swap takes all lines of the front end into flight. -/
theorem Conserved.swap (conserved : Conserved size system passed inFlight groups last)
    (positive : 0 < size) (asserted : headAsserts system.back = true)
    (noBatch : system.pc ≠ .swapped) :
    Conserved size system.swap passed (groups ++ [last]) [] [] ∧
      passed ++ (groups ++ [last]).flatten = system.appended := by
  obtain ⟨front, batch⟩ := swapBuffers_grouped positive conserved.front asserted
  have none : inFlight = [] := by
    have before := conserved.batch
    rw [System.inFlight, if_neg noBatch] at before
    exact List.forall₂_nil_left_iff.mp before
  have all : passed ++ (groups ++ [last]).flatten = system.appended := by
    simpa [none] using conserved.appended
  refine ⟨⟨front, batch, conserved.file, by simpa [System.swap] using all, ?_, ?_, ?_, ?_⟩, all⟩
  · simp [System.swap]
  · simp [System.swap]
  · exact fun _ => ⟨by simp [System.swap, swapBuffers], by simp [System.swap]⟩
  · simp [System.swap]

/-- The thread only adds batches. -/
theorem System.batches_threadFunc (system : System) :
    system.batches <+: system.threadFunc.batches := by
  have swapped : system.batches <+: system.swap.batches := List.prefix_append _ _
  unfold System.threadFunc
  cases system.pc with
  | idle | done | aborted | starting | head | again | exited => exact List.prefix_rfl
  | entered =>
      dsimp only
      split
      · split
        · exact List.prefix_rfl
        · exact swapped
      · exact List.prefix_rfl
  | waiting => exact swapped
  | swapped | written => dsimp only; split <;> exact List.prefix_rfl

theorem refillSpares_flushes {back back' : Back} {log log' : AppendLog}
    (refilled : refillSpares back log = .ok (back', log')) : log' = log.flush := by
  unfold refillSpares at refilled
  split at refilled
  · simp at refilled
  · split at refilled
    · simp at refilled
    · simp only [Except.ok.injEq, Prod.mk.injEq] at refilled
      exact refilled.2.symm

/-- The step is the swap. -/
def Swaps (system next : System) : Prop :=
  (system.pc = .entered ∨ system.pc = .waiting) ∧ next.pc = .swapped

/-- A step of another thread is no swap. -/
theorem not_swaps (same : next.pc = system.pc) : ¬ Swaps system next := by
  rintro ⟨entered | waiting, swapped⟩
  · simp [same, entered] at swapped
  · simp [same, waiting] at swapped

/-- What a step does to the lines that have left the front end: with the swap they are
all lines appended so far, and otherwise they stay as they are. -/
inductive LinesMove (system next : System) : List Str → List Str → Prop
  | stay {sent sent' : List Str} (other : ¬ Swaps system next) (same : sent' = sent) :
      LinesMove system next sent sent'
  | swap {sent sent' : List Str} (swaps : Swaps system next) (all : sent' = system.appended) :
      LinesMove system next sent sent'

/-- **A step of the thread loses no line**, when the batches are small. -/
theorem Conserved.thread (conserved : Conserved size system passed inFlight groups last)
    (positive : 0 < size) (active : system.pc.active = true)
    (small : ∀ batch ∈ system.batches, batch.length ≤ 25) :
    ∃ passed' inFlight' groups' last',
      Conserved size system.threadFunc passed' inFlight' groups' last' ∧
      LinesMove system system.threadFunc (passed ++ inFlight.flatten)
        (passed' ++ inFlight'.flatten) := by
  unfold System.threadFunc
  cases stands : system.pc <;> simp only [stands, Pc.active, Bool.false_eq_true] at active ⊢
  case starting | head | again =>
      refine ⟨passed, inFlight, groups, last, ?_, .stay (by simp [Swaps, stands]) rfl⟩
      refine conserved.unmoved rfl rfl rfl (by simp [stands]) ?_ ?_ ?_ ?_ <;>
        (dsimp only; split <;> simp)
  case entered =>
      by_cases asserted : headAsserts system.back = true
      · rw [if_pos asserted]
        split
        · exact ⟨passed, inFlight, groups, last, conserved.unmoved rfl rfl rfl (by simp [stands])
            (by simp) (fun _ => asserted) (by simp) (by simp), .stay (by simp [Swaps, stands]) rfl⟩
        · obtain ⟨swapped, all⟩ := conserved.swap positive asserted (by simp [stands])
          exact ⟨passed, groups ++ [last], [], [], swapped, .swap ⟨.inl stands, rfl⟩ all⟩
      · rw [if_neg asserted]
        exact ⟨passed, inFlight, groups, last, conserved.unmoved rfl rfl rfl (by simp [stands])
          (by simp) (by simp) (by simp) (by simp), .stay (by simp [Swaps, stands]) rfl⟩
  case waiting =>
      obtain ⟨swapped, all⟩ :=
        conserved.swap positive (conserved.waiting stands) (by simp [stands])
      exact ⟨passed, groups ++ [last], [], [], swapped, .swap ⟨.inr stands, rfl⟩ all⟩
  case swapped =>
      obtain ⟨some, batch⟩ := conserved.swapped stands
      have each := conserved.batch
      rw [System.inFlight, if_pos stands] at each
      have present : ∀ buffer ∈ system.back.bufferListOutput, buffer ≠ none := by
        intro buffer mem
        obtain ⟨lines, full, rfl, -⟩ := holdsLines_of_mem each mem
        simp
      obtain ⟨log', written, file⟩ := writeBatch_passes some present system.log
      have whole : dropExcess system.back.bufferListOutput = system.back.bufferListOutput :=
        if_neg (by have := small _ batch; omega)
      rw [whole, contents_eq each, conserved.file, ← List.flatten_append] at file
      rw [written]
      refine ⟨passed ++ inFlight.flatten, [], groups, last, ⟨conserved.front, .nil, file,
        by simpa using conserved.appended, by simp, by simp, by simp, by simp⟩,
        .stay (by simp [Swaps, stands]) (by simp)⟩
  case written =>
      refine ⟨passed, inFlight, groups, last, ?_, .stay (by simp [Swaps, stands]) rfl⟩
      cases refilled : refillSpares system.back system.log with
      | error crash =>
          exact conserved.unmoved rfl rfl rfl (by simp [stands]) (by simp) (by simp) (by simp)
            (by simp)
      | ok result =>
          obtain ⟨back', log'⟩ := result
          have file := refillSpares_flushes refilled
          exact conserved.unmoved rfl (by simp [file, AppendLog.flush]) rfl (by simp [stands])
            (by simp) (by simp) (by simp) (by simp)
  case exited =>
      exact ⟨passed, inFlight, groups, last, conserved.unmoved rfl rfl rfl (by simp [stands])
        (by simp) (by simp) (by simp) (fun _ => rfl), .stay (by simp [Swaps, stands]) rfl⟩

/-- **No step loses a line**, when lines are short and batches small. -/
theorem Step.conserved (step : Step size system next) (positive : 0 < size)
    (short : ∀ line ∈ next.appended, line.length < size)
    (small : ∀ batch ∈ next.batches, batch.length ≤ 25)
    (conserved : Conserved size system passed inFlight groups last) :
    ∃ passed' inFlight' groups' last', Conserved size next passed' inFlight' groups' last' ∧
      LinesMove system next (passed ++ inFlight.flatten) (passed' ++ inFlight'.flatten) := by
  cases step with
  | @append line front alive accepted =>
      obtain ⟨front', groups', last', result, grouped, lines⟩ :=
        append_grouped conserved.front (short line (by simp))
      obtain rfl : front' = front := by simpa [result] using accepted
      refine ⟨passed, inFlight, groups', last', ⟨grouped, conserved.batch, conserved.file, ?_,
        conserved.idle, conserved.waiting, conserved.swapped, conserved.done⟩,
        .stay (not_swaps rfl) rfl⟩
      rw [lines, ← List.append_assoc, conserved.appended]
  | @appendCrashes line crash alive crashed =>
      obtain ⟨cur, present, -⟩ := conserved.front.cur
      obtain ⟨front', result, -⟩ := append_cases present size line
      simp [result] at crashed
  | start idle =>
      exact ⟨passed, inFlight, groups, last, conserved.unmoved rfl rfl rfl (by simp [idle])
        (by simp [System.start]) (by simp [System.start]) (by simp [System.start])
        (by simp [System.start]), .stay (by simp [Swaps, idle]) rfl⟩
  | thread active =>
      refine conserved.thread positive active (fun batch mem => small batch ?_)
      exact system.batches_threadFunc.subset mem
  | stop running started =>
      exact ⟨passed, inFlight, groups, last, ⟨conserved.front, conserved.batch,
        conserved.file, conserved.appended, fun _ => rfl, conserved.waiting, conserved.swapped,
        conserved.done⟩, .stay (not_swaps rfl) rfl⟩

/-- Lines and batches are only added. -/
theorem Step.grows (step : Step size system next) :
    system.appended <+: next.appended ∧ system.batches <+: next.batches := by
  cases step with
  | append => exact ⟨List.prefix_append _ _, List.prefix_rfl⟩
  | appendCrashes | start | stop => exact ⟨List.prefix_rfl, List.prefix_rfl⟩
  | thread active =>
      refine ⟨?_, system.batches_threadFunc⟩
      unfold System.threadFunc
      cases system.pc with
      | idle | done | aborted | starting | head | again | exited | waiting => exact List.prefix_rfl
      | entered =>
          dsimp only
          split
          · split <;> exact List.prefix_rfl
          · exact List.prefix_rfl
      | swapped | written => dsimp only; split <;> exact List.prefix_rfl

theorem run_grows (run : Relation.ReflTransGen (Step size) system next) :
    system.appended <+: next.appended ∧ system.batches <+: next.batches := by
  induction run with
  | refl => exact ⟨List.prefix_rfl, List.prefix_rfl⟩
  | tail _ step ih => exact ⟨ih.1.trans step.grows.1, ih.2.trans step.grows.2⟩

/-- Lines are shorter than a buffer, and no batch is too large. -/
structure Moderate (size : ℕ) (system : System) : Prop where
  short : ∀ line ∈ system.appended, line.length < size
  small : ∀ batch ∈ system.batches, batch.length ≤ 25

/-- What is moderate at the end of a run has been so before. -/
theorem Moderate.of_run (moderate : Moderate size next)
    (run : Relation.ReflTransGen (Step size) system next) : Moderate size system := by
  obtain ⟨lines, batches⟩ := run_grows run
  exact ⟨fun line mem => moderate.short line (lines.subset mem),
    fun batch mem => moderate.small batch (batches.subset mem)⟩

theorem conserved_of_reachable (positive : 0 < size) (reachable : (machine size).Reachable system)
    (moderate : Moderate size system) :
    ∃ passed inFlight groups last, Conserved size system passed inFlight groups last := by
  obtain ⟨_, rfl, run⟩ := reachable
  induction run with
  | refl => exact ⟨[], [], [], [], conserved_new positive⟩
  | tail earlier step ih =>
      obtain ⟨passed, inFlight, groups, last, conserved⟩ := ih (moderate.of_run (.single step))
      obtain ⟨passed', inFlight', groups', last', conserved', -⟩ :=
        step.conserved positive moderate.short moderate.small conserved
      exact ⟨passed', inFlight', groups', last', conserved'⟩

/-! ## After the call of `stop` -/

/-- `stop` has been called, and the thread will not swap any more. -/
structure Settled (system : System) : Prop where
  stopped : system.isRunning = false
  noSwap : system.pc ≠ .idle ∧ system.pc ≠ .starting ∧ system.pc ≠ .entered ∧
    system.pc ≠ .waiting

theorem Step.settled (step : Step size system next) (settled : Settled system) : Settled next := by
  obtain ⟨stopped, idle, starting, entered, waiting⟩ := settled
  cases step with
  | append => exact ⟨stopped, idle, starting, entered, waiting⟩
  | appendCrashes => exact ⟨stopped, by simp, by simp, by simp, by simp⟩
  | start stands => exact absurd stands idle
  | stop => exact ⟨rfl, idle, starting, entered, waiting⟩
  | thread active =>
      unfold System.threadFunc
      cases stands : system.pc with
      | idle | starting | entered | waiting => contradiction
      | done | aborted => simp [stands, Pc.active] at active
      | head | again => exact ⟨stopped, by simp [stopped]⟩
      | swapped | written => dsimp only; split <;> exact ⟨stopped, by simp⟩
      | exited => exact ⟨stopped, by simp⟩

theorem Settled.linesMove {sent sent' : List Str} (settled : Settled system)
    (moves : LinesMove system next sent sent') : sent' = sent := by
  cases moves with
  | stay _ same => exact same
  | swap swaps =>
      obtain ⟨-, -, entered, waiting⟩ := settled.noSwap
      exact absurd swaps.1 (not_or.mpr ⟨entered, waiting⟩)

/-- **After the last swap no line leaves the front end.** -/
theorem settled_run (positive : 0 < size) (settled : Settled system)
    (conserved : Conserved size system passed inFlight groups last)
    (run : Relation.ReflTransGen (Step size) system next) (moderate : Moderate size next) :
    Settled next ∧ ∃ passed' inFlight' groups' last',
      Conserved size next passed' inFlight' groups' last' ∧
      passed' ++ inFlight'.flatten = passed ++ inFlight.flatten := by
  induction run with
  | refl => exact ⟨settled, passed, inFlight, groups, last, conserved, rfl⟩
  | tail earlier step ih =>
      obtain ⟨settled', passed', inFlight', groups', last', conserved', same⟩ :=
        ih (moderate.of_run (.single step))
      obtain ⟨passed'', inFlight'', groups'', last'', conserved'', moves⟩ :=
        step.conserved positive moderate.short moderate.small conserved'
      exact ⟨step.settled settled', passed'', inFlight'', groups'', last'', conserved'',
        (settled'.linesMove moves).trans same⟩

/-- After `stop` the thread is still before the swap of its iteration, or it is past it
and the lines of `before` have left the front end. -/
def Draining (before : List Str) (system : System) (sent : List Str) : Prop :=
  (system.isRunning = false ∧ (system.pc = .entered ∨ system.pc = .waiting) ∧
    before <+: system.appended) ∨ (Settled system ∧ before <+: sent) ∨ system.pc = .aborted

theorem draining_of_swap {before sent sent' : List Str} (swaps : Swaps system next)
    (stopped : next.isRunning = false) (moves : LinesMove system next sent sent')
    (lines : before <+: system.appended) : Draining before next sent' := by
  cases moves with
  | stay other => exact absurd swaps other
  | swap _ all => exact .inr (.inl ⟨⟨stopped, by simp [swaps.2]⟩, all ▸ lines⟩)

theorem Step.draining {before sent sent' : List Str} (step : Step size system next)
    (moves : LinesMove system next sent sent') (draining : Draining before system sent) :
    Draining before next sent' := by
  rcases draining with ⟨stopped, stands, lines⟩ | ⟨settled, lines⟩ | aborted
  · cases step with
    | append => exact .inl ⟨stopped, stands, lines.trans (List.prefix_append _ _)⟩
    | appendCrashes => exact .inr (.inr rfl)
    | start idle => simp [idle] at stands
    | stop running => simp [stopped] at running
    | thread active =>
        rcases stands with entered | waiting
        · unfold System.threadFunc at moves ⊢
          simp only [entered] at moves ⊢
          by_cases asserted : headAsserts system.back = true
          · rw [if_pos asserted] at moves ⊢
            by_cases empty : system.front.bufferList.isEmpty = true
            · rw [if_pos empty]
              exact .inl ⟨stopped, .inr rfl, lines⟩
            · rw [if_neg empty] at moves ⊢
              exact draining_of_swap ⟨.inl entered, rfl⟩ stopped moves lines
          · rw [if_neg asserted]
            exact .inr (.inr rfl)
        · unfold System.threadFunc at moves ⊢
          simp only [waiting] at moves ⊢
          exact draining_of_swap ⟨.inr waiting, rfl⟩ stopped moves lines
  · exact .inr (.inl ⟨step.settled settled, (settled.linesMove moves).symm ▸ lines⟩)
  · cases step with
    | append alive | appendCrashes alive => exact absurd aborted alive
    | start idle => simp [idle] at aborted
    | thread active => simp [aborted, Pc.active] at active
    | stop _ started => exact absurd aborted started.2

/-- **Before its swap the thread still takes all lines** appended before `stop`. -/
theorem draining_run {before : List Str} (positive : 0 < size)
    (draining : Draining before system (passed ++ inFlight.flatten))
    (conserved : Conserved size system passed inFlight groups last)
    (run : Relation.ReflTransGen (Step size) system next) (moderate : Moderate size next) :
    ∃ passed' inFlight' groups' last', Conserved size next passed' inFlight' groups' last' ∧
      Draining before next (passed' ++ inFlight'.flatten) := by
  induction run with
  | refl => exact ⟨passed, inFlight, groups, last, conserved, draining⟩
  | tail earlier step ih =>
      obtain ⟨passed', inFlight', groups', last', conserved', draining'⟩ :=
        ih (moderate.of_run (.single step))
      obtain ⟨passed'', inFlight'', groups'', last'', conserved'', moves⟩ :=
        step.conserved positive moderate.short moderate.small conserved'
      exact ⟨passed'', inFlight'', groups'', last'', conserved'', step.draining moves draining'⟩

/-! ## When stopping loses no line -/

/-- The lines of `before` are in the file and flushed, each once and in order, maybe
with some appended after them, and the buffers in front hold only lines that are
later still. -/
structure Drained (before : List Str) (system : System) : Prop where
  lines : ∃ later left, system.appended = before ++ later ++ left ∧
    system.log.passed = (before ++ later).flatten ∧
    contents system.front.buffers = left.flatten
  flushed : system.log.flushed = system.log.passed.length

/-- Nothing is in flight any more when the thread has returned. -/
theorem Conserved.inFlight_of_done (conserved : Conserved size system passed inFlight groups last)
    (returned : system.pc = .done) : inFlight = [] := by
  have batch := conserved.batch
  rw [System.inFlight, if_neg (by simp [returned])] at batch
  exact List.forall₂_nil_left_iff.mp batch

theorem drained_of_draining {before : List Str} (returned : system.pc = .done)
    (conserved : Conserved size system passed inFlight groups last)
    (draining : Draining before system (passed ++ inFlight.flatten)) : Drained before system := by
  have none := conserved.inFlight_of_done returned
  have lines : before <+: passed := by
    rcases draining with ⟨-, entered | waiting, -⟩ | ⟨-, lines⟩ | aborted
    · simp [entered] at returned
    · simp [waiting] at returned
    · simpa [none] using lines
    · simp [aborted] at returned
  obtain ⟨later, rfl⟩ := lines
  have appended := conserved.appended
  rw [none, List.flatten_nil, List.append_nil] at appended
  exact ⟨⟨later, (groups ++ [last]).flatten, appended.symm, conserved.file,
    conserved.contents_front⟩, conserved.done returned⟩

/-- The log when `stop` is called, and the system after it. -/
structure StopCalled (size : ℕ) (system : System) : Prop where
  reachable : (machine size).Reachable system
  running : system.isRunning = true
  started : system.pc ≠ .starting ∧ system.pc ≠ .aborted

/-- **When stopping loses no line.** In a run that is moderate up to the return of
`stop`, the lines appended before its call are in the file exactly when the thread
was inside an iteration and before its swap, or nothing was left in front. -/
theorem stop_drains_iff {called returned : System} (positive : 0 < size)
    (stopCalled : StopCalled size called)
    (run : Relation.ReflTransGen (Step size) called.stop returned) (returns : returned.pc = .done)
    (moderate : Moderate size returned) :
    Drained called.appended returned ↔
      called.pc = .entered ∨ called.pc = .waiting ∨ contents called.front.buffers = [] := by
  have stop : Step size called called.stop := .stop stopCalled.running stopCalled.started
  have moderate' := moderate.of_run run
  obtain ⟨passed, inFlight, groups, last, conserved⟩ :=
    conserved_of_reachable positive stopCalled.reachable (moderate'.of_run (.single stop))
  have stopped : Conserved size called.stop passed inFlight groups last :=
    ⟨conserved.front, conserved.batch, conserved.file, conserved.appended, fun _ => rfl,
      conserved.waiting, conserved.swapped, conserved.done⟩
  by_cases inside : called.pc = .entered ∨ called.pc = .waiting
  · have atCall : Draining called.appended called.stop (passed ++ inFlight.flatten) :=
      .inl ⟨rfl, inside, List.prefix_rfl⟩
    obtain ⟨passed', inFlight', groups', last', conserved', draining⟩ :=
      draining_run positive atCall stopped run moderate
    refine iff_of_true (drained_of_draining returns conserved' draining) ?_
    exact inside.elim .inl (.inr ∘ .inl)
  · obtain ⟨entered, waiting⟩ := not_or.mp inside
    have settled : Settled called.stop := by
      refine ⟨rfl, ?_, stopCalled.started.1, entered, waiting⟩
      intro idle
      have down := conserved.idle idle
      simp [stopCalled.running] at down
    obtain ⟨-, passed', inFlight', groups', last', conserved', same⟩ :=
      settled_run positive settled stopped run moderate
    have none := conserved'.inFlight_of_done returns
    have file : returned.log.passed = (passed ++ inFlight.flatten).flatten := by
      rw [conserved'.file, ← same, none, List.flatten_nil, List.append_nil]
    have atCall : called.appended.flatten =
        (passed ++ inFlight.flatten).flatten ++ contents called.front.buffers := by
      rw [conserved.contents_front, ← List.flatten_append, conserved.appended]
    have atReturn : returned.appended.flatten =
        (passed ++ inFlight.flatten).flatten ++ contents returned.front.buffers := by
      rw [conserved'.contents_front, ← same, ← List.flatten_append, conserved'.appended]
    simp only [entered, waiting, false_or]
    constructor
    · rintro ⟨⟨later, left, -, sent, -⟩, -⟩
      have length := congrArg List.length (file.symm.trans sent)
      rw [@List.flatten_append _ called.appended later, atCall, List.length_append, List.length_append]
        at length
      exact List.length_eq_zero_iff.mp (by omega)
    · intro nothing
      obtain ⟨left, (appended : called.appended ++ left = returned.appended)⟩ := (run_grows run).1
      refine ⟨⟨[], left, by simpa using appended.symm, ?_, ?_⟩, conserved'.done returns⟩
      · rw [file, List.append_nil, atCall, nothing, List.append_nil]
      · rw [← appended, List.flatten_append] at atReturn
        have before : called.appended.flatten = (passed ++ inFlight.flatten).flatten := by
          rw [atCall, nothing, List.append_nil]
        exact (List.append_cancel_left (before ▸ atReturn)).symm

/-- A log whose first iteration is over, and a line appended after that. -/
def lateLine : System :=
  { iterated with
    front := { iterated.front with curBuffer := some ⟨"late".toList⟩ }
    appended := ["late".toList] }

/-- **A line is lost**: it is still in the current buffer when `stop` has returned. -/
theorem lateLine_lost :
    StopCalled 4096 lateLine ∧
      Relation.ReflTransGen (Step 4096) lateLine.stop (lateLine.stop.threadSteps 2) ∧
      (lateLine.stop.threadSteps 2).pc = .done ∧ Moderate 4096 (lateLine.stop.threadSteps 2) ∧
      ¬ Drained lateLine.appended (lateLine.stop.threadSteps 2) := by
  refine ⟨⟨?_, rfl, by decide⟩, ?_, rfl, ⟨by decide, by decide⟩, ?_⟩
  · exact (iterated_reachable 4096).step (@Step.append 4096 _ "late".toList _ (by decide) rfl)
  · exact (Relation.ReflTransGen.single (.thread rfl)).tail (.thread rfl)
  · rintro ⟨⟨later, left, -, sent, -⟩, -⟩
    have empty : ((lateLine.appended ++ later).flatten).length = 0 := by rw [← sent]; rfl
    rw [List.flatten_append, List.length_append] at empty
    exact absurd (Nat.eq_zero_of_add_eq_zero_right empty) (by decide)

/-- A log that waits in its first iteration, and a line appended meanwhile. -/
def earlyLine : System :=
  { System.new.start.threadSteps 3 with
    front := { Front.new with curBuffer := some ⟨"early".toList⟩ }
    appended := ["early".toList] }

theorem earlyLine_stopCalled : StopCalled 4096 earlyLine := by
  have started : (machine 4096).Reachable System.new.start := .step (.start rfl) (.start rfl)
  have waiting : (machine 4096).Reachable (System.new.start.threadSteps 3) :=
    ((started.step (.thread rfl)).step (.thread rfl)).step (.thread rfl)
  exact ⟨waiting.step (@Step.append 4096 _ "early".toList _ (by decide) rfl), rfl, by decide⟩

theorem earlyLine_run :
    Relation.ReflTransGen (Step 4096) earlyLine.stop (earlyLine.stop.threadSteps 5) :=
  ((((Relation.ReflTransGen.single (.thread rfl)).tail (.thread rfl)).tail (.thread rfl)).tail
    (.thread rfl)).tail (.thread rfl)

theorem earlyLine_drained : Drained earlyLine.appended (earlyLine.stop.threadSteps 5) :=
  (stop_drains_iff (by decide) earlyLine_stopCalled earlyLine_run rfl
    ⟨by decide, by decide⟩).mpr (.inr (.inl rfl))

end FastWebServer.Log
