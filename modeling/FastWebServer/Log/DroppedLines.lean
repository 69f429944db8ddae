import FastWebServer.Log.Stop

/-!
# Where every line is

In every run of the log, batches of any size included, each appended line is in exactly one of
three places (`lines_located`): in the file, in the tail that was dropped of a batch with more than
25 buffers, or still in the buffers, in this order. The file never holds a part of a line.

The thread swaps out at most one batch in a run: it does not come past the assertions of a second
iteration. So what is in the file is a prefix of the appended lines, and what is dropped follows it
immediately. The argument goes by the place where the thread stands (`Standing`).
-/

set_option autoImplicit false

namespace FastWebServer.Log

open Cxx

/-! ## The file -/

/-- Nothing is flushed that has not been passed, and `count_` is below its bound. -/
structure AppendLog.Accounted (log : AppendLog) : Prop where
  flushed : log.flushed ≤ log.passed.length
  counted : log.count < numAppend

theorem AppendLog.accounted_new : AppendLog.new.Accounted := ⟨le_rfl, by decide⟩

theorem AppendLog.Accounted.flush {log : AppendLog} (accounted : log.Accounted) :
    log.flush.Accounted := ⟨le_rfl, accounted.counted⟩

theorem AppendLog.Accounted.append {log : AppendLog} (accounted : log.Accounted) (line : Str) :
    (log.append line).Accounted := by
  unfold AppendLog.append
  dsimp only
  split
  · exact ⟨le_rfl, show 0 < numAppend by simp [numAppend]⟩
  · rename_i below
    refine ⟨?_, Nat.not_le.mp below⟩
    rw [List.length_append]
    exact accounted.flushed.trans (Nat.le_add_right ..)

theorem writeBuffers_accounted {list : BufferList} {log log' : AppendLog}
    (accounted : log.Accounted) (written : writeBuffers list log = .ok log') :
    log'.Accounted := by
  induction list generalizing log with
  | nil =>
      cases written
      exact accounted
  | cons buffer rest ih =>
      cases buffer with
      | none => cases written
      | some buffer => exact ih (accounted.append buffer.content) written

/-! ## Where the thread stands -/

/-- What is known of the batches at each place of the thread, and of what has been kept and
dropped of them. -/
def Standing (system : System) (kept dropped : List Str) : Prop :=
  match system.pc with
  | .idle | .starting | .head | .waiting =>
      system.back = .new ∧ system.batches = [] ∧ kept = [] ∧ dropped = []
  | .entered =>
      system.back = .new ∧ system.batches = [] ∧ kept = [] ∧ dropped = [] ∨
        system.back.logBuffer1 = none ∧ system.batches.length ≤ 1
  | .swapped =>
      system.back.logBuffer1 = none ∧ system.batches = [system.back.bufferListOutput] ∧
        system.back.bufferListOutput ≠ [] ∧ kept = [] ∧ dropped = []
  | .written | .again => system.back.logBuffer1 = none ∧ system.batches.length ≤ 1
  | .exited | .done | .aborted => system.batches.length ≤ 1

/-- The lines kept in the file, those dropped, those of the batch in flight and those in front are
together the appended lines. -/
structure Placed (size : ℕ) (system : System) (kept dropped : List Str)
    (inFlight groups : List (List Str)) (last : List Str) : Prop where
  front : Grouped size system.front groups last
  batch : List.Forall₂ (HoldsLines size) system.inFlight inFlight
  file : system.log.passed = kept.flatten
  accounted : system.log.Accounted
  appended : kept ++ dropped ++ inFlight.flatten ++ (groups ++ [last]).flatten = system.appended
  excess : dropped ≠ [] → ∃ batch ∈ system.batches, 25 < batch.length
  standing : Standing system kept dropped

variable {size : ℕ} {system next : System} {kept dropped : List Str}
  {inFlight groups : List (List Str)} {last : List Str}

theorem placed_new (positive : 0 < size) : Placed size .new [] [] [] [] [] where
  front := ⟨.nil, holdsLines_empty positive, .inr rfl⟩
  batch := .nil
  file := rfl
  accounted := AppendLog.accounted_new
  appended := rfl
  excess some := absurd rfl some
  standing := ⟨rfl, rfl, rfl, rfl⟩

/-- In every state at most one batch has been swapped out. -/
theorem Standing.one (standing : Standing system kept dropped) : system.batches.length ≤ 1 := by
  unfold Standing at standing
  cases stands : system.pc <;> simp only [stands] at standing
  case idle | starting | head | waiting => simp [standing.2.1]
  case entered =>
      rcases standing with ⟨-, none, -⟩ | ⟨-, one⟩
      · simp [none]
      · exact one
  case swapped => simp [standing.2.1]
  case written | again => exact standing.2
  case exited | done | aborted => exact standing

/-- A step that moves no line, at a place where no batch is in flight. -/
theorem Placed.unmoved (placed : Placed size system kept dropped inFlight groups last)
    (front : next.front = system.front) (file : next.log.passed = system.log.passed)
    (accounted : next.log.Accounted) (appended : next.appended = system.appended)
    (batches : next.batches = system.batches) (noBatch : system.pc ≠ .swapped)
    (swapped : next.pc ≠ .swapped) (standing : Standing next kept dropped) :
    Placed size next kept dropped inFlight groups last where
  front := front ▸ placed.front
  batch := by
    have before := placed.batch
    rw [System.inFlight, if_neg noBatch] at before
    rwa [System.inFlight, if_neg swapped]
  file := file ▸ placed.file
  accounted := accounted
  appended := appended ▸ placed.appended
  excess := batches ▸ placed.excess
  standing := standing

/-! ## Steps of the thread -/

/-- The swap of the first iteration takes all lines into flight. -/
theorem Placed.swap (placed : Placed size system kept dropped inFlight groups last)
    (positive : 0 < size) (noBatch : system.pc ≠ .swapped) (back : system.back = .new)
    (none : system.batches = []) (nothing : kept = [] ∧ dropped = []) :
    Placed size system.swap [] [] (groups ++ [last]) [] [] := by
  obtain ⟨rfl, rfl⟩ := nothing
  obtain ⟨front, batch⟩ :=
    swapBuffers_grouped positive placed.front (show headAsserts system.back = true by rw [back]; rfl)
  have empty : inFlight = [] := by
    have before := placed.batch
    rw [System.inFlight, if_neg noBatch] at before
    exact List.forall₂_nil_left_iff.mp before
  refine ⟨front, batch, placed.file, placed.accounted, ?_, fun some => absurd rfl some,
    rfl, ?_, ?_, rfl, rfl⟩
  · have appended := placed.appended
    rw [empty] at appended
    simpa [System.swap] using appended
  · simp [System.swap, none]
  · simp [System.swap, swapBuffers]

/-- What is dropped of a batch is its tail, and only of one that is too large. -/
theorem exists_dropped {α : Type} (batch : List α) :
    ∃ rest, batch = dropExcess batch ++ rest ∧ (rest ≠ [] → 25 < batch.length) := by
  unfold dropExcess
  split
  · rename_i large
    exact ⟨batch.drop 2, (List.take_append_drop 2 batch).symm, fun _ => large⟩
  · exact ⟨[], (List.append_nil batch).symm, fun some => absurd rfl some⟩

/-- The batch is written, except for what is dropped of it. -/
theorem Placed.write (placed : Placed size system kept dropped inFlight groups last)
    (stands : system.pc = .swapped) :
    ∃ kept' dropped', Placed size system.threadFunc kept' dropped' [] groups last := by
  have standing := placed.standing
  unfold Standing at standing
  simp only [stands] at standing
  obtain ⟨first, one, some, rfl, rfl⟩ := standing
  have each := placed.batch
  rw [System.inFlight, if_pos stands] at each
  have present : ∀ buffer ∈ system.back.bufferListOutput, buffer ≠ none := by
    intro buffer mem
    obtain ⟨lines, full, rfl, -⟩ := holdsLines_of_mem each mem
    simp
  obtain ⟨log', written, file⟩ := writeBatch_passes some present system.log
  obtain ⟨rest, split, large⟩ := exists_dropped inFlight
  have accounted : log'.Accounted := by
    have loop := written
    simp only [writeBatch, List.isEmpty_iff, if_neg some] at loop
    split at loop
    · cases loop
    · rename_i log'' done
      obtain rfl : log'' = log' := by simpa using loop
      exact writeBuffers_accounted placed.accounted done
  have stepped : system.threadFunc =
      { system with
        back := { system.back with
          bufferListOutput := (dropExcess system.back.bufferListOutput).take 2 }
        log := log'
        pc := .written } := by
    simp only [System.threadFunc, stands, written]
  rw [stepped]
  refine ⟨(dropExcess inFlight).flatten, rest.flatten, placed.front, .nil, ?_, accounted, ?_, ?_,
    first, ?_⟩
  · rw [file, placed.file, contents_eq (forall₂_dropExcess each)]
    rfl
  · have appended := placed.appended
    rw [split] at appended
    simpa using appended
  · intro lost
    have left : rest ≠ [] := by
      rintro rfl
      exact lost rfl
    refine ⟨_, one ▸ List.mem_singleton_self _, ?_⟩
    rw [each.length_eq]
    exact large left
  · simp [one]

/-- The thread goes to another place, and nothing else happens. -/
theorem Placed.goTo (placed : Placed size system kept dropped inFlight groups last) {pc : Pc}
    (noBatch : system.pc ≠ .swapped) (swapped : pc ≠ .swapped)
    (standing : Standing { system with pc := pc } kept dropped) :
    Placed size { system with pc := pc } kept dropped inFlight groups last :=
  placed.unmoved rfl rfl placed.accounted rfl rfl noBatch swapped standing

/-- The thread tests the flag. -/
theorem Placed.branch (placed : Placed size system kept dropped inFlight groups last)
    {running stopped : Pc} (noBatch : system.pc ≠ .swapped) (notSwapped : running ≠ .swapped)
    (notSwapped' : stopped ≠ .swapped)
    (goesOn : Standing { system with pc := running } kept dropped)
    (leaves : Standing { system with pc := stopped } kept dropped) :
    Placed size { system with pc := if system.isRunning then running else stopped } kept dropped
      inFlight groups last := by
  by_cases flag : system.isRunning = true
  · rw [if_pos flag]
    exact placed.goTo noBatch notSwapped goesOn
  · rw [if_neg flag]
    exact placed.goTo noBatch notSwapped' leaves

/-- The refill and the flush. -/
theorem Placed.refill (placed : Placed size system kept dropped inFlight groups last)
    (stands : system.pc = .written) :
    Placed size system.threadFunc kept dropped inFlight groups last := by
  have standing := placed.standing
  unfold Standing at standing
  simp only [stands] at standing
  obtain ⟨first, one⟩ := standing
  cases refilled : refillSpares system.back system.log with
  | error crash =>
      have stepped : system.threadFunc = { system with pc := .aborted } := by
        simp only [System.threadFunc, stands, refilled]
      rw [stepped]
      exact placed.goTo (by simp [stands]) (by simp) one
  | ok result =>
      obtain ⟨back', log'⟩ := result
      have stepped : system.threadFunc =
          { system with back := back', log := log', pc := .again } := by
        simp only [System.threadFunc, stands, refilled]
      have file := refillSpares_flushes refilled
      have missing : back'.logBuffer1 = none := by
        unfold refillSpares Log.refill at refilled
        rw [first] at refilled
        simp only [Option.isSome_none, Bool.false_eq_true, if_false] at refilled
        split at refilled
        · cases refilled
        · rename_i taken
          split at taken
          · cases taken
          · obtain ⟨rfl, -⟩ := Prod.mk.inj (Except.ok.inj taken)
            split at refilled
            · cases refilled
            · obtain ⟨rfl, -⟩ := Prod.mk.inj (Except.ok.inj refilled)
              rfl
      rw [stepped]
      refine placed.unmoved rfl ?_ ?_ rfl rfl (by simp [stands]) (by simp) ⟨missing, one⟩
      · rw [file]
        rfl
      · rw [file]
        exact placed.accounted.flush

/-- **A step of the thread loses no line** but what it drops of a large batch. -/
theorem Placed.thread (placed : Placed size system kept dropped inFlight groups last)
    (positive : 0 < size) :
    ∃ kept' dropped' inFlight' groups' last',
      Placed size system.threadFunc kept' dropped' inFlight' groups' last' := by
  have standing := placed.standing
  unfold Standing at standing
  have one := placed.standing.one
  cases stands : system.pc <;> simp only [stands] at standing
  case idle | done | aborted =>
      have same : system.threadFunc = system := by simp only [System.threadFunc, stands]
      rw [same]
      exact ⟨kept, dropped, inFlight, groups, last, placed⟩
  case starting =>
      simp only [System.threadFunc, stands]
      exact ⟨kept, dropped, inFlight, groups, last,
        placed.branch (by simp [stands]) (by simp) (by simp) standing one⟩
  case head =>
      simp only [System.threadFunc, stands]
      exact ⟨kept, dropped, inFlight, groups, last,
        placed.branch (by simp [stands]) (by simp) (by simp) (.inl standing) one⟩
  case again =>
      simp only [System.threadFunc, stands]
      exact ⟨kept, dropped, inFlight, groups, last,
        placed.branch (by simp [stands]) (by simp) (by simp) (.inr standing) one⟩
  case entered =>
      simp only [System.threadFunc, stands]
      rcases standing with ⟨back, none, nothing⟩ | ⟨missing, -⟩
      · rw [if_pos (show headAsserts system.back = true by rw [back]; rfl)]
        split
        · exact ⟨kept, dropped, inFlight, groups, last,
            placed.goTo (by simp [stands]) (by simp) ⟨back, none, nothing⟩⟩
        · exact ⟨_, _, _, _, _, placed.swap positive (by simp [stands]) back none nothing⟩
      · rw [if_neg (by simp [headAsserts, missing, isSpare])]
        exact ⟨kept, dropped, inFlight, groups, last,
          placed.goTo (by simp [stands]) (by simp) one⟩
  case waiting =>
      obtain ⟨back, none, nothing⟩ := standing
      have stepped : system.threadFunc = system.swap := by simp only [System.threadFunc, stands]
      rw [stepped]
      exact ⟨_, _, _, _, _, placed.swap positive (by simp [stands]) back none nothing⟩
  case swapped =>
      obtain ⟨kept', dropped', written⟩ := placed.write stands
      exact ⟨kept', dropped', _, _, _, written⟩
  case written => exact ⟨_, _, _, _, _, placed.refill stands⟩
  case exited =>
      simp only [System.threadFunc, stands]
      exact ⟨kept, dropped, inFlight, groups, last, placed.unmoved rfl rfl
        placed.accounted.flush rfl rfl (by simp [stands]) (by simp) one⟩

/-! ## All steps -/

/-- **No step loses a line** but what the thread drops of a large batch. -/
theorem Step.placed (step : Step size system next) (positive : 0 < size)
    (short : ∀ line ∈ next.appended, line.length < size)
    (placed : Placed size system kept dropped inFlight groups last) :
    ∃ kept' dropped' inFlight' groups' last',
      Placed size next kept' dropped' inFlight' groups' last' := by
  cases step with
  | @append line front alive accepted =>
      obtain ⟨front', groups', last', result, grouped, lines⟩ :=
        append_grouped placed.front (short line (by simp))
      obtain rfl : front' = front := by simpa [result] using accepted
      refine ⟨kept, dropped, inFlight, groups', last', grouped, placed.batch, placed.file,
        placed.accounted, ?_, placed.excess, placed.standing⟩
      rw [lines, ← List.append_assoc, placed.appended]
  | @appendCrashes line crash alive crashed =>
      obtain ⟨cur, present, -⟩ := placed.front.cur
      obtain ⟨front', result, -⟩ := append_cases present size line
      simp [result] at crashed
  | start idle =>
      have standing := placed.standing
      unfold Standing at standing
      simp only [idle] at standing
      exact ⟨kept, dropped, inFlight, groups, last, placed.unmoved rfl rfl placed.accounted rfl rfl
        (by simp [idle]) (by simp [System.start]) standing⟩
  | thread active => exact placed.thread positive
  | stop running started =>
      exact ⟨kept, dropped, inFlight, groups, last, placed.front, placed.batch, placed.file,
        placed.accounted, placed.appended, placed.excess, placed.standing⟩

theorem placed_of_reachable (positive : 0 < size) (reachable : (machine size).Reachable system)
    (short : ∀ line ∈ system.appended, line.length < size) :
    ∃ kept dropped inFlight groups last, Placed size system kept dropped inFlight groups last := by
  obtain ⟨_, rfl, run⟩ := reachable
  induction run with
  | refl => exact ⟨[], [], [], [], [], placed_new positive⟩
  | tail earlier step ih =>
      obtain ⟨kept, dropped, inFlight, groups, last, placed⟩ :=
        ih fun line mem => short line (step.grows.1.subset mem)
      exact step.placed positive short placed

/-- Where the appended lines are. -/
structure LinesLocated (size : ℕ) (system : System) (kept dropped waiting : List Str) : Prop where
  /-- Each line is in one of the three places, and they follow each other. -/
  appended : kept ++ dropped ++ waiting = system.appended
  file : system.log.passed = kept.flatten
  /-- The buffers that have not been written hold whole lines. -/
  buffers : ∃ groups, List.Forall₂ (HoldsLines size) (system.inFlight ++ system.front.buffers)
    groups ∧ groups.flatten = waiting
  excess : dropped ≠ [] → ∃ batch ∈ system.batches, 25 < batch.length
  once : system.batches.length ≤ 1
  flushed : system.log.flushed ≤ system.log.passed.length
  /-- Each line that is short is accepted. -/
  accepts : ∀ line : Str, line.length < size → ∃ front, append size line system.front = .ok front

/-- The lines are where they are placed. -/
theorem Placed.located (placed : Placed size system kept dropped inFlight groups last) :
    LinesLocated size system kept dropped (inFlight.flatten ++ (groups ++ [last]).flatten) where
  appended := by rw [← List.append_assoc, placed.appended]
  file := placed.file
  buffers := ⟨inFlight ++ (groups ++ [last]),
    List.rel_append placed.batch (List.rel_append placed.front.list (.cons placed.front.cur .nil)),
    List.flatten_append⟩
  excess := placed.excess
  once := placed.standing.one
  flushed := placed.accounted.flushed
  accepts line fits := by
    obtain ⟨front, -, -, accepted, -⟩ := append_grouped placed.front fits
    exact ⟨front, accepted⟩

/-- **Where every line is**, in every run of the log: in the file, dropped with the tail of a batch
of more than 25 buffers, or still in the buffers. The file holds a prefix of the lines. -/
theorem lines_located (positive : 0 < size) (reachable : (machine size).Reachable system)
    (short : ∀ line ∈ system.appended, line.length < size) :
    ∃ kept dropped waiting, LinesLocated size system kept dropped waiting := by
  obtain ⟨kept, dropped, inFlight, groups, last, placed⟩ :=
    placed_of_reachable positive reachable short
  exact ⟨kept, dropped, _, placed.located⟩

/-- The line that was appended behind the first batch waits in front. -/
theorem lateLine_located :
    ∃ kept dropped waiting, LinesLocated 4096 lateLine kept dropped waiting := by
  have reachable : (machine 4096).Reachable lateLine :=
    (iterated_reachable 4096).step (@Step.append 4096 _ "late".toList _ (by decide) rfl)
  exact lines_located (by decide) reachable (by decide)

end FastWebServer.Log
