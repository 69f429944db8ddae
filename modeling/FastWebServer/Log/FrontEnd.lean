import Mathlib.Data.List.Forall2
import Mathlib.Data.List.Infix
import FastWebServer.Library.Runs
import FastWebServer.Log.Logging

/-!
# Whole lines in order

The two tests that a line has to pass, in `Logging::append` and in
`LogBuffer::append`, ask the same of the same buffer, so no line is dropped by the
second one. Every buffer therefore holds consecutive whole lines and is never full
(`HoldsLines`), and the buffers of all batches, of the list and the current one
hold the appended lines in order (`wholeLines_inOrder`).

What is dropped of a batch that is too large are whole buffers, so the file holds
whole lines too, in order and each at most once.
-/

set_option autoImplicit false

namespace FastWebServer.Log

open Cxx

/-! ## Buffers of whole lines -/

/-- The buffer is there, holds the lines one after the other, and is not full. -/
def HoldsLines (size : ℕ) (buffer : BufferPtr) (lines : List Str) : Prop :=
  ∃ full, buffer = some full ∧ full.content = lines.flatten ∧ full.content.length < size

/-- The list holds groups of lines, the current buffer holds the last lines, and the
spare behind it is missing or empty. -/
structure Grouped (size : ℕ) (front : Front) (groups : List (List Str)) (last : List Str) : Prop where
  list : List.Forall₂ (HoldsLines size) front.bufferList groups
  cur : HoldsLines size front.curBuffer last
  next : front.nextBuffer = none ∨ front.nextBuffer = some .empty

variable {size : ℕ}

theorem eq_empty_of_isSpare {buffer : BufferPtr} (spare : isSpare buffer = true) :
    buffer = some .empty := by
  obtain _ | ⟨⟨content⟩⟩ := buffer
  · simp [isSpare] at spare
  · have none : content = [] := by simpa [isSpare, LogBuffer.getLength] using spare
    rw [none, LogBuffer.empty]

theorem holdsLines_empty (positive : 0 < size) : HoldsLines size (some .empty) [] :=
  ⟨.empty, rfl, rfl, positive⟩

/-- **A line that fits is appended whole**, and the buffer is not full after it. -/
theorem HoldsLines.append {cur : LogBuffer} {lines : List Str} {line : Str}
    (holds : HoldsLines size (some cur) lines)
    (fits : cur.getAvailableSize size > line.length) :
    HoldsLines size (some (cur.append size line)) (lines ++ [line]) := by
  obtain ⟨_, same, content, -⟩ := holds
  cases same
  have appended : cur.append size line = ⟨cur.content ++ line⟩ := if_pos fits
  have room : cur.content.length + line.length < size := by
    simp only [LogBuffer.getAvailableSize] at fits
    omega
  rw [appended]
  exact ⟨_, rfl, by simp [content], by simpa using room⟩

/-- A line that is shorter than a buffer fits an empty one. -/
theorem holdsLines_append_empty {line : Str} (short : line.length < size) :
    HoldsLines size (some (LogBuffer.empty.append size line)) [line] := by
  have fits : LogBuffer.empty.getAvailableSize size > line.length := by
    simp only [LogBuffer.getAvailableSize, LogBuffer.empty, List.length_nil]
    omega
  exact (holdsLines_empty (by omega)).append fits

/-- **A line is appended whole**, behind all lines before it. -/
theorem append_grouped {front : Front} {groups : List (List Str)} {last : List Str} {line : Str}
    (grouped : Grouped size front groups last) (short : line.length < size) :
    ∃ front' groups' last', append size line front = .ok front' ∧
      Grouped size front' groups' last' ∧
      (groups' ++ [last']).flatten = (groups ++ [last]).flatten ++ [line] := by
  obtain ⟨cur, present, -⟩ := id grouped.cur
  have holds := present ▸ grouped.cur
  obtain ⟨front', result, ⟨fits, rfl⟩ | rfl⟩ := append_cases present size line
  · exact ⟨_, groups, last ++ [line], result,
      ⟨grouped.list, holds.append fits, grouped.next⟩, by simp⟩
  · have pushed : List.Forall₂ (HoldsLines size) (front.bufferList ++ [some cur])
        (groups ++ [last]) :=
      List.rel_append grouped.list (.cons holds .nil)
    have empty : front.nextBuffer.getD .empty = .empty := by
      rcases grouped.next with none | spare
      · rw [none]
        rfl
      · rw [spare]
        rfl
    refine ⟨_, groups ++ [last], [line], result, ⟨pushed, ?_, .inl rfl⟩, by simp⟩
    rw [empty]
    exact holdsLines_append_empty short

/-! ## Swapping -/

/-- **The swap hands out all groups**, and leaves an empty buffer and an empty list. -/
theorem swapBuffers_grouped {front : Front} {back : Back} {groups : List (List Str)}
    {last : List Str} (positive : 0 < size) (grouped : Grouped size front groups last)
    (asserted : headAsserts back = true) :
    Grouped size (swapBuffers front back).1 [] [] ∧
      List.Forall₂ (HoldsLines size) (swapBuffers front back).2.bufferListOutput
        (groups ++ [last]) := by
  simp only [headAsserts, Bool.and_eq_true, List.isEmpty_iff] at asserted
  obtain ⟨⟨spare1, spare2⟩, noOutput⟩ := asserted
  have first := eq_empty_of_isSpare spare1
  have second := eq_empty_of_isSpare spare2
  refine ⟨⟨?_, ?_, ?_⟩, List.rel_append grouped.list (.cons grouped.cur .nil)⟩
  · simp only [swapBuffers, noOutput]
    exact .nil
  · simp only [swapBuffers, first]
    exact holdsLines_empty positive
  · simp only [swapBuffers, second]
    split
    · exact .inr rfl
    · exact grouped.next

theorem forall₂_dropExcess {α β : Type} {related : α → β → Prop} {batch : List α}
    {groups : List β} (each : List.Forall₂ related batch groups) :
    List.Forall₂ related (dropExcess batch) (dropExcess groups) := by
  unfold dropExcess
  rw [each.length_eq]
  split
  · exact List.forall₂_take 2 each
  · exact each

/-- What is kept of a batch are its first buffers. -/
theorem isPrefix_dropExcess {α : Type} (batch : List α) : dropExcess batch <+: batch := by
  unfold dropExcess
  split
  · exact List.take_prefix 2 batch
  · exact List.prefix_rfl

/-! ## The interleavings -/

/-- The front end, the batches that have been swapped out of it, the lines that have
been appended, in the order of the lock, and the back end's writing: what is left to
write of the last batch, and the file. -/
structure FrontRun where
  front : Front
  batches : List BufferList
  appended : List Str
  toWrite : BufferList
  log : AppendLog

/-- A line is appended, a batch is swapped out and loses what is too much of it, or
the next buffer of the batch is written. -/
inductive FrontStep (size : ℕ) : FrontRun → FrontRun → Prop
  | append {run : FrontRun} {line : Str} {front : Front} (short : line.length < size)
      (accepted : append size line run.front = .ok front) :
      FrontStep size run { run with front := front, appended := run.appended ++ [line] }
  | swap {run : FrontRun} {back : Back} (written : run.toWrite = [])
      (asserted : headAsserts back = true) :
      FrontStep size run
        { run with
          front := (swapBuffers run.front back).1
          batches := run.batches ++ [(swapBuffers run.front back).2.bufferListOutput]
          toWrite := dropExcess (swapBuffers run.front back).2.bufferListOutput }
  | write {run : FrontRun} {buffer : BufferPtr} {rest : BufferList} {log : AppendLog}
      (next : run.toWrite = buffer :: rest) (written : writeBuffers [buffer] run.log = .ok log) :
      FrontStep size run { run with toWrite := rest, log := log }

/-- The interleavings of the two sides, for buffers of `size` bytes. -/
def frontMachine (size : ℕ) : Runs.Machine FrontRun where
  start run := run = ⟨.new, [], [], [], .new⟩
  step := FrontStep size

/-- Behind the batches, the groups of the front end hold all appended lines. What is
written and what is left to write are lines of the batches, in order. -/
structure Invariant (size : ℕ) (run : FrontRun) (batched groups : List (List Str))
    (last kept : List Str) (left : List (List Str)) : Prop where
  batches : List.Forall₂ (HoldsLines size) run.batches.flatten batched
  front : Grouped size run.front groups last
  appended : (batched ++ groups ++ [last]).flatten = run.appended
  toWrite : List.Forall₂ (HoldsLines size) run.toWrite left
  passed : run.log.passed = kept.flatten
  order : (kept ++ left.flatten).Sublist batched.flatten

@[simp] theorem AppendLog.append_passed (log : AppendLog) (line : Str) :
    (log.append line).passed = log.passed ++ line := by
  simp only [AppendLog.append]
  split <;> rfl

/-- **Each step keeps the invariant.** -/
theorem FrontStep.invariant {run next : FrontRun} {batched groups : List (List Str)}
    {last kept : List Str} {left : List (List Str)} (positive : 0 < size)
    (step : FrontStep size run next) (holds : Invariant size run batched groups last kept left) :
    ∃ batched groups last kept left, Invariant size next batched groups last kept left := by
  cases step with
  | @append line front short accepted =>
      obtain ⟨front', groups', last', result, grouped, lines⟩ := append_grouped holds.front short
      obtain rfl : front' = front := by simpa [result] using accepted
      refine ⟨batched, groups', last', kept, left, holds.batches, grouped, ?_, holds.toWrite,
        holds.passed, holds.order⟩
      rw [List.append_assoc, List.flatten_append, lines, ← List.append_assoc,
        ← List.flatten_append, ← List.append_assoc, holds.appended]
  | swap written asserted =>
      obtain ⟨front, batch⟩ := swapBuffers_grouped positive holds.front asserted
      refine ⟨batched ++ (groups ++ [last]), [], [], kept, dropExcess (groups ++ [last]), ?_, front,
        by simpa using holds.appended, forall₂_dropExcess batch, holds.passed, ?_⟩
      · simpa using List.rel_append holds.batches batch
      · rw [List.flatten_append]
        refine List.Sublist.append ?_ (isPrefix_dropExcess _).flatten.sublist
        exact (List.sublist_append_left _ _).trans holds.order
  | @write buffer rest log next written =>
      obtain ⟨group, left', ⟨full, rfl, content, -⟩, others, rfl⟩ :=
        List.forall₂_cons_left_iff.mp (next ▸ holds.toWrite)
      obtain rfl : run.log.append full.content = log := by simpa [writeBuffers] using written
      refine ⟨batched, groups, last, kept ++ group, left', holds.batches, holds.front,
        holds.appended, others, ?_, ?_⟩
      · simp [holds.passed, content]
      · simpa using holds.order

theorem frontRun_invariant {run : FrontRun} (positive : 0 < size)
    (reachable : (frontMachine size).Reachable run) :
    ∃ batched groups last kept left, Invariant size run batched groups last kept left := by
  refine reachable.induction (fun run =>
    ∃ batched groups last kept left, Invariant size run batched groups last kept left) ?_ ?_
  · rintro _ rfl
    exact ⟨[], [], [], [], [], .nil, ⟨.nil, holdsLines_empty positive, .inr rfl⟩, rfl, .nil, rfl,
      .slnil⟩
  · rintro run next - ⟨batched, groups, last, kept, left, holds⟩ step
    exact step.invariant positive holds

/-! ## Whole lines -/

/-- The bytes of the buffers. -/
def contents (list : BufferList) : Str :=
  list.flatMap fun buffer => (buffer.map LogBuffer.content).getD []

theorem contents_eq {list : BufferList} {groups : List (List Str)}
    (each : List.Forall₂ (HoldsLines size) list groups) : contents list = groups.flatten.flatten := by
  induction each with
  | nil => rfl
  | cons holds _ ih =>
      obtain ⟨full, rfl, content, -⟩ := holds
      rw [contents, List.flatMap_cons, ← contents, ih]
      simp [content]

theorem holdsLines_of_mem {list : BufferList} {groups : List (List Str)} {buffer : BufferPtr}
    (each : List.Forall₂ (HoldsLines size) list groups) (mem : buffer ∈ list) :
    ∃ lines, HoldsLines size buffer lines := by
  induction each with
  | nil => cases mem
  | cons holds _ ih =>
      cases mem with
      | head => exact ⟨_, holds⟩
      | tail _ later => exact ih later

namespace FrontRun

/-- All buffers: those of the batches, those of the list, and the current one. -/
def buffers (run : FrontRun) : BufferList :=
  run.batches.flatten ++ run.front.bufferList ++ [run.front.curBuffer]

/-- The bytes of all buffers are the bytes of the groups of lines that they hold. -/
theorem contents_buffers {run : FrontRun} {batched groups : List (List Str)} {last : List Str}
    (batches : List.Forall₂ (HoldsLines size) run.batches.flatten batched)
    (front : Grouped size run.front groups last) :
    contents run.buffers = (batched.flatten ++ (groups ++ [last]).flatten).flatten := by
  have each : List.Forall₂ (HoldsLines size) run.buffers (batched ++ groups ++ [last]) :=
    List.rel_append (List.rel_append batches front.list) (.cons front.cur .nil)
  rw [contents_eq each, List.append_assoc, List.flatten_append]

/-- **A line that is shorter than a buffer is never dropped**: it stands behind all others. -/
theorem contents_append {run : FrontRun} {line : Str} (positive : 0 < size)
    (reachable : (frontMachine size).Reachable run) (short : line.length < size) :
    ∃ front, append size line run.front = .ok front ∧
      contents { run with front := front }.buffers = contents run.buffers ++ line := by
  obtain ⟨batched, groups, last, kept, left, holds⟩ := frontRun_invariant positive reachable
  obtain ⟨front, groups', last', accepted, grouped, lines⟩ := append_grouped holds.front short
  refine ⟨front, accepted, ?_⟩
  have after := @contents_buffers size { run with front := front } _ _ _ holds.batches grouped
  rw [after, contents_buffers holds.batches holds.front, lines]
  simp

/-- The lines that have been appended are kept whole and in order. -/
structure WholeLinesInOrder (size : ℕ) (run : FrontRun) : Prop where
  /-- The bytes of all buffers are the bytes of the lines. -/
  content : contents run.buffers = run.appended.flatten
  /-- Each buffer holds consecutive whole lines and is not full. -/
  whole : ∃ groups, List.Forall₂ (HoldsLines size) run.buffers groups ∧
    groups.flatten = run.appended
  /-- The file holds whole lines, in order and each at most once. -/
  file : ∃ kept : List Str, kept.Sublist run.appended ∧ run.log.passed = kept.flatten
  /-- The next line can be appended. -/
  accepts : ∀ line : Str, line.length < size → ∃ front, append size line run.front = .ok front
  /-- The next buffer can be written. -/
  writes : ∀ buffer ∈ run.toWrite, ∃ log, writeBuffers [buffer] run.log = .ok log

end FrontRun

/-- **Whole lines in order.** For buffers of any size and lines that are shorter, each
interleaving of appends with swaps that find the spares asserted keeps the lines
whole and in order, in the buffers and in the file. -/
theorem wholeLines_inOrder {run : FrontRun} (positive : 0 < size)
    (reachable : (frontMachine size).Reachable run) : run.WholeLinesInOrder size := by
  obtain ⟨batched, groups, last, kept, left, holds⟩ := frontRun_invariant positive reachable
  have each : List.Forall₂ (HoldsLines size) run.buffers (batched ++ groups ++ [last]) :=
    List.rel_append (List.rel_append holds.batches holds.front.list) (.cons holds.front.cur .nil)
  refine ⟨?_, ⟨_, each, holds.appended⟩, ⟨kept, ?_, holds.passed⟩, ?_, ?_⟩
  · rw [contents_eq each, holds.appended]
  · have batches : batched.flatten.Sublist run.appended := by
      rw [← holds.appended, List.append_assoc, List.flatten_append]
      exact List.sublist_append_left _ _
    exact ((List.sublist_append_left _ _).trans holds.order).trans batches
  · intro line short
    obtain ⟨front, -, -, accepted, -⟩ := append_grouped holds.front short
    exact ⟨front, accepted⟩
  · intro buffer waiting
    obtain ⟨group, full, rfl, -⟩ := holdsLines_of_mem holds.toWrite waiting
    exact ⟨_, rfl⟩

/-- Two lines for buffers of two bytes: both are in the batch that has been swapped out,
and the first has been written. -/
def twoLines : FrontRun where
  front := .new
  batches := [[some ⟨"a".toList⟩, some ⟨"b".toList⟩]]
  appended := ["a".toList, "b".toList]
  toWrite := [some ⟨"b".toList⟩]
  log := AppendLog.new.append "a".toList

theorem twoLines_reachable : (frontMachine 2).Reachable twoLines := by
  have started : (frontMachine 2).Reachable ⟨.new, [], [], [], .new⟩ := .start rfl
  have one := started.step (@FrontStep.append 2 _ "a".toList _ (by decide) rfl)
  have two := one.step (@FrontStep.append 2 _ "b".toList _ (by decide) rfl)
  have swapped := two.step (@FrontStep.swap 2 _ .new rfl rfl)
  exact swapped.step (FrontStep.write rfl rfl)

theorem twoLines_wholeLines : twoLines.WholeLinesInOrder 2 :=
  wholeLines_inOrder (by decide) twoLines_reachable

end FastWebServer.Log
