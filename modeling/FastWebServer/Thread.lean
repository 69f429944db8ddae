import Mathlib.Algebra.Group.Int.Defs
import FastWebServer.Library.Monitor

/-!
# Starting a thread

`CountDownLatch` is a monitor: `wait` tests `count_ > 0`, and `count_down` announces the decrement
that makes it zero. For any count and any threads, a `wait` returns only after that many calls of
`count_down`, and no thread is left waiting after them (`CountDownLatch.wait_correct`).

`Thread::start` waits on a latch for the thread that it has created, which records its identity
before it counts down. A thread is started, and joined where the start has succeeded. Then no
assertion fails in any run, the function of the thread runs with the identity recorded, and the
caller is never left waiting: the two threads take boundedly many steps, and cannot stop before
the join has returned (`Thread.start_correct`). Where the thread cannot be created, nobody waits.
-/

set_option autoImplicit false

namespace FastWebServer

open Runs

/-! ## The latch -/

namespace CountDownLatch

/-- `wait` and `count_down`. -/
def scheme : Monitor.Scheme ℤ where
  guard count := !decide (count > 0)
  update count := count - 1
  announces count := decide (count = 0)

/-- The decrement that ends the waiting is the one that reaches zero. -/
theorem complete : scheme.Complete where
  stable count holds := by
    simp only [scheme, Bool.not_eq_true', decide_eq_false_iff_not] at holds ⊢
    omega
  announced count fails holds := by
    simp only [scheme, Bool.not_eq_true', Bool.not_eq_false', decide_eq_false_iff_not,
      decide_eq_true_eq] at fails holds ⊢
    omega

theorem iterate_update (count : ℤ) (calls : ℕ) : scheme.update^[calls] count = count - calls := by
  induction calls with
  | zero => simp
  | succ calls ih =>
      rw [Function.iterate_succ_apply', ih]
      simp only [scheme]
      omega

variable {Id : Type} [DecidableEq Id] {count : ℤ} {state : Monitor.State Id ℤ}

omit [DecidableEq Id] in
theorem guard_iff (sound : Monitor.Sound scheme count state) :
    scheme.guard state.data = true ↔ count ≤ state.updates := by
  rw [sound.counted, iterate_update]
  simp only [scheme, Bool.not_eq_true', decide_eq_false_iff_not]
  omega

/-- **The latch.** For any count and any threads, in every state of every run: a `wait` has
returned only if `count_down` has decremented at least `count` times, a thread that sleeps lacks
one of these calls, or the last of them is about to announce itself, and a thread in any call is
helped on by a step of some thread unless it sleeps for want of calls. -/
theorem wait_correct (reachable : (Monitor.machine Id scheme count).Reachable state) :
    (∀ id, state.passed id = true → count ≤ state.updates) ∧
      (∀ id, state.stands id = .parked →
        state.updates < count ∨ ∃ other, state.stands other = .announcing) ∧
      (∀ id, state.stands id ≠ .outside →
        (∃ other next, Monitor.Move scheme other state next) ∨
          state.stands id = .parked ∧ state.updates < count) := by
  have sound := Monitor.Reachable.sound complete reachable
  have lacks : scheme.guard state.data = false → state.updates < count := by
    intro fails
    by_contra enough
    have holds := (guard_iff sound).mpr (Int.not_lt.mp enough)
    rw [fails] at holds
    cases holds
  refine ⟨fun id returned => (guard_iff sound).mp (sound.passed id returned),
    fun id parked => (sound.asleep id parked).imp_left lacks, fun id inside => ?_⟩
  exact (sound.helped inside).imp_right (And.imp_right lacks)

/-- One thread waits, and no other has called yet. -/
theorem oneWaits :
    ∃ state : Monitor.State Bool ℤ, state.stands true = .parked ∧ state.updates < 1 := by
  have awaits : (Monitor.machine Bool scheme 1).Reachable _ :=
    (Machine.Reachable.start rfl).step ⟨true, .await rfl⟩
  have tests := awaits.step ⟨true, .move (.lock (.inl rfl) rfl)⟩
  have parks := tests.step ⟨true, .move (.park rfl rfl)⟩
  obtain ⟨-, asleep, -⟩ := wait_correct parks
  rcases asleep true rfl with lacks | ⟨other, announces⟩
  · exact ⟨_, rfl, by exact_mod_cast lacks⟩
  · cases other <;> cases announces

end CountDownLatch

/-! ## Thread -/

namespace Thread

/-- The thread that calls `start` and `join`, and the one that it creates. -/
inductive Party where
  | caller
  | created
deriving Repr, DecidableEq

/-- Where the caller stands in `start` and `join`. -/
inductive Caller where
  | outside
  /-- Before `pthread_create`. -/
  | creating
  /-- In `latch_.wait()`. -/
  | waiting
  /-- At `assert(tid_ > 0)`. -/
  | asserting
  /-- Before `join`. -/
  | started
  /-- In `pthread_join`. -/
  | joining
  | joined
  /-- After `pthread_create` has failed. -/
  | failed
  | aborted
deriving Repr, DecidableEq

/-- Where the created thread stands in `runInThread`. -/
inductive Child where
  | absent
  /-- Before `*tid_ = CurrentThread::tid()`. -/
  | recording
  /-- In `latch_->count_down()`. -/
  | counting
  /-- In `func_()`. -/
  | running
  | finished
deriving Repr, DecidableEq

end Thread

open Thread in
/-- A `Thread` and the two threads. -/
structure Thread where
  started : Bool
  joined : Bool
  tid : ℕ
  latch : Monitor.State Party ℤ
  caller : Caller
  child : Child

namespace Thread

/-- A `Thread` after the constructor. -/
def new : Thread :=
  { started := false
    joined := false
    tid := 0
    latch := .new 1
    caller := .outside
    child := .absent }

/-- What the two threads do next. A `func_` may end at any time. -/
inductive Advance : Thread → Thread → Prop where
  | start {thread : Thread} (stands : thread.caller = .outside) :
      Advance thread { thread with
        started := true
        caller := if thread.started then .aborted else .creating }
  /-- `pthread_create` succeeds, and the caller goes on to `latch_.wait()`. -/
  | create {thread : Thread} (stands : thread.caller = .creating) :
      Advance thread { thread with
        latch := thread.latch.put .caller .awaiting thread.latch.owner
        caller := .waiting
        child := .recording }
  | createFails {thread : Thread} (stands : thread.caller = .creating) :
      Advance thread { thread with started := false, caller := .failed }
  /-- The created thread stores its identity, which the kernel numbers from one. -/
  | record {thread : Thread} (tid : ℕ) (positive : 0 < tid) (stands : thread.child = .recording) :
      Advance thread { thread with
        tid := tid
        latch := thread.latch.put .created .calling thread.latch.owner
        child := .counting }
  | latch {thread : Thread} {latch : Monitor.State Party ℤ} (party : Party)
      (move : Monitor.Move CountDownLatch.scheme party thread.latch latch) :
      Advance thread { thread with latch := latch }
  | run {thread : Thread} (stands : thread.child = .counting)
      (counted : thread.latch.stands .created = .outside) :
      Advance thread { thread with child := .running }
  | finish {thread : Thread} (stands : thread.child = .running) :
      Advance thread { thread with child := .finished }
  | waited {thread : Thread} (stands : thread.caller = .waiting)
      (passed : thread.latch.stands .caller = .outside) :
      Advance thread { thread with caller := .asserting }
  | asserts {thread : Thread} (stands : thread.caller = .asserting) :
      Advance thread { thread with caller := if thread.tid > 0 then .started else .aborted }
  | join {thread : Thread} (stands : thread.caller = .started) :
      Advance thread { thread with
        joined := true
        caller := if thread.started && !thread.joined then .joining else .aborted }
  | joins {thread : Thread} (stands : thread.caller = .joining)
      (finished : thread.child = .finished) :
      Advance thread { thread with caller := .joined }

/-- A run of the two threads: the steps they have taken, and how often the wait has ended for no
reason. -/
inductive Run : Thread → ℕ → ℕ → Prop where
  | new : Run new 0 0
  | advance {thread next : Thread} {steps wakes : ℕ} (run : Run thread steps wakes)
      (step : Advance thread next) : Run next (steps + 1) wakes
  | wake {thread : Thread} {steps wakes : ℕ} (run : Run thread steps wakes)
      (parked : thread.latch.stands .caller = .parked) :
      Run { thread with latch := thread.latch.put .caller .woken thread.latch.owner } steps
        (wakes + 1)

/-! ## The invariant -/

/-- Where the caller may stand in the latch. -/
def CallerAt (thread : Thread) : Prop :=
  match thread.caller with
  | .outside =>
      thread.latch.stands .caller = .outside ∧ thread.child = .absent ∧ thread.started = false ∧
        thread.joined = false
  | .creating =>
      thread.latch.stands .caller = .outside ∧ thread.child = .absent ∧ thread.started = true ∧
        thread.joined = false
  | .failed =>
      thread.latch.stands .caller = .outside ∧ thread.child = .absent ∧ thread.started = false
  | .waiting =>
      thread.child ≠ .absent ∧ (thread.started = true ∧ thread.joined = false) ∧
        (thread.latch.stands .caller = .outside ∧ thread.latch.passed .caller = true ∨
          thread.latch.stands .caller = .awaiting ∨ thread.latch.stands .caller = .testing ∨
          thread.latch.stands .caller = .parked ∨ thread.latch.stands .caller = .woken)
  | .asserting | .started =>
      thread.child ≠ .absent ∧ (thread.started = true ∧ thread.joined = false) ∧
        thread.latch.stands .caller = .outside ∧ thread.latch.passed .caller = true
  | .joining =>
      thread.child ≠ .absent ∧ thread.started = true ∧
        thread.latch.stands .caller = .outside ∧ thread.latch.passed .caller = true
  | .joined =>
      thread.child = .finished ∧ thread.started = true ∧
        thread.latch.stands .caller = .outside ∧ thread.latch.passed .caller = true
  | .aborted => False

/-- Where the created thread may stand in the latch. -/
def ChildAt (thread : Thread) : Prop :=
  match thread.child with
  | .absent | .recording => thread.latch.stands .created = .outside ∧ thread.latch.updates = 0
  | .counting =>
      0 < thread.tid ∧
        ((thread.latch.stands .created = .calling ∨ thread.latch.stands .created = .updating) ∧
            thread.latch.updates = 0 ∨
          (thread.latch.stands .created = .announcing ∨ thread.latch.stands .created = .outside) ∧
            thread.latch.updates = 1)
  | .running | .finished =>
      0 < thread.tid ∧ thread.latch.stands .created = .outside ∧ thread.latch.updates = 1

/-- What holds in every state. -/
structure Sound (thread : Thread) : Prop where
  latch : Monitor.Sound CountDownLatch.scheme 1 thread.latch
  caller : CallerAt thread
  child : ChildAt thread

variable {latch latch' : Monitor.State Party ℤ} {thread next : Thread}

/-- The caller waits and never counts down. -/
theorem callerMoves (move : Monitor.Move CountDownLatch.scheme .caller latch latch')
    (waits : latch.stands .caller = .awaiting ∨ latch.stands .caller = .testing ∨
      latch.stands .caller = .parked ∨ latch.stands .caller = .woken) :
    latch'.stands .created = latch.stands .created ∧ latch'.updates = latch.updates ∧
      (latch'.stands .caller = .outside ∧ latch'.passed .caller = true ∨
        latch'.stands .caller = .testing ∨ latch'.stands .caller = .parked) := by
  cases move with
  | lock => simp [Monitor.State.put]
  | pass => simp [Monitor.State.put]
  | park => simp [Monitor.State.put]
  | enter stands | update stands | change stands | announce stands =>
      rw [stands] at waits
      simp at waits

/-- The created thread counts down once and never waits. -/
theorem childMoves (move : Monitor.Move CountDownLatch.scheme .created latch latch')
    (counts : (latch.stands .created = .calling ∨ latch.stands .created = .updating) ∧
        latch.updates = 0 ∨
      (latch.stands .created = .announcing ∨ latch.stands .created = .outside) ∧
        latch.updates = 1) :
    (latch'.stands .caller = latch.stands .caller ∨
        latch.stands .caller = .parked ∧ latch'.stands .caller = .woken) ∧
      latch'.passed .caller = latch.passed .caller ∧
      ((latch'.stands .created = .calling ∨ latch'.stands .created = .updating) ∧
          latch'.updates = 0 ∨
        (latch'.stands .created = .announcing ∨ latch'.stands .created = .outside) ∧
          latch'.updates = 1) := by
  cases move with
  | lock stands =>
      rcases stands with stands | stands
      · rw [stands] at counts
        simp at counts
      · rw [stands] at counts
        simp at counts
  | pass stands | park stands =>
      rw [stands] at counts
      simp at counts
  | enter stands =>
      rw [stands] at counts
      simpa [Monitor.State.put] using counts
  | update stands | change stands =>
      rw [stands] at counts
      simpa [Monitor.State.put] using counts
  | announce stands =>
      rw [stands] at counts
      refine ⟨?_, rfl, ?_⟩
      · by_cases parked : latch.stands .caller = .parked
        · simp [Monitor.State.put, Monitor.State.wakeAll, parked]
        · simp [Monitor.State.put, Monitor.State.wakeAll, parked]
      · simpa [Monitor.State.put, Monitor.State.wakeAll] using counts

/-- A step of the latch. -/
theorem Sound.latchMoves (sound : Sound thread) {party : Party}
    (move : Monitor.Move CountDownLatch.scheme party thread.latch latch) :
    Sound { thread with latch := latch } := by
  obtain ⟨monitor, caller, child⟩ := sound
  suffices both : CallerAt { thread with latch := latch } ∧
      ChildAt { thread with latch := latch } from
    ⟨move.sound CountDownLatch.complete monitor, both.1, both.2⟩
  unfold CallerAt at caller ⊢
  unfold ChildAt at child ⊢
  cases party with
  | caller =>
      cases stands : thread.caller <;> simp only [stands] at caller ⊢
      case waiting =>
          obtain ⟨created, flags, ⟨outside, -⟩ | waits⟩ := caller
          · exact absurd outside move.inside
          · obtain ⟨same, updates, after⟩ := callerMoves move waits
            refine ⟨⟨created, flags, after.imp_right ?_⟩, ?_⟩
            · rintro (tests | parks)
              · exact .inr (.inl tests)
              · exact .inr (.inr (.inl parks))
            · rw [same, updates]
              exact child
      case outside | creating | failed => exact absurd caller.1 move.inside
      case asserting | started | joining | joined => exact absurd caller.2.2.1 move.inside
  | created =>
      cases stands : thread.child <;> simp only [stands] at caller child ⊢
      case counting =>
          obtain ⟨same, passed, counts⟩ := childMoves move child.2
          refine ⟨?_, child.1, counts⟩
          rw [passed]
          rcases same with same | ⟨parked, woken⟩
          · rw [same]
            exact caller
          · cases waits : thread.caller <;> simp_all
      case absent | recording => exact absurd child.1 move.inside
      case running | finished => exact absurd child.2.1 move.inside

/-- The latch has let the caller pass, so the identity has been recorded. -/
theorem Sound.recorded (sound : Sound thread) (passed : thread.latch.passed .caller = true) :
    0 < thread.tid := by
  have counted := (CountDownLatch.guard_iff sound.latch).mp (sound.latch.passed .caller passed)
  have child := sound.child
  unfold ChildAt at child
  cases stands : thread.child <;> simp only [stands] at child
  case absent | recording =>
      rw [child.2] at counted
      cases counted
  case counting | running | finished => exact child.1

/-- The created thread is there, and has not finished. -/
theorem CallerAt.congr (caller : CallerAt thread) (same : next.caller = thread.caller)
    (started : next.started = thread.started) (joined : next.joined = thread.joined)
    (created : thread.child ≠ .absent) (unfinished : thread.child ≠ .finished)
    (created' : next.child ≠ .absent)
    (stands : next.latch.stands .caller = thread.latch.stands .caller)
    (passed : next.latch.passed .caller = thread.latch.passed .caller) : CallerAt next := by
  unfold CallerAt at caller ⊢
  rw [same, started, joined, stands, passed]
  cases waits : thread.caller <;> simp only [waits] at caller ⊢
  case outside | creating | failed => exact absurd caller.2.1 created
  case joined => exact absurd caller.1 unfinished
  case waiting | asserting | started | joining => exact ⟨created', caller.2⟩

/-- A wait that ends for no reason tests the count again. -/
theorem Sound.wakes (sound : Sound thread) (parked : thread.latch.stands .caller = .parked) :
    Sound { thread with latch := thread.latch.put .caller .woken thread.latch.owner } := by
  obtain ⟨monitor, caller, child⟩ := sound
  refine ⟨(Monitor.Step.wake parked).sound CountDownLatch.complete monitor, ?_, ?_⟩
  · unfold CallerAt at caller ⊢
    cases stands : thread.caller <;> simp only [stands, parked] at caller ⊢
    case waiting =>
        exact ⟨caller.1, caller.2.1, .inr (.inr (.inr (.inr (by simp [Monitor.State.put]))))⟩
    case outside | creating | failed => cases caller.1
    case asserting | started | joining | joined => cases caller.2.2.1
  · simpa [ChildAt, Monitor.State.put] using child

theorem Advance.sound (step : Advance thread next) (sound : Sound thread) : Sound next := by
  obtain ⟨monitor, caller, child⟩ := id sound
  cases step with
  | start stands =>
      unfold CallerAt at caller
      simp only [stands] at caller
      obtain ⟨outside, absent, fresh, unjoined⟩ := caller
      refine ⟨monitor, ?_, child⟩
      simp only [CallerAt, fresh]
      exact ⟨outside, absent, trivial, unjoined⟩
  | create stands =>
      unfold CallerAt at caller
      unfold ChildAt at child
      simp only [stands] at caller
      simp only [caller.2.1] at child
      refine ⟨(Monitor.Step.await caller.1).sound CountDownLatch.complete monitor, ?_, ?_⟩
      · exact ⟨by simp, caller.2.2, .inr (.inl (by simp [Monitor.State.put]))⟩
      · simpa [ChildAt, Monitor.State.put] using child
  | createFails stands =>
      unfold CallerAt at caller
      simp only [stands] at caller
      exact ⟨monitor, ⟨caller.1, caller.2.1, rfl⟩, child⟩
  | record tid positive stands =>
      have free := child
      unfold ChildAt at free
      simp only [stands] at free
      refine ⟨(Monitor.Step.call free.1).sound CountDownLatch.complete monitor, ?_, ?_⟩
      · exact caller.congr rfl rfl rfl (by simp [stands]) (by simp [stands]) (by simp)
          (by simp [Monitor.State.put]) rfl
      · exact ⟨positive, .inl ⟨.inl (by simp [Monitor.State.put]), free.2⟩⟩
  | latch party move => exact sound.latchMoves move
  | run stands counted =>
      have free := child
      unfold ChildAt at free
      simp only [stands, counted] at free
      refine ⟨monitor, ?_, free.1, counted, by simpa using free.2⟩
      exact caller.congr rfl rfl rfl (by simp [stands]) (by simp [stands]) (by simp) rfl rfl
  | finish stands =>
      unfold ChildAt at child
      simp only [stands] at child
      refine ⟨monitor, ?_, child⟩
      exact caller.congr rfl rfl rfl (by simp [stands]) (by simp [stands]) (by simp) rfl rfl
  | waited stands passed =>
      unfold CallerAt at caller
      simp only [stands, passed] at caller
      exact ⟨monitor, ⟨caller.1, caller.2.1, passed, by simpa using caller.2.2⟩, child⟩
  | asserts stands =>
      unfold CallerAt at caller
      simp only [stands] at caller
      rw [if_pos (sound.recorded caller.2.2.2)]
      exact ⟨monitor, caller, child⟩
  | join stands =>
      unfold CallerAt at caller
      simp only [stands] at caller
      obtain ⟨created, ⟨started, unjoined⟩, passed⟩ := caller
      refine ⟨monitor, ?_, child⟩
      simp only [CallerAt, started, unjoined]
      exact ⟨created, trivial, passed⟩
  | joins stands finished =>
      unfold CallerAt at caller
      simp only [stands] at caller
      exact ⟨monitor, ⟨finished, caller.2⟩, child⟩

variable {steps wakes : ℕ}

/-- **The invariant holds in every state of every run.** -/
theorem Run.sound (run : Run thread steps wakes) : Sound thread := by
  induction run with
  | new => exact ⟨Monitor.Reachable.sound CountDownLatch.complete (.start rfl),
      ⟨rfl, rfl, rfl, rfl⟩, ⟨rfl, rfl⟩⟩
  | advance run step sound => exact step.sound sound
  | wake run parked sound => exact sound.wakes parked

/-! ## The steps that remain -/

/-- The steps that are left of a wait, before and after the decrement. -/
def waitRank : Monitor.Place → ℕ → ℕ
  | .awaiting, 0 | .woken, 0 => 6
  | .testing, 0 => 5
  | .parked, 0 => 4
  | .parked, _ => 3
  | .awaiting, _ | .woken, _ => 2
  | .testing, _ => 1
  | _, _ => 0

/-- The steps that are left of a decrement. -/
def countRank : Monitor.Place → ℕ
  | .calling => 3
  | .updating => 2
  | .announcing => 1
  | _ => 0

/-- The steps that are left of `start` and `join` outside of the latch. -/
def callerRank : Caller → ℕ
  | .outside => 18
  | .creating => 17
  | .waiting => 4
  | .asserting => 3
  | .started => 2
  | .joining => 1
  | .joined | .failed | .aborted => 0

/-- The steps that are left of the created thread outside of the latch. -/
def childRank : Child → ℕ
  | .recording => 6
  | .counting => 2
  | .running => 1
  | .absent | .finished => 0

/-- The steps that are left of a wait and a decrement in the latch. -/
def latchRank (latch : Monitor.State Party ℤ) : ℕ :=
  waitRank (latch.stands .caller) latch.updates + countRank (latch.stands .created)

/-- The steps that the two threads can still take, unless a wait ends for no reason. -/
def rank (thread : Thread) : ℕ :=
  callerRank thread.caller + childRank thread.child + latchRank thread.latch

/-- The decrement leaves no more steps to a wait. -/
theorem waitRank_succ (place : Monitor.Place) (updates : ℕ) :
    waitRank place (updates + 1) ≤ waitRank place updates := by
  cases place <;> cases updates <;> simp [waitRank]

/-- The caller never counts down. -/
theorem Sound.callerWaits (sound : Sound thread) :
    thread.latch.stands .caller = .outside ∨ thread.latch.stands .caller = .awaiting ∨
      thread.latch.stands .caller = .testing ∨ thread.latch.stands .caller = .parked ∨
      thread.latch.stands .caller = .woken := by
  have caller := sound.caller
  unfold CallerAt at caller
  cases stands : thread.caller <;> simp only [stands] at caller
  case waiting => exact caller.2.2.imp_left And.left
  case outside | creating | failed => exact .inl caller.1
  case asserting | started | joining | joined => exact .inl caller.2.2.1

/-- The created thread never waits. -/
theorem Sound.childCounts (sound : Sound thread) :
    thread.latch.stands .created = .outside ∨
      (thread.latch.stands .created = .calling ∨ thread.latch.stands .created = .updating) ∧
        thread.latch.updates = 0 ∨
      thread.latch.stands .created = .announcing ∧ thread.latch.updates = 1 := by
  have child := sound.child
  unfold ChildAt at child
  cases stands : thread.child <;> simp only [stands] at child
  case counting =>
      rcases child.2 with counts | ⟨announces | outside, updates⟩
      · exact .inr (.inl counts)
      · exact .inr (.inr ⟨announces, updates⟩)
      · exact .inl outside
  case absent | recording => exact .inl child.1
  case running | finished => exact .inl child.2.1

/-- A wait that sleeps has not seen the decrement. -/
theorem Sound.uncounted (sound : Sound thread)
    (fails : CountDownLatch.scheme.guard thread.latch.data = false) :
    thread.latch.updates = 0 := by
  by_contra counted
  have holds := (CountDownLatch.guard_iff sound.latch).mpr (by omega)
  rw [fails] at holds
  cases holds

theorem Sound.latchRank_lt (sound : Sound thread) {party : Party}
    (move : Monitor.Move CountDownLatch.scheme party thread.latch latch) :
    latchRank latch < latchRank thread.latch := by
  have waits := sound.callerWaits
  have counts := sound.childCounts
  cases party with
  | caller =>
      cases move with
      | lock stands =>
          rcases stands with stands | stands <;> cases updates : thread.latch.updates <;>
            simp [latchRank, Monitor.State.put, stands, updates, waitRank]
      | pass stands =>
          cases updates : thread.latch.updates <;>
            simp [latchRank, Monitor.State.put, stands, updates, waitRank]
      | park stands fails =>
          simp [latchRank, Monitor.State.put, stands, sound.uncounted fails, waitRank]
      | enter stands | update stands | change stands | announce stands => simp [stands] at waits
  | created =>
      have fewer := waitRank_succ (thread.latch.stands .caller) thread.latch.updates
      cases move with
      | lock stands => rcases stands with stands | stands <;> simp [stands] at counts
      | pass stands | park stands => simp [stands] at counts
      | enter stands => simp [latchRank, Monitor.State.put, stands, countRank]
      | update stands | change stands =>
          simp [latchRank, Monitor.State.put, stands, countRank]
          omega
      | announce stands =>
          have counted : thread.latch.updates = 1 := by simpa [stands] using counts
          by_cases parked : thread.latch.stands .caller = .parked
          · simp [latchRank, Monitor.State.put, Monitor.State.wakeAll, stands, parked, counted,
              countRank, waitRank]
          · simp [latchRank, Monitor.State.put, Monitor.State.wakeAll, stands, parked, countRank]

/-- **Every step of the threads leaves fewer to come.** -/
theorem Advance.rank_lt (step : Advance thread next) (sound : Sound thread) :
    next.rank < thread.rank := by
  have caller := sound.caller
  have child := sound.child
  unfold CallerAt at caller
  unfold ChildAt at child
  cases step with
  | start stands =>
      simp only [stands] at caller
      simp [rank, stands, caller, callerRank]
  | create stands =>
      simp only [stands] at caller
      simp only [caller.2.1] at child
      simp [rank, latchRank, stands, caller, child, callerRank, childRank, waitRank, countRank,
        Monitor.State.put]
  | createFails stands => simp [rank, stands, callerRank]
  | record tid positive stands =>
      simp only [stands] at child
      simp only [rank, latchRank, stands, child, childRank, countRank, Monitor.State.put,
        Function.update_self, ne_eq, reduceCtorEq, not_false_eq_true, Function.update_of_ne]
      omega
  | latch party move => exact Nat.add_lt_add_left (sound.latchRank_lt move) _
  | run stands counted => simp [rank, stands, childRank]
  | finish stands => simp [rank, stands, childRank]
  | waited stands passed => simp [rank, stands, callerRank]
  | asserts stands =>
      simp only [stands] at caller
      simp [rank, stands, sound.recorded caller.2.2.2, callerRank]
  | join stands =>
      simp only [stands] at caller
      simp [rank, stands, caller, callerRank]
  | joins stands finished => simp [rank, stands, callerRank]

/-- Only spurious wake-ups make a run longer. -/
theorem Run.bounded (run : Run thread steps wakes) : steps + thread.rank ≤ 18 + 2 * wakes := by
  induction run with
  | new => exact le_rfl
  | advance run step bounded =>
      have fewer := step.rank_lt run.sound
      omega
  | @wake thread steps wakes run parked bounded =>
      have more : waitRank .woken thread.latch.updates ≤
          waitRank .parked thread.latch.updates + 2 := by
        cases thread.latch.updates <;> simp [waitRank]
      simp only [rank, latchRank, Monitor.State.put, Function.update_self, ne_eq, reduceCtorEq,
        not_false_eq_true, Function.update_of_ne, parked] at bounded ⊢
      omega

/-! ## Progress -/

/-- A created thread that has not finished takes its next step, or the caller does. -/
theorem Sound.childMoves (sound : Sound thread) (created : thread.child ≠ .absent)
    (unfinished : thread.child ≠ .finished) : ∃ next, Advance thread next := by
  cases stands : thread.child with
  | absent => exact absurd stands created
  | finished => exact absurd stands unfinished
  | recording => exact ⟨_, .record 1 Nat.one_pos stands⟩
  | running => exact ⟨_, .finish stands⟩
  | counting =>
      by_cases counted : thread.latch.stands .created = .outside
      · exact ⟨_, .run stands counted⟩
      · rcases sound.latch.helped counted with ⟨party, latch, move⟩ | ⟨parked, -⟩
        · exact ⟨_, .latch party move⟩
        · have counts := sound.childCounts
          simp [parked] at counts

/-- **The threads stop only when the join has returned**, or the thread was not created. -/
theorem Sound.advances (sound : Sound thread) (unjoined : thread.caller ≠ .joined)
    (created : thread.caller ≠ .failed) : ∃ next, Advance thread next := by
  have caller := sound.caller
  unfold CallerAt at caller
  cases stands : thread.caller <;> simp only [stands] at caller
  case outside => exact ⟨_, .start stands⟩
  case creating => exact ⟨_, .create stands⟩
  case asserting => exact ⟨_, .asserts stands⟩
  case started => exact ⟨_, .join stands⟩
  case joined => exact absurd stands unjoined
  case failed => exact absurd stands created
  case joining =>
      by_cases finished : thread.child = .finished
      · exact ⟨_, .joins stands finished⟩
      · exact sound.childMoves caller.1 finished
  case waiting =>
      by_cases passed : thread.latch.stands .caller = .outside
      · exact ⟨_, .waited stands passed⟩
      · rcases sound.latch.helped passed with ⟨party, latch, move⟩ | ⟨-, fails⟩
        · exact ⟨_, .latch party move⟩
        · refine sound.childMoves caller.1 fun finished => ?_
          have child := sound.child
          unfold ChildAt at child
          simp [finished, sound.uncounted fails] at child

/-- **Starting and joining a thread.** In every run of the two threads: no assertion fails, a
start that has succeeded has the identity of the thread, which its function runs with, a join
returns after the function, and a thread that could not be created is not started. The threads
take at most eighteen steps, and two for every wait that ends for no reason, and they stop only
where the join has returned or the thread was not created. -/
theorem start_correct (run : Run thread steps wakes) :
    thread.caller ≠ .aborted ∧
      (thread.caller = .started ∨ thread.caller = .joining ∨ thread.caller = .joined →
        0 < thread.tid ∧ thread.started = true) ∧
      (thread.child = .running → 0 < thread.tid) ∧
      (thread.caller = .joined → thread.child = .finished) ∧
      (thread.caller = .failed → thread.started = false ∧ thread.child = .absent) ∧
      steps ≤ 18 + 2 * wakes ∧
      ((∀ next, ¬ Advance thread next) → thread.caller = .joined ∨ thread.caller = .failed) := by
  have sound := run.sound
  have caller := sound.caller
  have child := sound.child
  unfold CallerAt at caller
  unfold ChildAt at child
  refine ⟨fun stands => ?_, fun stands => ?_, fun stands => ?_, fun stands => ?_,
    fun stands => ?_, (Nat.le_add_right ..).trans run.bounded, fun stuck => ?_⟩
  · simp only [stands] at caller
  · rcases stands with stands | stands | stands <;> simp only [stands] at caller
    · exact ⟨sound.recorded caller.2.2.2, caller.2.1.1⟩
    · exact ⟨sound.recorded caller.2.2.2, caller.2.1⟩
    · exact ⟨sound.recorded caller.2.2.2, caller.2.1⟩
  · simp only [stands] at child
    exact child.1
  · simp only [stands] at caller
    exact caller.1
  · simp only [stands] at caller
    exact ⟨caller.2.2, caller.2.1⟩
  · by_contra goes
    obtain ⟨unjoined, created⟩ := not_or.mp goes
    obtain ⟨next, step⟩ := sound.advances unjoined created
    exact stuck next step

/-- The caller sleeps, the created thread records its identity and counts down, and the caller
returns from its start. -/
theorem oneStart : ∃ thread : Thread, thread.caller = .started ∧ 0 < thread.tid := by
  have creates := Run.new.advance (.start rfl)
  have waits := creates.advance (.create rfl)
  have tests := waits.advance (.latch .caller (.lock (.inl rfl) rfl))
  have sleeps := tests.advance (.latch .caller (.park rfl rfl))
  have records := sleeps.advance (.record 7 (by decide) rfl)
  have enters := records.advance (.latch .created (.enter rfl rfl))
  have counts := enters.advance (.latch .created (.change rfl rfl))
  have announces := counts.advance (.latch .created (.announce rfl))
  have woken := announces.advance (.latch .caller (.lock (.inr rfl) rfl))
  have passes := woken.advance (.latch .caller (.pass rfl rfl))
  have returns := passes.advance (.waited rfl rfl)
  have asserts := returns.advance (.asserts rfl)
  have both := (start_correct asserts).2.1 (.inl rfl)
  exact ⟨_, rfl, both.1⟩

end Thread

end FastWebServer
