import FastWebServer.Library.Fifo
import Mathlib.Logic.Function.Basic

/-!
# The functors of an event loop

The loop thread of an `EventLoop` and the other threads that call `queue_in_loop` and
`quit`. A step is what a thread does between two points at which another one can come
in: while a thread holds `mutex_lock_`, no other thread takes it. `poll` returns any
list of channels, and the handlers of the channels and the functors make any calls. A
call of `run_in_loop` is one of `queue_in_loop` on another thread, and on the loop
thread it is a part of the handler or functor that makes it.

The history of a run is kept beside the members: the functors queued, in the order in
which the lock was taken for them, and the functors run.

The loop refines a first-in-first-out queue, which is cut in two while functors run
(`refines`). `functorQueue_correct` is the order of the functors, and that no wake-up
is lost: a loop thread that enters `poll` while functors are pending finds the counter
of the wake-up descriptor positive, or a thread that is about to write to it.
-/

set_option autoImplicit false

namespace FastWebServer

open Runs

/-- The members of an `EventLoop` that its threads share. -/
structure EventLoop (Functor : Type) where
  looping : Bool
  quit : Bool
  eventHandling : Bool
  callingPendingFunctors : Bool
  pendingFunctors : List Functor

namespace EventLoop

variable {Other Functor : Type}

/-- The members after the constructor. -/
def new : EventLoop Functor :=
  { looping := false
    quit := false
    eventHandling := false
    callingPendingFunctors := false
    pendingFunctors := [] }

/-! ## Threads -/

/-- The threads: the loop thread and the others. -/
inductive Thread (Other : Type) where
  | loop
  | other (id : Other)
deriving DecidableEq

/-- A channel that `poll` returns. -/
inductive Event where
  /-- The channel of the wake-up descriptor. -/
  | wakeup
  | other
deriving Repr, DecidableEq

/-- Where a thread stands in `queue_in_loop` or in `quit`. -/
inductive Call (Functor : Type) where
  /-- Before the lock. -/
  | locking (cb : Functor)
  /-- With the lock, before `emplace_back`. -/
  | pushing (cb : Functor)
  /-- After the unlock, before the test. -/
  | testing
  /-- In `wakeup()`, called by `queue_in_loop`. -/
  | waking
  /-- In `wakeup()`, called by `quit`. -/
  | quitting
deriving Repr, DecidableEq

/-- Whether a thread has queued a functor and not yet returned from the call. -/
def Call.HasPushed (call : Option (Call Functor)) : Prop :=
  call = some .testing ∨ call = some .waking

/-- Where the loop thread stands in `loop()`, with what is left of the vector that a
`for` goes through. -/
inductive Phase (Functor : Type) where
  /-- `loop()` has not been called. -/
  | outside
  /-- At `while (!quit_)`. -/
  | testing
  | polling
  | events (left : List Event)
  /-- In `handle_events` of a channel that is not the wake-up channel. -/
  | handler (left : List Event)
  /-- In `readn`, called by `handle_read` of the wake-up channel. -/
  | reading (left : List Event)
  /-- In `do_pending_functors`, before the lock. -/
  | locking
  /-- In `do_pending_functors`, with the lock. -/
  | swapping
  /-- At the `for` over `functor_list`. -/
  | functors (left : List Functor)
  /-- In a functor. -/
  | functor (left : List Functor)
  /-- In `handle_expired`. -/
  | expiring
  | returned
deriving Repr, DecidableEq

namespace Phase

/-- What has not been run of the local vector `functor_list`. -/
def functorList : Phase Functor → List Functor
  | functors left => left
  | functor left => left
  | _ => []

/-- Whether the loop thread is in code that may call `queue_in_loop`. -/
def inCallback : Phase Functor → Bool
  | handler _ => true
  | functor _ => true
  | _ => false

/-- Whether the loop thread is in `do_pending_functors`. -/
def inFunctors : Phase Functor → Bool
  | locking => true
  | swapping => true
  | functors _ => true
  | functor _ => true
  | _ => false

/-- Whether the loop thread comes to `poll` before it swaps the functors. -/
def comesToPoll : Phase Functor → Bool
  | outside => true
  | testing => true
  | polling => true
  | functors _ => true
  | functor _ => true
  | expiring => true
  | _ => false

/-- Of the code that calls `queue_in_loop`, the functors are run after the swap. -/
theorem inFunctors_of_comesToPoll {phase : Phase Functor} (inCallback : phase.inCallback = true)
    (comes : phase.comesToPoll = true) : phase.inFunctors = true := by
  cases phase with
  | functor left => rfl
  | _ => simp [Phase.inCallback, Phase.comesToPoll] at inCallback comes

end Phase

/-- An event loop, its threads, and the history of the run. -/
structure System (Other Functor : Type) where
  members : EventLoop Functor
  /-- Who holds `mutex_lock_`. -/
  mutex : Option (Thread Other)
  /-- The counter of `wakeup_fd_`. -/
  counter : ℕ
  phase : Phase Functor
  calls : Thread Other → Option (Call Functor)
  queued : List Functor
  executed : List Functor

/-- An event loop after the constructor. -/
def System.new : System Other Functor :=
  { members := EventLoop.new
    mutex := none
    counter := 0
    phase := .outside
    calls := fun _ => none
    queued := []
    executed := [] }

namespace System

/-- The functors of the loop as one queue. -/
def view (system : System Other Functor) : Fifo.Queue Functor :=
  { arrived := system.queued
    waiting := system.phase.functorList ++ system.members.pendingFunctors
    served := system.executed }

/-- The queue of two systems is the same one. -/
theorem view_congr {system next : System Other Functor} (queued : next.queued = system.queued)
    (functorList : next.phase.functorList = system.phase.functorList)
    (pending : next.members.pendingFunctors = system.members.pendingFunctors)
    (executed : next.executed = system.executed) : next.view = system.view := by
  unfold view
  rw [queued, functorList, pending, executed]

end System

/-! ## Steps -/

/-- What `wakeup()` does to the counter. A write that would take the counter out of its
range answers `EAGAIN`, and `writen` returns. -/
def wakeup (counter : ℕ) : ℕ := if counter < 0xfffffffffffffffe then counter + 1 else counter

theorem wakeup_pos (counter : ℕ) : 0 < wakeup counter := by
  unfold wakeup
  split <;> omega

/-- The condition under which `queue_in_loop` wakes the loop thread. -/
def wakes (loop : EventLoop Functor) : Thread Other → Bool
  | .loop => loop.callingPendingFunctors
  | .other _ => true

/-- The system after a thread has come to another point of its call. -/
def System.put [DecidableEq Other] (system : System Other Functor) (thread : Thread Other)
    (call : Option (Call Functor)) : System Other Functor :=
  { system with calls := Function.update system.calls thread call }

/-- The steps of a thread in `queue_in_loop` and `quit`. -/
inductive CallStep [DecidableEq Other] (thread : Thread Other) :
    System Other Functor → System Other Functor → Prop where
  | queueInLoop {system : System Other Functor} (cb : Functor) (idle : system.calls thread = none)
      (may : thread = .loop → system.phase.inCallback = true) :
      CallStep thread system (system.put thread (some (.locking cb)))
  | lock {system : System Other Functor} {cb : Functor}
      (stands : system.calls thread = some (.locking cb)) (free : system.mutex = none) :
      CallStep thread system { system.put thread (some (.pushing cb)) with mutex := some thread }
  | push {system : System Other Functor} {cb : Functor}
      (stands : system.calls thread = some (.pushing cb)) (owns : system.mutex = some thread) :
      CallStep thread system { system.put thread (some .testing) with
        members := { system.members with
          pendingFunctors := system.members.pendingFunctors ++ [cb] }
        mutex := none
        queued := system.queued ++ [cb] }
  | test {system : System Other Functor} (stands : system.calls thread = some .testing) :
      CallStep thread system
        (system.put thread (if system.members.wakes thread then some .waking else none))
  | wakeup {system : System Other Functor} (stands : system.calls thread = some .waking) :
      CallStep thread system { system.put thread none with counter := wakeup system.counter }
  | quit {system : System Other Functor} (idle : system.calls thread = none)
      (may : thread = .loop → system.phase.inCallback = true) :
      CallStep thread system
        { system.put thread (if thread = .loop then none else some .quitting) with
          members := { system.members with quit := true } }
  | rouse {system : System Other Functor} (stands : system.calls thread = some .quitting) :
      CallStep thread system { system.put thread none with counter := wakeup system.counter }

/-- The steps of the loop thread in `loop()`. -/
inductive LoopStep : System Other Functor → System Other Functor → Prop where
  | loop {system : System Other Functor} (stands : system.phase = .outside) :
      LoopStep system { system with
        members := { system.members with looping := true, quit := false }
        phase := .testing }
  | poll {system : System Other Functor} (stands : system.phase = .testing)
      (goesOn : system.members.quit = false) :
      LoopStep system { system with phase := .polling }
  | leave {system : System Other Functor} (stands : system.phase = .testing)
      (quits : system.members.quit = true) :
      LoopStep system { system with
        members := { system.members with looping := false }
        phase := .returned }
  | polled {system : System Other Functor} (result : List Event)
      (stands : system.phase = .polling) :
      LoopStep system { system with
        members := { system.members with eventHandling := true }
        phase := .events result }
  | handle {system : System Other Functor} {left : List Event}
      (stands : system.phase = .events (.other :: left)) :
      LoopStep system { system with phase := .handler left }
  | handled {system : System Other Functor} {left : List Event}
      (stands : system.phase = .handler left) (idle : system.calls .loop = none) :
      LoopStep system { system with phase := .events left }
  | handleRead {system : System Other Functor} {left : List Event}
      (stands : system.phase = .events (.wakeup :: left)) :
      LoopStep system { system with phase := .reading left }
  | read {system : System Other Functor} {left : List Event}
      (stands : system.phase = .reading left) (positive : 0 < system.counter) :
      -- `n_read = 0` is an assignment, so `readn` reads again
      LoopStep system { system with counter := 0 }
  | eagain {system : System Other Functor} {left : List Event}
      (stands : system.phase = .reading left) (zero : system.counter = 0) :
      LoopStep system { system with phase := .events left }
  | doPendingFunctors {system : System Other Functor} (stands : system.phase = .events []) :
      LoopStep system { system with
        members := { system.members with eventHandling := false, callingPendingFunctors := true }
        phase := .locking }
  | lock {system : System Other Functor} (stands : system.phase = .locking)
      (free : system.mutex = none) :
      LoopStep system { system with mutex := some .loop, phase := .swapping }
  | swap {system : System Other Functor} (stands : system.phase = .swapping)
      (owns : system.mutex = some .loop) :
      LoopStep system { system with
        members := { system.members with pendingFunctors := [] }
        mutex := none
        phase := .functors system.members.pendingFunctors }
  | run {system : System Other Functor} {item : Functor} {left : List Functor}
      (stands : system.phase = .functors (item :: left)) :
      LoopStep system { system with
        phase := .functor left
        executed := system.executed ++ [item] }
  | ran {system : System Other Functor} {left : List Functor}
      (stands : system.phase = .functor left) (idle : system.calls .loop = none) :
      LoopStep system { system with phase := .functors left }
  | handleExpired {system : System Other Functor} (stands : system.phase = .functors []) :
      LoopStep system { system with
        members := { system.members with callingPendingFunctors := false }
        phase := .expiring }
  | expired {system : System Other Functor} (stands : system.phase = .expiring) :
      LoopStep system { system with phase := .testing }

/-- One step of one thread. -/
inductive Step [DecidableEq Other] : System Other Functor → System Other Functor → Prop where
  | call {system next : System Other Functor} (thread : Thread Other)
      (step : CallStep thread system next) : Step system next
  | loop {system next : System Other Functor} (step : LoopStep system next) : Step system next

variable (Other Functor) in
/-- The state machine of an event loop. -/
def machine [DecidableEq Other] : Machine (System Other Functor) where
  start system := system = .new
  step := Step

/-! ## The order of the functors -/

/-- A functor arrives in the critical section of `queue_in_loop`. -/
theorem CallStep.view [DecidableEq Other] {thread : Thread Other}
    {system next : System Other Functor}
    (step : CallStep thread system next) :
    next.view = system.view ∨ Fifo.Step system.view next.view := by
  cases step with
  | @push cb =>
      right
      have arrives := Fifo.Step.arrive system.view cb
      simp only [System.view, List.append_assoc] at arrives
      exact arrives
  | queueInLoop | lock | test | wakeup | quit | rouse => exact .inl rfl

/-- A functor is served when the loop calls it. The swap only moves functors from one
vector to the other. -/
theorem LoopStep.view {system next : System Other Functor} (step : LoopStep system next) :
    next.view = system.view ∨ Fifo.Step system.view next.view := by
  cases step with
  | swap stands =>
      left
      unfold System.view
      rw [stands]
      simp [Phase.functorList]
  | @run item left stands =>
      right
      have first : system.view.waiting = item :: (left ++ system.members.pendingFunctors) := by
        unfold System.view
        rw [stands]
        rfl
      exact .serve first
  | read => exact .inl rfl
  | loop stands | poll stands | leave stands | polled _ stands | handle stands | handled stands
  | handleRead stands | eagain stands | doPendingFunctors stands | lock stands | ran stands
  | handleExpired stands | expired stands =>
      exact .inl (System.view_congr rfl (by rw [stands]; rfl) rfl rfl)

variable (Other Functor) in
/-- **The loop refines a first-in-first-out queue.** -/
theorem refines [DecidableEq Other] :
    Refines (machine Other Functor) (Fifo.machine Functor) System.view where
  start := by
    rintro _ rfl
    rfl
  step := by
    intro system next _ step
    cases step with
    | call _ step => exact step.view
    | loop step => exact step.view

/-! ## Wake-ups -/

/-- That the loop thread will not wait in `poll`: the counter of the wake-up descriptor is
positive, or a thread has queued a functor and is still to test or to write. -/
def System.Woken (system : System Other Functor) : Prop :=
  0 < system.counter ∨ ∃ thread, Call.HasPushed (system.calls thread)

/-- What holds of the wake-ups in every state. -/
structure Wakeful (system : System Other Functor) : Prop where
  /-- The loop thread makes calls in handlers and functors only. -/
  callback : system.calls .loop ≠ none → system.phase.inCallback = true
  /-- The flag that makes its calls wake it is set while functors run. -/
  flagged : system.phase.inFunctors = true → system.members.callingPendingFunctors = true
  woken : system.phase.comesToPoll = true → system.members.pendingFunctors ≠ [] → system.Woken

/-- A thread that has pushed goes on to be one while another thread moves. -/
theorem System.Woken.put [DecidableEq Other] {system : System Other Functor}
    {thread : Thread Other} {call : Option (Call Functor)} (woken : system.Woken)
    (pushed : Call.HasPushed (system.calls thread) → Call.HasPushed call) :
    (system.put thread call).Woken := by
  rcases woken with positive | ⟨other, otherPushed⟩
  · exact .inl positive
  · refine .inr ⟨other, ?_⟩
    by_cases same : other = thread
    · subst same
      simpa [System.put] using pushed otherPushed
    · simpa [System.put, same] using otherPushed

/-- The loop thread stays where it may call. -/
theorem Wakeful.callback_put [DecidableEq Other] {system : System Other Functor}
    (wakeful : Wakeful system) {thread : Thread Other} {call : Option (Call Functor)}
    (may : thread = .loop → call ≠ none → system.phase.inCallback = true) :
    (system.put thread call).calls .loop ≠ none → system.phase.inCallback = true := by
  intro stands
  by_cases same : .loop = thread
  · subst same
    exact may rfl (by simpa [System.put] using stands)
  · exact wakeful.callback (by simpa [System.put, same] using stands)

/-- The test after the push lets nobody go whose functor would be left at `poll`. -/
theorem CallStep.wakeful [DecidableEq Other] {thread : Thread Other}
    {system next : System Other Functor} (step : CallStep thread system next)
    (wakeful : Wakeful system) : Wakeful next := by
  have stays {call : Call Functor} (stands : system.calls thread = some call)
      (same : thread = .loop) : system.phase.inCallback = true :=
    wakeful.callback (by rw [← same, stands]; simp)
  cases step with
  | queueInLoop cb idle may =>
      refine ⟨wakeful.callback_put fun same _ => may same, wakeful.flagged, fun comes left => ?_⟩
      exact (wakeful.woken comes left).put (by simp [idle, Call.HasPushed])
  | lock stands =>
      refine ⟨wakeful.callback_put fun same _ => stays stands same, wakeful.flagged, ?_⟩
      intro comes left
      exact (wakeful.woken comes left).put (by simp [stands, Call.HasPushed])
  | push stands =>
      refine ⟨wakeful.callback_put fun same _ => stays stands same, wakeful.flagged, ?_⟩
      intro _ _
      exact .inr ⟨thread, by simp [System.put, Call.HasPushed]⟩
  | test stands =>
      refine ⟨wakeful.callback_put fun same _ => stays stands same, wakeful.flagged, ?_⟩
      intro comes left
      refine (wakeful.woken comes left).put fun _ => ?_
      cases thread with
      | other id => simp [wakes, Call.HasPushed]
      | loop =>
          -- the loop thread comes to `poll` from the functors, where the flag is set
          have inFunctors := Phase.inFunctors_of_comesToPoll (stays stands rfl) comes
          simp [wakes, wakeful.flagged inFunctors, Call.HasPushed]
  | wakeup stands =>
      refine ⟨wakeful.callback_put fun same _ => stays stands same, wakeful.flagged, ?_⟩
      exact fun _ _ => .inl (wakeup_pos _)
  | quit idle may =>
      refine ⟨wakeful.callback_put fun same _ => may same, wakeful.flagged, fun comes left => ?_⟩
      exact (wakeful.woken comes left).put (by simp [idle, Call.HasPushed])
  | rouse stands =>
      refine ⟨wakeful.callback_put fun same _ => stays stands same, wakeful.flagged, ?_⟩
      exact fun _ _ => .inl (wakeup_pos _)

/-- Outside of handlers and functors the loop thread makes no call. -/
theorem Wakeful.idle {system : System Other Functor} (wakeful : Wakeful system)
    (outside : system.phase.inCallback = false) : system.calls .loop = none := by
  by_contra stands
  rw [wakeful.callback stands] at outside
  cases outside

/-- A step of the loop thread keeps the wake-ups if it comes to `poll` only from where it
came to `poll` before, with the same functors and the same counter, or with no functors. -/
theorem Wakeful.move {system next : System Other Functor} (wakeful : Wakeful system)
    (calls : next.calls = system.calls)
    (callback : next.phase.inCallback = true ∨ system.calls .loop = none)
    (flagged : next.phase.inFunctors = true → next.members.callingPendingFunctors = true)
    (comes : next.phase.comesToPoll = true → next.members.pendingFunctors = [] ∨
      system.phase.comesToPoll = true ∧ next.counter = system.counter ∧
        next.members.pendingFunctors = system.members.pendingFunctors) : Wakeful next := by
  refine ⟨fun stands => ?_, flagged, fun there left => ?_⟩
  · rw [calls] at stands
    exact callback.resolve_right stands
  · obtain empty | ⟨before, counter, pending⟩ := comes there
    · exact absurd empty left
    · rw [pending] at left
      unfold System.Woken
      rw [counter, calls]
      exact wakeful.woken before left

/-- The loop thread reads the counter before it swaps. -/
theorem LoopStep.wakeful {system next : System Other Functor} (step : LoopStep system next)
    (wakeful : Wakeful system) : Wakeful next := by
  cases step with
  | loop stands | poll stands | expired stands =>
      have idle := wakeful.idle (by rw [stands]; rfl)
      refine wakeful.move rfl (.inr idle) (fun inFunctors => by cases inFunctors) fun _ => ?_
      exact .inr ⟨by rw [stands]; rfl, rfl, rfl⟩
  | leave stands | polled _ stands | handleRead stands | eagain stands =>
      have idle := wakeful.idle (by rw [stands]; rfl)
      refine wakeful.move rfl (.inr idle) (fun inFunctors => by cases inFunctors) fun comes => ?_
      cases comes
  | handle stands =>
      refine wakeful.move rfl (.inl rfl) (fun inFunctors => by cases inFunctors) fun comes => ?_
      cases comes
  | handled stands idle =>
      refine wakeful.move rfl (.inr idle) (fun inFunctors => by cases inFunctors) fun comes => ?_
      cases comes
  | read stands =>
      have idle := wakeful.idle (by rw [stands]; rfl)
      refine wakeful.move rfl (.inr idle) wakeful.flagged fun comes => ?_
      change system.phase.comesToPoll = true at comes
      rw [stands] at comes
      cases comes
  | doPendingFunctors stands =>
      have idle := wakeful.idle (by rw [stands]; rfl)
      refine wakeful.move rfl (.inr idle) (fun _ => rfl) fun comes => ?_
      cases comes
  | lock stands =>
      have idle := wakeful.idle (by rw [stands]; rfl)
      have flag := wakeful.flagged (by rw [stands]; rfl)
      refine wakeful.move rfl (.inr idle) (fun _ => flag) fun comes => ?_
      cases comes
  | swap stands =>
      have idle := wakeful.idle (by rw [stands]; rfl)
      have flag := wakeful.flagged (by rw [stands]; rfl)
      exact wakeful.move rfl (.inr idle) (fun _ => flag) fun _ => .inl rfl
  | run stands =>
      have flag := wakeful.flagged (by rw [stands]; rfl)
      refine wakeful.move rfl (.inl rfl) (fun _ => flag) fun _ => ?_
      exact .inr ⟨by rw [stands]; rfl, rfl, rfl⟩
  | ran stands idle =>
      have flag := wakeful.flagged (by rw [stands]; rfl)
      refine wakeful.move rfl (.inr idle) (fun _ => flag) fun _ => ?_
      exact .inr ⟨by rw [stands]; rfl, rfl, rfl⟩
  | handleExpired stands =>
      have idle := wakeful.idle (by rw [stands]; rfl)
      refine wakeful.move rfl (.inr idle) (fun inFunctors => by cases inFunctors) fun _ => ?_
      exact .inr ⟨by rw [stands]; rfl, rfl, rfl⟩

/-- **No wake-up is lost in any run.** -/
theorem wakeful [DecidableEq Other] {system : System Other Functor}
    (reachable : (machine Other Functor).Reachable system) : Wakeful system := by
  refine reachable.induction Wakeful ?_ ?_
  · rintro _ rfl
    exact ⟨fun stands => absurd rfl stands, fun inFunctors => (by cases inFunctors),
      fun _ left => absurd rfl left⟩
  · intro system next _ wakeful step
    cases step with
    | call _ step => exact step.wakeful wakeful
    | loop step => exact step.wakeful wakeful

/-- **The functors of a loop.** In every state of every run, what has been run, followed by
what is left of the local vector, followed by the pending functors, is what has been
queued. And at `poll` with functors pending the counter is positive, or another thread
has pushed and is still to write. -/
theorem functorQueue_correct [DecidableEq Other] {system : System Other Functor}
    (reachable : (machine Other Functor).Reachable system) :
    system.executed ++ system.phase.functorList ++ system.members.pendingFunctors =
        system.queued ∧
      system.executed <+: system.queued ∧
      (system.phase = .polling → system.members.pendingFunctors ≠ [] →
        0 < system.counter ∨ ∃ id, Call.HasPushed (system.calls (.other id))) := by
  have inOrder := Fifo.Reachable.inOrder ((refines Other Functor).reachable reachable)
  simp only [System.view] at inOrder
  refine ⟨by rw [List.append_assoc, inOrder], ⟨_, inOrder⟩, fun polling left => ?_⟩
  have wakeful := wakeful reachable
  rcases wakeful.woken (by rw [polling]; rfl) left with positive | ⟨thread, pushed⟩
  · exact .inl positive
  · cases thread with
    | other id => exact .inr ⟨id, pushed⟩
    | loop =>
        -- the loop thread is in `poll` and makes no call
        rw [wakeful.idle (by rw [polling]; rfl)] at pushed
        rcases pushed with stands | stands <;> cases stands

/-- A functor that queues another one, which is pending at the next `poll`. -/
theorem requeued_pending :
    ∃ system : System ℕ ℕ, system.phase = .polling ∧ system.executed = [1] ∧
      system.members.pendingFunctors = [2] ∧ system.queued = [1, 2] ∧
      (0 < system.counter ∨ ∃ id, Call.HasPushed (system.calls (.other id))) := by
  have loops : (machine ℕ ℕ).Reachable _ := (Machine.Reachable.start rfl).step (.loop (.loop rfl))
  have polls := loops.step (.loop (.poll rfl rfl))
  -- another thread queues the first functor
  have calls := polls.step (.call (.other 0) (.queueInLoop 1 rfl (fun same => by cases same)))
  have locks := calls.step (.call (.other 0) (.lock rfl rfl))
  have pushes := locks.step (.call (.other 0) (.push rfl rfl))
  have tests := pushes.step (.call (.other 0) (.test rfl))
  have wakes := tests.step (.call (.other 0) (.wakeup rfl))
  have polled := wakes.step (.loop (.polled [.wakeup] rfl))
  have reads := (polled.step (.loop (.handleRead rfl))).step (.loop (.read rfl (wakeup_pos 0)))
  have handled := reads.step (.loop (.eagain rfl rfl))
  have pending := (handled.step (.loop (.doPendingFunctors rfl))).step (.loop (.lock rfl rfl))
  have runs := (pending.step (.loop (.swap rfl rfl))).step (.loop (.run rfl))
  -- and that one the second
  have calls' := runs.step (.call .loop (.queueInLoop 2 rfl fun _ => rfl))
  have locks' := calls'.step (.call .loop (.lock rfl rfl))
  have pushes' := locks'.step (.call .loop (.push rfl rfl))
  have tests' := pushes'.step (.call .loop (.test rfl))
  have wakes' := tests'.step (.call .loop (.wakeup rfl))
  have ran := wakes'.step (.loop (.ran rfl rfl))
  have expires := (ran.step (.loop (.handleExpired rfl))).step (.loop (.expired rfl))
  have polls' := expires.step (.loop (.poll rfl rfl))
  obtain ⟨-, -, woken⟩ := functorQueue_correct polls'
  exact ⟨_, rfl, rfl, rfl, rfl, woken rfl (List.cons_ne_nil 2 [])⟩

end EventLoop

end FastWebServer
