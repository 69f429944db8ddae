import FastWebServer.Library.Runs
import FastWebServer.EventLoop.FunctorQueue

/-!
# Quitting the loop of an `EventLoopThread`

The child thread of an `EventLoopThread` and the thread that owns it. The owner starts the child,
waits until `loop_` is set, and in the destructor calls `quit` and joins. The child sets `loop_`
before it calls `EventLoop::loop`, and that begins with `quit_ = false`. Between these two the
owner may already be in `quit`.

A state is `Kept` when a request to quit still stands in `quit_`, or the loop has returned, and no
iteration has been begun since the request. A run keeps the request exactly when no `quit_ = false`
comes behind one (`quitKept_iff`). Where it does, the loop goes back to `poll` with the owner in
`join` (`quitForgotten`).
-/

set_option autoImplicit false

namespace FastWebServer

open EventLoop

namespace EventLoopThread

variable {Other Functor : Type}

/-! ## Threads -/

/-- Where the child stands in `thread_func`. -/
inductive Child where
  | notStarted
  /-- At `EventLoop loop`. -/
  | constructing
  | locking
  /-- With the lock, before `loop_ = &loop`. -/
  | publishing
  /-- After the unlock, before `loop.loop()`. -/
  | entering
  /-- In `loop()`, before `quit_ = false`. -/
  | clearing
  | looping
  /-- After `loop()`, before `loop_ = NULL`. -/
  | leaving
  | finished
deriving Repr, DecidableEq

/-- Where the owner stands in `start_loop` and in the destructor. -/
inductive Owner where
  /-- Before `start_loop`. -/
  | outside
  | locking
  /-- With the lock, at `while (loop_ == NULL)`. -/
  | testing
  /-- In `condition_.wait()`, not woken. -/
  | parked
  | woken
  /-- After `start_loop`. -/
  | running
  /-- In the destructor, before `if (loop_ != NULL)`. -/
  | exiting
  /-- In `quit()`, before `quit_ = true`. -/
  | quitting
  /-- In `quit()`, before `wakeup()`. -/
  | rousing
  | joining
  | destroyed
deriving Repr, DecidableEq

/-- Who holds `mutex_lock_`. -/
inductive Party where
  | child
  | owner
deriving Repr, DecidableEq

/-- An `EventLoopThread`, its threads, and what happened since a request to quit. -/
structure System (Other Functor : Type) where
  /-- The loop on the stack of the child. The owner is its thread `none`. -/
  loop : EventLoop.System (Option Other) Functor
  /-- Whether `loop_` is set. -/
  published : Bool
  exiting : Bool
  mutex : Option Party
  child : Child
  owner : Owner
  /-- Whether `quit_ = true` has been executed. -/
  requested : Bool
  /-- Whether the loop has gone into an iteration since. -/
  begunSince : Bool

/-- An `EventLoopThread` after the constructor. -/
def System.new : System Other Functor :=
  { loop := .new
    published := false
    exiting := false
    mutex := none
    child := .notStarted
    owner := .outside
    requested := false
    begunSince := false }

/-- What `notify` does to the owner. -/
def Owner.notified : Owner → Owner
  | parked => woken
  | owner => owner

/-- Whether the loop has begun an iteration and is in `poll`. -/
def polls : Phase Functor → Bool
  | .polling => true
  | _ => false

/-! ## Steps -/

/-- The steps of the owner. -/
inductive OwnerStep [DecidableEq Other] : System Other Functor → System Other Functor → Prop where
  | start {system : System Other Functor} (stands : system.owner = .outside) :
      OwnerStep system { system with owner := .locking, child := .constructing }
  | lock {system : System Other Functor}
      (waits : system.owner = .locking ∨ system.owner = .woken) (free : system.mutex = none) :
      OwnerStep system { system with owner := .testing, mutex := some .owner }
  | wait {system : System Other Functor} (stands : system.owner = .testing)
      (unset : system.published = false) :
      OwnerStep system { system with owner := .parked, mutex := none }
  | wake {system : System Other Functor} (stands : system.owner = .parked) :
      OwnerStep system { system with owner := .woken }
  | started {system : System Other Functor} (stands : system.owner = .testing)
      (set : system.published = true) :
      OwnerStep system { system with owner := .running, mutex := none }
  | destroy {system : System Other Functor}
      (stands : system.owner = .outside ∨ system.owner = .running) :
      OwnerStep system { system with owner := .exiting, exiting := true }
  | test {system : System Other Functor} (stands : system.owner = .exiting) :
      OwnerStep system
        { system with owner := if system.published then .quitting else .destroyed }
  | quit {system : System Other Functor} (stands : system.owner = .quitting) :
      OwnerStep system { system with
        loop := { system.loop.put (.other none) (some .quitting) with
          members := { system.loop.members with quit := true } }
        owner := .rousing
        requested := true }
  | rouse {system : System Other Functor} (stands : system.owner = .rousing) :
      OwnerStep system { system with
        loop := { system.loop.put (.other none) none with
          counter := wakeup system.loop.counter }
        owner := .joining }
  | join {system : System Other Functor} (stands : system.owner = .joining)
      (finished : system.child = .finished) :
      OwnerStep system { system with owner := .destroyed }

/-- The steps of the child. -/
inductive ChildStep : System Other Functor → System Other Functor → Prop where
  | construct {system : System Other Functor} (stands : system.child = .constructing) :
      ChildStep system { system with child := .locking, loop := .new }
  | lock {system : System Other Functor} (stands : system.child = .locking)
      (free : system.mutex = none) :
      ChildStep system { system with child := .publishing, mutex := some .child }
  | publish {system : System Other Functor} (stands : system.child = .publishing) :
      ChildStep system { system with
        child := .entering
        published := true
        mutex := none
        owner := system.owner.notified }
  | enter {system : System Other Functor} (stands : system.child = .entering) :
      ChildStep system { system with
        child := .clearing
        loop := { system.loop with members := { system.loop.members with looping := true } } }
  /-- `quit_ = false` -/
  | clear {system : System Other Functor} (stands : system.child = .clearing) :
      ChildStep system { system with
        child := .looping
        loop := { system.loop with
          members := { system.loop.members with quit := false }
          phase := .testing } }
  | loop {system : System Other Functor} {next : EventLoop.System (Option Other) Functor}
      (stands : system.child = .looping) (step : LoopStep system.loop next) :
      ChildStep system { system with
        loop := next
        begunSince := system.begunSince || (system.requested && polls next.phase) }
  | leave {system : System Other Functor} (stands : system.child = .looping)
      (returned : system.loop.phase = .returned) :
      ChildStep system { system with child := .leaving }
  | unpublish {system : System Other Functor} (stands : system.child = .leaving) :
      ChildStep system { system with child := .finished, published := false }

/-- One step of one thread. Other threads call the loop once it is published, and handlers and
functors do on its own thread. -/
inductive Step [DecidableEq Other] : System Other Functor → System Other Functor → Prop where
  | owner {system next : System Other Functor} (step : OwnerStep system next) : Step system next
  | child {system next : System Other Functor} (step : ChildStep system next) : Step system next
  | call {system : System Other Functor} {thread : Thread (Option Other)}
      {next : EventLoop.System (Option Other) Functor} (published : system.published = true)
      (another : thread ≠ .other none) (step : CallStep thread system.loop next) :
      Step system { system with
        loop := next
        requested := system.requested || next.members.quit }

variable (Other Functor) in
/-- The state machine of an `EventLoopThread`. -/
def machine [DecidableEq Other] : Runs.Machine (System Other Functor) where
  start system := system = .new
  step := Step

/-! ## The request to quit -/

/-- A request to quit stands until `loop()` has returned, and no iteration is begun behind it. -/
def Kept (system : System Other Functor) : Prop :=
  (system.requested = true → system.loop.phase = .returned ∨ system.loop.members.quit = true) ∧
    system.begunSince = false

/-- `quit_ = false` is not executed behind a request. -/
def ClearsFirst (system next : System Other Functor) : Prop :=
  system.child = .clearing → next.child ≠ .clearing → system.requested = false

/-- What is known of a system whose request stands. -/
structure Invariant (system : System Other Functor) : Prop where
  kept : Kept system
  asked : system.loop.members.quit = true → system.requested = true
  inside : system.child = .looping → system.loop.phase ≠ .outside
  outside : system.owner = .outside → system.child = .notStarted
  unpublished : system.child = .notStarted ∨ system.child = .constructing →
    system.requested = false ∧ system.published = false ∧ system.owner ≠ .quitting

/-- A call leaves the phase alone, and `quit_` set. -/
theorem callStep_quit [DecidableEq Other] {thread : Thread Other}
    {system next : EventLoop.System Other Functor} (step : CallStep thread system next) :
    next.phase = system.phase ∧
      (next.members.quit = system.members.quit ∨ next.members.quit = true) := by
  cases step with
  | quit => exact ⟨rfl, .inr rfl⟩
  | queueInLoop | lock | push | test | wakeup | rouse => exact ⟨rfl, .inl rfl⟩

/-- The loop leaves `quit_` alone once it is in its `while`, and begins an iteration only when it is
not set. -/
theorem loopStep_quit {system next : EventLoop.System Other Functor} (step : LoopStep system next)
    (inside : system.phase ≠ .outside) :
    next.members.quit = system.members.quit ∧ next.phase ≠ .outside ∧
      system.phase ≠ .returned ∧ (polls next.phase = true → system.members.quit = false) := by
  cases step with
  | loop stands => exact absurd stands inside
  | poll stands goesOn => exact ⟨rfl, by simp, by simp [stands], fun _ => goesOn⟩
  | read stands => exact ⟨rfl, inside, by simp [stands], by simp [stands, polls]⟩
  | leave stands | polled _ stands | handle stands | handled stands | handleRead stands
  | eagain stands | doPendingFunctors stands | lock stands | swap stands | run stands
  | ran stands | handleExpired stands | expired stands =>
      exact ⟨rfl, by simp, by simp [stands], by simp [polls]⟩

theorem invariant_new : Invariant (System.new : System Other Functor) where
  kept := ⟨fun asked => absurd asked Bool.false_ne_true, rfl⟩
  asked set := by cases set
  inside looping := by cases looping
  outside _ := rfl
  unpublished _ := ⟨rfl, rfl, by simp [System.new]⟩

/-- The owner keeps the request. -/
theorem invariant_owner [DecidableEq Other] {system next : System Other Functor}
    (invariant : Invariant system) (step : OwnerStep system next) : Invariant next := by
  obtain ⟨kept, asked, inside, outside, unpublished⟩ := invariant
  cases step with
  | start stands =>
      obtain ⟨unasked, unset, -⟩ := unpublished (.inl (outside stands))
      exact ⟨kept, asked, by simp, by simp, fun _ => ⟨unasked, unset, by simp⟩⟩
  | lock | wait | wake | started | rouse | join =>
      refine ⟨kept, asked, inside, by simp, fun early => ?_⟩
      obtain ⟨unasked, unset, -⟩ := unpublished early
      exact ⟨unasked, unset, by simp⟩
  | destroy =>
      refine ⟨kept, asked, inside, by simp, fun early => ?_⟩
      obtain ⟨unasked, unset, -⟩ := unpublished early
      exact ⟨unasked, unset, by simp⟩
  | test =>
      refine ⟨kept, asked, inside, ?_, fun early => ?_⟩
      · change (if system.published then Owner.quitting else .destroyed) = .outside → _
        split <;> simp
      · obtain ⟨unasked, unset, -⟩ := unpublished early
        exact ⟨unasked, unset, by simp [unset]⟩
  | quit stands =>
      refine ⟨⟨fun _ => .inr rfl, kept.2⟩, fun _ => rfl, inside, by simp, fun early => ?_⟩
      exact absurd stands (unpublished early).2.2

/-- The child keeps the request, if it does not clear it. -/
theorem invariant_child {system next : System Other Functor} (invariant : Invariant system)
    (step : ChildStep system next) (clears : ClearsFirst system next) : Invariant next := by
  obtain ⟨kept, asked, inside, outside, unpublished⟩ := invariant
  have started : ∀ {child : Child}, system.child = child → child ≠ .notStarted →
      system.owner ≠ .outside := by
    rintro child stands running away
    exact running (stands.symm.trans (outside away))
  cases step with
  | construct stands =>
      obtain ⟨unasked, -, -⟩ := unpublished (.inr stands)
      refine ⟨⟨fun some => ?_, kept.2⟩, fun set => ?_, by simp,
        fun away => absurd away (started stands (by simp)), by simp⟩
      · exact absurd (unasked.symm.trans some) (by simp)
      · cases set
  | lock stands | leave stands | unpublish stands =>
      exact ⟨kept, asked, by simp, fun away => absurd away (started stands (by simp)), by simp⟩
  | publish stands =>
      refine ⟨kept, asked, by simp, fun away => ?_, by simp⟩
      have same : system.owner = .outside := by
        change system.owner.notified = .outside at away
        cases there : system.owner <;> simp_all [Owner.notified]
      exact absurd same (started stands (by simp))
  | enter stands =>
      exact ⟨kept, asked, by simp, fun away => absurd away (started stands (by simp)), by simp⟩
  | clear stands =>
      have unasked := clears stands (by simp)
      refine ⟨⟨fun some => ?_, kept.2⟩, fun set => ?_, fun _ => by simp,
        fun away => absurd away (started stands (by simp)), by simp⟩
      · exact absurd (unasked.symm.trans some) (by simp)
      · cases set
  | loop stands step =>
      obtain ⟨same, within, running, begins⟩ := loopStep_quit step (inside stands)
      have still : system.requested = true → system.loop.members.quit = true :=
        fun some => (kept.1 some).resolve_left running
      refine ⟨⟨fun some => .inr (same.trans (still some)), ?_⟩, fun set => asked (same ▸ set),
        fun _ => within, outside, fun early => ?_⟩
      · rw [Bool.or_eq_false_iff, Bool.and_eq_false_iff]
        refine ⟨kept.2, ?_⟩
        by_contra both
        push Not at both
        rw [Bool.ne_false_iff, Bool.ne_false_iff] at both
        exact absurd ((begins both.2).symm.trans (still both.1)) (by simp)
      · rcases early with early | early <;> exact absurd (stands.symm.trans early) (by simp)

/-- **A step that clears nothing keeps the request.** -/
theorem invariant_step [DecidableEq Other] {system next : System Other Functor}
    (invariant : Invariant system) (step : Step system next) (clears : ClearsFirst system next) :
    Invariant next := by
  cases step with
  | owner step => exact invariant_owner invariant step
  | child step => exact invariant_child invariant step clears
  | @call thread next published another step =>
      obtain ⟨kept, asked, inside, outside, unpublished⟩ := invariant
      obtain ⟨phase, same | set⟩ := callStep_quit step
      · have still : (system.requested || next.members.quit) = system.requested := by
          cases quit : system.loop.members.quit with
          | false => rw [same, quit, Bool.or_false]
          | true => rw [asked quit, Bool.true_or]
        refine ⟨⟨fun some => ?_, kept.2⟩, fun set => ?_, fun looping => phase ▸ inside looping,
          outside, fun early => ?_⟩
        · rw [phase, same]
          exact kept.1 (still.symm.trans some)
        · exact still.trans (asked (same.symm.trans set))
        · exact absurd ((unpublished early).2.1.symm.trans published) (by simp)
      · refine ⟨⟨fun _ => .inr set, kept.2⟩, fun _ => by rw [set, Bool.or_true],
          fun looping => phase ▸ inside looping, outside, fun early => ?_⟩
        exact absurd ((unpublished early).2.1.symm.trans published) (by simp)

/-- **`quit_ = false` behind a request loses it.** -/
theorem not_kept_step [DecidableEq Other] {system next : System Other Functor}
    (invariant : Invariant system) (step : Step system next)
    (clears : ¬ ClearsFirst system next) : ¬ Kept next := by
  unfold ClearsFirst at clears
  push Not at clears
  obtain ⟨stands, moved, asked⟩ := clears
  rintro ⟨kept, -⟩
  cases step with
  | call => exact absurd stands moved
  | owner step =>
      cases step with
      | start away => exact absurd (stands.symm.trans (invariant.outside away)) (by simp)
      | lock | wait | wake | started | destroy | test | quit | rouse | join =>
          exact absurd stands moved
  | child step =>
      cases step with
      | clear =>
          rcases kept (by simpa using asked) with returned | set
          · cases returned
          · cases set
      | construct there | lock there | publish there | enter there | loop there | leave there
      | unpublish there => exact absurd (stands.symm.trans there) (by simp)

/-- **Requests to quit are kept exactly where none is cleared.** In every run, a request stands in
all states until the loop has returned, without an iteration behind it, exactly if `quit_ = false`
is never executed behind a request. -/
theorem quitKept_iff [DecidableEq Other] {run : List (System Other Functor)}
    (isRun : (machine Other Functor).IsRun run) :
    (∀ system ∈ run, Kept system) ↔ run.IsChain ClearsFirst := by
  refine isRun.holds_iff ?_ (fun _ invariant => invariant.kept) (fun _ _ => invariant_step)
    (fun _ _ => not_kept_step)
  rintro _ rfl
  exact invariant_new

/-! ## Runs of one loop -/

/-- The start of the child. -/
def childStarted : System Unit Unit := { System.new with owner := .locking, child := .constructing }

theorem childStarted_step : Step (System.new : System Unit Unit) childStarted := .owner (.start rfl)

/-- The request of this run comes behind `quit_ = false`: the loop returns, and the owner joins the
child. -/
theorem quitObeyed_kept :
    ∃ system : System Unit Unit, system.requested = true ∧ system.loop.phase = .returned ∧
      system.owner = .destroyed ∧ Kept system := by
  have away : ∀ {system next : System Unit Unit}, system.child ≠ .clearing →
      ClearsFirst system next := fun elsewhere stands => absurd stands elsewhere
  have new : (machine Unit Unit).ComesTo ClearsFirst System.new := .start rfl
  have started := new.step childStarted_step (away nofun)
  have constructed := started.step (.child (.construct rfl)) (away nofun)
  have taken := constructed.step (.child (.lock rfl rfl)) (away nofun)
  have published := taken.step (.child (.publish rfl)) (away nofun)
  have locked := published.step (.owner (.lock (.inl rfl) rfl)) (away nofun)
  have running := locked.step (.owner (.started rfl rfl)) (away nofun)
  have entered := running.step (.child (.enter rfl)) (away nofun)
  have cleared := entered.step (.child (.clear rfl)) fun _ _ => rfl
  have exiting := cleared.step (.owner (.destroy (.inr rfl))) (away nofun)
  have found := exiting.step (.owner (.test rfl)) (away nofun)
  have asked := found.step (.owner (.quit rfl)) (away nofun)
  have roused := asked.step (.owner (.rouse rfl)) (away nofun)
  have returned := roused.step (.child (.loop rfl (.leave rfl rfl))) (away nofun)
  have left := returned.step (.child (.leave rfl rfl)) (away nofun)
  have gone := left.step (.child (.unpublish rfl)) (away nofun)
  obtain ⟨earlier, isRun, clears⟩ := gone.step (.owner (.join rfl rfl)) (away nofun)
  exact ⟨_, rfl, rfl, rfl, (quitKept_iff isRun).mpr clears _
    (List.mem_append_right _ (List.mem_singleton_self _))⟩

/-- **A request is forgotten.** The owner quits between `loop_ = &loop` and `quit_ = false`, and it
is in `join` when the loop goes into `poll`. -/
theorem quitForgotten :
    ∃ system, (machine Unit Unit).Reachable system ∧ system.requested = true ∧
      system.owner = .joining ∧ system.loop.phase = .polling ∧
      system.loop.members.quit = false ∧ ¬ Kept system := by
  have new : (machine Unit Unit).Reachable System.new := .start rfl
  have started := new.step childStarted_step
  have constructed := started.step (.child (.construct rfl))
  have taken := constructed.step (.child (.lock rfl rfl))
  have published := taken.step (.child (.publish rfl))
  have locked := published.step (.owner (.lock (.inl rfl) rfl))
  have running := locked.step (.owner (.started rfl rfl))
  have exiting := running.step (.owner (.destroy (.inr rfl)))
  have found := exiting.step (.owner (.test rfl))
  have asked := found.step (.owner (.quit rfl))
  have roused := asked.step (.owner (.rouse rfl))
  have entered := roused.step (.child (.enter rfl))
  have cleared := entered.step (.child (.clear rfl))
  have polling := cleared.step (.child (.loop rfl (.poll rfl rfl)))
  refine ⟨_, polling, rfl, rfl, rfl, rfl, fun kept => ?_⟩
  cases kept.2

end EventLoopThread

end FastWebServer
