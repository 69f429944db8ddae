import FastWebServer.EventLoop.QuitRequest

/-!
# How long the owner's loop is there

`start_loop` gives its caller a pointer to a loop on the stack of the child. The child
sets `loop_` under the lock and notifies, so the owner never sleeps through it; the loop
is gone when `thread_func` has returned (`startLoop_handsOver`).

As long as nobody has asked the loop to quit, a pointer that `start_loop` or the test of
the destructor has found is good. In the destructor the request is the owner's own: the
child may see `quit_` and return while the owner is still in `quit`, whose `wakeup` then
uses a loop that is gone (`quit_dangles`).
-/

set_option autoImplicit false

namespace FastWebServer

open EventLoop

namespace EventLoopThread

variable {Other Functor : Type}

/-! ## The invariant -/

namespace Child

/-- Whether the loop has still to be published. -/
def early : Child → Bool
  | constructing | locking | publishing => true
  | _ => false

/-- Whether `loop_` points to the loop. -/
def hosts : Child → Bool
  | entering | clearing | looping | leaving => true
  | _ => false

end Child

/-- Whether the owner is in `start_loop`. -/
def Owner.starting : Owner → Bool
  | locking | testing | parked | woken => true
  | _ => false

/-- Whether the owner has seen that `loop_` was set. -/
def Owner.sees : Owner → Bool
  | running | quitting | rousing | joining => true
  | _ => false

/-- What holds of the two threads in every state. -/
structure HandsOver (system : System Other Functor) : Prop where
  childLocks : system.mutex = some .child ↔ system.child = .publishing
  ownerLocks : system.mutex = some .owner ↔ system.owner = .testing
  published : system.published = true ↔ system.child.hosts = true
  outside : system.owner = .outside → system.child = .notStarted
  starting : system.owner.starting = true → system.child ≠ .notStarted
  /-- The owner sleeps before the loop is published, or when it is gone. -/
  parked : system.owner = .parked → system.child.early = true ∨ system.child = .finished
  sees : system.owner.sees = true → system.child.hosts = true ∨ system.child = .finished
  exiting : system.owner = .exiting →
    system.child = .notStarted ∨ system.child.hosts = true ∨ system.child = .finished
  asked : system.loop.members.quit = true → system.requested = true
  inside : system.child = .looping → system.loop.phase ≠ .outside
  /-- The loop returns on a request only. -/
  returned : (system.child = .looping ∧ system.loop.phase = .returned) ∨
    system.child = .leaving ∨ system.child = .finished → system.requested = true

theorem handsOver_new : HandsOver (System.new : System Other Functor) := by
  constructor <;> simp [System.new, Child.hosts, Owner.starting, Owner.sees, EventLoop.System.new,
    EventLoop.new]

/-- The owner keeps the invariant. -/
theorem HandsOver.owner [DecidableEq Other] {system next : System Other Functor}
    (handsOver : HandsOver system) (step : OwnerStep system next) : HandsOver next := by
  obtain ⟨childLocks, ownerLocks, published, outside, starting, parked, sees, exiting, asked, inside,
    returned⟩ := handsOver
  cases step with
  | start stands =>
      have absent := outside stands
      constructor <;> simp_all [Child.hosts, Child.early, Owner.starting, Owner.sees]
  | lock waits free =>
      have begun : system.child ≠ .notStarted := by
        rcases waits with stands | stands <;> exact starting (by rw [stands]; rfl)
      constructor <;> simp_all [Owner.starting, Owner.sees]
  | wait stands unset =>
      -- the test has just found that the loop is not there
      have sleeps : system.child.early = true ∨ system.child = .finished := by
        have begun := starting (by rw [stands]; rfl)
        have hidden : system.child.hosts ≠ true := fun hosts => by simp [published.mpr hosts] at unset
        cases there : system.child <;> simp_all [Child.early, Child.hosts]
      constructor <;> simp_all [Owner.starting, Owner.sees]
  | wake stands => constructor <;> simp_all [Owner.starting, Owner.sees]
  | started stands set => constructor <;> simp_all [Owner.starting, Owner.sees]
  | destroy stands =>
      have known : system.child = .notStarted ∨ system.child.hosts = true ∨
          system.child = .finished := by
        rcases stands with away | running
        · exact .inl (outside away)
        · exact .inr (sees (by rw [running]; rfl))
      have unlocked : system.owner ≠ .testing := by rcases stands with there | there <;> simp [there]
      constructor <;> simp_all [Owner.starting, Owner.sees]
  | test stands =>
      cases set : system.published <;> constructor <;> simp_all [Owner.starting, Owner.sees]
  | quit stands => constructor <;> simp_all [Owner.starting, Owner.sees, System.put]
  | rouse stands => constructor <;> simp_all [Owner.starting, Owner.sees, System.put]
  | join stands finished => constructor <;> simp_all [Owner.starting, Owner.sees]

/-- The loop returns where it finds `quit_` set. -/
theorem loopStep_returned {system next : EventLoop.System Other Functor}
    (step : LoopStep system next) (returned : next.phase = .returned) :
    system.members.quit = true := by
  cases step with
  | leave stands quits => exact quits
  | read stands => simp [stands] at returned
  | loop | poll | polled | handle | handled | handleRead | eagain | doPendingFunctors | lock
  | swap | run | ran | handleExpired | expired => cases returned

/-- The child keeps the invariant. -/
theorem HandsOver.child {system next : System Other Functor}
    (handsOver : HandsOver system) (step : ChildStep system next) : HandsOver next := by
  obtain ⟨childLocks, ownerLocks, published, outside, starting, parked, sees, exiting, asked, inside,
    returned⟩ := handsOver
  cases step with
  | construct stands =>
      constructor <;>
        simp_all [Child.hosts, Child.early, EventLoop.System.new, EventLoop.new]
  | lock stands free => constructor <;> simp_all [Child.hosts, Child.early]
  | publish stands =>
      -- the owner that sleeps is woken, and any other stays where it is
      cases there : system.owner <;> constructor <;>
        simp_all [Child.hosts, Child.early, Owner.notified, Owner.starting, Owner.sees]
  | enter stands => constructor <;> simp_all [Child.hosts, Child.early]
  | clear stands => constructor <;> simp_all [Child.hosts, Child.early]
  | loop stands step =>
      obtain ⟨quit, within, -, -⟩ := loopStep_quit step (inside stands)
      have request := loopStep_returned step
      constructor <;> simp_all
  | leave stands returned => constructor <;> simp_all [Child.hosts, Child.early]
  | unpublish stands => constructor <;> simp_all [Child.hosts, Child.early]

/-- A call leaves the threads of the `EventLoopThread` where they are. -/
theorem HandsOver.call [DecidableEq Other] {system : System Other Functor}
    {thread : EventLoop.Thread (Option Other)} {next : EventLoop.System (Option Other) Functor}
    (handsOver : HandsOver system) (step : CallStep thread system.loop next) :
    HandsOver { system with
      loop := next
      requested := system.requested || next.members.quit } := by
  obtain ⟨childLocks, ownerLocks, published, outside, starting, parked, sees, exiting, asked, inside,
    returned⟩ := handsOver
  obtain ⟨phase, -⟩ := callStep_quit step
  refine ⟨childLocks, ownerLocks, published, outside, starting, parked, sees, exiting, fun set => ?_,
    fun looping => phase ▸ inside looping, fun back => ?_⟩
  · exact Bool.or_eq_true_iff.mpr (.inr set)
  · exact Bool.or_eq_true_iff.mpr (.inl (returned (phase ▸ back)))

/-- **The invariant holds in every reachable state.** -/
theorem handsOver [DecidableEq Other] {system : System Other Functor}
    (reachable : (machine Other Functor).Reachable system) : HandsOver system := by
  refine reachable.induction HandsOver ?_ ?_
  · rintro _ rfl
    exact handsOver_new
  · intro system next _ handsOver step
    cases step with
    | owner step => exact handsOver.owner step
    | child step => exact handsOver.child step
    | call _ _ step => exact handsOver.call step

/-! ## The pointer of the owner -/

/-- A child that has still to publish the loop can go on, unless the owner is testing. -/
theorem HandsOver.childMoves {system : System Other Functor} (handsOver : HandsOver system)
    (early : system.child.early = true) (apart : system.owner ≠ .testing) :
    ∃ next, ChildStep system next := by
  cases stands : system.child with
  | constructing => exact ⟨_, .construct stands⟩
  | publishing => exact ⟨_, .publish stands⟩
  | locking =>
      refine ⟨_, .lock stands ?_⟩
      cases holds : system.mutex with
      | none => rfl
      | some party =>
          cases party with
          | child => exact absurd (handsOver.childLocks.mp holds) (by simp [stands])
          | owner => exact absurd (handsOver.ownerLocks.mp holds) apart
  | notStarted | entering | clearing | looping | leaving | finished =>
      simp [stands, Child.early] at early

/-- An owner in `start_loop` that does not sleep can go on, or the child can publish the loop. -/
theorem HandsOver.ownerMoves [DecidableEq Other] {system : System Other Functor}
    (handsOver : HandsOver system) (starting : system.owner.starting = true)
    (awake : system.owner ≠ .parked) :
    (∃ next, OwnerStep system next) ∨ system.child.early = true ∧ ∃ next, ChildStep system next := by
  have locks : system.owner = .locking ∨ system.owner = .woken →
      (∃ next, OwnerStep system next) ∨
        system.child.early = true ∧ ∃ next, ChildStep system next := by
    intro waits
    cases holds : system.mutex with
    | none => exact .inl ⟨_, .lock waits holds⟩
    | some party =>
        cases party with
        | child =>
            have stands := handsOver.childLocks.mp holds
            exact .inr ⟨by rw [stands]; rfl, _, .publish stands⟩
        | owner =>
            have stands := handsOver.ownerLocks.mp holds
            rcases waits with waits | waits <;> simp [stands] at waits
  cases stands : system.owner with
  | locking => exact locks (.inl stands)
  | woken => exact locks (.inr stands)
  | testing =>
      cases set : system.published with
      | true => exact .inl ⟨_, .started stands set⟩
      | false => exact .inl ⟨_, .wait stands set⟩
  | parked => exact absurd stands awake
  | outside | running | exiting | quitting | rousing | joining | destroyed =>
      simp [stands, Owner.starting] at starting

/-- **The loop of an `EventLoopThread`.** In every state of every run, whatever other threads call:
the owner and the child are never both behind the lock; unless a request to quit has come first, the
owner does not sleep through the publication of the loop, and can always be helped on; and from
where it has seen that `loop_` is set until somebody asks the loop to quit, the pointer is set, the
loop is there, and it has not returned. The loop is gone only behind a request. -/
theorem startLoop_handsOver [DecidableEq Other] {system : System Other Functor}
    (reachable : (machine Other Functor).Reachable system) :
    ¬ (system.child = .publishing ∧ system.owner = .testing) ∧
      (system.requested = false →
        (system.owner = .parked → system.child.early = true) ∧
        (system.owner.starting = true →
          system.owner ≠ .parked ∧ (∃ next, OwnerStep system next) ∨
            system.child.early = true ∧ ∃ next, ChildStep system next) ∧
        (system.owner.sees = true →
          system.published = true ∧ system.child.hosts = true ∧
            (system.child = .looping → system.loop.phase ≠ .returned))) ∧
      (system.child = .finished → system.requested = true) := by
  have handsOver := handsOver reachable
  have gone : system.child = .finished → system.requested = true :=
    fun finished => handsOver.returned (.inr (.inr finished))
  refine ⟨?_, fun unasked => ?_, gone⟩
  · rintro ⟨publishes, tests⟩
    have both := (handsOver.childLocks.mpr publishes).symm.trans (handsOver.ownerLocks.mpr tests)
    simp at both
  · have there : system.child ≠ .finished := fun finished => by simp [gone finished] at unasked
    refine ⟨fun parked => (handsOver.parked parked).resolve_right there, fun starting => ?_,
      fun sees => ?_⟩
    · by_cases parked : system.owner = .parked
      · have early := (handsOver.parked parked).resolve_right there
        exact .inr ⟨early, handsOver.childMoves early (by simp [parked])⟩
      · exact (handsOver.ownerMoves starting parked).imp_left fun moves => ⟨parked, moves⟩
    · have hosts := (handsOver.sees sees).resolve_right there
      refine ⟨handsOver.published.mpr hosts, hosts, fun looping returned => ?_⟩
      simp [handsOver.returned (.inl ⟨looping, returned⟩)] at unasked

/-- **The request of the destructor may be too late for its wake-up.** The owner is in `quit`,
before `wakeup`, and the loop is gone. -/
theorem quit_dangles :
    ∃ system : System Unit Unit, (machine Unit Unit).Reachable system ∧ system.owner = .rousing ∧
      system.child = .finished ∧ system.requested = true := by
  have new : (machine Unit Unit).Reachable System.new := .start rfl
  have constructed := (new.step childStarted_step).step (.child (.construct rfl))
  have published := (constructed.step (.child (.lock rfl rfl))).step (.child (.publish rfl))
  have locked := published.step (.owner (.lock (.inl rfl) rfl))
  have running := locked.step (.owner (.started rfl rfl))
  have cleared := (running.step (.child (.enter rfl))).step (.child (.clear rfl))
  have found := (cleared.step (.owner (.destroy (.inr rfl)))).step (.owner (.test rfl))
  have asked := found.step (.owner (.quit rfl))
  have returned := asked.step (.child (.loop rfl (.leave rfl rfl)))
  have gone := (returned.step (.child (.leave rfl rfl))).step (.child (.unpublish rfl))
  exact ⟨_, gone, rfl, rfl, (startLoop_handsOver gone).2.2 rfl⟩

end EventLoopThread

end FastWebServer
