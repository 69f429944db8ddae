import FastWebServer.EventLoop.Delivery
import FastWebServer.EventLoop.FunctorQueue
import FastWebServer.Lifetimes

/-!
# The iterations of a loop that serves connections

`EventLoop::loop` of a loop thread: the functors of the loop are calls of `new_event` for
accepted connections, the channels that `poll` returns are those of its connections and
of the wake-up descriptor, and `handle_expired` ends an iteration. The other threads queue
functors and quit as in `EventLoop.machine`.

A running loop refines the machine of its functors (`refinesFunctors`). While the
descriptors queued on it are distinct, it is simulated by the machine of the loop thread,
which delivers and handles one event at a time (`simulatesWorld`). So what is known of every
run of that machine is known of the program's loop: its connections are served or closed at any
moment (`Running.iterations_sound`). A loop on which one descriptor is queued twice, as the
accept loop does it (`Server.acceptLoop_rounds`), has two connections of that descriptor, and
the tables of `World` hold one.
-/

set_option autoImplicit false

namespace FastWebServer

open Runs EventLoop

/-! ## Expiry -/

namespace World

variable {env : Env}

theorem pop_conns {world : World} {timer : Timer} (fd : Fd) :
    (world.pop env timer).conns fd ≠ none ↔ world.conns fd ≠ none := by
  unfold pop destroy
  split
  · rfl
  · rename_i closing _
    split
    · rfl
    · rename_i present
      by_cases same : fd = closing
      · subst same
        exact iff_of_true (by simp [update]) (present ▸ Option.some_ne_none _)
      · simp [update, same]

/-- Expiry neither makes connections nor forgets them. -/
theorem handleExpired_conns {world : World} (fd : Fd) :
    (world.handleExpired env).conns fd ≠ none ↔ world.conns fd ≠ none := by
  fun_induction World.handleExpired env world with
  | case1 => rfl
  | case2 world timer least deleted ih => exact ih.trans (pop_conns fd)
  | case3 => rfl
  | case4 world timer least undeleted expired ih => exact ih.trans (pop_conns fd)

end World

/-! ## A running loop -/

/-- A loop, the connections of its thread, and what is left of the vector `result`. -/
structure Running (Other : Type) where
  system : EventLoop.System Other Fd
  world : World
  result : List ChannelSptr

namespace Running

variable {Other : Type}

/-- A loop after its constructor. -/
def new : Running Other := { system := .new, world := .start, result := [] }

/-- What the machine of the functors sees of a channel. -/
def kind : ChannelSptr → EventLoop.Event
  | .wakeup => .wakeup
  | .connection _ => .other

/-- What `epoll_wait` may answer: at most one event for a descriptor, whose entry is armed,
and no more events than the array has elements. -/
structure Ready (world : World) (events : List EpollEvent) : Prop where
  fits : events.length ≤ 4096
  distinct : ((sockets events).map Prod.fst).Nodup
  armed : ∀ fd ∈ (sockets events).map Prod.fst,
    ∃ interest, world.loop.kernel fd = some interest ∧ interest.armed = true

/-- The phases whose steps concern the functors only. -/
def internal : Phase Fd → Bool
  | .polling => false
  | .events (_ :: _) => false
  | .functors (_ :: _) => false
  | .expiring => false
  | _ => true

/-- One step of a running loop. -/
inductive Step [DecidableEq Other] (env : Env) : Running Other → Running Other → Prop where
  /-- Another thread, in `queue_in_loop` or in `quit`. -/
  | call {state : Running Other} {system : EventLoop.System Other Fd} (id : Other)
      (step : CallStep (.other id) state.system system) :
      Step env state { state with system := system }
  /-- `poll` returns. -/
  | polled {state : Running Other} (events : List EpollEvent)
      (stands : state.system.phase = .polling) (ready : Ready state.world events)
      (some : (state.world.pollRound events).2 ≠ []) :
      Step env state
        { system := { state.system with
            members := { state.system.members with eventHandling := true }
            phase := .events ((state.world.pollRound events).2.map kind) }
          world := (state.world.pollRound events).1
          result := (state.world.pollRound events).2 }
  /-- `poll` goes round once more. -/
  | pollAgain {state : Running Other} (events : List EpollEvent)
      (stands : state.system.phase = .polling) (ready : Ready state.world events)
      (none : (state.world.pollRound events).2 = []) :
      Step env state { state with world := (state.world.pollRound events).1 }
  /-- `handle_events` of a connection. -/
  | handle {state : Running Other} {fd : Fd} {rest : List ChannelSptr}
      {left : List EventLoop.Event} {http : HttpData} {io : Io} {conn : Conn}
      (stands : state.system.phase = .events (.other :: left))
      (next : state.result = .connection fd :: rest) (present : state.world.conns fd = some http)
      (ran : Conn.handleEvents env ⟨http, io, state.world.loop⟩ = .ok conn) :
      Step env state
        { system := { state.system with phase := .handler left }
          world := state.world.update fd conn
          result := rest }
  /-- `handle_events` of the wake-up channel. -/
  | handleWakeup {state : Running Other} {rest : List ChannelSptr} {left : List EventLoop.Event}
      (stands : state.system.phase = .events (.wakeup :: left))
      (next : state.result = .wakeup :: rest) :
      Step env state
        { state with
          system := { state.system with phase := .reading left }
          result := rest }
  /-- A functor, which is a call of `new_event`. -/
  | run {state : Running Other} {fd : Fd} {left : List Fd}
      (stands : state.system.phase = .functors (fd :: left)) :
      Step env state
        { state with
          system := { state.system with
            phase := .functor left
            executed := state.system.executed ++ [fd] }
          world := state.world.newEvent env fd }
  | handleExpired {state : Running Other} (stands : state.system.phase = .expiring) :
      Step env state
        { state with
          system := { state.system with phase := .testing }
          world := state.world.handleExpired env }
  /-- The other steps of `loop()`. -/
  | move {state : Running Other} {system : EventLoop.System Other Fd}
      (step : LoopStep state.system system) (inside : internal state.system.phase = true) :
      Step env state { state with system := system }

variable (Other) in
/-- The state machine of a running loop. -/
def machine [DecidableEq Other] (env : Env) : Machine (Running Other) where
  start state := state = .new
  step := Step env

/-! ## The functors -/

variable [DecidableEq Other] {env : Env}

/-- **A running loop refines the machine of its functors.** -/
theorem refinesFunctors :
    Refines (machine Other env) (EventLoop.machine Other Fd) Running.system where
  start := by
    rintro _ rfl
    rfl
  step := by
    intro state next _ step
    cases step with
    | call id step => exact .inr (.call _ step)
    | polled events stands => exact .inr (.loop (.polled _ stands))
    | pollAgain => exact .inl rfl
    | handle stands => exact .inr (.loop (.handle stands))
    | handleWakeup stands => exact .inr (.loop (.handleRead stands))
    | run stands => exact .inr (.loop (.run stands))
    | handleExpired stands => exact .inr (.loop (.expired stands))
    | move step => exact .inr (.loop step)

/-- A queue only grows. -/
theorem Step.queued_prefix {state next : Running Other} (step : Step env state next) :
    state.system.queued <+: next.system.queued := by
  cases step with
  | call id step =>
      cases step with
      | push => exact List.prefix_append ..
      | queueInLoop | lock | test | wakeup | quit | rouse => exact List.prefix_rfl
  | move step => cases step <;> exact List.prefix_rfl
  | polled | pollAgain | handle | handleWakeup | run | handleExpired => exact List.prefix_rfl

/-! ## The connections -/

/-- What is left of `result` in a phase. -/
def eventsLeft : Phase Fd → List EventLoop.Event
  | .events left => left
  | .handler left => left
  | .reading left => left
  | _ => []

/-- A channel whose event can be delivered. -/
structure Deliverable (world : World) (fd : Fd) : Prop where
  present : ∃ http, world.conns fd = some http
  armed : ∃ interest, world.loop.kernel fd = some interest ∧ interest.armed = true
  stored : world.loop.fdToChannel fd = true

/-- That a running loop is at a world of the loop thread to which some events have been
delivered: those whose channels are left in `result`. -/
structure Follows (batch : List (Fd × Mask)) (state : Running Other) (image : World) : Prop where
  world : state.world = image.delivered batch
  distinct : (batch.map Prod.fst).Nodup
  polled : connections state.result = batch.map Prod.fst
  deliverable : ∀ fd ∈ batch.map Prod.fst, Deliverable image fd
  left : eventsLeft state.system.phase = state.result.map kind
  served : ∀ fd, image.conns fd ≠ none ↔ fd ∈ state.system.executed

omit [DecidableEq Other] in
/-- Outside of the handlers every event has been handled. -/
theorem Follows.handled {batch : List (Fd × Mask)} {state : Running Other} {image : World}
    (follows : Follows batch state image) (none : eventsLeft state.system.phase = []) :
    state.result = [] ∧ batch = [] ∧ state.world = image := by
  have result : state.result = [] := by
    have left := follows.left
    rw [none] at left
    exact List.map_eq_nil_iff.mp left.symm
  have empty : batch = [] := by
    have polled := follows.polled
    rw [result] at polled
    exact List.map_eq_nil_iff.mp polled.symm
  refine ⟨result, empty, ?_⟩
  rw [follows.world, empty, World.delivered_nil]

omit [DecidableEq Other] in
/-- A step of the functors that serves none. -/
theorem Follows.congr {batch : List (Fd × Mask)} {state : Running Other} {image : World}
    {system : EventLoop.System Other Fd} (follows : Follows batch state image)
    (left : eventsLeft system.phase = eventsLeft state.system.phase)
    (executed : system.executed = state.system.executed) :
    Follows batch { state with system := system } image :=
  ⟨follows.world, follows.distinct, follows.polled, follows.deliverable, left.trans follows.left,
    executed ▸ follows.served⟩

theorem callStep_same {thread : EventLoop.Thread Other} {system next : EventLoop.System Other Fd}
    (step : CallStep thread system next) :
    next.phase = system.phase ∧ next.executed = system.executed := by
  cases step <;> exact ⟨rfl, rfl⟩

omit [DecidableEq Other] in
theorem loopStep_same {system next : EventLoop.System Other Fd} (step : LoopStep system next)
    (inside : internal system.phase = true) :
    eventsLeft next.phase = eventsLeft system.phase ∧ next.executed = system.executed := by
  cases step with
  | polled _ stands | handle stands | handleRead stands | run stands | expired stands =>
      rw [stands] at inside
      cases inside
  | read => exact ⟨rfl, rfl⟩
  | loop stands | poll stands | leave stands | handled stands | eagain stands
  | doPendingFunctors stands | lock stands | swap stands | ran stands | handleExpired stands =>
      exact ⟨by rw [stands]; rfl, rfl⟩

omit [DecidableEq Other] in
/-- What becomes of the events of a round. -/
theorem Follows.pollRound {batch : List (Fd × Mask)} {state : Running Other} {image : World}
    (follows : Follows batch state image) (sound : World.Sound image)
    {events : List EpollEvent} (stands : state.system.phase = .polling)
    (ready : Ready state.world events) :
    ∃ later, Relation.ReflTransGen (World.Step env) image later ∧
      ∀ system : EventLoop.System Other Fd,
        eventsLeft system.phase = (state.world.pollRound events).2.map kind →
        system.executed = state.system.executed →
        Follows (image.storedEvents events)
          ⟨system, (state.world.pollRound events).1, (state.world.pollRound events).2⟩ later := by
  obtain ⟨-, -, rfl⟩ := follows.handled (by rw [stands]; rfl)
  obtain ⟨prepared, answered⟩ := World.pollRound_eq ready.distinct
  have ignored : Relation.ReflTransGen (World.Step env) state.world
      { state.world with
        loop := state.world.loop.epollWait
          (((sockets events).map Prod.fst).filter fun fd => !state.world.loop.fdToChannel fd) } :=
    World.ignored_run (ready.distinct.filter _)
      (fun fd member => ready.armed fd (List.mem_of_mem_filter member))
      (fun fd member => by simpa using (List.mem_filter.mp member).2)
  refine ⟨_, ignored, fun system left executed => ?_⟩
  have subset : ∀ fd ∈ (state.world.storedEvents events).map Prod.fst,
      fd ∈ (sockets events).map Prod.fst ∧ state.world.loop.fdToChannel fd = true := by
    intro fd member
    obtain ⟨event, kept, rfl⟩ := List.mem_map.mp member
    obtain ⟨member, stored⟩ := List.mem_filter.mp kept
    exact ⟨List.mem_map_of_mem member, stored⟩
  refine ⟨prepared, ?_, answered, fun fd member => ?_, left, executed ▸ follows.served⟩
  · exact ready.distinct.sublist ((List.filter_sublist ..).map _)
  · obtain ⟨listed, stored⟩ := subset fd member
    refine ⟨?_, ?_, stored⟩
    · cases present : state.world.conns fd with
      | some http => exact ⟨http, rfl⟩
      | none =>
          have silent := (sound.absent fd present).silent
          rw [stored] at silent
          cases silent
    · obtain ⟨interest, entry, armed⟩ := ready.armed fd listed
      refine ⟨interest, ?_, armed⟩
      show (state.world.loop.epollWait _).kernel fd = some interest
      rw [Loop.epollWait_kernel, if_neg (by simp [stored]), entry]

omit [DecidableEq Other] in
/-- The next channel is the one of the next event. -/
theorem Follows.next {batch : List (Fd × Mask)} {state : Running Other} {image : World}
    (follows : Follows batch state image) {fd : Fd} {rest : List ChannelSptr}
    (next : state.result = .connection fd :: rest) :
    ∃ revents batch', batch = (fd, revents) :: batch' ∧ connections rest = batch'.map Prod.fst := by
  have polled := follows.polled
  rw [next] at polled
  obtain ⟨⟨_, revents⟩, batch', rfl, same, polled'⟩ := List.map_eq_cons_iff.mp polled.symm
  exact ⟨revents, batch', by rw [← same], polled'.symm⟩

omit [DecidableEq Other] in
/-- **The event of one connection is handled.** -/
theorem Follows.handle {fd : Fd} {revents : Mask} {batch : List (Fd × Mask)}
    {state : Running Other} {image : World}
    (follows : Follows ((fd, revents) :: batch) state image) (sound : World.Sound image)
    {rest : List ChannelSptr} {left : List EventLoop.Event} {http : HttpData} {io : Io}
    {conn : Conn} (stands : state.system.phase = .events (.other :: left))
    (next : state.result = .connection fd :: rest)
    (polled : connections rest = batch.map Prod.fst)
    (present : state.world.conns fd = some http)
    (ran : Conn.handleEvents env ⟨http, io, state.world.loop⟩ = .ok conn) :
    ∃ later, World.Step env image later ∧
      Follows batch ⟨{ state.system with phase := .handler left }, state.world.update fd conn, rest⟩
        later := by
  obtain ⟨notMember, distinct⟩ := List.nodup_cons.mp follows.distinct
  obtain ⟨⟨before, stood⟩, ⟨interest, entry, armed⟩, stored⟩ :=
    follows.deliverable fd (List.mem_cons_self ..)
  rw [follows.world] at present ran
  rw [World.delivered_conns_self, stood, Option.map_some, Option.some.injEq] at present
  subst present
  obtain ⟨alone, runs, same⟩ := World.dispatch_delivered sound stood stored entry notMember ran
  obtain ⟨own, serving, -⟩ := sound.serving stood stored
  have effect := Conn.handleEvents_effect (World.serving_request serving revents interest)
    (sound.orderly.congr rfl rfl) runs
  have frame : Frame fd image.loop alone.loop :=
    (World.frame_disarm fd interest image.loop).trans (own ▸ effect.frame)
  refine ⟨image.update fd alone, .dispatch stood entry armed stored runs, ?_, distinct,
    polled, fun other member => ?_, ?_, fun other => ?_⟩
  · rw [← same, follows.world]
  · have ne : other ≠ fd := fun equal => notMember (equal ▸ member)
    obtain ⟨⟨http', present'⟩, ⟨interest', entry', armed'⟩, stored'⟩ :=
      follows.deliverable other (List.mem_cons_of_mem _ member)
    exact ⟨⟨http', (Function.update_of_ne ne ..).trans present'⟩,
      ⟨interest', (frame.kernel other ne).trans entry', armed'⟩,
      (frame.fdToChannel other ne).trans stored'⟩
  · have aligned := follows.left
    rw [stands, next] at aligned
    exact (List.cons.inj aligned).2
  · rw [← follows.served other]
    by_cases equal : other = fd
    · subst equal
      exact iff_of_true (by simp [World.update]) (by simp [stood])
    · simp [World.update, equal]

/-- The order of the functors of a running loop. -/
theorem inOrder {state : Running Other} (reachable : (machine Other env).Reachable state) :
    state.system.executed ++ (state.system.phase.functorList ++
      state.system.members.pendingFunctors) = state.system.queued :=
  Fifo.Reachable.inOrder
    ((EventLoop.refines Other Fd).reachable (refinesFunctors.reachable reachable))

/-- Where no descriptor is queued twice, a functor that is about to run has not run. -/
theorem notExecuted {state : Running Other} (reachable : (machine Other env).Reachable state)
    (distinct : state.system.queued.Nodup) {fd : Fd} {left : List Fd}
    (stands : state.system.phase = .functors (fd :: left)) : fd ∉ state.system.executed := by
  have ordered := inOrder reachable
  rw [stands] at ordered
  rw [← ordered] at distinct
  exact fun member =>
    (List.nodup_append.mp distinct).2.2 fd member fd (List.mem_cons_self ..) rfl

/-- **The machine of the loop thread simulates a running loop**, as long as the descriptors
queued on it are distinct. -/
theorem simulatesWorld :
    Simulates (machine Other env) (World.machine env)
      fun state image => state.system.queued.Nodup → ∃ batch, Follows batch state image where
  start := by
    rintro _ rfl
    refine ⟨World.start, rfl, fun _ => ⟨[], rfl, List.nodup_nil, rfl, ?_, rfl, fun fd => ?_⟩⟩
    · exact fun fd member => absurd member List.not_mem_nil
    · exact iff_of_false (fun present => present rfl) List.not_mem_nil
  step := by
    intro state next image reachable reached related step
    -- A descriptor that is queued twice stays queued twice.
    by_cases distinct : next.system.queued.Nodup
    swap
    · exact ⟨image, .refl, fun unique => absurd unique distinct⟩
    have before : state.system.queued.Nodup := distinct.sublist step.queued_prefix.sublist
    obtain ⟨batch, follows⟩ := related before
    have sound := World.reachable_sound reached
    cases step with
    | call id step =>
        obtain ⟨phase, executed⟩ := callStep_same step
        exact ⟨image, .refl, fun _ => ⟨batch, follows.congr (by rw [phase]) executed⟩⟩
    | move step inside =>
        obtain ⟨left, executed⟩ := loopStep_same step inside
        exact ⟨image, .refl, fun _ => ⟨batch, follows.congr left executed⟩⟩
    | polled events stands ready =>
        obtain ⟨later, run, polls⟩ := follows.pollRound sound stands ready
        exact ⟨later, run, fun _ => ⟨_, polls _ rfl rfl⟩⟩
    | pollAgain events stands ready nothing =>
        obtain ⟨later, run, polls⟩ := follows.pollRound sound stands ready
        obtain ⟨result, -, -⟩ := follows.handled (by rw [stands]; rfl)
        have again := polls state.system (by rw [nothing, stands]; rfl) rfl
        rw [nothing] at again
        exact ⟨later, run, fun _ => ⟨_, result ▸ again⟩⟩
    | handle stands next present ran =>
        obtain ⟨revents, batch', rfl, polled⟩ := follows.next next
        obtain ⟨later, handles, after⟩ := follows.handle sound stands next polled present ran
        exact ⟨later, .single handles, fun _ => ⟨batch', after⟩⟩
    | handleWakeup stands next =>
        have polled := follows.polled
        have left := follows.left
        rw [next] at polled left
        rw [stands] at left
        exact ⟨image, .refl, fun _ => ⟨batch, follows.world, follows.distinct, polled,
          follows.deliverable, (List.cons.inj left).2, follows.served⟩⟩
    | @run fd _ stands =>
        obtain ⟨result, rfl, rfl⟩ := follows.handled (by rw [stands]; rfl)
        have fresh : state.world.conns fd = none := by
          by_contra present
          exact notExecuted reachable before stands ((follows.served fd).mp present)
        refine ⟨_, .single (.newEvent fd fresh), fun _ =>
          ⟨[], rfl, List.nodup_nil, follows.polled, ?_, ?_, ?_⟩⟩
        · exact fun fd member => absurd member List.not_mem_nil
        · rw [result]
          rfl
        · intro other
          rw [List.mem_append, ← follows.served other, List.mem_singleton]
          by_cases equal : other = fd
          · subst equal
            exact iff_of_true (by simp [World.newEvent, World.update]) (.inr rfl)
          · simp [World.newEvent, World.update, equal]
    | handleExpired stands =>
        obtain ⟨result, rfl, rfl⟩ := follows.handled (by rw [stands]; rfl)
        refine ⟨_, .single .handleExpired, fun _ =>
          ⟨[], rfl, List.nodup_nil, follows.polled, ?_, ?_, ?_⟩⟩
        · exact fun fd member => absurd member List.not_mem_nil
        · rw [result]
          rfl
        · exact fun fd => (World.handleExpired_conns fd).trans (follows.served fd)

/-- Another thread queues a connection, which is set up after the wake-up. -/
theorem oneQueued_reachable :
    ∃ state : Running ℕ, (machine ℕ Env.calm).Reachable state ∧
      state.system.phase = .functor [] ∧ state.system.executed = [5] ∧
      state.system.queued = [5] := by
  have loops : (machine ℕ Env.calm).Reachable _ :=
    (Machine.Reachable.start rfl).step (.move (.loop rfl) rfl)
  have polls := loops.step (.move (.poll rfl rfl) rfl)
  have calls := polls.step (.call 0 (.queueInLoop 5 rfl nofun))
  have locks := calls.step (.call 0 (.lock rfl rfl))
  have pushes := locks.step (.call 0 (.push rfl rfl))
  have tests := pushes.step (.call 0 (.test rfl))
  have wakes := tests.step (.call 0 (.wakeup rfl))
  have polled := wakes.step (.polled [.wakeup] rfl ⟨by decide, List.nodup_nil, nofun⟩ nofun)
  have reads := (polled.step (.handleWakeup rfl rfl)).step (.move (.read rfl (wakeup_pos 0)) rfl)
  have handled := reads.step (.move (.eagain rfl rfl) rfl)
  have pending :=
    (handled.step (.move (.doPendingFunctors rfl) rfl)).step (.move (.lock rfl rfl) rfl)
  have runs := (pending.step (.move (.swap rfl rfl) rfl)).step (.run rfl)
  exact ⟨_, runs, rfl, rfl, rfl⟩

/-- **The program's loop.** At any moment of any run on which no descriptor has been queued
twice, its connections are served or closed as the invariant of the loop thread says. And
whenever all the events that `poll` returned have been handled, the loop thread alone, handling
each event when it is delivered, comes to the same connections and the same poller. -/
theorem iterations_sound {state : Running Other}
    (reachable : (machine Other env).Reachable state) (distinct : state.system.queued.Nodup) :
    World.Sound state.world ∧
      (eventsLeft state.system.phase = [] → (World.machine env).Reachable state.world) := by
  obtain ⟨image, reached, related⟩ := simulatesWorld.reachable reachable
  obtain ⟨batch, follows⟩ := related distinct
  refine ⟨?_, fun none => ?_⟩
  · rw [follows.world]
    exact (World.reachable_sound reached).delivered batch
  · obtain ⟨-, -, rfl⟩ := follows.handled none
    exact reached

/-- A loop that has just set up its first connection. -/
theorem oneQueued_sound :
    ∃ state : Running ℕ, state.system.executed = [5] ∧ World.Sound state.world ∧
      (World.machine Env.calm).Reachable state.world := by
  obtain ⟨state, reachable, phase, executed, queued⟩ := oneQueued_reachable
  have distinct : state.system.queued.Nodup := by
    rw [queued]
    exact List.nodup_singleton 5
  obtain ⟨sound, serial⟩ := iterations_sound reachable distinct
  exact ⟨state, executed, sound, serial (by rw [phase]; rfl)⟩

end Running

end FastWebServer
