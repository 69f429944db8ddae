import FastWebServer.Channel
import FastWebServer.Library.Runs

/-!
# The loop thread

The connections of one event loop. A step of the loop thread is `new_event` for an
accepted descriptor, an event that the kernel delivers to a channel, or
`handle_expired_event`. `machine` is the state machine of these steps. The events
of a step, the answers of the socket and the files are arbitrary, and so are the
clock and the failures of `epoll_ctl`, which an `Env` fixes for a whole run.

A run sets up one connection for a descriptor: the kernel does not hand the number out
again, as no destructor of the program closes the descriptor of a connection. The accept
loop queues further connections of a descriptor that it has accepted
(`Server.acceptLoop_rounds`), and the tables here hold one.

`Sound` is the invariant of all runs (`reachable_sound`): every connection is
`Serving` or `Closed`, the latter if and only if `handle_close` has run for it.
-/

set_option autoImplicit false

namespace FastWebServer

open Cxx

/-- A socket that is not used. -/
def Io.unused : Io :=
  { reads := []
    writes := []
    files := { stat := fun _ => none, openRead := fun _ => false, mmap := fun _ _ => none }
    sent := [] }

/-- The connections of a loop, and what they share. -/
structure World where
  conns : Fd → Option HttpData
  loop : Loop

namespace World

/-- The world before the first connection. -/
def start : World := { conns := fun _ => none, loop := Loop.new }

/-- The world after a connection has been worked on. -/
def update (world : World) (fd : Fd) (conn : Conn) : World :=
  { conns := Function.update world.conns fd (some conn.http), loop := conn.loop }

/-! ## Steps -/

/-- `new_event` of a new connection. -/
def newEvent (env : Env) (fd : Fd) (world : World) : World :=
  world.update fd (Conn.newEvent env ⟨HttpData.new fd, Io.unused, world.loop⟩)

/-- The delivery of an event disarms an entry that is for one event. -/
def disarm (fd : Fd) (interest : Interest) (loop : Loop) : Loop :=
  let left : Interest := { interest with armed := !interest.mask.meets epollOneshot }
  { loop with kernel := Function.update loop.kernel fd (some left) }

/-- What `get_events_request` does to the channel of a delivered event. -/
def request (http : HttpData) (revents : Mask) : HttpData :=
  { http with channel := { http.channel with revents := revents, events := 0#32 } }

/-- `~Timer`, which closes the connection that the timer holds. -/
def destroy (env : Env) (timer : Timer) (world : World) : World :=
  match timer.holder with
  | none => world
  | some fd =>
      match world.conns fd with
      | none => world
      | some http => world.update fd (Conn.handleClose env ⟨http, Io.unused, world.loop⟩)

/-- `timer_pqueue.pop()`, which destroys the timer. -/
def pop (env : Env) (timer : Timer) (world : World) : World :=
  destroy env timer
    { world with loop := { world.loop with timers := world.loop.timers.erase timer } }

/-- A call of `gettimeofday`. -/
def tick (world : World) : World :=
  { world with loop := { world.loop with ticks := world.loop.ticks + 1 } }

theorem pop_timers (env : Env) (timer : Timer) (world : World) :
    (world.pop env timer).loop.timers = world.loop.timers.erase timer := by
  unfold pop destroy
  split
  · rfl
  · split <;> rfl

/-- `handle_expired_event`. -/
def handleExpired (env : Env) (world : World) : World :=
  match _least : env.queue.top world.loop.timers with
  | none => world
  | some timer =>
      if timer.deleted then handleExpired env (world.pop env timer)
      else if timer.isValid (env.clock world.loop.ticks) then world.tick
      else handleExpired env (world.tick.pop env timer)
termination_by world.loop.timers.length
decreasing_by
  all_goals
    have member := env.queue.top_mem _ _ _least
    have shorter : (world.loop.timers.erase timer).length < world.loop.timers.length := by
      rw [List.length_erase_of_mem member]
      exact Nat.sub_lt (List.length_pos_of_mem member) Nat.one_pos
    simpa only [pop_timers, tick] using shorter

/-- One step of the loop thread. -/
inductive Step (env : Env) : World → World → Prop where
  /-- The first connection of a descriptor. -/
  | newEvent {world : World} (fd : Fd) (fresh : world.conns fd = none) :
      Step env world (world.newEvent env fd)
  | dispatch {world : World} {fd : Fd} {http : HttpData} {interest : Interest} {revents : Mask}
      {io : Io} {conn : Conn} (present : world.conns fd = some http)
      (entry : world.loop.kernel fd = some interest) (armed : interest.armed = true)
      (stored : world.loop.fdToChannel fd = true)
      (ran : Conn.handleEvents env ⟨request http revents, io, disarm fd interest world.loop⟩ =
        .ok conn) :
      Step env world (world.update fd conn)
  | ignored {world : World} {fd : Fd} {interest : Interest}
      (entry : world.loop.kernel fd = some interest) (armed : interest.armed = true)
      (unset : world.loop.fdToChannel fd = false) :
      Step env world { world with loop := disarm fd interest world.loop }
  | handleExpired {world : World} : Step env world (world.handleExpired env)

/-- The state machine of a loop thread. -/
def machine (env : Env) : Runs.Machine World where
  start world := world = start
  step := Step env

/-! ## The invariant -/

/-- After a connection is closed it is not registered again. -/
def LogSettled (log : List (Fd × Action)) : Prop :=
  log.Pairwise fun earlier later =>
    earlier.1 = later.1 → earlier.2.closes = true → later.2.rearms = false

/-- `handle_connect` is never entered by an idle connection. -/
def LogIdleFree (log : List (Fd × Action)) : Prop :=
  ∀ fd self, (fd, Action.handleConnect self) ∈ log → ¬ self.Idle

/-- A descriptor that no connection has. -/
structure Unknown (fd : Fd) (loop : Loop) : Prop where
  unguarded : live loop.timers fd = []
  silent : loop.fdToChannel fd = false
  dropped : loop.fdToHttp fd = false
  unregistered : loop.kernel fd = none
  unlogged : ∀ action, (fd, action) ∉ loop.log

/-- The state of a connection, and whether it has been closed. -/
def Settles (fd : Fd) (http : HttpData) (loop : Loop) : Prop :=
  http.fd = fd ∧
    (Serving http loop ∧ (fd, Action.handleClose) ∉ loop.log ∨
      Closed http loop ∧ (fd, Action.handleClose) ∈ loop.log)

/-- The invariant of the loop thread. -/
structure Sound (world : World) : Prop where
  orderly : world.loop.Orderly
  absent : ∀ fd, world.conns fd = none → Unknown fd world.loop
  present : ∀ fd http, world.conns fd = some http → Settles fd http world.loop
  settled : LogSettled world.loop.log ↔ LogIdleFree world.loop.log

theorem sound_start : Sound start where
  orderly := Loop.orderly_new
  absent _ _ := ⟨rfl, rfl, rfl, rfl, fun _ => List.not_mem_nil⟩
  present _ _ present := by cases present
  settled := iff_of_true .nil fun _ _ member => absurd member List.not_mem_nil

/-- What is logged for a connection that is not closed settles the whole log if
it is settled itself. -/
theorem logSettled_append {log : List (Fd × Action)} {fd : Fd} {actions : List Action}
    (opened : (fd, Action.handleClose) ∉ log) :
    LogSettled (log ++ actions.map (Prod.mk fd)) ↔ LogSettled log ∧ Settled actions := by
  unfold LogSettled Settled
  rw [List.pairwise_append, List.pairwise_map]
  constructor
  · exact fun settled => ⟨settled.1, settled.2.1.imp fun step => step rfl⟩
  · rintro ⟨earlier, later⟩
    refine ⟨earlier, List.Pairwise.imp (fun step _ closes => step closes) later, ?_⟩
    rintro ⟨other, action⟩ logged entry member same closes
    obtain ⟨rearming, -, rfl⟩ := List.mem_map.mp member
    obtain rfl : other = fd := same
    cases action <;> first | exact absurd logged opened | cases closes

theorem logIdleFree_append {log : List (Fd × Action)} {fd : Fd} {actions : List Action} :
    LogIdleFree (log ++ actions.map (Prod.mk fd)) ↔ LogIdleFree log ∧ IdleFree actions := by
  unfold LogIdleFree IdleFree
  constructor
  · intro free
    exact ⟨fun other self member => free other self (List.mem_append_left _ member),
      fun self member => free fd self (List.mem_append_right _ (List.mem_map.mpr ⟨_, member, rfl⟩))⟩
  · rintro ⟨earlier, later⟩ other self member
    rcases List.mem_append.mp member with member | member
    · exact earlier other self member
    · obtain ⟨action, member, same⟩ := List.mem_map.mp member
      obtain ⟨rfl, rfl⟩ := Prod.mk.inj same
      exact later self member

/-- An entry for another descriptor is an old one. -/
theorem mem_log_of_ne {log : List (Fd × Action)} {fd other : Fd} {actions : List Action}
    {action : Action} (ne : other ≠ fd) :
    (other, action) ∈ log ++ actions.map (Prod.mk fd) ↔ (other, action) ∈ log := by
  rw [List.mem_append, List.mem_map]
  constructor
  · rintro (earlier | ⟨_, -, same⟩)
    · exact earlier
    · exact absurd (Prod.mk.inj same).1.symm ne
  · exact .inl

/-- A connection is settled as it was in a loop that is the same for it. -/
theorem Settles.congr {fd : Fd} {http : HttpData} {loop loop' : Loop} (settles : Settles fd http loop)
    (guarded : live loop'.timers fd = live loop.timers fd)
    (fdToHttp : loop'.fdToHttp fd = loop.fdToHttp fd)
    (fdToChannel : loop'.fdToChannel fd = loop.fdToChannel fd)
    (log : (fd, Action.handleClose) ∈ loop'.log ↔ (fd, Action.handleClose) ∈ loop.log) :
    Settles fd http loop' := by
  obtain ⟨rfl, outcome⟩ := settles
  refine ⟨rfl, ?_⟩
  rw [log]
  refine outcome.imp (And.imp_left fun serving => ?_) (And.imp_left fun closed => ?_)
  · exact ⟨serving.own, serving.unfailed, serving.connected, serving.unkept,
      fdToHttp.trans serving.held, by simpa only [Guarded, guarded] using serving.guarded⟩
  · exact ⟨closed.own, closed.disconnected, fdToChannel.trans closed.silent,
      fdToHttp.trans closed.dropped, guarded.trans closed.unguarded⟩

/-- **A step of one connection keeps the invariant**, when the connection was not
closed and is now serving or closed. -/
theorem Sound.update {world : World} (sound : Sound world) {fd : Fd} {conn : Conn}
    {actions : List Action} (opened : (fd, Action.handleClose) ∉ world.loop.log)
    (same : conn.http.fd = fd) (orderly : conn.loop.Orderly)
    (frame : Frame fd world.loop conn.loop)
    (log : conn.loop.log = world.loop.log ++ actions.map (Prod.mk fd))
    (settled : Settled actions ↔ IdleFree actions)
    (outcome : Serving conn.http conn.loop ∧ (∀ action ∈ actions, action.closes = false) ∨
      Closed conn.http conn.loop ∧ Action.handleClose ∈ actions) :
    Sound (world.update fd conn) := by
  refine ⟨orderly, ?_, ?_, ?_⟩
  · intro other absent
    have ne : other ≠ fd := by
      rintro rfl
      simp [World.update] at absent
    have unknown := sound.absent other (by
      simpa only [World.update, Function.update_of_ne ne] using absent)
    refine ⟨?_, ?_, ?_, ?_, ?_⟩
    · exact (frame.live other ne).trans unknown.unguarded
    · exact (frame.fdToChannel other ne).trans unknown.silent
    · exact (frame.fdToHttp other ne).trans unknown.dropped
    · exact (frame.kernel other ne).trans unknown.unregistered
    · intro action
      show (other, action) ∉ conn.loop.log
      rw [log, mem_log_of_ne ne]
      exact unknown.unlogged action
  · intro other http present
    by_cases ne : other = fd
    · subst ne
      simp only [World.update, Function.update_self, Option.some.injEq] at present
      subst present
      refine ⟨same, ?_⟩
      show Serving conn.http conn.loop ∧ (other, Action.handleClose) ∉ conn.loop.log ∨
        Closed conn.http conn.loop ∧ (other, Action.handleClose) ∈ conn.loop.log
      rw [log]
      rcases outcome with ⟨serving, unclosed⟩ | ⟨closed, closing⟩
      · refine .inl ⟨serving, fun member => ?_⟩
        rcases List.mem_append.mp member with earlier | later
        · exact opened earlier
        · obtain ⟨action, member, same⟩ := List.mem_map.mp later
          obtain ⟨-, rfl⟩ := Prod.mk.inj same
          cases unclosed _ member
      · exact .inr ⟨closed, List.mem_append_right _ (List.mem_map.mpr ⟨_, closing, rfl⟩)⟩
    · simp only [World.update, Function.update_of_ne ne] at present
      refine (sound.present other http present).congr (frame.live other ne)
        (frame.fdToHttp other ne) (frame.fdToChannel other ne) ?_
      show _ ∈ conn.loop.log ↔ _
      rw [log, mem_log_of_ne ne]
  · show LogSettled conn.loop.log ↔ LogIdleFree conn.loop.log
    rw [log, logSettled_append opened, logIdleFree_append, sound.settled, settled]

/-! ## Every step keeps the invariant -/

variable {env : Env} {world : World} {fd : Fd}

theorem Sound.newEvent (sound : Sound world) (fresh : world.conns fd = none) :
    Sound (world.newEvent env fd) := by
  have unknown := sound.absent fd fresh
  obtain ⟨effect, serving, log, -⟩ := @Conn.newEvent_effect env
    ⟨HttpData.new fd, Io.unused, world.loop⟩ rfl rfl rfl rfl sound.orderly unknown.unguarded
  refine sound.update (unknown.unlogged _) effect.fd effect.orderly effect.frame log ?_ ?_
  · exact iff_of_true (List.pairwise_singleton ..) (by simp [IdleFree])
  · exact .inl ⟨serving, by simp [Action.closes]⟩

/-- A connection whose channel is stored is serving. -/
theorem Sound.serving (sound : Sound world) {http : HttpData} (present : world.conns fd = some http)
    (stored : world.loop.fdToChannel fd = true) :
    http.fd = fd ∧ Serving http world.loop ∧ (fd, Action.handleClose) ∉ world.loop.log := by
  obtain ⟨same, serving | closed⟩ := sound.present fd http present
  · exact ⟨same, serving⟩
  · have silent := closed.1.silent
    rw [same, stored] at silent
    cases silent

theorem frame_disarm (fd : Fd) (interest : Interest) (loop : Loop) :
    Frame fd loop (disarm fd interest loop) :=
  ⟨fun _ _ => rfl, fun _ _ => rfl, fun _ ne => Function.update_of_ne ne _ _, fun _ _ => rfl, [],
    (List.append_nil _).symm⟩

/-- A requested channel belongs to a connection that is serving. -/
theorem serving_request {http : HttpData} {loop : Loop} (serving : Serving http loop)
    (revents : Mask) (interest : Interest) :
    Serving (request http revents) (disarm fd interest loop) :=
  ⟨serving.own, serving.unfailed, serving.connected, serving.unkept, serving.held, serving.guarded⟩

theorem Sound.dispatch (sound : Sound world) {http : HttpData} {interest : Interest}
    {revents : Mask} {io : Io} {conn : Conn} (present : world.conns fd = some http)
    (stored : world.loop.fdToChannel fd = true)
    (ran : Conn.handleEvents env ⟨request http revents, io, disarm fd interest world.loop⟩ =
      .ok conn) : Sound (world.update fd conn) := by
  obtain ⟨rfl, serving, opened⟩ := sound.serving present stored
  have effect := Conn.handleEvents_effect (serving_request serving revents interest)
    (sound.orderly.congr rfl rfl) ran
  obtain ⟨actions, log, settled, outcome⟩ := effect.log
  exact sound.update opened effect.fd effect.orderly ((frame_disarm ..).trans effect.frame) log
    settled outcome

/-- A change that no connection notices keeps the invariant. -/
theorem Sound.congr (sound : Sound world) {loop : Loop} (orderly : loop.Orderly)
    (guarded : ∀ fd, live loop.timers fd = live world.loop.timers fd)
    (fdToHttp : loop.fdToHttp = world.loop.fdToHttp)
    (fdToChannel : loop.fdToChannel = world.loop.fdToChannel)
    (kernel : ∀ fd, world.loop.kernel fd = none → loop.kernel fd = none)
    (log : loop.log = world.loop.log) : Sound { world with loop := loop } := by
  refine ⟨orderly, fun fd absent => ?_, fun fd http present => ?_, ?_⟩
  · have unknown := sound.absent fd absent
    exact ⟨(guarded fd).trans unknown.unguarded, (congrFun fdToChannel fd).trans unknown.silent,
      (congrFun fdToHttp fd).trans unknown.dropped, kernel fd unknown.unregistered,
      fun action member => unknown.unlogged action (log ▸ member)⟩
  · exact (sound.present fd http present).congr (guarded fd) (congrFun fdToHttp fd)
      (congrFun fdToChannel fd) (by rw [log])
  · show LogSettled loop.log ↔ LogIdleFree loop.log
    rw [log]
    exact sound.settled

theorem Sound.ignored (sound : Sound world) {interest : Interest}
    (entry : world.loop.kernel fd = some interest) :
    Sound { world with loop := disarm fd interest world.loop } := by
  refine sound.congr (sound.orderly.congr rfl rfl) (fun _ => rfl) rfl rfl ?_ rfl
  intro other unregistered
  have ne : other ≠ fd := by
    rintro rfl
    simp [unregistered] at entry
  exact (Function.update_of_ne ne _ _).trans unregistered

theorem Sound.tick (sound : Sound world) : Sound world.tick :=
  sound.congr (sound.orderly.congr rfl rfl) (fun _ => rfl) rfl rfl (fun _ => id) rfl

/-! ### Expiry -/

theorem Orderly.erase {loop : Loop} (orderly : loop.Orderly) (timer : Timer) :
    ({ loop with timers := loop.timers.erase timer } : Loop).Orderly := by
  have part := List.erase_sublist (l := loop.timers) (a := timer)
  exact ⟨orderly.distinct.sublist (part.map _), fun other member =>
    orderly.fresh other (part.subset member), fun other member =>
    orderly.holders other (part.subset member)⟩

theorem live_erase (timers : List Timer) (timer : Timer) (fd : Fd) :
    live (timers.erase timer) fd =
      if timer.guards fd then (live timers fd).erase timer else live timers fd := by
  induction timers with
  | nil => simp [live]
  | cons first timers ih =>
      simp only [live] at ih ⊢
      rw [List.erase_cons]
      by_cases same : first = timer
      · subst same
        cases guards : first.guards fd <;> simp [guards]
      · cases guards : first.guards fd <;> cases guards' : timer.guards fd <;>
          simp [same, guards, guards', ih]

/-- The connection of a timer that is destroyed is closed. -/
theorem Sound.pop_held (sound : Sound world) {timer : Timer} (queued : timer ∈ world.loop.timers)
    (held : timer.holder = some fd) : Sound (world.pop env timer) := by
  have undeleted : timer.deleted = false := by
    by_contra deleted
    have released := sound.orderly.holders timer queued (by simpa using deleted)
    simp [released] at held
  have guards : ∀ other, timer.guards other = decide (fd = other) := by
    simp [Timer.guards, undeleted, held]
  have guarding : timer ∈ live world.loop.timers fd :=
    List.mem_filter.mpr ⟨queued, by simp [guards]⟩
  cases present : world.conns fd with
  | none => simp [(sound.absent fd present).unguarded] at guarding
  | some http =>
      obtain ⟨rfl, ⟨serving, opened⟩ | ⟨closed, -⟩⟩ := sound.present fd http present
      · obtain ⟨guard, only, -⟩ := serving.guarded
        rw [only, List.mem_singleton] at guarding
        subst guarding
        let popped : Conn :=
          ⟨http, Io.unused, { world.loop with timers := world.loop.timers.erase timer }⟩
        have unguarded : live popped.loop.timers http.fd = [] := by
          show live (world.loop.timers.erase timer) http.fd = []
          simp [live_erase, guards, only]
        have popping : Frame http.fd world.loop popped.loop := by
          refine ⟨fun _ _ => rfl, fun _ _ => rfl, fun _ _ => rfl, fun other ne => ?_, [],
            (List.append_nil _).symm⟩
          show live (world.loop.timers.erase timer) other = _
          simp [live_erase, guards, ne.symm]
        have result : world.pop env timer = world.update http.fd (popped.handleClose env) := by
          simp only [World.pop, destroy, held, present]
          rfl
        rw [result]
        have frame : Frame http.fd popped.loop (popped.handleClose env).loop :=
          @Conn.frame_handleClose env popped serving.own
        refine @Sound.update world sound http.fd (popped.handleClose env) [.handleClose] opened rfl
          ((Orderly.erase sound.orderly timer).congr rfl rfl) (popping.trans frame) rfl
          (iff_of_true (List.pairwise_singleton ..) (by simp [IdleFree]))
          (.inr ⟨Conn.handleClose_closed serving.own unguarded, by simp⟩)
      · simp [closed.unguarded] at guarding

theorem Sound.pop (sound : Sound world) {timer : Timer} (queued : timer ∈ world.loop.timers) :
    Sound (world.pop env timer) := by
  cases held : timer.holder with
  | some fd => exact sound.pop_held queued held
  | none =>
      have guards : ∀ fd, timer.guards fd = false := by simp [Timer.guards, held]
      simp only [World.pop, destroy, held]
      exact sound.congr (Orderly.erase sound.orderly timer)
        (fun fd => by simp [live_erase, guards]) rfl rfl (fun _ => id) rfl

/-- **Expiry keeps the invariant.** -/
theorem Sound.handleExpired (sound : Sound world) : Sound (world.handleExpired env) := by
  fun_induction World.handleExpired env world with
  | case1 world least => exact sound
  | case2 world timer least deleted ih => exact ih (sound.pop (env.queue.top_mem _ _ least))
  | case3 world timer least undeleted valid => exact sound.tick
  | case4 world timer least undeleted expired ih =>
      exact ih (sound.tick.pop (env.queue.top_mem _ _ least))

theorem Sound.step {world next : World} (sound : Sound world) (step : Step env world next) :
    Sound next := by
  cases step with
  | newEvent fd fresh => exact sound.newEvent fresh
  | dispatch present entry armed stored ran => exact sound.dispatch present stored ran
  | ignored entry armed unset => exact sound.ignored entry
  | handleExpired => exact sound.handleExpired

/-- **The invariant holds in every reachable state.** -/
theorem reachable_sound (reachable : (machine env).Reachable world) : Sound world := by
  refine reachable.induction Sound ?_ fun _ _ _ sound step => sound.step step
  rintro first rfl
  exact sound_start

end World

end FastWebServer
