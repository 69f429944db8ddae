import FastWebServer.Timer.IdleConnections

/-!
# What owns a connection

A connection lives as long as a `shared_ptr` to it does. The loop keeps two: one in `fd_to_http_`
and one in the timer that guards the connection. On a loop that sets up one connection for a
descriptor, in every reachable state both are there while the connection is open, and neither is
once `handle_close` has run (`ownership`), so the `weak_ptr` of a channel can be locked exactly
while its connection is open. A second connection for the descriptor, as the accept loop queues it
(`Server.acceptLoop_rounds`), takes the entry in `fd_to_http_` from the first.

After that the loop never touches the connection again, whatever else it does
(`closedConnection_untouched`): no event is dispatched to it, no timer closes it a second time, and
its members stay as they were.
-/

set_option autoImplicit false

namespace FastWebServer

namespace World

variable {env : Env} {world : World} {fd : Fd}

/-- A connection that has been accepted and not closed. -/
def Open (world : World) (fd : Fd) : Prop :=
  ∃ http, world.conns fd = some http ∧ (fd, Action.handleClose) ∉ world.loop.log

/-! ## Owners -/

/-- The timers that hold a connection. -/
def holders (world : World) (fd : Fd) : List Timer :=
  world.loop.timers.filter fun timer => decide (timer.holder = some fd)

/-- A timer that holds a connection guards it. -/
theorem Sound.holders_eq (sound : Sound world) (fd : Fd) :
    world.holders fd = live world.loop.timers fd := by
  refine List.filter_congr fun timer queued => ?_
  cases deleted : timer.deleted with
  | false => simp [Timer.guards, deleted]
  | true => simp [Timer.guards, deleted, sound.orderly.holders timer queued deleted]

/-- What the loop keeps of a connection that is not open. -/
structure Released (world : World) (fd : Fd) : Prop where
  dropped : world.loop.fdToHttp fd = false
  silent : world.loop.fdToChannel fd = false
  unheld : world.holders fd = []

/-- What the loop keeps of a connection that is open. -/
structure Owned (world : World) (fd : Fd) : Prop where
  stored : world.loop.fdToHttp fd = true
  held : ∃ timer, world.holders fd = [timer] ∧ timer.deleted = false

theorem Sound.owned (sound : Sound world) (opened : world.Open fd) : world.Owned fd := by
  obtain ⟨http, present, unclosed⟩ := opened
  obtain ⟨rfl, ⟨serving, -⟩ | ⟨-, closed⟩⟩ := sound.present fd http present
  · obtain ⟨timer, only, -⟩ := serving.guarded
    have guards : timer ∈ live world.loop.timers http.fd := only ▸ List.mem_singleton_self _
    have undeleted : timer.deleted = false ∧ timer.holder = some http.fd := by
      simpa [Timer.guards] using (List.mem_filter.mp guards).2
    exact ⟨serving.held, timer, (sound.holders_eq _).trans only, undeleted.1⟩
  · exact absurd closed unclosed

theorem Sound.released (sound : Sound world) (shut : ¬ world.Open fd) : world.Released fd := by
  cases present : world.conns fd with
  | none =>
      have unknown := sound.absent fd present
      exact ⟨unknown.dropped, unknown.silent, (sound.holders_eq fd).trans unknown.unguarded⟩
  | some http =>
      obtain ⟨rfl, ⟨-, unclosed⟩ | ⟨closed, -⟩⟩ := sound.present fd http present
      · exact absurd ⟨http, present, unclosed⟩ shut
      · exact ⟨closed.dropped, closed.silent, (sound.holders_eq _).trans closed.unguarded⟩

theorem Released.unlocked (released : world.Released fd) :
    world.loop.getHolder false fd = none := by
  have unheld : world.loop.timers.any (·.holder = some fd) = false := by
    rw [List.any_eq_false]
    intro timer queued holds
    have member : timer ∈ world.holders fd := List.mem_filter.mpr ⟨queued, holds⟩
    rw [released.unheld] at member
    cases member
  simp [Loop.getHolder, released.dropped, unheld]

theorem Owned.locked (owned : world.Owned fd) : world.loop.getHolder false fd = some fd := by
  simp [Loop.getHolder, owned.stored]

/-- **Who owns a connection.** In every reachable state of a loop that sets up one connection for a
descriptor, an open connection is owned by `fd_to_http_` and by exactly one timer, which is not
deleted, and any other by neither. So the holder of a channel can be locked exactly while its
connection is open. -/
theorem ownership (reachable : (machine env).Reachable world) (fd : Fd) :
    (world.Open fd → world.Owned fd) ∧ (¬ world.Open fd → world.Released fd) ∧
      (world.loop.getHolder false fd = some fd ↔ world.Open fd) := by
  have sound := reachable_sound reachable
  refine ⟨sound.owned, sound.released, fun locked => ?_, fun opened => (sound.owned opened).locked⟩
  by_contra shut
  rw [(sound.released shut).unlocked] at locked
  cases locked

theorem accepted_open : accepted.Open 5 := by
  refine ⟨_, rfl, ?_⟩
  show (5, Action.handleClose) ∉ [(5, Action.addTimer defaultExpiredTime)]
  simp

/-- The new connection is owned, and no other descriptor is. -/
theorem accepted_owned :
    accepted.Owned 5 ∧ accepted.Released 6 ∧ accepted.loop.getHolder false 5 = some 5 := by
  have shut : ¬ accepted.Open 6 := by
    rintro ⟨http, present, -⟩
    cases present
  obtain ⟨owned, -, locks⟩ := ownership accepted_reachable 5
  obtain ⟨-, released, -⟩ := ownership accepted_reachable 6
  exact ⟨owned accepted_open, released shut, locks.mpr accepted_open⟩

/-! ## After handle_close -/

/-- That nothing has been done to a connection. -/
structure Untouched (fd : Fd) (before after : World) : Prop where
  same : after.conns fd = before.conns fd
  silent : ∃ more, after.loop.log = before.loop.log ++ more ∧ ∀ entry ∈ more, entry.1 ≠ fd

/-- Nothing is logged. -/
theorem Untouched.of_log {before after : World} (same : after.conns fd = before.conns fd)
    (log : after.loop.log = before.loop.log) : Untouched fd before after :=
  ⟨same, [], by rw [log, List.append_nil], fun _ member => absurd member List.not_mem_nil⟩

theorem Untouched.trans {first second third : World} (earlier : Untouched fd first second)
    (later : Untouched fd second third) : Untouched fd first third := by
  obtain ⟨more, log, apart⟩ := earlier.silent
  obtain ⟨more', log', apart'⟩ := later.silent
  refine ⟨later.same.trans earlier.same, more ++ more', ?_, fun entry member => ?_⟩
  · rw [log', log, List.append_assoc]
  · exact (List.mem_append.mp member).elim (apart entry) (apart' entry)

theorem Untouched.closed {before after : World} (untouched : Untouched fd before after)
    (closed : (fd, Action.handleClose) ∈ before.loop.log) :
    (fd, Action.handleClose) ∈ after.loop.log := by
  obtain ⟨more, log, -⟩ := untouched.silent
  rw [log]
  exact List.mem_append_left _ closed

/-- Work on another connection. -/
theorem untouched_update {other : Fd} (ne : fd ≠ other) {conn : Conn}
    (frame : Frame other world.loop conn.loop) : Untouched fd world (world.update other conn) := by
  obtain ⟨actions, log⟩ := frame.log
  refine ⟨Function.update_of_ne ne .., _, log, fun entry member => ?_⟩
  obtain ⟨action, -, rfl⟩ := List.mem_map.mp member
  exact ne.symm

/-- No timer closes a closed connection. -/
theorem untouched_pop (sound : Sound world) {timer : Timer} (queued : timer ∈ world.loop.timers)
    (unheld : timer.holder ≠ some fd) : Untouched fd world (world.pop env timer) := by
  unfold pop destroy
  cases holds : timer.holder with
  | none => exact .of_log rfl rfl
  | some closing =>
      obtain ⟨http, present, rfl⟩ := sound.held timer queued closing holds
      have ne : fd ≠ http.fd := by
        rintro rfl
        exact unheld holds
      simp only [present]
      refine ⟨Function.update_of_ne ne .., [(http.fd, .handleClose)], rfl, fun entry member => ?_⟩
      rw [List.mem_singleton.mp member]
      exact ne.symm

theorem untouched_handleExpired (sound : Sound world)
    (closed : (fd, Action.handleClose) ∈ world.loop.log) :
    Untouched fd world (world.handleExpired env) := by
  have unheld : ∀ world : World, Sound world → (fd, Action.handleClose) ∈ world.loop.log →
      ∀ timer ∈ world.loop.timers, timer.holder ≠ some fd := by
    intro world sound closed timer queued holds
    have released := sound.released fun opened => opened.choose_spec.2 closed
    have member : timer ∈ world.holders fd := List.mem_filter.mpr ⟨queued, by simp [holds]⟩
    rw [released.unheld] at member
    cases member
  fun_induction World.handleExpired env world with
  | case1 world => exact .of_log rfl rfl
  | case2 world timer least deleted ih =>
      have queued := env.queue.top_mem _ _ least
      have first : Untouched fd world (world.pop env timer) :=
        untouched_pop sound queued (unheld world sound closed timer queued)
      exact first.trans (ih (sound.pop queued) (first.closed closed))
  | case3 => exact .of_log rfl rfl
  | case4 world timer least undeleted expired ih =>
      have queued := env.queue.top_mem _ _ least
      have asked : Untouched fd world world.tick := .of_log rfl rfl
      have first : Untouched fd world.tick (world.tick.pop env timer) :=
        untouched_pop sound.tick queued (unheld world sound closed timer queued)
      exact asked.trans (first.trans (ih (sound.tick.pop queued) (first.closed closed)))

/-- A step leaves the closed connections alone. -/
theorem untouched_step {next : World} (sound : Sound world)
    (closed : (fd, Action.handleClose) ∈ world.loop.log) (step : Step env world next) :
    Untouched fd world next := by
  cases step with
  | newEvent other fresh =>
      have ne : fd ≠ other := by
        rintro rfl
        exact (sound.absent fd fresh).unlogged _ closed
      have unknown := sound.absent other fresh
      obtain ⟨effect, -⟩ := @Conn.newEvent_effect env ⟨HttpData.new other, Io.unused, world.loop⟩
        rfl rfl rfl rfl sound.orderly unknown.unguarded
      exact untouched_update ne effect.frame
  | @dispatch other http interest revents io conn present entry armed stored ran =>
      obtain ⟨own, serving, opened⟩ := sound.serving present stored
      have ne : fd ≠ other := by
        rintro rfl
        exact opened closed
      have effect := Conn.handleEvents_effect (serving_request serving revents interest)
        (sound.orderly.congr rfl rfl) ran
      exact untouched_update ne ((frame_disarm other interest world.loop).trans (own ▸ effect.frame))
  | ignored => exact .of_log rfl rfl
  | handleExpired => exact untouched_handleExpired sound closed

/-- From any reachable state in which `handle_close` has run for a connection, whatever the loop
does next and however long: the members of the connection do not change, and nothing more is done
for its descriptor. -/
theorem closedConnection_untouched (reachable : (machine env).Reachable world)
    (closed : (fd, Action.handleClose) ∈ world.loop.log) {later : World}
    (run : Relation.ReflTransGen (machine env).step world later) : Untouched fd world later := by
  induction run with
  | refl => exact .of_log rfl rfl
  | tail earlier step ih =>
      have sound := reachable_sound (reachable.run earlier)
      exact ih.trans (untouched_step sound (ih.closed closed) step)

/-- The first request is answered, and the connection closed. -/
theorem answered_closed :
    ∃ world, Step Env.calm accepted world ∧ (5, Action.handleClose) ∈ world.loop.log := by
  obtain ⟨read, ran, idle, -⟩ := helloArrives_idle
  have sound := reachable_sound accepted_reachable
  obtain ⟨-, serving, -⟩ := @Sound.serving accepted 5 sound _ rfl rfl
  have deciding : Deciding helloArrives read := Conn.deciding_read
    (serving_request serving epollIn ⟨defaultEvent, true⟩) (sound.orderly.congr rfl rfl) ran
  have handled : helloArrives.handleEvents Env.calm = .ok (read.handleConnect Env.calm) := by
    rw [Conn.handleEvents_eq rfl, if_pos (show helloArrives.http.channel.revents.reads from rfl),
      ran]
    rfl
  obtain ⟨-, -, -, log⟩ := @Conn.handleConnect_idle Env.calm read deciding.pending idle
  refine ⟨_, .dispatch rfl rfl rfl rfl handled, ?_⟩
  show _ ∈ (read.handleConnect Env.calm).loop.log
  have fd : read.http.fd = 5 := deciding.fd
  rw [log, fd]
  simp

end World

end FastWebServer
