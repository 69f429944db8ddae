import FastWebServer.Http.HandlerLog
import FastWebServer.Ownership

/-!
# The last activity of a connection

An event that comes to `handle_connect` and leaves the connection open gives it a new timer, which
counts from the reading that the handler takes. Between two such events nothing but
`handle_expired_event` can end the connection, and that only when `DEFAULT_EXPIRED_TIME` has passed
since the first of them, as the timers count the time (`idleTime_counted`). Until then the
connection keeps this timer, whatever the other connections do and however often the queue is
looked at.
-/

set_option autoImplicit false

namespace FastWebServer

/-! ## Serving connections -/

theorem Serving.pending {http : HttpData} {loop : Loop} (serving : Serving http loop)
    (orderly : loop.Orderly) : Pending http loop :=
  ⟨serving.own, fun _ => ⟨serving.connected, serving.unkept⟩, serving.held, orderly,
    .inl serving.guarded⟩

theorem Serving.not_closed {http : HttpData} {loop : Loop} (serving : Serving http loop) :
    ¬ Closed http loop := by
  intro closed
  have disconnected := closed.disconnected
  rw [serving.connected] at disconnected
  cases disconnected

/-! ## The readings and the log -/

/-- A loop only goes on: no reading of the clock and no entry of the log is taken back. -/
structure Loop.Onward (before after : Loop) : Prop where
  ticks : before.ticks ≤ after.ticks
  log : before.log <+: after.log

namespace Loop

theorem Onward.refl (loop : Loop) : Onward loop loop := ⟨le_rfl, List.prefix_rfl⟩

theorem Onward.trans {first second third : Loop} (earlier : Onward first second)
    (later : Onward second third) : Onward first third :=
  ⟨earlier.ticks.trans later.ticks, earlier.log.trans later.log⟩

theorem onward_epollCtl {env : Env} {possible : Bool} {fd : Fd} {mask : Mask} {loop : Loop} :
    Onward loop (loop.epollCtl env possible fd mask) := by
  unfold epollCtl
  split
  · exact ⟨le_rfl, List.prefix_rfl⟩
  · exact ⟨le_rfl, List.prefix_rfl⟩

/-- The timer of a connection was made between two readings of the clock. -/
def Renewed (env : Env) (before after : Loop) (fd : Fd) : Prop :=
  ∃ id tick, before.ticks ≤ tick ∧ tick < after.ticks ∧
    live after.timers fd = [Timer.new id fd (env.clock tick) defaultExpiredTime]

theorem live_new {timers : List Timer} {fd : Fd} (unguarded : live timers fd = []) (id : TimerId)
    (now : Timeval) (timeout : ℕ) :
    live (Timer.new id fd now timeout :: timers) fd = [Timer.new id fd now timeout] := by
  unfold live at unguarded ⊢
  rw [List.filter_cons_of_pos (by simp), unguarded]

end Loop

namespace Conn

open Loop

variable {env : Env} {conn after : Conn}

theorem onward_record (conn : Conn) (action : Action) :
    Onward conn.loop (conn.record action).loop := ⟨le_rfl, List.prefix_append ..⟩

theorem onward_seperateTimer (conn : Conn) : Onward conn.loop conn.seperateTimer.loop := by
  unfold seperateTimer
  split
  · exact .refl _
  · exact ⟨le_rfl, List.prefix_rfl⟩

theorem onward_reset (conn : Conn) : Onward conn.loop conn.reset.loop :=
  (onward_record conn _).trans (onward_seperateTimer
    { conn.record (.clearInput conn.http.bufferIn) with http := cleared conn.http })

theorem onward_modifyInterest (env : Env) (conn : Conn) :
    Onward conn.loop (conn.modifyInterest env).loop := by
  unfold modifyInterest
  split
  · exact .refl _
  · exact onward_epollCtl

theorem onward_addInterest (env : Env) (conn : Conn) :
    Onward conn.loop (conn.addInterest env).loop := by
  let stored : Loop := { conn.loop with
    fdToChannel := Function.update conn.loop.fdToChannel conn.http.channel.fd true }
  have storing : Onward conn.loop stored := ⟨le_rfl, List.prefix_rfl⟩
  exact storing.trans onward_epollCtl

theorem onward_addTimer (env : Env) (bound : Bool) (timeout : ℕ) (conn : Conn) :
    Onward conn.loop (conn.addTimer env bound timeout).loop := by
  unfold addTimer
  split
  · exact .refl _
  · exact ⟨Nat.le_succ _, List.prefix_append ..⟩

theorem onward_updatePoller (env : Env) (timeout : ℕ) (conn : Conn) :
    Onward conn.loop (conn.updatePoller env timeout).loop := by
  let asked := conn.record (.updatePoller conn.http.channel.events timeout)
  have recorded : Onward conn.loop asked.loop := onward_record conn _
  show Onward conn.loop (asked.modifyFdInEpoll env timeout).loop
  unfold modifyFdInEpoll
  split
  · have added := onward_addTimer env false timeout asked
    exact recorded.trans (added.trans (onward_modifyInterest env _))
  · exact recorded.trans (onward_modifyInterest env asked)

theorem onward_handleClose (env : Env) (conn : Conn) :
    Onward conn.loop (conn.handleClose env).loop := ⟨le_rfl, List.prefix_append ..⟩

/-- `handle_connect` goes on from its entry. -/
theorem onward_enterConnect (env : Env) (conn : Conn) :
    Onward conn.enterConnect.loop (conn.handleConnect env).loop := by
  by_cases healthy : conn.enterConnect.http.isError = false ∧
      conn.enterConnect.http.connectionState = .connected
  · obtain ⟨unfailed, connected⟩ := healthy
    by_cases asked : conn.enterConnect.http.channel.events = 0#32
    · by_cases kept : conn.enterConnect.http.keepAlive = true
      · rw [handleConnect_kept_eq unfailed connected asked kept]
        exact onward_updatePoller env _
          { conn.enterConnect with http := conn.enterConnect.http.setEvents 1#32 }
      · rw [handleConnect_idle_eq ⟨unfailed, connected, asked, by simpa using kept⟩]
        let closed := conn.enterConnect.shutdown.handleClose env
        have shut : Onward conn.enterConnect.loop conn.enterConnect.shutdown.loop :=
          onward_record conn.enterConnect .shutdown
        have closing : Onward conn.enterConnect.shutdown.loop closed.loop :=
          onward_handleClose env conn.enterConnect.shutdown
        have updated := onward_updatePoller env (defaultKeepAliveTime >>> 1)
          { closed with
            http := closed.http.setEvents (closed.http.channel.events ||| (epollIn ||| epollEt)) }
        exact shut.trans (closing.trans updated)
    · rw [handleConnect_active_eq unfailed connected asked]
      exact onward_updatePoller env _
        { conn.enterConnect with
          http := conn.enterConnect.http.setEvents
            (arbitrate conn.enterConnect.http.channel.events) }
  · rcases handleConnect_unhealthy_eq healthy with closed | waits
    · rw [closed]
      exact onward_handleClose env conn.enterConnect
    · rw [waits]
      exact .refl _

theorem onward_entering (conn : Conn) : Onward conn.loop conn.enterConnect.loop :=
  (onward_record conn _).trans (onward_seperateTimer (conn.record (.handleConnect conn.http)))

theorem onward_handleConnect (env : Env) (conn : Conn) :
    Onward conn.loop (conn.handleConnect env).loop :=
  (onward_entering conn).trans (onward_enterConnect env conn)

theorem onward_handleRead (ran : conn.handleRead = .ok after) : Onward conn.loop after.loop := by
  rw [handleRead_eq] at ran
  cases looped : stages conn with
  | error fault => simp [looped, Except.map] at ran
  | ok result =>
      obtain ⟨flow, read⟩ := result
      simp only [looped, Except.map, Except.ok.injEq] at ran
      subst ran
      obtain ⟨actions, -, loop, -⟩ := (readLoop_effect looped).loop
      have flushed : Onward conn.loop read.flush.loop := by
        rw [loop]
        exact ⟨le_rfl, List.prefix_append ..⟩
      unfold finishRead
      split
      · exact flushed.trans (onward_reset _)
      · unfold awaitInput
        split
        · exact flushed
        · exact flushed

/-- What comes before `handle_connect` in an event that is not dropped. -/
def Connecting (conn mid : Conn) : Prop :=
  conn.http.channel.revents.reads = false ∧ mid = conn.storeEvents 0#32 ∨
    conn.http.channel.revents.reads = true ∧ (conn.storeEvents 0#32).handleRead = .ok mid

theorem exists_connecting (kept : conn.http.channel.revents.drops = false)
    (ran : conn.handleEvents env = .ok after) :
    ∃ mid, Connecting conn mid ∧
      after = if conn.http.channel.revents.meets epollOut then
          (mid.handleConnect env).handleConnect env
        else mid.handleConnect env := by
  rw [handleEvents_eq kept] at ran
  cases reads : conn.http.channel.revents.reads with
  | false =>
      rw [reads, if_neg Bool.false_ne_true, Except.map, Except.ok.injEq] at ran
      exact ⟨_, .inl ⟨reads, rfl⟩, ran.symm⟩
  | true =>
      rw [reads, if_pos rfl] at ran
      cases read : (conn.storeEvents 0#32).handleRead with
      | error fault => simp [read, Except.map] at ran
      | ok mid =>
          simp only [read, Except.map, Except.ok.injEq] at ran
          exact ⟨mid, .inr ⟨reads, read⟩, ran.symm⟩

theorem Connecting.onward {mid : Conn} (connecting : Connecting conn mid) :
    conn.loop.Onward mid.loop := by
  rcases connecting with ⟨-, rfl⟩ | ⟨-, read⟩
  · exact .refl _
  · exact @onward_handleRead (conn.storeEvents 0#32) mid read

theorem Connecting.deciding {mid : Conn} (connecting : Connecting conn mid)
    (serving : Serving conn.http conn.loop) (orderly : conn.loop.Orderly) : Deciding conn mid := by
  rcases connecting with ⟨-, rfl⟩ | ⟨-, read⟩
  · exact deciding_unread serving orderly
  · exact deciding_read serving orderly read

theorem onward_handleEvents (ran : conn.handleEvents env = .ok after) :
    Onward conn.loop after.loop := by
  cases drops : conn.http.channel.revents.drops with
  | true =>
      rw [handleEvents_drops drops, Except.ok.injEq] at ran
      subst ran
      exact .refl _
  | false =>
      obtain ⟨mid, connecting, rfl⟩ := exists_connecting drops ran
      have first := connecting.onward.trans (onward_handleConnect env mid)
      split
      · exact first.trans (onward_handleConnect ..)
      · exact first

/-! ## The timer of an activity -/

/-- `update_poller` puts one timer in front of the others. -/
theorem updatePoller_timers {timeout : ℕ} (positive : 0 < timeout)
    (held : conn.loop.fdToHttp conn.http.fd = true) :
    (conn.updatePoller env timeout).loop.timers =
        Timer.new conn.loop.nextTimer conn.http.fd (env.clock conn.loop.ticks) timeout ::
          conn.loop.timers ∧
      conn.loop.ticks < (conn.updatePoller env timeout).loop.ticks := by
  let asked := conn.record (.updatePoller conn.http.channel.events timeout)
  have locked : asked.loop.getHolder false asked.http.fd = some asked.http.fd := by
    show Loop.getHolder _ false conn.http.fd = some conn.http.fd
    have held : asked.loop.fdToHttp conn.http.fd = true := held
    simp [Loop.getHolder, held]
  have result : conn.updatePoller env timeout =
      (asked.addTimer env false timeout).modifyInterest env := if_pos positive
  have onward := onward_modifyInterest env (asked.addTimer env false timeout)
  obtain ⟨loop, modified, timers, -⟩ := modifyInterest_eq env (asked.addTimer env false timeout)
  rw [result]
  rw [addTimer_locked locked] at *
  refine ⟨?_, onward.ticks⟩
  rw [modified]
  exact timers

/-- `new_event` puts one timer in front of the others. -/
theorem newEvent_timers (env : Env) (conn : Conn) :
    (conn.newEvent env).loop.timers =
        Timer.new conn.loop.nextTimer conn.http.fd (env.clock conn.loop.ticks) defaultExpiredTime ::
          conn.loop.timers ∧
      Onward conn.loop (conn.newEvent env).loop ∧
      conn.loop.ticks < (conn.newEvent env).loop.ticks := by
  let asking : Conn := { conn with http := conn.http.setEvents defaultEvent }
  have locked : asking.loop.getHolder true asking.http.fd = some asking.http.fd := by
    simp [Loop.getHolder]
  have result : conn.newEvent env =
      (asking.addTimer env true defaultExpiredTime).heldByPoller.addInterest env :=
    addFdInEpoll_eq (by decide)
  have added : (asking.addTimer env true defaultExpiredTime).loop.timers =
        Timer.new conn.loop.nextTimer conn.http.fd (env.clock conn.loop.ticks) defaultExpiredTime ::
          conn.loop.timers ∧
      conn.loop.ticks < (asking.addTimer env true defaultExpiredTime).loop.ticks := by
    rw [addTimer_locked locked]
    exact ⟨rfl, Nat.lt_succ_self _⟩
  have timed := onward_addTimer env true defaultExpiredTime asking
  let kept := (asking.addTimer env true defaultExpiredTime).heldByPoller
  have keeping : Onward (asking.addTimer env true defaultExpiredTime).loop kept.loop :=
    ⟨le_rfl, List.prefix_rfl⟩
  have registered := keeping.trans (onward_addInterest env kept)
  rw [result]
  refine ⟨(Loop.epollCtl_timers ..).trans added.1, timed.trans registered, ?_⟩
  exact Nat.lt_of_lt_of_le added.2 registered.ticks

/-- A connection that asks for something gets a new timer. -/
theorem handleConnect_active_renews (pending : Pending conn.http conn.loop)
    (unfailed : conn.http.isError = false) (asked : conn.http.channel.events ≠ 0#32) :
    Renewed env conn.loop (conn.handleConnect env).loop conn.http.fd := by
  obtain ⟨connected, unkept⟩ := pending.sound unfailed
  have entered := enterConnect_effect pending.orderly pending.tended
  have kept : conn.enterConnect.http.keepAlive = false := by
    rw [entered.http]
    exact unkept
  let asking : Conn := { conn.enterConnect with
    http := conn.enterConnect.http.setEvents (arbitrate conn.enterConnect.http.channel.events) }
  have fd : asking.http.fd = conn.http.fd := by
    show conn.enterConnect.http.fd = conn.http.fd
    rw [entered.http]
  have held : asking.loop.fdToHttp asking.http.fd = true := by
    rw [fd]
    exact (congrFun entered.fdToHttp _).trans pending.held
  have result : conn.handleConnect env = asking.updatePoller env defaultExpiredTime := by
    refine (handleConnect_active_eq ?_ ?_ ?_).trans ?_
    · rw [entered.http]
      exact unfailed
    · rw [entered.http]
      exact connected
    · rw [entered.http]
      exact asked
    · rw [kept, if_neg Bool.false_ne_true]
  obtain ⟨timers, ticks⟩ := @updatePoller_timers env asking defaultExpiredTime (by decide) held
  rw [fd] at timers
  rw [result]
  refine ⟨asking.loop.nextTimer, asking.loop.ticks, (onward_entering conn).ticks, ticks, ?_⟩
  rw [timers]
  exact live_new entered.unguarded ..

/-- A connection that is serving after `handle_connect` has a new timer. -/
theorem handleConnect_renews (pending : Pending conn.http conn.loop)
    (serving : Serving (conn.handleConnect env).http (conn.handleConnect env).loop) :
    Renewed env conn.loop (conn.handleConnect env).loop conn.http.fd := by
  by_cases unfailed : conn.http.isError = false
  · by_cases asked : conn.http.channel.events = 0#32
    · obtain ⟨connected, unkept⟩ := pending.sound unfailed
      obtain ⟨-, closed, -⟩ :=
        @handleConnect_idle env conn pending ⟨unfailed, connected, asked, unkept⟩
      exact absurd closed serving.not_closed
    · exact handleConnect_active_renews pending unfailed asked
  · obtain ⟨-, closed, -⟩ := @handleConnect_failed env conn pending (by simpa using unfailed)
    exact absurd closed serving.not_closed

/-- **An event renews the timer**, unless it is dropped or closes the connection. -/
theorem handleEvents_renews (serving : Serving conn.http conn.loop) (orderly : conn.loop.Orderly)
    (kept : conn.http.channel.revents.drops = false) (ran : conn.handleEvents env = .ok after)
    (serving' : Serving after.http after.loop) :
    Renewed env conn.loop after.loop conn.http.fd := by
  obtain ⟨mid, connecting, rfl⟩ := exists_connecting kept ran
  have onward := connecting.onward
  have deciding := connecting.deciding serving orderly
  rw [← deciding.fd]
  split at serving'
  · rename_i twice
    rw [if_pos twice]
    obtain ⟨effect, -, -, -, ⟨once, -⟩ | ⟨closed, unknown, -⟩⟩ :=
      @handleConnect_outcome env mid deciding.pending
    · obtain ⟨id, tick, first, last, only⟩ :=
        handleConnect_renews (once.pending effect.orderly) serving'
      have connected := (onward_handleConnect env mid).ticks
      rw [effect.fd] at only
      exact ⟨id, tick, onward.ticks.trans (connected.trans first), last, only⟩
    · obtain ⟨-, closed', -⟩ := @handleConnect_closed env _ closed effect.orderly unknown
      exact absurd closed' serving'.not_closed
  · rename_i once
    rw [if_neg once]
    obtain ⟨id, tick, first, last, only⟩ := handleConnect_renews deciding.pending serving'
    exact ⟨id, tick, onward.ticks.trans first, last, only⟩

end Conn

/-! ## The steps of the loop thread -/

/-- How often a connection has done something of a kind. -/
def tally (kind : Action → Bool) (log : List (Fd × Action)) (fd : Fd) : ℕ :=
  log.countP fun entry => decide (entry.1 = fd) && kind entry.2

theorem tally_append (kind : Action → Bool) (earlier later : List (Fd × Action)) (fd : Fd) :
    tally kind (earlier ++ later) fd = tally kind earlier fd + tally kind later fd :=
  List.countP_append

theorem tally_mono {kind : Action → Bool} {earlier later : List (Fd × Action)}
    (onward : earlier <+: later) (fd : Fd) : tally kind earlier fd ≤ tally kind later fd :=
  onward.sublist.countP_le

/-- What is logged for another connection is not counted. -/
theorem tally_of_ne {fd other : Fd} (ne : fd ≠ other) (kind : Action → Bool)
    (actions : List Action) : tally kind (actions.map (Prod.mk other)) fd = 0 := by
  refine List.countP_eq_zero.mpr fun entry member => ?_
  obtain ⟨action, -, rfl⟩ := List.mem_map.mp member
  simp [ne.symm]

/-- What is logged for a connection. -/
theorem tally_own (kind : Action → Bool) (actions : List Action) (fd : Fd) :
    tally kind (actions.map (Prod.mk fd)) fd = (actions.filter kind).length := by
  unfold tally
  rw [List.countP_map, List.countP_eq_length_filter]
  congr 2
  funext action
  simp

/-- How often a connection has entered `handle_connect`. -/
def connects (log : List (Fd × Action)) (fd : Fd) : ℕ := tally Action.connects log fd

theorem connects_mono {earlier later : List (Fd × Action)} (onward : earlier <+: later) (fd : Fd) :
    connects earlier fd ≤ connects later fd := tally_mono onward fd

/-- `handle_connect` starts with its entry in the log. -/
theorem Conn.handleConnect_logged (env : Env) (conn : Conn) :
    (conn.loop.log ++ [(conn.http.fd, .handleConnect conn.http)]) <+:
      (conn.handleConnect env).loop.log := by
  obtain ⟨own, conduct⟩ := handleConnect_conduct env conn
  rw [conduct.log, List.map_cons]
  exact ⟨own.map (Prod.mk conn.http.fd), by simp⟩

/-- `handle_connect` is counted. -/
theorem Conn.connects_handleConnect (env : Env) (conn : Conn) :
    connects conn.loop.log conn.http.fd <
      connects (conn.handleConnect env).loop.log conn.http.fd := by
  refine Nat.lt_of_lt_of_le ?_ (connects_mono (handleConnect_logged env conn) conn.http.fd)
  unfold connects
  rw [tally_append]
  exact Nat.lt_add_of_pos_right (by simp [tally, Action.connects])

/-- An event that is not dropped is counted. -/
theorem Conn.connects_handleEvents {env : Env} {conn after : Conn}
    (serving : Serving conn.http conn.loop) (orderly : conn.loop.Orderly)
    (kept : conn.http.channel.revents.drops = false) (ran : conn.handleEvents env = .ok after) :
    connects conn.loop.log conn.http.fd < connects after.loop.log conn.http.fd := by
  obtain ⟨mid, connecting, rfl⟩ := exists_connecting kept ran
  have counted := connects_handleConnect env mid
  rw [(connecting.deciding serving orderly).fd] at counted
  have first := Nat.lt_of_le_of_lt (connects_mono connecting.onward.log conn.http.fd) counted
  split
  · exact Nat.lt_of_lt_of_le first (connects_mono (onward_handleConnect env _).log _)
  · exact first

namespace World

variable {env : Env} {world next later : World} {fd : Fd}

theorem onward_pop (env : Env) (timer : Timer) (world : World) :
    world.loop.Onward (world.pop env timer).loop := ⟨(pop_ticks env timer world).ge, log_pop timer⟩

theorem onward_handleExpired : world.loop.Onward (world.handleExpired env).loop := by
  fun_induction World.handleExpired env world with
  | case1 world => exact .refl _
  | case2 world timer least deleted ih => exact (onward_pop env timer world).trans ih
  | case3 world => exact ⟨Nat.le_succ _, List.prefix_rfl⟩
  | case4 world timer least undeleted expired ih =>
      have asked : world.loop.Onward world.tick.loop := ⟨Nat.le_succ _, List.prefix_rfl⟩
      exact asked.trans ((onward_pop env timer world.tick).trans ih)

theorem Step.onward (step : Step env world next) : world.loop.Onward next.loop := by
  cases step with
  | newEvent other fresh =>
      exact (Conn.newEvent_timers env ⟨HttpData.new other, Io.unused, world.loop⟩).2.1
  | @dispatch other http interest revents io conn present entry armed stored ran =>
      have disarmed : world.loop.Onward (disarm other interest world.loop) :=
        ⟨le_rfl, List.prefix_rfl⟩
      exact disarmed.trans (Conn.onward_handleEvents ran)
  | ignored => exact ⟨le_rfl, List.prefix_rfl⟩
  | handleExpired => exact onward_handleExpired

/-- The connection is open with this timer, or it has been closed when the timer was due. -/
def Waits (env : Env) (fd : Fd) (timer : Timer) (world later : World) : Prop :=
  later.Open fd ∧ live later.loop.timers fd = [timer] ∨
    (fd, Action.handleClose) ∈ later.loop.log ∧
      ∃ tick, world.loop.ticks ≤ tick ∧ tick < later.loop.ticks ∧
        timer.expiredTime ≤ (env.clock tick).millis

/-- Work on another connection leaves the connection and its timer. -/
theorem waits_update {other : Fd} (ne : fd ≠ other) {timer : Timer} {conn : Conn}
    (opened : world.Open fd) (only : live world.loop.timers fd = [timer])
    (frame : Frame other world.loop conn.loop) :
    Waits env fd timer world (world.update other conn) := by
  obtain ⟨http, present, unclosed⟩ := opened
  obtain ⟨actions, log⟩ := frame.log
  refine .inl ⟨⟨http, (Function.update_of_ne ne _ _).trans present, ?_⟩, ?_⟩
  · show (fd, Action.handleClose) ∉ conn.loop.log
    rw [log, mem_log_of_ne ne]
    exact unclosed
  · exact (frame.live fd ne).trans only

/-- **A step that does not enter `handle_connect`** lets the connection wait. -/
theorem waits_step (sound : Sound world) (opened : world.Open fd) {timer : Timer}
    (only : live world.loop.timers fd = [timer]) (step : Step env world next)
    (rests : connects next.loop.log fd = connects world.loop.log fd) :
    Waits env fd timer world next := by
  obtain ⟨http, present, unclosed⟩ := opened
  cases step with
  | newEvent other fresh =>
      have ne : fd ≠ other := by
        rintro rfl
        rw [present] at fresh
        cases fresh
      obtain ⟨effect, -⟩ := @Conn.newEvent_effect env ⟨HttpData.new other, Io.unused, world.loop⟩
        rfl rfl rfl rfl sound.orderly (sound.absent other fresh).unguarded
      exact waits_update ne ⟨http, present, unclosed⟩ only effect.frame
  | @dispatch other http' interest revents io conn present' entry armed stored ran =>
      obtain ⟨own, serving, -⟩ := sound.serving present' stored
      have requested : Serving (request http' revents) (disarm other interest world.loop) :=
        @serving_request other _ _ serving revents interest
      have orderly : (disarm other interest world.loop).Orderly := sound.orderly.congr rfl rfl
      by_cases ne : fd = other
      · subst ne
        cases drops : revents.drops with
        | true =>
            rw [Conn.handleEvents_drops (by exact drops), Except.ok.injEq] at ran
            subst ran
            exact .inl ⟨⟨_, Function.update_self .., unclosed⟩, only⟩
        | false =>
            have counted := Conn.connects_handleEvents requested orderly drops ran
            rw [show (request http' revents).fd = fd from own] at counted
            exact absurd rests (Nat.ne_of_gt counted)
      · have effect := Conn.handleEvents_effect requested orderly ran
        exact waits_update ne ⟨http, present, unclosed⟩ only
          ((frame_disarm other interest world.loop).trans (own ▸ effect.frame))
  | ignored => exact .inl ⟨⟨http, present, unclosed⟩, only⟩
  | handleExpired =>
      rcases sound.expires_or_stays only present unclosed with
        ⟨tick, first, last, due, logged⟩ | ⟨unclosed', same, only', -⟩
      · exact .inr ⟨logged, tick, first, last, due⟩
      · exact .inl ⟨⟨http, same, unclosed'⟩, only'⟩

theorem onward_run (run : Relation.ReflTransGen (machine env).step world later) :
    world.loop.Onward later.loop := by
  induction run with
  | refl => exact .refl _
  | tail earlier step ih => exact ih.trans (Step.onward step)

/-- The connection waits as long as it does not enter `handle_connect`. -/
theorem waits_run (reachable : (machine env).Reachable world) (opened : world.Open fd)
    {timer : Timer} (only : live world.loop.timers fd = [timer])
    (run : Relation.ReflTransGen (machine env).step world later)
    (rests : connects later.loop.log fd = connects world.loop.log fd) :
    Waits env fd timer world later := by
  induction run with
  | refl => exact .inl ⟨opened, only⟩
  | @tail mid later earlier step ih =>
      have onward := onward_run earlier
      have last : mid.loop.Onward later.loop := Step.onward step
      have begun := connects_mono onward.log fd
      have ended := connects_mono last.log fd
      rcases ih (by omega) with ⟨opened', only'⟩ | ⟨logged, tick, first, before, due⟩
      · have sound := reachable_sound (reachable.run earlier)
        rcases waits_step sound opened' only' step (by omega) with
          waits | ⟨logged, tick, first, before, due⟩
        · exact .inl waits
        · exact .inr ⟨logged, tick, onward.ticks.trans first, before, due⟩
      · exact .inr ⟨last.log.subset logged, tick, first, before.trans_le last.ticks, due⟩

/-- A connection is accepted, or enters `handle_connect`. -/
def Active (fd : Fd) (before world : World) : Prop :=
  before.conns fd = none ∧ world.conns fd ≠ none ∨
    connects before.loop.log fd < connects world.loop.log fd

/-- What is done for another connection is no activity. -/
theorem inactive_update {other : Fd} (ne : fd ≠ other) {conn : Conn}
    (frame : Frame other world.loop conn.loop) : ¬ Active fd world (world.update other conn) := by
  obtain ⟨actions, log⟩ := frame.log
  rintro (⟨absent, present⟩ | counted)
  · exact present ((Function.update_of_ne ne _ _).trans absent)
  · have counted : connects world.loop.log fd < connects conn.loop.log fd := counted
    rw [log, connects, connects, tally_append, tally_of_ne ne, Nat.add_zero] at counted
    exact absurd counted (Nat.lt_irrefl _)

theorem tally_pop {kind : Action → Bool} (other : kind .handleClose = false) (timer : Timer) :
    tally kind (world.pop env timer).loop.log fd = tally kind world.loop.log fd := by
  unfold pop destroy
  split
  · rfl
  · split
    · rfl
    · rename_i http _
      show tally kind (world.loop.log ++ [(http.fd, .handleClose)]) fd = _
      rw [tally_append]
      simp [tally, other]

/-- `handle_expired_event` closes connections only. -/
theorem tally_handleExpired {kind : Action → Bool} (other : kind .handleClose = false) :
    tally kind (world.handleExpired env).loop.log fd = tally kind world.loop.log fd := by
  fun_induction World.handleExpired env world with
  | case1 => rfl
  | case2 world timer least deleted ih => exact ih.trans (tally_pop other timer)
  | case3 => rfl
  | case4 world timer least undeleted expired ih =>
      exact ih.trans (@tally_pop env world.tick fd kind other timer)

theorem connects_handleExpired :
    connects (world.handleExpired env).loop.log fd = connects world.loop.log fd :=
  tally_handleExpired rfl

/-- A step with an activity of a connection accepts it, or delivers an event to it. -/
theorem Step.active_cases (sound : Sound world) (step : Step env world next)
    (active : Active fd world next) :
    world.conns fd = none ∧ next = world.newEvent env fd ∨
      ∃ http interest revents io conn, world.conns fd = some http ∧
        world.loop.fdToChannel fd = true ∧ Mask.drops revents = false ∧
        Conn.handleEvents env ⟨request http revents, io, disarm fd interest world.loop⟩ = .ok conn ∧
        next = world.update fd conn := by
  cases step with
  | newEvent other fresh =>
      by_cases ne : fd = other
      · subst ne
        exact .inl ⟨fresh, rfl⟩
      · obtain ⟨effect, -⟩ := @Conn.newEvent_effect env
          ⟨HttpData.new other, Io.unused, world.loop⟩ rfl rfl rfl rfl sound.orderly
          (sound.absent other fresh).unguarded
        exact absurd active (inactive_update ne effect.frame)
  | @dispatch other http interest revents io conn present entry armed stored ran =>
      by_cases ne : fd = other
      · subst ne
        cases drops : revents.drops with
        | true =>
            rw [Conn.handleEvents_drops (by exact drops), Except.ok.injEq] at ran
            subst ran
            rcases active with ⟨absent, -⟩ | counted
            · cases absent.symm.trans present
            · exact absurd counted (Nat.lt_irrefl _)
        | false => exact .inr ⟨http, interest, revents, io, conn, present, stored, drops, ran, rfl⟩
      · obtain ⟨own, serving, -⟩ := sound.serving present stored
        have effect := Conn.handleEvents_effect
          (@serving_request other _ _ serving revents interest) (sound.orderly.congr rfl rfl) ran
        exact absurd active
          (inactive_update ne ((frame_disarm other interest world.loop).trans (own ▸ effect.frame)))
  | ignored =>
      rcases active with ⟨absent, present⟩ | counted
      · exact absurd absent present
      · exact absurd counted (Nat.lt_irrefl _)
  | handleExpired =>
      rcases active with ⟨absent, present⟩ | counted
      · exact absurd absent ((handleExpired_conns fd).mp present)
      · rw [connects_handleExpired] at counted
        exact absurd counted (Nat.lt_irrefl _)

/-- **A step with an activity renews the timer** of a connection that is open after it. -/
theorem renewed_step (sound : Sound world) (step : Step env world next)
    (active : Active fd world next) (opened : next.Open fd) :
    world.loop.Renewed env next.loop fd := by
  have sound' := sound.step step
  rcases step.active_cases sound active with
    ⟨fresh, rfl⟩ | ⟨http, interest, revents, io, conn, present, stored, kept, ran, rfl⟩
  · obtain ⟨timers, -, ticks⟩ := Conn.newEvent_timers env ⟨HttpData.new fd, Io.unused, world.loop⟩
    refine ⟨world.loop.nextTimer, world.loop.ticks, le_rfl, ticks, ?_⟩
    show live (Conn.newEvent env ⟨HttpData.new fd, Io.unused, world.loop⟩).loop.timers fd = _
    rw [timers]
    exact Loop.live_new (sound.absent fd fresh).unguarded ..
  · obtain ⟨own, serving, -⟩ := sound.serving present stored
    have requested : Serving (request http revents) (disarm fd interest world.loop) :=
      @serving_request fd _ _ serving revents interest
    obtain ⟨http', present', unclosed⟩ := opened
    obtain ⟨-, ⟨serving', -⟩ | ⟨-, closed⟩⟩ := sound'.present fd http' present'
    · obtain rfl : conn.http = http' :=
        Option.some.inj ((Function.update_self fd _ world.conns).symm.trans present')
      have renewed := Conn.handleEvents_renews requested (sound.orderly.congr rfl rfl) kept ran
        serving'
      rwa [show (request http revents).fd = fd from own] at renewed
    · exact absurd closed unclosed

/-- **The idle time of a connection is counted from its last activity.** After a step in which the
connection is accepted or enters `handle_connect`, and any run in which it does not enter it again:
the connection is still open, with the timer that counts from a reading of that step, or it has
been closed behind a reading of the clock that came `DEFAULT_EXPIRED_TIME` later. -/
theorem idleTime_counted {before : World} (reachable : (machine env).Reachable before)
    (step : Step env before world) (active : Active fd before world) (opened : world.Open fd)
    (run : Relation.ReflTransGen (machine env).step world later)
    (rests : connects later.loop.log fd = connects world.loop.log fd) :
    ∃ id tick, before.loop.ticks ≤ tick ∧ tick < world.loop.ticks ∧
      (later.Open fd ∧
          live later.loop.timers fd = [Timer.new id fd (env.clock tick) defaultExpiredTime] ∨
        (fd, Action.handleClose) ∈ later.loop.log ∧
          ∃ reading, world.loop.ticks ≤ reading ∧ reading < later.loop.ticks ∧
            (env.clock tick).millis + defaultExpiredTime ≤ (env.clock reading).millis) := by
  obtain ⟨id, tick, first, last, only⟩ :=
    renewed_step (reachable_sound reachable) step active opened
  refine ⟨id, tick, first, last, ?_⟩
  exact waits_run (reachable.step step) opened only run rests

/-- Another connection is accepted and the queue is looked at: the first one keeps its timer. -/
theorem accepted_keepsTimer :
    let later := (accepted.newEvent Env.calm 6).handleExpired Env.calm
    later.Open 5 ∧
      ∃ id, live later.loop.timers 5 = [Timer.new id 5 ⟨0, 0⟩ defaultExpiredTime] := by
  intro later
  have accepts : Step Env.calm accepted (accepted.newEvent Env.calm 6) := .newEvent 6 rfl
  have run : Relation.ReflTransGen (machine Env.calm).step accepted later :=
    (Relation.ReflTransGen.single accepts).tail .handleExpired
  have rests : connects later.loop.log 5 = connects accepted.loop.log 5 := by
    rw [connects_handleExpired]
    rfl
  have active : Active 5 start accepted := by
    obtain ⟨http, present, -⟩ := accepted_open
    exact .inl ⟨rfl, by simp [present]⟩
  obtain ⟨id, tick, -, -, waits | ⟨-, reading, -, -, due⟩⟩ :=
    idleTime_counted (Runs.Machine.Reachable.start rfl) (.newEvent 5 rfl) active accepted_open run
      rests
  · exact ⟨waits.1, id, waits.2⟩
  · have early : ¬ Timeval.millis ⟨0, 0⟩ + defaultExpiredTime ≤ Timeval.millis ⟨0, 0⟩ := by decide
    exact absurd due early

end World

end FastWebServer
