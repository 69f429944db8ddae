import FastWebServer.Http.ReadEffects

/-!
# What handle_connect can do

`handle_connect` decides what becomes of a connection after its event: it is
registered again with a new timer, or it is closed. A connection that asks for
nothing and is not kept alive takes the branch for idle connections (`Idle`),
which closes it and then calls `update_poller` all the same.

A connection is `Serving` between two events. `handleConnect_active` is the rule
for a connection that asks for something, `handleConnect_idle` and
`handleConnect_failed` are the rules for the two ways it is closed, and
`handleConnect_closed` is the rule for the second of two calls, when the first
has closed the connection.
-/

set_option autoImplicit false

namespace FastWebServer

open Cxx

/-! ## Before and after -/

/-- A connection between two events: error-free, connected, known to the poller
and guarded by its timer. -/
structure Serving (http : HttpData) (loop : Loop) : Prop where
  own : http.channel.fd = http.fd
  unfailed : http.isError = false
  connected : http.connectionState = .connected
  unkept : http.keepAlive = false
  held : loop.fdToHttp http.fd = true
  guarded : Guarded http loop

/-- A connection that `handle_close` has run for: the poller has let go of it, and
no timer guards it. -/
structure Closed (http : HttpData) (loop : Loop) : Prop where
  own : http.channel.fd = http.fd
  disconnected : http.connectionState = .disconnected
  silent : loop.fdToChannel http.fd = false
  dropped : loop.fdToHttp http.fd = false
  unguarded : live loop.timers http.fd = []

/-- A connection that asks for nothing. -/
structure HttpData.Idle (http : HttpData) : Prop where
  unfailed : http.isError = false
  connected : http.connectionState = .connected
  empty : http.channel.events = 0#32
  unkept : http.keepAlive = false

/-- A connection inside a handler, before `handle_connect` has decided. -/
structure Pending (http : HttpData) (loop : Loop) : Prop where
  own : http.channel.fd = http.fd
  sound : http.isError = false → http.connectionState = .connected ∧ http.keepAlive = false
  held : loop.fdToHttp http.fd = true
  orderly : loop.Orderly
  tended : Tended http loop

namespace Conn

variable {env : Env} {conn : Conn}

/-! ## handle_close -/

theorem handleClose_loop (own : conn.http.channel.fd = conn.http.fd) :
    (conn.handleClose env).loop =
      (conn.loop.record conn.http.fd .handleClose).ctlDel env conn.http.fd := by
  show (conn.loop.record conn.http.fd .handleClose).ctlDel env conn.http.channel.fd = _
  rw [own]

theorem frame_handleClose (own : conn.http.channel.fd = conn.http.fd) :
    Frame conn.http.fd conn.loop (conn.handleClose env).loop := by
  rw [handleClose_loop own]
  exact (Loop.frame_record ..).trans (Loop.frame_ctlDel ..)

/-- A connection without timers is closed by `handle_close`. -/
theorem handleClose_closed (own : conn.http.channel.fd = conn.http.fd)
    (unguarded : live conn.loop.timers conn.http.fd = []) :
    Closed (conn.handleClose env).http (conn.handleClose env).loop := by
  rw [handleClose_loop own]
  exact ⟨own, rfl, Function.update_self .., Function.update_self .., unguarded⟩

/-- The holder of a closed connection cannot be locked. -/
theorem getHolder_none {loop : Loop} {fd : Fd} (orderly : loop.Orderly)
    (dropped : loop.fdToHttp fd = false) (unguarded : live loop.timers fd = []) :
    loop.getHolder false fd = none := by
  have unheld : loop.timers.any (·.holder = some fd) = false := by
    rw [List.any_eq_false]
    intro timer queued held
    have held : timer.holder = some fd := by simpa using held
    cases deleted : timer.deleted with
    | true => simp [orderly.holders timer queued deleted] at held
    | false =>
        have guarding : timer ∈ live loop.timers fd :=
          List.mem_filter.mpr ⟨queued, by simp [Timer.guards, deleted, held]⟩
        simp [unguarded] at guarding
  simp [Loop.getHolder, dropped, unheld]

/-! ## The branches of handle_connect -/

/-- What `handle_connect` starts with. -/
def enterConnect (conn : Conn) : Conn := (conn.record (.handleConnect conn.http)).seperateTimer

theorem handleConnect_active_eq (unfailed : conn.enterConnect.http.isError = false)
    (connected : conn.enterConnect.http.connectionState = .connected)
    (asked : conn.enterConnect.http.channel.events ≠ 0#32) :
    conn.handleConnect env =
      updatePoller env
        (if conn.enterConnect.http.keepAlive then defaultKeepAliveTime else defaultExpiredTime)
        { conn.enterConnect with
          http := conn.enterConnect.http.setEvents
            (arbitrate conn.enterConnect.http.channel.events) } := by
  unfold enterConnect at *
  simp only [handleConnect, unfailed, connected, asked, and_self, ne_eq, not_false_eq_true, if_true]

theorem handleConnect_idle_eq (idle : conn.enterConnect.http.Idle) :
    conn.handleConnect env =
      let closed := conn.enterConnect.shutdown.handleClose env
      updatePoller env (defaultKeepAliveTime >>> 1)
        { closed with
          http := closed.http.setEvents (closed.http.channel.events ||| (epollIn ||| epollEt)) } := by
  obtain ⟨unfailed, connected, empty, unkept⟩ := idle
  unfold enterConnect at *
  simp only [handleConnect, unfailed, connected, empty, unkept, and_self, ne_eq, not_true_eq_false,
    Bool.false_eq_true, if_true, if_false]

theorem handleConnect_failed_eq (failed : conn.enterConnect.http.isError = true) :
    conn.handleConnect env = conn.enterConnect.handleClose env := by
  unfold enterConnect at *
  simp only [handleConnect, failed, Bool.true_eq_false, false_and, if_false]

/-- The branch with the mask `EPOLLIN || EPOLLET`. -/
theorem handleConnect_kept_eq (unfailed : conn.enterConnect.http.isError = false)
    (connected : conn.enterConnect.http.connectionState = .connected)
    (empty : conn.enterConnect.http.channel.events = 0#32)
    (kept : conn.enterConnect.http.keepAlive = true) :
    conn.handleConnect env = updatePoller env defaultKeepAliveTime
      { conn.enterConnect with http := conn.enterConnect.http.setEvents 1#32 } := by
  unfold enterConnect at *
  simp only [handleConnect, unfailed, connected, empty, kept, and_self, ne_eq, not_true_eq_false,
    if_true, if_false, BitVec.zero_or]

/-- A connection that has failed or is not connected is closed, or only its mask is
changed. -/
theorem handleConnect_unhealthy_eq (unhealthy : ¬ (conn.enterConnect.http.isError = false ∧
      conn.enterConnect.http.connectionState = .connected)) :
    conn.handleConnect env = conn.enterConnect.handleClose env ∨
      conn.handleConnect env =
        { conn.enterConnect with
          http := conn.enterConnect.http.setEvents (epollOut ||| epollEt) } := by
  unfold enterConnect at *
  simp only [handleConnect, if_neg unhealthy]
  split
  · exact .inr rfl
  · exact .inl rfl

theorem arbitrate_ne_zero (events : Mask) : arbitrate events ≠ 0#32 := by
  intro zero
  have asks : (arbitrate events).meets epollEt = true := Mask.meets_or_self _ _ (by decide)
  rw [zero] at asks
  cases asks

/-! ## The rules -/

/-- What `handle_connect` has done when it starts to decide. -/
structure Entered (before after : Conn) : Prop where
  http : after.http = { before.http with timer := none }
  orderly : after.loop.Orderly
  unguarded : live after.loop.timers before.http.fd = []
  frame : Frame before.http.fd before.loop after.loop
  fdToChannel : after.loop.fdToChannel = before.loop.fdToChannel
  fdToHttp : after.loop.fdToHttp = before.loop.fdToHttp
  kernel : after.loop.kernel = before.loop.kernel
  log : after.loop.log = before.loop.log ++ [(before.http.fd, .handleConnect before.http)]

theorem enterConnect_effect (orderly : conn.loop.Orderly) (tended : Tended conn.http conn.loop) :
    Entered conn conn.enterConnect := by
  have kept : (conn.record (.handleConnect conn.http)).loop.Orderly := orderly.congr rfl rfl
  obtain ⟨timers, seperated, cleared, unguarded, others⟩ := seperateTimer_eq kept tended
  rw [enterConnect, seperated]
  exact
    { http := rfl
      orderly := cleared
      unguarded := unguarded
      frame := ⟨fun _ _ => rfl, fun _ _ => rfl, fun _ _ => rfl, others, [.handleConnect conn.http],
        rfl⟩
      fdToChannel := rfl
      fdToHttp := rfl
      kernel := rfl
      log := rfl }

/-- What a call of `handle_connect` leaves of the other connections and of the
queue. -/
structure ConnectEffect (before after : Conn) : Prop where
  fd : after.http.fd = before.http.fd
  orderly : after.loop.Orderly
  frame : Frame before.http.fd before.loop after.loop

/-- **A connection that asks for something goes on.** -/
theorem handleConnect_active (pending : Pending conn.http conn.loop)
    (unfailed : conn.http.isError = false) (asked : conn.http.channel.events ≠ 0#32) :
    let after := conn.handleConnect env
    ConnectEffect conn after ∧ Serving after.http after.loop ∧
      after.http.channel.events = arbitrate conn.http.channel.events ∧
      after.http.channel.lastEvents = arbitrate conn.http.channel.events ∧
      after.loop.log = conn.loop.log ++
        [Action.handleConnect conn.http,
          .updatePoller (arbitrate conn.http.channel.events) defaultExpiredTime,
          .addTimer defaultExpiredTime].map (Prod.mk conn.http.fd) := by
  intro after
  obtain ⟨connected, unkept⟩ := pending.sound unfailed
  have entered := enterConnect_effect pending.orderly pending.tended
  let asking : Conn := { conn.enterConnect with
    http := conn.enterConnect.http.setEvents (arbitrate conn.enterConnect.http.channel.events) }
  have http : asking.http =
      ({ conn.http with timer := none } : HttpData).setEvents
        (arbitrate conn.http.channel.events) := by
    simp only [asking, entered.http]
  have result : after = asking.updatePoller env defaultExpiredTime := by
    refine (handleConnect_active_eq ?_ ?_ ?_).trans ?_
    · rw [entered.http]
      exact unfailed
    · rw [entered.http]
      exact connected
    · rw [entered.http]
      exact asked
    · rw [entered.http]
      simp only [unkept, Bool.false_eq_true, if_false, asking, entered.http]
  have own : asking.http.channel.fd = asking.http.fd := by
    rw [http]
    exact pending.own
  have unguarded : live asking.loop.timers asking.http.fd = [] := by
    rw [http]
    exact entered.unguarded
  have held : asking.loop.fdToHttp asking.http.fd = true := by
    rw [http]
    exact (congrFun entered.fdToHttp _).trans pending.held
  have updated : Updated defaultExpiredTime asking (asking.updatePoller env defaultExpiredTime) :=
    updatePoller_held (by decide) own entered.orderly unguarded held
  rw [← result] at updated
  obtain ⟨id, updatedHttp⟩ := updated.http
  have final : after.http =
      { conn.http with
        timer := some id
        channel := { conn.http.channel with
          events := arbitrate conn.http.channel.events
          lastEvents := arbitrate conn.http.channel.events } } := by
    rw [updatedHttp]
    simp only [noteEvents, http]
    rfl
  have fd : asking.http.fd = conn.http.fd := by rw [http]; rfl
  have events : asking.http.channel.events = arbitrate conn.http.channel.events := by
    rw [http]
    rfl
  refine ⟨⟨by rw [final], updated.orderly, entered.frame.trans (fd ▸ updated.frame)⟩, ?_,
    by rw [final], by rw [final], ?_⟩
  · refine ⟨?_, ?_, ?_, ?_, ?_, updated.guarded⟩
    · rw [final]
      exact pending.own
    · rw [final]
      exact unfailed
    · rw [final]
      exact connected
    · rw [final]
      exact unkept
    · rw [updated.fdToHttp, final]
      exact (congrFun entered.fdToHttp _).trans pending.held
  · rw [updated.log, fd, events]
    show conn.enterConnect.loop.log ++ _ = _
    rw [entered.log]
    simp

/-- Closing a connection whose timer has just been cleared. -/
theorem Entered.close (entered : Entered conn conn.enterConnect)
    (own : conn.http.channel.fd = conn.http.fd) :
    let after := conn.enterConnect.handleClose env
    ConnectEffect conn after ∧ Closed after.http after.loop ∧ after.http.timer = none ∧
      after.loop.log = conn.loop.log ++
        [Action.handleConnect conn.http, .handleClose].map (Prod.mk conn.http.fd) := by
  intro after
  have fd : conn.enterConnect.http.fd = conn.http.fd := by rw [entered.http]
  have own' : conn.enterConnect.http.channel.fd = conn.enterConnect.http.fd := by
    rw [entered.http]
    exact own
  have frame : Frame conn.http.fd conn.enterConnect.loop after.loop :=
    fd ▸ frame_handleClose own'
  refine ⟨⟨fd, entered.orderly.congr rfl rfl, entered.frame.trans frame⟩,
    handleClose_closed own' (fd ▸ entered.unguarded), ?_, ?_⟩
  · show conn.enterConnect.http.timer = none
    rw [entered.http]
  · show conn.enterConnect.loop.log ++ [(conn.enterConnect.http.fd, _)] = _
    rw [entered.log, fd]
    simp

/-- **A failed connection is closed.** -/
theorem handleConnect_failed (pending : Pending conn.http conn.loop)
    (failed : conn.http.isError = true) :
    let after := conn.handleConnect env
    ConnectEffect conn after ∧ Closed after.http after.loop ∧ after.http.timer = none ∧
      after.loop.log = conn.loop.log ++
        [Action.handleConnect conn.http, .handleClose].map (Prod.mk conn.http.fd) := by
  have entered := enterConnect_effect pending.orderly pending.tended
  rw [handleConnect_failed_eq (by rw [entered.http]; exact failed)]
  exact entered.close pending.own

/-- **A closed connection stays closed.** -/
theorem handleConnect_closed (closed : Closed conn.http conn.loop) (orderly : conn.loop.Orderly)
    (unknown : conn.http.timer = none) :
    let after := conn.handleConnect env
    ConnectEffect conn after ∧ Closed after.http after.loop ∧
      (after.loop.log = conn.loop.log ++
          [Action.handleConnect conn.http].map (Prod.mk conn.http.fd) ∨
        after.loop.log = conn.loop.log ++
          [Action.handleConnect conn.http, .handleClose].map (Prod.mk conn.http.fd)) := by
  have entered := enterConnect_effect orderly (.inr ⟨closed.unguarded, unknown⟩)
  have disconnected : conn.enterConnect.http.connectionState = .disconnected := by
    rw [entered.http]
    exact closed.disconnected
  have unhealthy : ¬ (conn.enterConnect.http.isError = false ∧
      conn.enterConnect.http.connectionState = .connected) := by
    simp [disconnected]
  rcases handleConnect_unhealthy_eq unhealthy with result | result
  · rw [result]
    obtain ⟨effect, closed, -, log⟩ := entered.close closed.own
    exact ⟨effect, closed, .inr log⟩
  · rw [result]
    have fd : conn.enterConnect.http.fd = conn.http.fd := by rw [entered.http]
    refine ⟨⟨fd, entered.orderly, entered.frame⟩, ⟨?_, disconnected, ?_, ?_, ?_⟩,
      .inl entered.log⟩
    · show conn.enterConnect.http.channel.fd = conn.enterConnect.http.fd
      rw [entered.http]
      exact closed.own
    · show conn.enterConnect.loop.fdToChannel conn.enterConnect.http.fd = false
      rw [entered.fdToChannel, fd]
      exact closed.silent
    · show conn.enterConnect.loop.fdToHttp conn.enterConnect.http.fd = false
      rw [entered.fdToHttp, fd]
      exact closed.dropped
    · show live conn.enterConnect.loop.timers conn.enterConnect.http.fd = []
      rw [fd]
      exact entered.unguarded

/-- **The branch for idle connections closes the connection, and then calls
`update_poller`.** -/
theorem handleConnect_idle (pending : Pending conn.http conn.loop) (idle : conn.http.Idle) :
    let after := conn.handleConnect env
    ConnectEffect conn after ∧ Closed after.http after.loop ∧ after.http.timer = none ∧
      after.loop.log = conn.loop.log ++
        [Action.handleConnect conn.http, .shutdown, .handleClose,
          .updatePoller (epollIn ||| epollEt) (defaultKeepAliveTime >>> 1)].map
            (Prod.mk conn.http.fd) := by
  intro after
  have entered := enterConnect_effect pending.orderly pending.tended
  have fd : conn.enterConnect.http.fd = conn.http.fd := by rw [entered.http]
  have own : conn.enterConnect.shutdown.http.channel.fd = conn.enterConnect.shutdown.http.fd := by
    show conn.enterConnect.http.channel.fd = conn.enterConnect.http.fd
    rw [entered.http]
    exact pending.own
  have empty : conn.enterConnect.http.channel.events = 0#32 := by
    rw [entered.http]
    exact idle.empty
  have closed : Closed (conn.enterConnect.shutdown.handleClose env).http
      (conn.enterConnect.shutdown.handleClose env).loop :=
    handleClose_closed own (fd ▸ entered.unguarded)
  let rearmed : Conn := { conn.enterConnect.shutdown.handleClose env with
    http := (conn.enterConnect.shutdown.handleClose env).http.setEvents
      ((conn.enterConnect.shutdown.handleClose env).http.channel.events |||
        (epollIn ||| epollEt)) }
  have result : after = rearmed.updatePoller env (defaultKeepAliveTime >>> 1) := by
    refine handleConnect_idle_eq ⟨?_, ?_, empty, ?_⟩ <;> rw [entered.http]
    · exact idle.unfailed
    · exact idle.connected
    · exact idle.unkept
  have orderly : rearmed.loop.Orderly := entered.orderly.congr rfl rfl
  have dropped : rearmed.loop.getHolder false rearmed.http.fd = none :=
    getHolder_none orderly closed.dropped closed.unguarded
  obtain ⟨loop, updated, kept, timers, fdToHttp, silent, frame, log⟩ :=
    @updatePoller_dropped env (defaultKeepAliveTime >>> 1) rearmed (by decide) own orderly dropped
  have sameFd : rearmed.http.fd = conn.http.fd := fd
  have closing : Frame conn.http.fd conn.enterConnect.loop rearmed.loop :=
    fd ▸ (Loop.frame_record ..).trans (frame_handleClose own)
  rw [result, updated]
  refine ⟨⟨fd, kept, entered.frame.trans (closing.trans (sameFd ▸ frame))⟩,
    ⟨own, rfl, silent _ closed.silent, ?_, ?_⟩, ?_, ?_⟩
  · show loop.fdToHttp _ = false
    rw [fdToHttp]
    exact closed.dropped
  · show live loop.timers _ = []
    rw [timers]
    exact closed.unguarded
  · show conn.enterConnect.http.timer = none
    rw [entered.http]
  · show loop.log = _
    have events : rearmed.http.channel.events = epollIn ||| epollEt := by
      show conn.enterConnect.http.channel.events ||| (epollIn ||| epollEt) = _
      rw [empty]
      rfl
    have before : rearmed.loop.log = conn.enterConnect.loop.log ++
        [Action.shutdown, .handleClose].map (Prod.mk conn.http.fd) := by
      show (conn.enterConnect.loop.log ++ [(conn.enterConnect.http.fd, Action.shutdown)]) ++
        [(conn.enterConnect.http.fd, Action.handleClose)] = _
      rw [fd]
      simp
    rw [log, before, entered.log, events, sameFd]
    simp

/-- **A connection that asks for something is registered for it**, whether
`epoll_ctl` is called or skipped. -/
theorem handleConnect_registers (reliable : env.Reliable) (pending : Pending conn.http conn.loop)
    (unfailed : conn.http.isError = false) (asked : conn.http.channel.events ≠ 0#32)
    (lasting : (arbitrate conn.http.channel.events).meets epollOneshot = false)
    (registered : Registered conn.http.channel conn.loop) :
    (conn.handleConnect env).loop.kernel conn.http.channel.fd =
      some ⟨arbitrate conn.http.channel.events, true⟩ := by
  obtain ⟨connected, -⟩ := pending.sound unfailed
  have entered := enterConnect_effect pending.orderly pending.tended
  let asking : Conn := { conn.enterConnect with
    http := conn.enterConnect.http.setEvents (arbitrate conn.enterConnect.http.channel.events) }
  have channel : asking.http.channel =
      { conn.http.channel with events := arbitrate conn.http.channel.events } := by
    simp only [asking, entered.http]
    rfl
  have known : Registered asking.http.channel asking.loop := by
    obtain ⟨interest, entry, rest⟩ := registered
    refine ⟨interest, ?_, ?_⟩
    · rw [channel]
      show conn.enterConnect.loop.kernel _ = _
      rw [entered.kernel]
      exact entry
    · rw [channel]
      exact rest
  have lasting : asking.http.channel.events.meets epollOneshot = false := by
    rw [channel]
    exact lasting
  rw [handleConnect_active_eq (by rw [entered.http]; exact unfailed)
    (by rw [entered.http]; exact connected) (by rw [entered.http]; exact asked)]
  have registers := @updatePoller_registers env
    (if conn.enterConnect.http.keepAlive then defaultKeepAliveTime else defaultExpiredTime) asking
    reliable known lasting
  rwa [channel] at registers

/-! ## new_event -/

/-- The connection that `new_event` leaves to `add_fd_in_epoll` when its timer has
been added. -/
def heldByPoller (conn : Conn) : Conn :=
  { conn with loop := { conn.loop with
      fdToHttp := Function.update conn.loop.fdToHttp conn.http.channel.fd true } }

theorem frame_heldByPoller : Frame conn.http.channel.fd conn.loop conn.heldByPoller.loop :=
  ⟨fun _ _ => rfl, fun _ ne => Function.update_of_ne ne _ _, fun _ _ => rfl, fun _ _ => rfl, [],
    (List.append_nil _).symm⟩

theorem addFdInEpoll_eq {timeout : ℕ} (positive : 0 < timeout) :
    conn.addFdInEpoll env timeout =
      (conn.addTimer env true timeout).heldByPoller.addInterest env := by
  unfold addFdInEpoll
  rw [if_pos positive]
  simp [heldByPoller, Loop.getHolder]

theorem frame_addInterest :
    Frame conn.http.channel.fd conn.loop (conn.addInterest env).loop := by
  let stored : Loop := { conn.loop with
    fdToChannel := Function.update conn.loop.fdToChannel conn.http.channel.fd true }
  have storing : Frame conn.http.channel.fd conn.loop stored :=
    ⟨fun _ ne => Function.update_of_ne ne _ _, fun _ _ => rfl, fun _ _ => rfl, fun _ _ => rfl, [],
      (List.append_nil _).symm⟩
  exact storing.trans (Loop.frame_epollCtl ..)

/-- A descriptor that is registered for the first time. -/
theorem addInterest_registers (reliable : env.Reliable)
    (unregistered : conn.loop.kernel conn.http.channel.fd = none) :
    Registered (conn.addInterest env).http.channel (conn.addInterest env).loop := by
  refine ⟨⟨conn.http.channel.events, true⟩, ?_, rfl, by simp⟩
  simp [addInterest, noteEvents, Channel.updateLastEvents, Loop.ctlAdd, Loop.epollCtl, unregistered,
    reliable conn.loop.ctls]

/-- **A new connection is serving.** -/
theorem newEvent_effect (own : conn.http.channel.fd = conn.http.fd)
    (unfailed : conn.http.isError = false) (connected : conn.http.connectionState = .connected)
    (unkept : conn.http.keepAlive = false) (orderly : conn.loop.Orderly)
    (unguarded : live conn.loop.timers conn.http.fd = []) :
    let after := conn.newEvent env
    ConnectEffect conn after ∧ Serving after.http after.loop ∧
      after.loop.log = conn.loop.log ++
        [Action.addTimer defaultExpiredTime].map (Prod.mk conn.http.fd) ∧
      (env.Reliable → conn.loop.kernel conn.http.fd = none →
        Registered after.http.channel after.loop) := by
  intro after
  let asking : Conn := { conn with http := conn.http.setEvents defaultEvent }
  have locked : asking.loop.getHolder true asking.http.fd = some asking.http.fd := by
    simp [Loop.getHolder]
  obtain ⟨added, ⟨timer, guards, known⟩, framed⟩ :=
    @addTimer_guards env true defaultExpiredTime asking orderly unguarded locked
  let timed : Conn :=
    { asking with
      http := { asking.http with timer := some conn.loop.nextTimer }
      loop := { asking.loop with
        timers := Timer.new conn.loop.nextTimer conn.http.fd (env.clock conn.loop.ticks)
          defaultExpiredTime :: conn.loop.timers
        nextTimer := conn.loop.nextTimer + 1
        ticks := conn.loop.ticks + 1
        log := conn.loop.log ++ [(conn.http.fd, .addTimer defaultExpiredTime)] } }
  have timing : asking.addTimer env true defaultExpiredTime = timed := addTimer_locked locked
  rw [timing] at added guards known framed
  have result : after = timed.heldByPoller.addInterest env := by
    rw [← timing]
    exact addFdInEpoll_eq (by decide)
  have own' : timed.http.channel.fd = conn.http.fd := own
  have queue : after.loop.timers = timed.loop.timers := by
    rw [result]
    exact Loop.epollCtl_timers ..
  have next : after.loop.nextTimer = timed.loop.nextTimer := by
    rw [result]
    exact Loop.epollCtl_nextTimer ..
  have fdToHttp : after.loop.fdToHttp = Function.update conn.loop.fdToHttp conn.http.fd true := by
    rw [result, ← own']
    exact Loop.epollCtl_fdToHttp ..
  have registering : Frame timed.http.channel.fd timed.loop after.loop := by
    rw [result]
    exact (@frame_heldByPoller timed).trans (@frame_addInterest env timed.heldByPoller)
  rw [own'] at registering
  have final : after.http = timed.noteEvents.http := by
    rw [result]
    rfl
  refine ⟨⟨by rw [final]; rfl, added.congr queue next, framed.trans registering⟩,
    ⟨?_, ?_, ?_, ?_, ?_, ⟨timer, ?_, ?_⟩⟩, ?_, ?_⟩
  · rw [final]
    exact own
  · rw [final]
    exact unfailed
  · rw [final]
    exact connected
  · rw [final]
    exact unkept
  · rw [fdToHttp, final]
    exact Function.update_self ..
  · rw [queue, final]
    exact guards
  · rw [final]
    exact known
  · rw [result]
    exact Loop.epollCtl_log ..
  · intro reliable unregistered
    rw [result]
    refine addInterest_registers reliable ?_
    show conn.loop.kernel conn.http.channel.fd = none
    rw [own]
    exact unregistered

end Conn

end FastWebServer
