import FastWebServer.Http.ConnectEffects

/-!
# Dispatching an event

`Channel::handle_events` calls the handlers of a channel for the events that the
kernel reported. A connection has bound `handle_connect` both as its write handler
and as its connect handler, so an event with `EPOLLOUT` calls it twice.

A connection that is `Serving` is still serving after its event, or it is closed
(`handleEvents_effect`). The same theorem says what the log of the event looks
like: a connection that was closed is never registered again, unless
`handle_connect` was entered by an idle connection.
-/

set_option autoImplicit false

namespace FastWebServer

open Cxx

namespace Conn

/-- Call a handler of the channel, if it is set. -/
def call (env : Env) (handler : Option Handler) (conn : Conn) : Except Fault Conn :=
  match handler with
  | none => .ok conn
  | some .handleRead => conn.handleRead
  | some .handleWrite => .ok conn.handleWrite
  | some .handleConnect => .ok (conn.handleConnect env)

/-- `events_ = events`. -/
def storeEvents (events : Mask) (conn : Conn) : Conn :=
  { conn with http := conn.http.setEvents events }

/-- `Channel::handle_events`. -/
def handleEvents (env : Env) (conn : Conn) : Except Fault Conn := do
  let callbacks := HttpData.callbacks
  let revents := conn.http.channel.revents
  let conn := conn.storeEvents 0#32
  if revents.meets epollHup && !revents.meets epollIn then
    return conn.storeEvents 0#32
  if revents.meets epollErr then
    let conn ← conn.call env callbacks.errorHandler
    return conn.storeEvents 0#32
  let conn ← if revents.meets (epollIn ||| epollPri ||| epollRdhup) then
      conn.call env callbacks.readHandler
    else .ok conn
  let conn ← if revents.meets epollOut then conn.call env callbacks.writeHandler else .ok conn
  conn.call env callbacks.connectHandler

end Conn

/-- The events for which `handle_events` returns early. -/
def Mask.drops (revents : Mask) : Bool :=
  revents.meets epollHup && !revents.meets epollIn || revents.meets epollErr

/-- The events for which `handle_events` calls the read handler. -/
def Mask.reads (revents : Mask) : Bool := revents.meets (epollIn ||| epollPri ||| epollRdhup)

namespace Conn

variable {env : Env} {conn after : Conn}

/-- An early return changes the mask only. -/
theorem handleEvents_drops (drops : conn.http.channel.revents.drops = true) :
    conn.handleEvents env = .ok (conn.storeEvents 0#32) := by
  unfold Mask.drops at drops
  unfold handleEvents
  cases hangup : conn.http.channel.revents.meets epollHup &&
      !conn.http.channel.revents.meets epollIn with
  | true =>
      simp only [hangup, if_true]
      rfl
  | false =>
      simp only [hangup, Bool.false_or] at drops
      simp only [hangup, drops, Bool.false_eq_true, if_false, if_true]
      rfl

/-- **What `handle_events` does** for all other events: it may read, and then
`handle_connect` is called once or twice. -/
theorem handleEvents_eq (kept : conn.http.channel.revents.drops = false) :
    conn.handleEvents env =
      (if conn.http.channel.revents.reads then (conn.storeEvents 0#32).handleRead
        else .ok (conn.storeEvents 0#32)).map fun read =>
        if conn.http.channel.revents.meets epollOut then (read.handleConnect env).handleConnect env
        else read.handleConnect env := by
  unfold Mask.drops at kept
  obtain ⟨hangup, error⟩ := Bool.or_eq_false_iff.mp kept
  unfold handleEvents Mask.reads
  simp only [hangup, error, Bool.false_eq_true, if_false]
  cases conn.http.channel.revents.meets (epollIn ||| epollPri ||| epollRdhup) <;>
    cases conn.http.channel.revents.meets epollOut
  · rfl
  · rfl
  · cases read : (conn.storeEvents 0#32).handleRead <;>
      simp [HttpData.callbacks, call, read, bind, Except.bind, Except.map]
  · cases read : (conn.storeEvents 0#32).handleRead <;>
      simp [HttpData.callbacks, call, read, bind, Except.bind, Except.map]

end Conn

/-! ## What is logged -/

/-- The action that ends a connection. -/
def Action.closes : Action → Bool
  | .handleClose => true
  | _ => false

/-- The actions that give a connection a timer or register it. -/
def Action.rearms : Action → Bool
  | .updatePoller _ _ => true
  | .addTimer _ => true
  | _ => false

/-- After the connection is closed it is not registered again. -/
def Settled (actions : List Action) : Prop :=
  actions.Pairwise fun earlier later => earlier.closes = true → later.rearms = false

/-- `handle_connect` is never entered by an idle connection. -/
def IdleFree (actions : List Action) : Prop :=
  ∀ self, Action.handleConnect self ∈ actions → ¬ self.Idle

theorem Action.quiet_closes {action : Action} (quiet : action.quiet = true) :
    action.closes = false := by
  cases action <;> first | rfl | cases quiet

/-- What comes before the first closing does not matter. -/
theorem settled_append_of_open {first second : List Action}
    (opened : ∀ action ∈ first, action.closes = false) :
    Settled (first ++ second) ↔ Settled second := by
  have absent : ∀ {action : Action}, action ∈ first → action.closes = true → False :=
    fun member closes => by simp [opened _ member] at closes
  unfold Settled
  rw [List.pairwise_append]
  constructor
  · exact fun settled => settled.2.1
  · intro settled
    refine ⟨?_, settled, fun action member _ _ closes => (absent member closes).elim⟩
    exact List.pairwise_of_forall_mem_list fun action member _ _ closes =>
      (absent member closes).elim

/-- What registers nothing can follow a closing. -/
theorem settled_append_of_unarmed {first second : List Action}
    (unarmed : ∀ action ∈ second, action.rearms = false) :
    Settled (first ++ second) ↔ Settled first := by
  unfold Settled
  rw [List.pairwise_append]
  constructor
  · exact fun settled => settled.1
  · intro settled
    exact ⟨settled, List.pairwise_of_forall_mem_list fun _ _ action member _ =>
      unarmed action member, fun _ _ action member _ => unarmed action member⟩

theorem idleFree_append {first second : List Action} :
    IdleFree (first ++ second) ↔ IdleFree first ∧ IdleFree second := by
  unfold IdleFree
  constructor
  · exact fun free => ⟨fun self member => free self (List.mem_append_left _ member),
      fun self member => free self (List.mem_append_right _ member)⟩
  · rintro ⟨first, second⟩ self member
    exact (List.mem_append.mp member).elim (first self) (second self)

theorem idleFree_quiet {actions : List Action}
    (quiet : ∀ action ∈ actions, action.quiet = true) : IdleFree actions :=
  fun _ member => by cases quiet _ member

/-! ## The effect of an event -/

/-- A connection when its handlers are about to decide what becomes of it. -/
structure Deciding (before mid : Conn) : Prop where
  fd : mid.http.fd = before.http.fd
  channel : ∃ events, mid.http.channel = { before.http.channel with events := events }
  pending : Pending mid.http mid.loop
  asked : mid.http.isError = false → Asked mid.http.channel.events
  frame : Frame before.http.fd before.loop mid.loop
  kernel : mid.loop.kernel = before.loop.kernel
  log : ∃ actions : List Action, (∀ action ∈ actions, action.quiet = true) ∧
    mid.loop.log = before.loop.log ++ actions.map (Prod.mk before.http.fd)

/-- What an event does to a connection that was serving. -/
structure EventEffect (before after : Conn) : Prop where
  fd : after.http.fd = before.http.fd
  orderly : after.loop.Orderly
  frame : Frame before.http.fd before.loop after.loop
  log : ∃ actions : List Action,
    after.loop.log = before.loop.log ++ actions.map (Prod.mk before.http.fd) ∧
      (Settled actions ↔ IdleFree actions) ∧
      (Serving after.http after.loop ∧ (∀ action ∈ actions, action.closes = false) ∨
        Closed after.http after.loop ∧ Action.handleClose ∈ actions)

namespace Conn

variable {env : Env} {conn after : Conn}

theorem deciding_unread (serving : Serving conn.http conn.loop) (orderly : conn.loop.Orderly) :
    Deciding conn (conn.storeEvents 0#32) where
  fd := rfl
  channel := ⟨0#32, rfl⟩
  pending := ⟨serving.own, fun _ => ⟨serving.connected, serving.unkept⟩, serving.held, orderly,
    .inl serving.guarded⟩
  asked _ := .inl rfl
  frame := .refl _ _
  kernel := rfl
  log := ⟨[], by simp, by simp [storeEvents]⟩

theorem deciding_read (serving : Serving conn.http conn.loop) (orderly : conn.loop.Orderly)
    (ran : (conn.storeEvents 0#32).handleRead = .ok after) : Deciding conn after := by
  have start := deciding_unread serving orderly
  have effect := handleRead_effect start.pending.orderly start.pending.tended ran
  obtain ⟨events, channel⟩ := effect.channel
  have connected : after.http.isError = false → after.http.connectionState = .connected :=
    fun unfailed => (effect.sound unfailed).2.trans serving.connected
  exact
    { fd := effect.fd
      channel := ⟨events, channel⟩
      pending :=
        { own := by
            rw [effect.fd, channel]
            exact serving.own
          sound := fun unfailed => ⟨connected unfailed, effect.keepAlive unfailed serving.unkept⟩
          held := by
            rw [effect.fd, effect.fdToHttp]
            exact serving.held
          orderly := effect.orderly
          tended := effect.tended }
      asked := fun unfailed =>
        effect.asked unfailed (by rw [connected unfailed]; decide) rfl
      frame := effect.frame
      kernel := effect.kernel
      log := effect.log }

/-- Every event that is not dropped comes to a decision. -/
theorem deciding_of_handleEvents (serving : Serving conn.http conn.loop)
    (orderly : conn.loop.Orderly) (kept : conn.http.channel.revents.drops = false)
    (ran : conn.handleEvents env = .ok after) :
    ∃ mid, Deciding conn mid ∧
      after = if conn.http.channel.revents.meets epollOut then
          (mid.handleConnect env).handleConnect env
        else mid.handleConnect env := by
  rw [handleEvents_eq kept] at ran
  cases reads : conn.http.channel.revents.reads with
  | true =>
      rw [reads, if_pos rfl] at ran
      cases read : (conn.storeEvents 0#32).handleRead with
      | error fault => simp [read, Except.map] at ran
      | ok mid =>
          simp only [read, Except.map, Except.ok.injEq] at ran
          exact ⟨mid, deciding_read serving orderly read, ran.symm⟩
  | false =>
      rw [reads, if_neg Bool.false_ne_true, Except.map, Except.ok.injEq] at ran
      exact ⟨_, deciding_unread serving orderly, ran.symm⟩

/-- **What one call of `handle_connect` decides.** -/
theorem handleConnect_outcome (pending : Pending conn.http conn.loop) :
    let after := conn.handleConnect env
    ConnectEffect conn after ∧ ∃ actions : List Action,
      after.loop.log = conn.loop.log ++ actions.map (Prod.mk conn.http.fd) ∧
      (Settled actions ↔ IdleFree actions) ∧
      (Serving after.http after.loop ∧ after.http.channel.events ≠ 0#32 ∧
          (∀ action ∈ actions, action.closes = false) ∧ IdleFree actions ∨
        Closed after.http after.loop ∧ after.http.timer = none ∧ .handleClose ∈ actions) := by
  intro after
  by_cases unfailed : conn.http.isError = false
  · by_cases empty : conn.http.channel.events = 0#32
    · obtain ⟨connected, unkept⟩ := pending.sound unfailed
      have idle : conn.http.Idle := ⟨unfailed, connected, empty, unkept⟩
      obtain ⟨effect, closed, unknown, log⟩ := @handleConnect_idle env conn pending idle
      refine ⟨effect, _, log, ?_, .inr ⟨closed, unknown, by simp⟩⟩
      refine iff_of_false ?_ fun free => free conn.http (by simp) idle
      simp [Settled, Action.closes, Action.rearms]
    · obtain ⟨effect, serving, events, -, log⟩ :=
        @handleConnect_active env conn pending unfailed empty
      have free : ¬ conn.http.Idle := fun idle => empty idle.empty
      have settled : ∀ action ∈ [Action.handleConnect conn.http,
          .updatePoller (arbitrate conn.http.channel.events) defaultExpiredTime,
          .addTimer defaultExpiredTime], action.closes = false := by
        simp [Action.closes]
      refine ⟨effect, _, log, ?_, .inl ⟨serving, events ▸ arbitrate_ne_zero _, settled, ?_⟩⟩
      · refine iff_of_true ?_ ?_
        · simp [Settled, Action.closes]
        · simpa [IdleFree] using free
      · simpa [IdleFree] using free
  · have failed : conn.http.isError = true := by simpa using unfailed
    obtain ⟨effect, closed, unknown, log⟩ := @handleConnect_failed env conn pending failed
    have free : ¬ conn.http.Idle := fun idle => unfailed idle.unfailed
    refine ⟨effect, _, log, iff_of_true ?_ ?_, .inr ⟨closed, unknown, by simp⟩⟩
    · simp [Settled, Action.closes]
    · simpa [IdleFree] using free

/-- What the one or two calls of `handle_connect` for an event decide. -/
theorem handleConnect_twice (pending : Pending conn.http conn.loop) (twice : Bool) :
    let once := conn.handleConnect env
    let after := if twice then once.handleConnect env else once
    ConnectEffect conn after ∧ ∃ actions : List Action,
      after.loop.log = conn.loop.log ++ actions.map (Prod.mk conn.http.fd) ∧
      (Settled actions ↔ IdleFree actions) ∧
      (Serving after.http after.loop ∧ (∀ action ∈ actions, action.closes = false) ∨
        Closed after.http after.loop ∧ .handleClose ∈ actions) := by
  intro once after
  obtain ⟨effect, actions, log, settled, outcome⟩ := @handleConnect_outcome env conn pending
  cases twice with
  | false =>
      refine ⟨effect, actions, log, settled, ?_⟩
      rcases outcome with ⟨serving, -, opened, -⟩ | ⟨closed, -, ended⟩
      · exact .inl ⟨serving, opened⟩
      · exact .inr ⟨closed, ended⟩
  | true =>
      rcases outcome with ⟨serving, -, opened, free⟩ | ⟨closed, unknown, ended⟩
      · have again : Pending once.http once.loop :=
          ⟨serving.own, fun _ => ⟨serving.connected, serving.unkept⟩, serving.held, effect.orderly,
            .inl serving.guarded⟩
        obtain ⟨effect', actions', log', settled', outcome'⟩ :=
          @handleConnect_outcome env once again
        refine ⟨⟨effect'.fd.trans effect.fd, effect'.orderly,
          effect.frame.trans (effect.fd ▸ effect'.frame)⟩, actions ++ actions', ?_, ?_, ?_⟩
        · show (once.handleConnect env).loop.log = _
          rw [log', log, effect.fd, List.map_append, List.append_assoc]
        · rw [settled_append_of_open opened, settled', idleFree_append]
          exact ⟨fun free' => ⟨free, free'⟩, fun both => both.2⟩
        · rcases outcome' with ⟨serving', -, opened', -⟩ | ⟨closed', -, ended'⟩
          · exact .inl ⟨serving', fun action member =>
              (List.mem_append.mp member).elim (opened action) (opened' action)⟩
          · exact .inr ⟨closed', List.mem_append_right _ ended'⟩
      · obtain ⟨effect', closed', log'⟩ :=
          @handleConnect_closed env once closed effect.orderly unknown
        have gone : ¬ once.http.Idle := fun idle => by
          have connected := idle.connected
          rw [closed.disconnected] at connected
          cases connected
        have later : ∃ actions' : List Action,
            (once.handleConnect env).loop.log =
              once.loop.log ++ actions'.map (Prod.mk once.http.fd) ∧
            (∀ action ∈ actions', action.rearms = false) ∧ IdleFree actions' := by
          rcases log' with log' | log'
          · exact ⟨_, log', by simp [Action.rearms], by simpa [IdleFree] using gone⟩
          · exact ⟨_, log', by simp [Action.rearms], by simpa [IdleFree] using gone⟩
        obtain ⟨actions', log', unarmed, free'⟩ := later
        refine ⟨⟨effect'.fd.trans effect.fd, effect'.orderly,
          effect.frame.trans (effect.fd ▸ effect'.frame)⟩, actions ++ actions', ?_, ?_,
          .inr ⟨closed', List.mem_append_left _ ended⟩⟩
        · show (once.handleConnect env).loop.log = _
          rw [log', log, effect.fd, List.map_append, List.append_assoc]
        · rw [settled_append_of_unarmed unarmed, settled, idleFree_append]
          exact ⟨fun free => ⟨free, free'⟩, fun both => both.1⟩

/-- **A connection that is serving is still serving after its event, or it is
closed.** What follows a closing in the log registers the connection again if and
only if `handle_connect` was entered by an idle connection. -/
theorem handleEvents_effect (serving : Serving conn.http conn.loop) (orderly : conn.loop.Orderly)
    (ran : conn.handleEvents env = .ok after) : EventEffect conn after := by
  cases drops : conn.http.channel.revents.drops with
  | true =>
      rw [handleEvents_drops drops, Except.ok.injEq] at ran
      subst ran
      exact ⟨rfl, orderly, .refl _ _, [], by simp [storeEvents], by simp [Settled, IdleFree],
        .inl ⟨⟨serving.own, serving.unfailed, serving.connected, serving.unkept, serving.held,
          serving.guarded⟩, by simp⟩⟩
  | false =>
      obtain ⟨mid, deciding, rfl⟩ := deciding_of_handleEvents serving orderly drops ran
      obtain ⟨reading, quiet, log⟩ := deciding.log
      obtain ⟨effect, actions, log', settled, outcome⟩ :=
        @handleConnect_twice env mid deciding.pending (conn.http.channel.revents.meets epollOut)
      have opened : ∀ action ∈ reading, action.closes = false := fun action member =>
        Action.quiet_closes (quiet action member)
      refine ⟨effect.fd.trans deciding.fd, effect.orderly,
        deciding.frame.trans (deciding.fd ▸ effect.frame), reading ++ actions, ?_, ?_, ?_⟩
      · rw [log', log, deciding.fd, List.map_append, List.append_assoc]
      · rw [settled_append_of_open opened, settled, idleFree_append]
        exact ⟨fun free => ⟨idleFree_quiet quiet, free⟩, fun both => both.2⟩
      · rcases outcome with ⟨serving', opened'⟩ | ⟨closed, ended⟩
        · exact .inl ⟨serving', fun action member =>
            (List.mem_append.mp member).elim (opened action) (opened' action)⟩
        · exact .inr ⟨closed, List.mem_append_right _ ended⟩

end Conn

end FastWebServer
