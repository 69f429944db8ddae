import FastWebServer.Timer.Activity
import FastWebServer.Http.ErrorPage

/-!
# The destruction of a connection

A connection is destroyed when its last owner lets go of it. While an event is handled its owners
are the entry in `fd_to_http_` and the timer that it is linked to; the channel, which calls the
handlers, is held by the loop and knows the connection by a plain pointer. The handlers here are
those of `handle_connect` and `handle_events` once more, with the places where a member is used
after an owner may have let go. There they end if nothing owns the connection any more (`use`).

As long as they do not end they are the handlers as they are (`handleEventsAlive_ok`). In an event
of a connection that is served they end if `handle_connect` is entered by an idle connection, which
it closes and then still registers, or if an event with `EPOLLOUT` enters it for a connection that
has failed, which the first of the two calls closes (`handleEventsAlive_eq`).

`life` is the state machine of a loop thread that stops where it uses a destroyed connection, or
where an event has no result. A run closes connections for good, and never uses one that it has
closed, if and only if none of its events is of these two kinds (`Life.staysClosed_iff`). A request
that is answered completely is of the first kind (`helloRequest_destroyed`).
-/

set_option autoImplicit false

namespace FastWebServer

open Cxx

instance (http : HttpData) : Decidable http.Idle :=
  decidable_of_iff (http.isError = false ∧ http.connectionState = .connected ∧
      http.channel.events = 0#32 ∧ http.keepAlive = false)
    ⟨fun ⟨unfailed, connected, empty, unkept⟩ => ⟨unfailed, connected, empty, unkept⟩,
      fun idle => ⟨idle.unfailed, idle.connected, idle.empty, idle.unkept⟩⟩

/-! ## Handlers with a lifetime -/

/-- What ends a loop thread in the middle of an event. -/
inductive Halt where
  | fault (fault : Fault)
  /-- A member is used of a connection that nothing owns. -/
  | destroyed (conn : Conn)

namespace Conn

/-- `fd_to_http_` or a timer owns the connection. -/
def owned (conn : Conn) : Bool := (conn.loop.getHolder false conn.http.fd).isSome

/-- A member of the connection is used. -/
def use (conn : Conn) : Except Halt Conn :=
  if conn.owned then .ok conn else .error (.destroyed conn)

/-- `handle_read`. Nothing in it but `reset` takes an owner away, and `buffer_in_` is read after
that. -/
def handleReadAlive (conn : Conn) : Except Halt Conn := do
  let conn ← conn.use
  match conn.handleRead with
  | .error fault => .error (.fault fault)
  | .ok conn => conn.use

/-- `handle_connect`. -/
def handleConnectAlive (env : Env) (conn : Conn) : Except Halt Conn := do
  let conn ← conn.use
  let conn ← ((conn.record (.handleConnect conn.http)).seperateTimer).use
  let http := conn.http
  let events := http.channel.events
  if http.isError = false ∧ http.connectionState = .connected then
    if events ≠ 0#32 then
      let timeout := if http.keepAlive then defaultKeepAliveTime else defaultExpiredTime
      return updatePoller env timeout { conn with http := http.setEvents (arbitrate events) }
    else if http.keepAlive then
      return updatePoller env defaultKeepAliveTime
        { conn with http := http.setEvents (events ||| 1#32) }
    else
      -- the functor owns the connection until `run_in_loop` has returned
      let conn ← (conn.shutdown.handleClose env).use
      return updatePoller env (defaultKeepAliveTime >>> 1)
        { conn with
          http := conn.http.setEvents (conn.http.channel.events ||| (epollIn ||| epollEt)) }
  else if http.isError = false ∧ http.connectionState = .disconnected ∧ events.meets epollOut then
    return { conn with http := http.setEvents (epollOut ||| epollEt) }
  else return conn.handleClose env

/-- Call a handler of the channel, which is bound to the plain pointer. -/
def callAlive (env : Env) (handler : Option Handler) (conn : Conn) : Except Halt Conn :=
  match handler with
  | none => .ok conn
  | some .handleRead => conn.handleReadAlive
  | some .handleWrite => conn.use.map handleWrite
  | some .handleConnect => conn.handleConnectAlive env

/-- `Channel::handle_events`. -/
def handleEventsAlive (env : Env) (conn : Conn) : Except Halt Conn := do
  let callbacks := HttpData.callbacks
  let revents := conn.http.channel.revents
  let conn := conn.storeEvents 0#32
  if revents.meets epollHup && !revents.meets epollIn then
    return conn.storeEvents 0#32
  if revents.meets epollErr then
    let conn ← conn.callAlive env callbacks.errorHandler
    return conn.storeEvents 0#32
  let conn ← if revents.meets (epollIn ||| epollPri ||| epollRdhup) then
      conn.callAlive env callbacks.readHandler
    else .ok conn
  let conn ← if revents.meets epollOut then conn.callAlive env callbacks.writeHandler else .ok conn
  conn.callAlive env callbacks.connectHandler

variable {env : Env} {conn after : Conn}

/-! ## Without an end -/

theorem use_ok (used : conn.use = .ok after) : after = conn := by
  unfold use at used
  split at used <;> cases used
  rfl

theorem use_owned (owned : conn.owned = true) : conn.use = .ok conn := if_pos owned

theorem use_unowned (unowned : conn.owned = false) : conn.use = .error (.destroyed conn) := by
  simp [use, unowned]

theorem handleReadAlive_ok (ran : conn.handleReadAlive = .ok after) :
    conn.handleRead = .ok after := by
  unfold handleReadAlive at ran
  cases used : conn.use with
  | error halt => simp [used, bind, Except.bind] at ran
  | ok same =>
      obtain rfl := use_ok used
      simp only [used, bind, Except.bind] at ran
      cases read : same.handleRead with
      | error fault => simp [read] at ran
      | ok mid =>
          simp only [read] at ran
          rw [use_ok ran]

/-- What `handle_connect` does when its members can be used. -/
theorem handleConnectAlive_entered (owned : conn.owned = true)
    (entered : conn.enterConnect.owned = true) :
    conn.handleConnectAlive env =
      if conn.enterConnect.http.Idle then
        (conn.enterConnect.shutdown.handleClose env).use.map fun _ => conn.handleConnect env
      else .ok (conn.handleConnect env) := by
  have again := use_owned entered
  rw [enterConnect] at again
  by_cases idle : conn.enterConnect.http.Idle
  · rw [if_pos idle, handleConnect_idle_eq idle]
    obtain ⟨unfailed, connected, empty, unkept⟩ := idle
    unfold enterConnect at *
    simp only [handleConnectAlive, use_owned owned, again, bind, Except.bind, unfailed, connected,
      empty, unkept, and_self, ne_eq, not_true_eq_false, Bool.false_eq_true, if_true, if_false]
    cases used :
        ((conn.record (.handleConnect conn.http)).seperateTimer.shutdown.handleClose env).use with
    | error halt => rfl
    | ok closed =>
        rw [use_ok used]
        rfl
  · rw [if_neg idle]
    unfold enterConnect at *
    simp only [handleConnectAlive, handleConnect, use_owned owned, again, bind, Except.bind]
    split
    · rename_i served
      split
      · rfl
      · rename_i empty
        split
        · rfl
        · rename_i unkept
          exact absurd ⟨served.1, served.2, by simpa using empty, by simpa using unkept⟩ idle
    · split <;> rfl

theorem handleConnectAlive_ok (ran : conn.handleConnectAlive env = .ok after) :
    after = conn.handleConnect env := by
  cases owned : conn.owned with
  | false => simp [handleConnectAlive, use_unowned owned, bind, Except.bind] at ran
  | true =>
      cases entered : conn.enterConnect.owned with
      | false =>
          have unowned := use_unowned entered
          rw [enterConnect] at unowned
          simp [handleConnectAlive, use_owned owned, unowned, bind, Except.bind] at ran
      | true =>
          rw [handleConnectAlive_entered owned entered] at ran
          split at ran
          · cases used : (conn.enterConnect.shutdown.handleClose env).use with
            | error halt => simp [used, Except.map] at ran
            | ok closed => simpa [used, Except.map] using ran.symm
          · exact (Except.ok.inj ran).symm

/-- An early return uses no member of the connection. -/
theorem handleEventsAlive_drops (drops : conn.http.channel.revents.drops = true) :
    conn.handleEventsAlive env = .ok (conn.storeEvents 0#32) := by
  unfold Mask.drops at drops
  unfold handleEventsAlive
  cases hangup : conn.http.channel.revents.meets epollHup &&
      !conn.http.channel.revents.meets epollIn with
  | true =>
      simp only [hangup, if_true]
      rfl
  | false =>
      simp only [hangup, Bool.false_or] at drops
      simp only [hangup, drops, Bool.false_eq_true, if_false, if_true]
      rfl

/-- For all other events the connection may be read, and comes to `handle_connect` once or twice. -/
theorem handleEventsAlive_kept (kept : conn.http.channel.revents.drops = false) :
    conn.handleEventsAlive env =
      (if conn.http.channel.revents.reads then (conn.storeEvents 0#32).handleReadAlive
        else .ok (conn.storeEvents 0#32)).bind fun read =>
        if conn.http.channel.revents.meets epollOut then
          (read.handleConnectAlive env).bind (handleConnectAlive env)
        else read.handleConnectAlive env := by
  unfold Mask.drops at kept
  obtain ⟨hangup, error⟩ := Bool.or_eq_false_iff.mp kept
  unfold handleEventsAlive Mask.reads
  simp only [hangup, error, Bool.false_eq_true, if_false]
  cases conn.http.channel.revents.meets (epollIn ||| epollPri ||| epollRdhup) <;>
    cases conn.http.channel.revents.meets epollOut <;> rfl

/-- **Without an end the event is the one of the program.** -/
theorem handleEventsAlive_ok (ran : conn.handleEventsAlive env = .ok after) :
    conn.handleEvents env = .ok after := by
  cases drops : conn.http.channel.revents.drops with
  | true =>
      rw [handleEventsAlive_drops drops] at ran
      rw [handleEvents_drops drops, ← Except.ok.inj ran]
  | false =>
      rw [handleEventsAlive_kept drops] at ran
      rw [handleEvents_eq drops]
      cases came : (if conn.http.channel.revents.reads then (conn.storeEvents 0#32).handleReadAlive
          else .ok (conn.storeEvents 0#32)) with
      | error halt => simp [came, Except.bind] at ran
      | ok mid =>
          have read : (if conn.http.channel.revents.reads then (conn.storeEvents 0#32).handleRead
              else .ok (conn.storeEvents 0#32)) = .ok mid := by
            split at came
            · exact (if_pos ‹_›).trans (handleReadAlive_ok came)
            · cases came
              exact if_neg ‹_›
          simp only [came, Except.bind] at ran
          rw [read, Except.map]
          split at ran
          · rename_i twice
            cases once : mid.handleConnectAlive env with
            | error halt => simp [once] at ran
            | ok first =>
                simp only [once] at ran
                rw [if_pos twice, handleConnectAlive_ok ran, handleConnectAlive_ok once]
          · rename_i once
            rw [if_neg once, handleConnectAlive_ok ran]

/-! ## Where an event ends -/

theorem owned_of_held (held : conn.loop.fdToHttp conn.http.fd = true) : conn.owned = true := by
  simp [owned, Loop.getHolder, held]

/-- Nothing owns a closed connection. -/
theorem unowned_of_closed (closed : Closed conn.http conn.loop) (orderly : conn.loop.Orderly) :
    conn.owned = false := by
  rw [owned, getHolder_none orderly closed.dropped closed.unguarded]
  rfl

/-- An event with this mask comes to `handle_connect` with a connection that is closed there and
used again. -/
def Dangles (revents : Mask) (http : HttpData) : Prop :=
  http.Idle ∨ http.isError = true ∧ revents.meets epollOut = true

/-- The event has ended at a connection that it has closed itself. -/
def EndsClosed (fd : Fd) (result : Except Halt Conn) : Prop :=
  ∃ closed, result = .error (.destroyed closed) ∧ closed.http.fd = fd ∧
    (fd, Action.handleClose) ∈ closed.loop.log

/-- The connection that the branch for idle connections has closed. -/
def closedIdle (env : Env) (conn : Conn) : Conn := conn.enterConnect.shutdown.handleClose env

theorem idle_enterConnect (pending : Pending conn.http conn.loop) :
    conn.enterConnect.http.Idle ↔ conn.http.Idle := by
  rw [(enterConnect_effect pending.orderly pending.tended).http]
  exact ⟨fun idle => ⟨idle.unfailed, idle.connected, idle.empty, idle.unkept⟩,
    fun idle => ⟨idle.unfailed, idle.connected, idle.empty, idle.unkept⟩⟩

theorem owned_of_pending (pending : Pending conn.http conn.loop) :
    conn.owned = true ∧ conn.enterConnect.owned = true := by
  have entered := enterConnect_effect pending.orderly pending.tended
  refine ⟨owned_of_held pending.held, owned_of_held ?_⟩
  rw [entered.fdToHttp, entered.http]
  exact pending.held

/-- A connection that has not failed and is not idle asks for something. -/
theorem asked_of_busy (pending : Pending conn.http conn.loop) (unfailed : conn.http.isError = false)
    (busy : ¬ conn.http.Idle) : conn.http.channel.events ≠ 0#32 := fun empty =>
  busy ⟨unfailed, (pending.sound unfailed).1, empty, (pending.sound unfailed).2⟩

/-- A connection that is not idle can be used to the end. -/
theorem handleConnectAlive_busy (pending : Pending conn.http conn.loop)
    (busy : ¬ conn.http.Idle) : conn.handleConnectAlive env = .ok (conn.handleConnect env) := by
  obtain ⟨owned, entered⟩ := owned_of_pending pending
  rw [handleConnectAlive_entered owned entered, if_neg fun idle => busy
    ((idle_enterConnect pending).mp idle)]

/-- **An idle connection is destroyed when `run_in_loop` returns.** -/
theorem handleConnectAlive_idle (pending : Pending conn.http conn.loop) (idle : conn.http.Idle) :
    conn.handleConnectAlive env = .error (.destroyed (conn.closedIdle env)) := by
  obtain ⟨owned, entered⟩ := owned_of_pending pending
  have effect := enterConnect_effect pending.orderly pending.tended
  have closed : Closed (conn.closedIdle env).http (conn.closedIdle env).loop := by
    refine handleClose_closed ?_ ?_
    · show conn.enterConnect.http.channel.fd = conn.enterConnect.http.fd
      rw [effect.http]
      exact pending.own
    · show live conn.enterConnect.loop.timers conn.enterConnect.http.fd = []
      rw [effect.http]
      exact effect.unguarded
  rw [handleConnectAlive_entered owned entered, if_pos ((idle_enterConnect pending).mpr idle),
    show (conn.enterConnect.shutdown.handleClose env).use = _ from
      use_unowned (unowned_of_closed closed (effect.orderly.congr rfl rfl))]
  rfl

theorem endsClosed_idle (pending : Pending conn.http conn.loop) (idle : conn.http.Idle) :
    EndsClosed conn.http.fd (conn.handleConnectAlive env) := by
  have fd : (conn.closedIdle env).http.fd = conn.http.fd := by
    show conn.enterConnect.http.fd = _
    rw [(enterConnect_effect pending.orderly pending.tended).http]
  refine ⟨_, handleConnectAlive_idle pending idle, fd, ?_⟩
  rw [← fd]
  exact List.mem_append_right _ (List.mem_singleton_self _)

/-- **The calls of `handle_connect` in an event**, for a connection that has been served so far. -/
theorem handleConnectsAlive (pending : Pending conn.http conn.loop) (revents : Mask) :
    let once := conn.handleConnectAlive env
    let result := if revents.meets epollOut then once.bind (handleConnectAlive env) else once
    (Dangles revents conn.http → EndsClosed conn.http.fd result) ∧
      (¬ Dangles revents conn.http → result = .ok
        (if revents.meets epollOut then (conn.handleConnect env).handleConnect env
          else conn.handleConnect env)) := by
  intro once result
  by_cases idle : conn.http.Idle
  · refine ⟨fun _ => ?_, fun spared => absurd (.inl idle) spared⟩
    obtain ⟨closed, ended, same⟩ := @endsClosed_idle env conn pending idle
    refine ⟨closed, ?_, same⟩
    simp only [result, once, ended, Except.bind, ite_self]
  · have first : once = .ok (conn.handleConnect env) := handleConnectAlive_busy pending idle
    cases out : revents.meets epollOut with
    | false =>
        refine ⟨fun dangles => ?_, fun _ => ?_⟩
        · rcases dangles with here | ⟨-, meets⟩
          · exact absurd here idle
          · cases out.symm.trans meets
        · simp only [result, out, Bool.false_eq_true, if_false, first]
    | true =>
        have again : result = (conn.handleConnect env).handleConnectAlive env := by
          simp only [result, out, if_true, first, Except.bind]
        rw [again]
        by_cases failed : conn.http.isError = true
        · -- the first call closes the connection, and nothing owns it at the second one
          refine ⟨fun _ => ?_, fun spared => absurd (.inr ⟨failed, out⟩) spared⟩
          obtain ⟨effect, closed, -, log⟩ := @handleConnect_failed env conn pending failed
          refine ⟨conn.handleConnect env, ?_, effect.fd, ?_⟩
          · simp [handleConnectAlive, use_unowned (unowned_of_closed closed effect.orderly), bind,
              Except.bind]
          · rw [log]
            simp
        · have unfailed : conn.http.isError = false := by simpa using failed
          obtain ⟨effect, serving, events, -⟩ := @handleConnect_active env conn pending unfailed
            (asked_of_busy pending unfailed idle)
          have busy : ¬ (conn.handleConnect env).http.Idle := fun here =>
            arbitrate_ne_zero _ (events.symm.trans here.empty)
          refine ⟨fun dangles => ?_, fun _ => ?_⟩
          · rcases dangles with here | ⟨fails, -⟩
            · exact absurd here idle
            · exact absurd fails failed
          · rw [handleConnectAlive_busy (serving.pending effect.orderly) busy, if_pos rfl]

/-- A connection that is served can be read to the end. -/
theorem handleReadAlive_eq (serving : Serving conn.http conn.loop) (orderly : conn.loop.Orderly) :
    (conn.storeEvents 0#32).handleReadAlive =
      match (conn.storeEvents 0#32).handleRead with
      | .error fault => .error (.fault fault)
      | .ok mid => .ok mid := by
  have held : (conn.storeEvents 0#32).owned = true := owned_of_held serving.held
  rw [handleReadAlive, use_owned held]
  simp only [bind, Except.bind]
  cases read : (conn.storeEvents 0#32).handleRead with
  | error fault => rfl
  | ok mid => exact use_owned (owned_of_held (deciding_read serving orderly read).pending.held)

/-- **The event of a connection that is served.** It ends in the fault of `handle_read`, or at the
connection that it has closed, or it is the event of the program. -/
theorem handleEventsAlive_eq (serving : Serving conn.http conn.loop)
    (orderly : conn.loop.Orderly) (kept : conn.http.channel.revents.drops = false) :
    (∀ fault, conn.http.channel.revents.reads = true →
      (conn.storeEvents 0#32).handleRead = .error fault →
        conn.handleEventsAlive env = .error (.fault fault)) ∧
    ∀ mid, Connecting conn mid →
      (Dangles conn.http.channel.revents mid.http →
        EndsClosed conn.http.fd (conn.handleEventsAlive env)) ∧
      (¬ Dangles conn.http.channel.revents mid.http →
        let after := if conn.http.channel.revents.meets epollOut then
          (mid.handleConnect env).handleConnect env
        else mid.handleConnect env
        conn.handleEvents env = .ok after ∧ conn.handleEventsAlive env = .ok after) := by
  have alive := handleReadAlive_eq serving orderly
  constructor
  · intro fault reads thrown
    rw [handleEventsAlive_kept kept, if_pos reads, alive, thrown]
    rfl
  · intro mid connecting
    have came : (if conn.http.channel.revents.reads then (conn.storeEvents 0#32).handleReadAlive
        else .ok (conn.storeEvents 0#32)) = .ok mid ∧
          (if conn.http.channel.revents.reads then (conn.storeEvents 0#32).handleRead
            else .ok (conn.storeEvents 0#32)) = .ok mid := by
      rcases connecting with ⟨unread, rfl⟩ | ⟨reads, read⟩
      · simp only [unread, Bool.false_eq_true, if_false, and_self]
      · rw [if_pos reads, if_pos reads, alive, read]
        exact ⟨rfl, rfl⟩
    have deciding := connecting.deciding serving orderly
    obtain ⟨ends, goes⟩ := @handleConnectsAlive env mid deciding.pending conn.http.channel.revents
    rw [handleEventsAlive_kept kept, handleEvents_eq kept, came.1, came.2]
    exact ⟨fun dangles => deciding.fd ▸ ends dangles, fun spared => ⟨rfl, goes spared⟩⟩

/-- An event throws when it reads, or comes to `handle_connect`. -/
theorem throws_or_connecting (conn : Conn) :
    (conn.http.channel.revents.reads = true ∧
      ∃ fault, (conn.storeEvents 0#32).handleRead = .error fault) ∨ ∃ mid, Connecting conn mid := by
  cases reads : conn.http.channel.revents.reads with
  | false => exact .inr ⟨_, .inl ⟨reads, rfl⟩⟩
  | true =>
      cases read : (conn.storeEvents 0#32).handleRead with
      | error fault => exact .inl ⟨rfl, fault, rfl⟩
      | ok mid => exact .inr ⟨mid, .inr ⟨reads, read⟩⟩

/-- **Which events do not end.** -/
theorem handleEventsAlive_ends_iff (serving : Serving conn.http conn.loop)
    (orderly : conn.loop.Orderly) :
    (∃ halt, conn.handleEventsAlive env = .error halt) ↔
      conn.http.channel.revents.drops = false ∧
        (conn.http.channel.revents.reads = true ∧
            (∃ fault, (conn.storeEvents 0#32).handleRead = .error fault) ∨
          ∃ mid, Connecting conn mid ∧ Dangles conn.http.channel.revents mid.http) := by
  cases drops : conn.http.channel.revents.drops with
  | true => simp [handleEventsAlive_drops drops]
  | false =>
      obtain ⟨throws, comes⟩ := @handleEventsAlive_eq env conn serving orderly drops
      rw [and_iff_right rfl]
      constructor
      · rintro ⟨halt, ended⟩
        by_contra spared
        rw [not_or, not_exists] at spared
        obtain ⟨mid, connecting⟩ := conn.throws_or_connecting.resolve_left spared.1
        have goes := ((comes mid connecting).2 fun dangles =>
          spared.2 mid ⟨connecting, dangles⟩).2
        cases ended.symm.trans goes
      · rintro (⟨reads, fault, thrown⟩ | ⟨mid, connecting, dangles⟩)
        · exact ⟨_, throws fault reads thrown⟩
        · obtain ⟨closed, ended, -⟩ := (comes mid connecting).1 dangles
          exact ⟨_, ended⟩

end Conn

/-! ## The loop thread -/

/-- A loop thread that runs, or has ended in the middle of an event. -/
inductive Life where
  | running (world : World)
  | ended (halt : Halt)

namespace Life

/-- What becomes of the thread when the event of a descriptor has been handled. -/
def handled (world : World) (fd : Fd) : Except Halt Conn → Life
  | .ok conn => .running (world.update fd conn)
  | .error halt => .ended halt

/-- One step of the loop thread. -/
inductive Step (env : Env) : Life → Life → Prop where
  | newEvent {world : World} (fd : Fd) (fresh : world.conns fd = none) :
      Step env (.running world) (.running (world.newEvent env fd))
  | dispatch {world : World} {fd : Fd} {http : HttpData} {interest : Interest} {revents : Mask}
      {io : Io} (present : world.conns fd = some http)
      (entry : world.loop.kernel fd = some interest) (armed : interest.armed = true)
      (stored : world.loop.fdToChannel fd = true) :
      Step env (.running world) (handled world fd (Conn.handleEventsAlive env
        ⟨World.request http revents, io, World.disarm fd interest world.loop⟩))
  | ignored {world : World} {fd : Fd} {interest : Interest}
      (entry : world.loop.kernel fd = some interest) (armed : interest.armed = true)
      (unset : world.loop.fdToChannel fd = false) :
      Step env (.running world)
        (.running { world with loop := World.disarm fd interest world.loop })
  | handleExpired {world : World} :
      Step env (.running world) (.running (world.handleExpired env))

end Life

/-- The state machine of a loop thread whose connections can be destroyed. -/
def life (env : Env) : Runs.Machine Life where
  start life := life = .running World.start
  step := Life.Step env

namespace Life

variable {env : Env} {world : World}

/-- A step of a thread that goes on is one of the loop thread. -/
theorem Step.goesOn {before after : Life} (step : Step env before after) {next : World}
    (goes : after = .running next) : ∃ world, before = .running world ∧
      World.Step env world next := by
  cases step with
  | newEvent fd fresh =>
      cases goes
      exact ⟨_, rfl, .newEvent fd fresh⟩
  | @dispatch world fd http interest revents io present entry armed stored =>
      cases ran : Conn.handleEventsAlive env
          ⟨World.request http revents, io, World.disarm fd interest world.loop⟩ with
      | error halt =>
          rw [ran] at goes
          cases goes
      | ok conn =>
          rw [ran] at goes
          cases goes
          exact ⟨world, rfl, .dispatch present entry armed stored (Conn.handleEventsAlive_ok ran)⟩
  | ignored entry armed unset =>
      cases goes
      exact ⟨_, rfl, .ignored entry armed unset⟩
  | handleExpired =>
      cases goes
      exact ⟨_, rfl, .handleExpired⟩

/-- **As long as the thread goes on it is the loop thread of the program.** -/
theorem reachable_world {state : Life} (reachable : (life env).Reachable state) :
    ∀ world, state = .running world → (World.machine env).Reachable world := by
  refine reachable.induction
    (fun state => ∀ world, state = .running world → (World.machine env).Reachable world) ?_ ?_
  · rintro first rfl world same
    cases same
    exact .start rfl
  · intro before after earlier reached step world goes
    obtain ⟨previous, same, moved⟩ := step.goesOn goes
    exact (reached previous same).step moved

/-! ## Closed connections -/

/-- The step is an event that comes to `handle_connect` with a connection that is closed there and
used again. -/
inductive Dangling (env : Env) : Life → Life → Prop where
  | event {world : World} {fd : Fd} {http : HttpData} {interest : Interest} {revents : Mask}
      {io : Io} {mid : Conn} (present : world.conns fd = some http)
      (stored : world.loop.fdToChannel fd = true) (kept : revents.drops = false)
      (connecting : Conn.Connecting
        ⟨World.request http revents, io, World.disarm fd interest world.loop⟩ mid)
      (dangles : Conn.Dangles revents mid.http) :
      Dangling env (.running world) (handled world fd (Conn.handleEventsAlive env
        ⟨World.request http revents, io, World.disarm fd interest world.loop⟩))

/-- **A closed connection stays closed**: it is never given a timer and never registered, no timer
guards it, and no member of it is used once nothing owns it. -/
def StaysClosed : Life → Prop
  | .running world => world.ClosedStaysClosed
  | .ended (.fault _) => True
  | .ended (.destroyed conn) => (conn.http.fd, Action.handleClose) ∉ conn.loop.log

/-- The invariant of a thread whose connections stay closed. -/
def Sound : Life → Prop
  | .running world => World.Sound world ∧ World.LogIdleFree world.loop.log
  | .ended (.fault _) => True
  | .ended (.destroyed _) => False

theorem Sound.staysClosed {state : Life} (sound : state.Sound) : state.StaysClosed := by
  cases state with
  | running world => exact World.closedStaysClosed sound.1 sound.2
  | ended halt =>
      cases halt with
      | fault fault => trivial
      | destroyed conn => exact sound.elim

/-- What a call of `handle_connect` logs for a connection that is not idle. -/
theorem idleFree_connect {mid : Conn} (pending : Pending mid.http mid.loop)
    (busy : ¬ mid.http.Idle) : ∃ actions : List Action, IdleFree actions ∧
      (mid.handleConnect env).loop.log = mid.loop.log ++ actions.map (Prod.mk mid.http.fd) := by
  by_cases failed : mid.http.isError = true
  · obtain ⟨-, -, -, log⟩ := @Conn.handleConnect_failed env mid pending failed
    exact ⟨_, by simpa [IdleFree] using busy, log⟩
  · have unfailed : mid.http.isError = false := by simpa using failed
    obtain ⟨-, -, -, -, log⟩ := @Conn.handleConnect_active env mid pending unfailed
      (Conn.asked_of_busy pending unfailed busy)
    exact ⟨_, by simpa [IdleFree] using busy, log⟩

/-- What the calls of `handle_connect` in an event log when the event does not end there. -/
theorem idleFree_connects {mid : Conn} (pending : Pending mid.http mid.loop) {revents : Mask}
    (spared : ¬ Conn.Dangles revents mid.http) :
    ∃ actions : List Action, IdleFree actions ∧
      (if revents.meets epollOut then (mid.handleConnect env).handleConnect env
        else mid.handleConnect env).loop.log =
          mid.loop.log ++ actions.map (Prod.mk mid.http.fd) := by
  have busy : ¬ mid.http.Idle := fun idle => spared (.inl idle)
  obtain ⟨actions, free, log⟩ := @idleFree_connect env mid pending busy
  cases out : revents.meets epollOut with
  | false => exact ⟨actions, free, log⟩
  | true =>
      have unfailed : mid.http.isError = false := by
        simpa using fun failed => spared (.inr ⟨failed, out⟩)
      obtain ⟨effect, serving, events, -⟩ := @Conn.handleConnect_active env mid pending unfailed
        (Conn.asked_of_busy pending unfailed busy)
      obtain ⟨actions', free', log'⟩ := @idleFree_connect env (mid.handleConnect env)
        (serving.pending effect.orderly)
        fun idle => Conn.arbitrate_ne_zero _ (events.symm.trans idle.empty)
      refine ⟨actions ++ actions', idleFree_append.mpr ⟨free, free'⟩, ?_⟩
      rw [if_pos rfl, log', log, effect.fd, List.append_assoc, ← List.map_append]

theorem logIdleFree_newEvent {fd : Fd} (sound : World.Sound world)
    (fresh : world.conns fd = none) (free : World.LogIdleFree world.loop.log) :
    World.LogIdleFree (world.newEvent env fd).loop.log := by
  have unknown := sound.absent fd fresh
  obtain ⟨-, -, log, -⟩ := @Conn.newEvent_effect env ⟨HttpData.new fd, Io.unused, world.loop⟩ rfl
    rfl rfl rfl sound.orderly unknown.unguarded
  show World.LogIdleFree (Conn.newEvent env ⟨HttpData.new fd, Io.unused, world.loop⟩).loop.log
  rw [log]
  exact World.logIdleFree_append.mpr ⟨free, by simp [IdleFree]⟩

theorem logIdleFree_pop (free : World.LogIdleFree world.loop.log) (timer : Timer) :
    World.LogIdleFree (world.pop env timer).loop.log := by
  unfold World.pop World.destroy
  split
  · exact free
  · split
    · exact free
    · rename_i http present
      exact (@World.logIdleFree_append _ _ [.handleClose]).mpr ⟨free, by simp [IdleFree]⟩

theorem logIdleFree_handleExpired (free : World.LogIdleFree world.loop.log) :
    World.LogIdleFree (world.handleExpired env).loop.log := by
  fun_induction World.handleExpired env world with
  | case1 => exact free
  | case2 world timer least deleted ih => exact ih (logIdleFree_pop free timer)
  | case3 => exact free
  | case4 world timer least undeleted expired ih =>
      have ticked : World.LogIdleFree world.tick.loop.log := free
      exact ih (logIdleFree_pop ticked timer)

/-- The event of a connection whose result the event does not go on using. -/
theorem sound_dispatch {fd : Fd} {http : HttpData} {interest : Interest} {revents : Mask} {io : Io}
    (sound : World.Sound world) (free : World.LogIdleFree world.loop.log)
    (present : world.conns fd = some http) (stored : world.loop.fdToChannel fd = true)
    (spared : revents.drops = false → ∀ mid, Conn.Connecting
      ⟨World.request http revents, io, World.disarm fd interest world.loop⟩ mid →
        ¬ Conn.Dangles revents mid.http) :
    (handled world fd (Conn.handleEventsAlive env
      ⟨World.request http revents, io, World.disarm fd interest world.loop⟩)).Sound := by
  obtain ⟨rfl, serving, -⟩ := sound.serving present stored
  let conn : Conn := ⟨World.request http revents, io, World.disarm http.fd interest world.loop⟩
  have serving' : Serving conn.http conn.loop := World.serving_request serving revents interest
  have orderly : conn.loop.Orderly := sound.orderly.congr rfl rfl
  show (handled world http.fd (conn.handleEventsAlive env)).Sound
  cases drops : revents.drops with
  | true =>
      rw [Conn.handleEventsAlive_drops drops]
      exact ⟨sound.dispatch present stored (@Conn.handleEvents_drops env conn drops), free⟩
  | false =>
      obtain ⟨throws, comes⟩ := @Conn.handleEventsAlive_eq env conn serving' orderly drops
      rcases conn.throws_or_connecting with ⟨reads, fault, thrown⟩ | ⟨mid, connecting⟩
      · rw [throws fault reads thrown]
        trivial
      · have safe := spared drops mid connecting
        obtain ⟨ran, alive⟩ := (comes mid connecting).2 safe
        have deciding := connecting.deciding serving' orderly
        obtain ⟨reading, quiet, log⟩ := deciding.log
        obtain ⟨actions, kept, log'⟩ := @idleFree_connects env mid deciding.pending revents safe
        rw [alive]
        refine ⟨sound.dispatch present stored ran, ?_⟩
        show World.LogIdleFree (if revents.meets epollOut then
          (mid.handleConnect env).handleConnect env else mid.handleConnect env).loop.log
        rw [log', log]
        exact World.logIdleFree_append.mpr
          ⟨World.logIdleFree_append.mpr ⟨free, idleFree_quiet quiet⟩, kept⟩

/-- Such an event ends the thread at the connection that it has closed. -/
theorem Dangling.ends {after : Life} (dangling : Dangling env (.running world) after)
    (sound : World.Sound world) : ∃ closed, after = .ended (.destroyed closed) ∧
      (closed.http.fd, Action.handleClose) ∈ closed.loop.log := by
  obtain ⟨present, stored, kept, connecting, dangles⟩ := dangling
  obtain ⟨rfl, serving, -⟩ := sound.serving present stored
  obtain ⟨closed, ended, fd, logged⟩ := ((Conn.handleEventsAlive_eq
    (World.serving_request serving _ _) (sound.orderly.congr rfl rfl) kept).2 _
      connecting).1 dangles
  rw [ended]
  exact ⟨closed, rfl, fd ▸ logged⟩

/-- **When closed connections stay closed.** In every run of the loop thread in which no event comes
to `handle_connect` with an idle connection, nor, with `EPOLLOUT`, with one that has failed, and in
no other. -/
theorem staysClosed_iff {run : List Life} (isRun : (life env).IsRun run) :
    (∀ state ∈ run, state.StaysClosed) ↔
      run.IsChain fun before after => ¬ Dangling env before after := by
  refine @Runs.Machine.IsRun.holds_iff _ _ _ Sound _ _ isRun ?_ (fun _ => Sound.staysClosed) ?_ ?_
  · rintro _ rfl
    exact ⟨World.sound_start, fun _ _ member => absurd member List.not_mem_nil⟩
  · intro before after sound step spared
    cases step with
    | newEvent fd fresh =>
        exact ⟨sound.1.newEvent fresh, logIdleFree_newEvent sound.1 fresh sound.2⟩
    | dispatch present entry armed stored =>
        exact sound_dispatch sound.1 sound.2 present stored fun kept mid connecting dangles =>
          spared (.event present stored kept connecting dangles)
    | ignored entry armed unset => exact ⟨sound.1.ignored entry, sound.2⟩
    | handleExpired => exact ⟨sound.1.handleExpired, logIdleFree_handleExpired sound.2⟩
  · intro before after sound step dangling stays
    cases before with
    | ended halt => cases step
    | running world =>
        obtain ⟨closed, rfl, logged⟩ := (not_not.mp dangling).ends sound.1
        exact stays logged

theorem accepted_reachable : (life Env.calm).Reachable (.running World.accepted) :=
  (Runs.Machine.Reachable.start rfl).step (.newEvent 5 rfl)

/-- **The answered connection is used after its end.** It asks for nothing, is closed by its own
event, and `update_poller` is called through it when nothing owns it any more. -/
theorem helloRequest_destroyed :
    ∃ closed, (life Env.calm).Reachable (.ended (.destroyed closed)) ∧
      closed.http.fd = 5 ∧ (5, Action.handleClose) ∈ closed.loop.log ∧
      ¬ (ended (.destroyed closed)).StaysClosed := by
  obtain ⟨read, ran, idle, -⟩ := World.helloArrives_idle
  have sound := World.reachable_sound World.accepted_reachable
  obtain ⟨-, serving, -⟩ := @World.Sound.serving World.accepted 5 sound _ rfl rfl
  obtain ⟨closed, ended, fd, logged⟩ := ((@Conn.handleEventsAlive_eq Env.calm World.helloArrives
    (World.serving_request serving epollIn ⟨defaultEvent, true⟩) (sound.orderly.congr rfl rfl)
      rfl).2 read (.inr ⟨by decide, ran⟩)).1 (.inl idle)
  have step : Step Env.calm (.running World.accepted)
      (handled World.accepted 5 (World.helloArrives.handleEventsAlive Env.calm)) :=
    .dispatch rfl rfl rfl rfl
  rw [ended] at step
  have fd : closed.http.fd = 5 := fd
  exact ⟨closed, accepted_reachable.step step, fd, logged, fun stays => stays (fd ▸ logged)⟩

/-- A connection whose socket cannot be read is closed by its event, which does not go on using
it. -/
theorem readFails_closed :
    ∃ conn, World.readFails.handleEventsAlive Env.calm = .ok conn ∧
      (5, Action.handleClose) ∈ conn.loop.log := by
  have looped : ∃ flow read, Conn.stages (World.readFails.storeEvents 0#32) = .ok (flow, read) ∧
      read.finishRead.http.isError = true := ⟨_, _, rfl, rfl⟩
  obtain ⟨flow, read, looped, failed⟩ := looped
  have ran : (World.readFails.storeEvents 0#32).handleRead = .ok read.finishRead := by
    rw [Conn.handleRead_eq, looped]
    rfl
  have sound := World.reachable_sound World.accepted_reachable
  obtain ⟨-, serving, -⟩ := @World.Sound.serving World.accepted 5 sound _ rfl rfl
  have serving' : Serving World.readFails.http World.readFails.loop :=
    World.serving_request serving epollIn ⟨defaultEvent, true⟩
  have orderly : (World.disarm 5 ⟨defaultEvent, true⟩ World.accepted.loop).Orderly :=
    sound.orderly.congr rfl rfl
  have connecting : Conn.Connecting World.readFails read.finishRead := .inr ⟨by decide, ran⟩
  have spared : ¬ Conn.Dangles epollIn read.finishRead.http := by
    rintro (idle | ⟨-, output⟩)
    · cases failed.symm.trans idle.unfailed
    · exact absurd output (by decide)
  obtain ⟨-, alive⟩ := ((@Conn.handleEventsAlive_eq Env.calm World.readFails serving'
    orderly (by decide)).2 _ connecting).2 spared
  have deciding := connecting.deciding serving' orderly
  obtain ⟨-, -, -, log⟩ := @Conn.handleConnect_failed Env.calm _ deciding.pending failed
  refine ⟨_, alive, ?_⟩
  show (5, Action.handleClose) ∈ (Conn.handleConnect Env.calm read.finishRead).loop.log
  rw [log, show read.finishRead.http.fd = 5 from deciding.fd]
  simp

theorem readFails_step {conn : Conn}
    (ran : World.readFails.handleEventsAlive Env.calm = .ok conn) :
    Step Env.calm (.running World.accepted) (.running (World.accepted.update 5 conn)) := by
  have step : Step Env.calm (.running World.accepted)
      (handled World.accepted 5 (World.readFails.handleEventsAlive Env.calm)) :=
    .dispatch rfl rfl rfl rfl
  rwa [ran] at step

/-- In this run the closed connection stays closed. -/
theorem readFails_staysClosed :
    ∃ conn, (5, Action.handleClose) ∈ conn.loop.log ∧
      ∀ state ∈ [running World.start, running World.accepted,
        running (World.accepted.update 5 conn)], state.StaysClosed := by
  obtain ⟨conn, ran, closed⟩ := readFails_closed
  refine ⟨conn, closed, (staysClosed_iff ⟨?_, .cons_cons (.newEvent 5 rfl)
    (.cons_cons (readFails_step ran) (.singleton _))⟩).mpr
      (.cons_cons ?_ (.cons_cons ?_ (.singleton _)))⟩
  · rintro first same
    cases same
    rfl
  · intro dangling
    obtain ⟨closed, ended, -⟩ := dangling.ends World.sound_start
    cases ended
  · intro dangling
    obtain ⟨closed, ended, -⟩ :=
      dangling.ends (World.reachable_sound World.accepted_reachable)
    cases ended

/-! ## After handle_close -/

/-- A run of a thread that goes on is a run of the loop thread. -/
theorem run_world {state : Life}
    (run : Relation.ReflTransGen (life env).step (.running world) state) :
    ∀ later, state = .running later →
      Relation.ReflTransGen (World.machine env).step world later := by
  induction run with
  | refl =>
      rintro later same
      cases same
      exact .refl
  | tail earlier step ih =>
      intro later goes
      obtain ⟨previous, same, moved⟩ := Step.goesOn step goes
      exact (ih previous same).tail moved

/-- The connection at which a thread ends was not closed before its event. -/
theorem Step.destroyed {before after : Life} (step : Step env before after) {closed : Conn}
    (ends : after = .ended (.destroyed closed)) : ∃ world, before = .running world ∧
      (World.Sound world → (closed.http.fd, Action.handleClose) ∉ world.loop.log) := by
  cases step with
  | @dispatch world fd http interest revents io present entry armed stored =>
      refine ⟨world, rfl, fun sound => ?_⟩
      obtain ⟨rfl, serving, opened⟩ := sound.serving present stored
      let conn : Conn := ⟨World.request http revents, io, World.disarm http.fd interest world.loop⟩
      have serving' : Serving conn.http conn.loop := World.serving_request serving revents interest
      have orderly : conn.loop.Orderly := sound.orderly.congr rfl rfl
      have ran : conn.handleEventsAlive env = .error (.destroyed closed) := by
        cases result : conn.handleEventsAlive env with
        | error halt =>
            rw [show handled world http.fd _ = .ended halt by rw [result]; rfl] at ends
            cases ends
            rfl
        | ok after =>
            rw [show handled world http.fd _ = .running (world.update http.fd after) by
              rw [result]; rfl] at ends
            cases ends
      cases drops : revents.drops with
      | true => cases (Conn.handleEventsAlive_drops drops).symm.trans ran
      | false =>
          obtain ⟨throws, comes⟩ := @Conn.handleEventsAlive_eq env conn serving' orderly drops
          rcases conn.throws_or_connecting with ⟨reads, fault, thrown⟩ | ⟨mid, connecting⟩
          · cases (throws fault reads thrown).symm.trans ran
          · by_cases dangles : Conn.Dangles revents mid.http
            · obtain ⟨closed', ended, fd, -⟩ := (comes mid connecting).1 dangles
              cases ended.symm.trans ran
              rw [fd]
              exact opened
            · cases ((comes mid connecting).2 dangles).2.symm.trans ran
  | newEvent => cases ends
  | ignored => cases ends
  | handleExpired => cases ends

/-- **A closed connection is never touched again**, on a loop that sets up one connection for a
descriptor. From any state of a thread that has gone on behind the closing, whatever the loop does
next and however long: the members of the connection do not change, nothing more is done for its
descriptor, and the thread does not end at it. -/
theorem closed_untouched {fd : Fd} (reachable : (life env).Reachable (.running world))
    (closed : (fd, Action.handleClose) ∈ world.loop.log) {state : Life}
    (run : Relation.ReflTransGen (life env).step (.running world) state) :
    (∀ later, state = .running later → World.Untouched fd world later) ∧
      ∀ conn, state = .ended (.destroyed conn) → conn.http.fd ≠ fd := by
  have reached := reachable_world reachable world rfl
  have untouched : ∀ {state : Life},
      Relation.ReflTransGen (life env).step (.running world) state →
        ∀ later, state = .running later → World.Untouched fd world later :=
    fun run later goes => World.closedConnection_untouched reached closed (run_world run later goes)
  refine ⟨untouched run, fun conn ends same => ?_⟩
  cases run with
  | refl => cases ends
  | tail earlier step =>
      obtain ⟨previous, rfl, opened⟩ := Step.destroyed step ends
      refine opened (World.reachable_sound (reached.run (run_world earlier previous rfl))) ?_
      rw [same]
      exact (untouched earlier previous rfl).closed closed

/-- The expiry that follows leaves the closed connection alone. -/
theorem readFails_untouched :
    ∃ world, (5, Action.handleClose) ∈ world.loop.log ∧
      World.Untouched 5 world (world.handleExpired Env.calm) := by
  obtain ⟨conn, ran, closed⟩ := readFails_closed
  have reachable := accepted_reachable.step (readFails_step ran)
  exact ⟨_, closed, (closed_untouched reachable closed (.single .handleExpired)).1 _ rfl⟩

end Life

end FastWebServer
