import FastWebServer.LoopThread

/-!
# Delivering events

`epoll_wait` delivers several events at once. The entries of their descriptors are
disarmed and their channels are prepared (`getEventsRequest`) before the first of them is
handled. `World.delivered` is a world to which this has been done for some events.

What a connection reads and writes does not depend on the interest set at all
(`Stage.Blind`). What it registers concerns its own entry only, so an event of a
connection is handled in the same way whatever has become of the entries of the other
ones (`Conn.handleEvents_mapKernel`). So an event that is handled after others have been
delivered does what it does when it is delivered and handled alone
(`World.dispatch_delivered`).
-/

set_option autoImplicit false

namespace FastWebServer

open Cxx

/-! ## Reading -/

namespace Conn

/-- The connection with another interest set of the kernel. -/
def withKernel (kernel : Fd → Option Interest) (conn : Conn) : Conn :=
  { conn with loop := { conn.loop with kernel := kernel } }

/-- A stage that never looks at the interest set. -/
def Stage.Blind (stage : Stage) : Prop :=
  ∀ kernel conn, stage (conn.withKernel kernel) =
    (stage conn).map (Prod.map id (withKernel kernel))

variable (kernel : Fd → Option Interest) (conn : Conn)

theorem withKernel_seperateTimer :
    (conn.withKernel kernel).seperateTimer = conn.seperateTimer.withKernel kernel := by
  unfold seperateTimer
  have same : (conn.withKernel kernel).loop.lockTimer (conn.withKernel kernel).http.timer =
      conn.loop.lockTimer conn.http.timer := rfl
  rw [same]
  cases conn.loop.lockTimer conn.http.timer with
  | none => rfl
  | some id => rfl

theorem withKernel_reset : (conn.withKernel kernel).reset = conn.reset.withKernel kernel :=
  withKernel_seperateTimer kernel
    { conn.record (.clearInput conn.http.bufferIn) with http := cleared conn.http }

theorem withKernel_handleWrite :
    (conn.withKernel kernel).handleWrite = conn.handleWrite.withKernel kernel := by
  unfold handleWrite
  rw [apply_ite (withKernel kernel)]
  rfl

theorem Stage.Blind.before {first second : Stage} (former : first.Blind) (latter : second.Blind) :
    (first.before second).Blind := by
  intro kernel conn
  unfold Stage.before
  rw [former kernel conn]
  cases first conn with
  | error fault => rfl
  | ok answer =>
      obtain ⟨flow, next⟩ := answer
      cases flow with
      | leave => rfl
      | goOn => exact latter kernel next

theorem blind_readStage : readStage.Blind := by
  intro kernel conn
  unfold readStage
  simp only [apply_ite (Except.map (Prod.map id (withKernel kernel)))]
  rfl

theorem blind_uriStage : uriStage.Blind := by
  intro kernel conn
  unfold uriStage
  rw [apply_ite (Except.map (Prod.map id (withKernel kernel)))]
  congr 1
  have same : (conn.withKernel kernel).http.parseURI = conn.http.parseURI := rfl
  rw [same]
  cases conn.http.parseURI with
  | error => rfl
  | ok answer =>
      obtain ⟨state, http⟩ := answer
      cases state with
      | success => rfl
      | again => rfl
      | error => rfl

theorem blind_headersStage : headersStage.Blind := by
  intro kernel conn
  unfold headersStage
  rw [apply_ite (Except.map (Prod.map id (withKernel kernel)))]
  congr 1
  have same : (conn.withKernel kernel).http.parseHeaders = conn.http.parseHeaders := rfl
  rw [same]
  cases conn.http.parseHeaders with
  | error => rfl
  | ok answer =>
      obtain ⟨state, http⟩ := answer
      cases state with
      | success =>
          dsimp only
          rw [apply_ite (Except.map (Prod.map id (withKernel kernel)))]
          rfl
      | again => rfl
      | error => rfl

theorem blind_bodyStage : bodyStage.Blind := by
  intro kernel conn
  unfold bodyStage
  rw [apply_ite (Except.map (Prod.map id (withKernel kernel)))]
  congr 1
  have same : (conn.withKernel kernel).http.headers = conn.http.headers := rfl
  rw [same]
  cases conn.http.headers "Content-length".toList with
  | none => rfl
  | some value =>
      dsimp only
      cases stoi value with
      | error => rfl
      | ok contentLength =>
          dsimp only
          rw [apply_ite (Except.map (Prod.map id (withKernel kernel)))]
          rfl

theorem blind_analysisStage : analysisStage.Blind := by
  intro kernel conn
  unfold analysisStage
  rw [apply_ite (Except.map (Prod.map id (withKernel kernel)))]
  congr 1
  have same : (conn.withKernel kernel).http.analyzeRequest (conn.withKernel kernel).io.files =
      conn.http.analyzeRequest conn.io.files := rfl
  dsimp only
  rw [same]
  obtain ⟨state, http, header, report⟩ := conn.http.analyzeRequest conn.io.files
  cases report with
  | none => cases state <;> rfl
  | some report => cases state <;> rfl

theorem blind_stages : stages.Blind :=
  blind_readStage.before (blind_uriStage.before (blind_headersStage.before
    (blind_bodyStage.before blind_analysisStage)))

theorem withKernel_flush : (conn.withKernel kernel).flush = conn.flush.withKernel kernel := by
  unfold flush
  rw [apply_ite (withKernel kernel), apply_ite (withKernel kernel), ← withKernel_handleWrite]
  rfl

theorem withKernel_finishRead :
    (conn.withKernel kernel).finishRead = conn.finishRead.withKernel kernel := by
  unfold finishRead
  rw [withKernel_flush, apply_ite (withKernel kernel), ← withKernel_reset]
  congr 1
  unfold awaitInput
  rw [apply_ite (withKernel kernel)]
  rfl

/-- **What a connection reads does not depend on the interest set.** -/
theorem withKernel_handleRead :
    (conn.withKernel kernel).handleRead = conn.handleRead.map (withKernel kernel) := by
  rw [handleRead_eq, handleRead_eq, blind_stages kernel conn]
  cases stages conn with
  | error => rfl
  | ok answer => exact congrArg Except.ok (withKernel_finishRead kernel answer.2)

end Conn

/-! ## Registering -/

namespace Loop

/-- The loop with the entries of some descriptors changed. -/
def mapKernel (change : Fd → Option Interest → Option Interest) (loop : Loop) : Loop :=
  { loop with kernel := fun fd => change fd (loop.kernel fd) }

variable {env : Env} {fd : Fd} {mask : Mask} {change : Fd → Option Interest → Option Interest}

/-- A change of the other entries commutes with a change of this one. -/
theorem map_update (own : change fd = id) (kernel : Fd → Option Interest)
    (entry : Option Interest) :
    (fun other => change other (Function.update kernel fd entry other)) =
      Function.update (fun other => change other (kernel other)) fd entry := by
  funext other
  by_cases same : other = fd
  · subst same
    rw [own, Function.update_self, Function.update_self, id]
  · rw [Function.update_of_ne same, Function.update_of_ne same]

theorem epollCtl_mapKernel (possible : Bool) (own : change fd = id) (loop : Loop) :
    (loop.mapKernel change).epollCtl env possible fd mask =
      (loop.epollCtl env possible fd mask).mapKernel change := by
  unfold epollCtl
  rw [apply_ite (mapKernel change)]
  refine if_congr Iff.rfl ?_ rfl
  unfold mapKernel
  rw [map_update own]

theorem ctlMod_mapKernel (own : change fd = id) (loop : Loop) :
    (loop.mapKernel change).ctlMod env fd mask = (loop.ctlMod env fd mask).mapKernel change := by
  have same : (loop.mapKernel change).kernel fd = loop.kernel fd := by
    simp only [mapKernel, own, id]
  unfold ctlMod
  rw [same]
  exact epollCtl_mapKernel _ own loop

theorem ctlDel_mapKernel (own : change fd = id) (loop : Loop) :
    (loop.mapKernel change).ctlDel env fd = (loop.ctlDel env fd).mapKernel change := by
  unfold ctlDel mapKernel
  congr 1
  dsimp only
  split
  · rfl
  · rw [map_update own]

end Loop

namespace Conn

variable {env : Env} {change : Fd → Option Interest → Option Interest}

/-- The connection in a loop with the entries of some descriptors changed. -/
def mapKernel (change : Fd → Option Interest → Option Interest) (conn : Conn) : Conn :=
  { conn with loop := conn.loop.mapKernel change }

theorem mapKernel_addTimer (bound : Bool) (timeout : ℕ) (conn : Conn) :
    (conn.mapKernel change).addTimer env bound timeout =
      (conn.addTimer env bound timeout).mapKernel change := by
  unfold addTimer
  have same : (conn.mapKernel change).loop.getHolder bound (conn.mapKernel change).http.fd =
      conn.loop.getHolder bound conn.http.fd := rfl
  rw [same]
  cases conn.loop.getHolder bound conn.http.fd with
  | none => rfl
  | some holder => rfl

theorem mapKernel_seperateTimer (conn : Conn) :
    (conn.mapKernel change).seperateTimer = conn.seperateTimer.mapKernel change := by
  unfold seperateTimer
  have same : (conn.mapKernel change).loop.lockTimer (conn.mapKernel change).http.timer =
      conn.loop.lockTimer conn.http.timer := rfl
  rw [same]
  cases conn.loop.lockTimer conn.http.timer with
  | none => rfl
  | some id => rfl

theorem seperateTimer_channel (conn : Conn) :
    conn.seperateTimer.http.channel = conn.http.channel := by
  unfold seperateTimer
  split <;> rfl

theorem mapKernel_modifyInterest (conn : Conn) (own : change conn.http.channel.fd = id) :
    (conn.mapKernel change).modifyInterest env = (conn.modifyInterest env).mapKernel change := by
  unfold modifyInterest
  rw [apply_ite (mapKernel change)]
  refine if_congr Iff.rfl rfl ?_
  exact congrArg (Conn.mk _ _) (Loop.ctlMod_mapKernel own conn.loop)

theorem mapKernel_modifyFdInEpoll (timeout : ℕ) (conn : Conn)
    (own : change conn.http.channel.fd = id) :
    (conn.mapKernel change).modifyFdInEpoll env timeout =
      (conn.modifyFdInEpoll env timeout).mapKernel change := by
  unfold modifyFdInEpoll
  rw [apply_ite (mapKernel change)]
  refine if_congr Iff.rfl ?_ (mapKernel_modifyInterest conn own)
  rw [mapKernel_addTimer]
  refine mapKernel_modifyInterest _ ?_
  rwa [addTimer_channel]

theorem mapKernel_updatePoller (timeout : ℕ) (conn : Conn)
    (own : change conn.http.channel.fd = id) :
    (conn.mapKernel change).updatePoller env timeout =
      (conn.updatePoller env timeout).mapKernel change :=
  mapKernel_modifyFdInEpoll timeout
    (conn.record (.updatePoller conn.http.channel.events timeout)) own

theorem mapKernel_handleClose (conn : Conn) (own : change conn.http.channel.fd = id) :
    (conn.mapKernel change).handleClose env = (conn.handleClose env).mapKernel change :=
  congrArg (Conn.mk _ _) (Loop.ctlDel_mapKernel own (conn.record .handleClose).loop)

theorem mapKernel_handleConnect (conn : Conn) (own : change conn.http.channel.fd = id) :
    (conn.mapKernel change).handleConnect env = (conn.handleConnect env).mapKernel change := by
  unfold handleConnect
  have separates : ((conn.mapKernel change).record
        (.handleConnect (conn.mapKernel change).http)).seperateTimer =
      ((conn.record (.handleConnect conn.http)).seperateTimer).mapKernel change :=
    mapKernel_seperateTimer (conn.record (.handleConnect conn.http))
  have own' : change ((conn.record (.handleConnect conn.http)).seperateTimer).http.channel.fd =
      id := by
    rwa [seperateTimer_channel]
  rw [separates]
  generalize (conn.record (.handleConnect conn.http)).seperateTimer = asked at own' ⊢
  simp only [apply_ite (mapKernel change)]
  refine if_congr Iff.rfl (if_congr Iff.rfl ?_ (if_congr Iff.rfl ?_ ?_)) (if_congr Iff.rfl rfl ?_)
  · exact mapKernel_updatePoller _ { asked with http := asked.http.setEvents _ } own'
  · exact mapKernel_updatePoller _ { asked with http := asked.http.setEvents _ } own'
  · have closes : (asked.mapKernel change).shutdown.handleClose env =
        (asked.shutdown.handleClose env).mapKernel change :=
      mapKernel_handleClose asked.shutdown own'
    rw [closes]
    generalize closed : asked.shutdown.handleClose env = ended
    exact mapKernel_updatePoller _ { ended with http := ended.http.setEvents _ } (closed ▸ own')
  · exact mapKernel_handleClose asked own'

/-! ## An event -/

variable {conn after : Conn}

/-- What `handle_events` does before `handle_connect`. -/
def opening (conn : Conn) : Except Fault Conn :=
  if conn.http.channel.revents.reads then (conn.storeEvents 0#32).handleRead
  else .ok (conn.storeEvents 0#32)

theorem opening_deciding (serving : Serving conn.http conn.loop) (orderly : conn.loop.Orderly)
    (ran : conn.opening = .ok after) : Deciding conn after := by
  unfold opening at ran
  cases reads : conn.http.channel.revents.reads with
  | true =>
      rw [reads, if_pos rfl] at ran
      exact deciding_read serving orderly ran
  | false =>
      rw [reads, if_neg Bool.false_ne_true, Except.ok.injEq] at ran
      exact ran ▸ deciding_unread serving orderly

theorem withKernel_opening (kernel : Fd → Option Interest) (conn : Conn) :
    (conn.withKernel kernel).opening = conn.opening.map (withKernel kernel) := by
  unfold opening
  rw [apply_ite (Except.map (withKernel kernel)), ← withKernel_handleRead]
  rfl

/-- The connection that `handle_connect` leaves has the channel of its descriptor. -/
theorem handleConnect_own (pending : Pending conn.http conn.loop) :
    (conn.handleConnect env).http.channel.fd = conn.http.fd := by
  obtain ⟨effect, -, -, -, ⟨serving, -⟩ | ⟨closed, -⟩⟩ := @handleConnect_outcome env conn pending
  · exact serving.own.trans effect.fd
  · exact closed.own.trans effect.fd

/-- The calls of `handle_connect` for an event. -/
theorem mapKernel_connects (deciding : Deciding conn after) (own : change conn.http.fd = id)
    (twice : Bool) :
    (if twice then ((after.mapKernel change).handleConnect env).handleConnect env
      else (after.mapKernel change).handleConnect env) =
      (if twice then (after.handleConnect env).handleConnect env
        else after.handleConnect env).mapKernel change := by
  have mine : change after.http.fd = id := deciding.fd ▸ own
  have once := @mapKernel_handleConnect env change after (deciding.pending.own ▸ mine)
  cases twice with
  | false => exact once
  | true =>
      rw [if_pos rfl, if_pos rfl, once]
      exact mapKernel_handleConnect _ (handleConnect_own deciding.pending ▸ mine)

/-- **An event of a connection does not depend on the entries of the other ones.** -/
theorem handleEvents_mapKernel (serving : Serving conn.http conn.loop)
    (orderly : conn.loop.Orderly) (own : change conn.http.fd = id) :
    (conn.mapKernel change).handleEvents env =
      (conn.handleEvents env).map (mapKernel change) := by
  cases drops : conn.http.channel.revents.drops with
  | true =>
      rw [handleEvents_drops drops]
      exact handleEvents_drops drops
  | false =>
      have opens := withKernel_opening (fun fd => change fd (conn.loop.kernel fd)) conn
      rw [handleEvents_eq drops, @handleEvents_eq env (conn.mapKernel change) drops]
      change (conn.mapKernel change).opening.map _ = (conn.opening.map _).map _
      rw [show (conn.mapKernel change).opening = _ from opens]
      cases opened : conn.opening with
      | error fault => rfl
      | ok mid =>
          have deciding := opening_deciding serving orderly opened
          have same : mid.withKernel (fun fd => change fd (conn.loop.kernel fd)) =
              mid.mapKernel change := by
            rw [← deciding.kernel]
            rfl
          simp only [Except.map, same]
          exact congrArg Except.ok (mapKernel_connects deciding own _)

end Conn

/-! ## get_events_request -/

/-- An element of the array that `epoll_wait` fills. -/
inductive EpollEvent where
  /-- An event of the wake-up descriptor. -/
  | wakeup
  | socket (fd : Fd) (events : Mask)
deriving Repr, DecidableEq

/-- A `channel_sptr` that is set. -/
inductive ChannelSptr where
  | wakeup
  | connection (fd : Fd)
deriving Repr, DecidableEq

/-- The events of sockets. -/
def sockets : List EpollEvent → List (Fd × Mask)
  | [] => []
  | .wakeup :: events => sockets events
  | .socket fd mask :: events => (fd, mask) :: sockets events

/-- The connections of channels. -/
def connections : List ChannelSptr → List Fd
  | [] => []
  | .wakeup :: channels => connections channels
  | .connection fd :: channels => fd :: connections channels

/-- The entry of a descriptor after an event has been delivered. -/
def Interest.disarmed (interest : Interest) : Interest :=
  { interest with armed := !interest.mask.meets epollOneshot }

/-- What `epoll_wait` does to the entries of the descriptors that it delivers events of. -/
def Loop.epollWait (fds : List Fd) (loop : Loop) : Loop :=
  loop.mapKernel fun fd => if fd ∈ fds then Option.map Interest.disarmed else id

namespace World

/-- `set_revents` and `set_events(0)` of a channel. -/
def setRevents (fd : Fd) (revents : Mask) (world : World) : World :=
  { world with
    conns := Function.update world.conns fd ((world.conns fd).map (request · revents)) }

/-- `get_events_request`, with the channels that it answers. -/
def getEventsRequest : List EpollEvent → World → World × List ChannelSptr
  | [], world => (world, [])
  | .wakeup :: events, world =>
      let later := getEventsRequest events world
      (later.1, .wakeup :: later.2)
  | .socket fd mask :: events, world =>
      if world.loop.fdToChannel fd then
        let later := getEventsRequest events (world.setRevents fd mask)
        (later.1, .connection fd :: later.2)
      else
        -- "Current request pointer is invalid!!!"
        getEventsRequest events world

/-- One round of `poll`, when `epoll_wait` has filled the array with these events. -/
def pollRound (events : List EpollEvent) (world : World) : World × List ChannelSptr :=
  getEventsRequest events
    { world with loop := world.loop.epollWait ((sockets events).map Prod.fst) }

/-- The world after these events have been delivered, and not handled. -/
def delivered (batch : List (Fd × Mask)) (world : World) : World :=
  { conns := fun fd =>
      match batch.lookup fd with
      | none => world.conns fd
      | some revents => (world.conns fd).map (request · revents)
    loop := world.loop.epollWait (batch.map Prod.fst) }

end World

/-! ## What a round of poll does -/

@[simp] theorem Loop.epollWait_nil (loop : Loop) : loop.epollWait [] = loop := rfl

theorem Loop.epollWait_kernel (fds : List Fd) (loop : Loop) (fd : Fd) :
    (loop.epollWait fds).kernel fd =
      if fd ∈ fds then (loop.kernel fd).map Interest.disarmed else loop.kernel fd := by
  unfold epollWait mapKernel
  dsimp only
  split <;> rfl

/-- Two loops that differ in no entry of the interest set are the same. -/
theorem Loop.setKernel_congr {kernel kernel' : Fd → Option Interest}
    (same : ∀ fd, kernel fd = kernel' fd) (loop : Loop) :
    { loop with kernel := kernel } = { loop with kernel := kernel' } := by
  rw [funext same]

/-- The delivery of some events disarms them one after the other. -/
theorem Loop.epollWait_cons {fd : Fd} {fds : List Fd} {interest : Interest} {loop : Loop}
    (notMember : fd ∉ fds) (entry : loop.kernel fd = some interest) :
    loop.epollWait (fd :: fds) = (World.disarm fd interest loop).epollWait fds := by
  refine Loop.setKernel_congr (fun other => ?_) loop
  by_cases same : other = fd
  · subst same
    simp [World.disarm, notMember, entry, Interest.disarmed]
  · simp [World.disarm, same]

/-- The delivery of events splits into that of two parts. -/
theorem Loop.epollWait_filter (keep : Fd → Bool) (fds : List Fd) (loop : Loop) :
    loop.epollWait fds =
      (loop.epollWait (fds.filter fun fd => !keep fd)).epollWait (fds.filter keep) := by
  refine Loop.setKernel_congr (fun fd => ?_) loop
  simp only [epollWait, mapKernel, List.mem_filter, Bool.not_eq_true']
  by_cases member : fd ∈ fds
  · cases kept : keep fd <;> simp [member]
  · simp [member]

namespace World

variable {env : Env} {world : World} {fd : Fd}

@[simp] theorem delivered_nil (world : World) : world.delivered [] = world := rfl

theorem delivered_conns_self (revents : Mask) (batch : List (Fd × Mask)) :
    (world.delivered ((fd, revents) :: batch)).conns fd =
      (world.conns fd).map (request · revents) := by
  simp [delivered]

theorem delivered_conns_of_ne {other : Fd} (ne : other ≠ fd) (revents : Mask)
    (batch : List (Fd × Mask)) :
    (world.delivered ((fd, revents) :: batch)).conns other =
      (world.delivered batch).conns other := by
  have differs : (other == fd) = false := beq_eq_false_iff_ne.mpr ne
  simp only [delivered, List.lookup_cons, differs]

theorem delivered_conns_of_notMem {batch : List (Fd × Mask)}
    (notMember : fd ∉ batch.map Prod.fst) : (world.delivered batch).conns fd = world.conns fd := by
  have absent : batch.lookup fd = none := by
    rw [List.lookup_eq_none_iff]
    intro entry member
    have ne : fd ≠ entry.1 := fun same => notMember (same ▸ List.mem_map_of_mem member)
    simpa using ne
  simp only [delivered, absent]

/-- The connections do not depend on what else there is in the world. -/
theorem delivered_conns_congr {world' : World} {other : Fd}
    (same : world'.conns other = world.conns other) (batch : List (Fd × Mask)) :
    (world'.delivered batch).conns other = (world.delivered batch).conns other := by
  simp only [delivered, same]

theorem delivered_conns_eq_none {batch : List (Fd × Mask)} :
    (world.delivered batch).conns fd = none ↔ world.conns fd = none := by
  simp only [delivered]
  split
  · rfl
  · exact Option.map_eq_none_iff

/-- The events of a round whose channels are set. -/
def storedEvents (events : List EpollEvent) (world : World) : List (Fd × Mask) :=
  (sockets events).filter fun event => world.loop.fdToChannel event.1

/-- `get_events_request` prepares the channels that are set, and answers them. -/
theorem getEventsRequest_eq {events : List EpollEvent} {world : World}
    (distinct : ((sockets events).map Prod.fst).Nodup) :
    (world.getEventsRequest events).1 =
        { conns := (world.delivered (world.storedEvents events)).conns, loop := world.loop } ∧
      connections (world.getEventsRequest events).2 =
        (world.storedEvents events).map Prod.fst := by
  induction events generalizing world with
  | nil => exact ⟨rfl, rfl⟩
  | cons event events ih =>
      cases event with
      | wakeup => exact ih distinct
      | socket fd mask =>
          obtain ⟨notMember, distinct⟩ := List.nodup_cons.mp distinct
          unfold getEventsRequest
          cases stored : world.loop.fdToChannel fd with
          | false =>
              have same : world.storedEvents (.socket fd mask :: events) =
                  world.storedEvents events := by
                simp [storedEvents, sockets, stored]
              rw [same]
              exact ih distinct
          | true =>
              have same : world.storedEvents (.socket fd mask :: events) =
                  (fd, mask) :: world.storedEvents events := by
                simp [storedEvents, sockets, stored]
              rw [same]
              obtain ⟨prepared, answered⟩ := @ih (world.setRevents fd mask) distinct
              refine ⟨prepared.trans ?_, congrArg (List.cons fd) answered⟩
              have absent : fd ∉ (world.storedEvents events).map Prod.fst := fun member =>
                notMember (((List.filter_sublist ..).map Prod.fst).subset member)
              refine congrArg (World.mk · world.loop) (funext fun other => ?_)
              by_cases own : other = fd
              · subst own
                rw [delivered_conns_self]
                exact (delivered_conns_of_notMem absent).trans (Function.update_self ..)
              · rw [delivered_conns_of_ne own]
                exact delivered_conns_congr (Function.update_of_ne own ..) _

/-- **A round of `poll`** delivers the events whose channels are set, and loses the
others. -/
theorem pollRound_eq {events : List EpollEvent} {world : World}
    (distinct : ((sockets events).map Prod.fst).Nodup) :
    (world.pollRound events).1 =
        ({ world with
          loop := world.loop.epollWait
            (((sockets events).map Prod.fst).filter fun fd => !world.loop.fdToChannel fd) } :
          World).delivered (world.storedEvents events) ∧
      connections (world.pollRound events).2 = (world.storedEvents events).map Prod.fst := by
  obtain ⟨prepared, answered⟩ := @getEventsRequest_eq events
    { world with loop := world.loop.epollWait ((sockets events).map Prod.fst) } distinct
  refine ⟨prepared.trans ?_, answered⟩
  have fds : (world.storedEvents events).map Prod.fst =
      ((sockets events).map Prod.fst).filter world.loop.fdToChannel := by
    rw [List.filter_map]
    rfl
  refine congrArg (World.mk _) ?_
  refine (Loop.epollWait_filter world.loop.fdToChannel ..).trans ?_
  rw [← fds]

/-- Events of descriptors whose channels are not set are ignored one after the other. -/
theorem ignored_run {fds : List Fd} {world : World} (distinct : fds.Nodup)
    (armed : ∀ fd ∈ fds, ∃ interest, world.loop.kernel fd = some interest ∧ interest.armed = true)
    (unset : ∀ fd ∈ fds, world.loop.fdToChannel fd = false) :
    Relation.ReflTransGen (Step env) world
      { world with loop := world.loop.epollWait fds } := by
  induction fds generalizing world with
  | nil => exact .refl
  | cons fd fds ih =>
      obtain ⟨notMember, distinct⟩ := List.nodup_cons.mp distinct
      obtain ⟨interest, entry, set⟩ := armed fd (List.mem_cons_self ..)
      have first : Step env world { world with loop := disarm fd interest world.loop } :=
        .ignored entry set (unset fd (List.mem_cons_self ..))
      rw [Loop.epollWait_cons notMember entry]
      refine .head first (ih distinct (fun other member => ?_) fun other member => ?_)
      · have ne : other ≠ fd := fun same => notMember (same ▸ member)
        obtain ⟨interest', entry', set'⟩ := armed other (List.mem_cons_of_mem _ member)
        exact ⟨interest', (Function.update_of_ne ne ..).trans entry', set'⟩
      · exact unset other (List.mem_cons_of_mem _ member)

/-- Handling one connection does not change the events of the others. -/
theorem update_delivered {batch : List (Fd × Mask)} (notMember : fd ∉ batch.map Prod.fst)
    (conn : Conn) :
    (world.update fd conn).delivered batch =
      { conns := Function.update (world.delivered batch).conns fd (some conn.http)
        loop := conn.loop.epollWait (batch.map Prod.fst) } := by
  refine congrArg (World.mk · _) (funext fun other => ?_)
  show ((world.update fd conn).delivered batch).conns other = _
  by_cases own : other = fd
  · subst own
    rw [Function.update_self, delivered_conns_of_notMem notMember]
    exact Function.update_self ..
  · rw [Function.update_of_ne own]
    exact delivered_conns_congr (Function.update_of_ne own ..) batch

/-- **An event that is handled after others have been delivered does what it does
alone.** -/
theorem dispatch_delivered (sound : Sound world) {http : HttpData} {interest : Interest}
    {revents : Mask} {batch : List (Fd × Mask)} {io : Io} {conn : Conn}
    (present : world.conns fd = some http) (stored : world.loop.fdToChannel fd = true)
    (entry : world.loop.kernel fd = some interest) (notMember : fd ∉ batch.map Prod.fst)
    (ran : Conn.handleEvents env
      ⟨request http revents, io, (world.delivered ((fd, revents) :: batch)).loop⟩ = .ok conn) :
    ∃ alone,
      Conn.handleEvents env ⟨request http revents, io, disarm fd interest world.loop⟩ =
          .ok alone ∧
        (world.delivered ((fd, revents) :: batch)).update fd conn =
          (world.update fd alone).delivered batch := by
  obtain ⟨same, serving, -⟩ := sound.serving present stored
  have loop : (world.delivered ((fd, revents) :: batch)).loop =
      (disarm fd interest world.loop).epollWait (batch.map Prod.fst) :=
    Loop.epollWait_cons notMember entry
  rw [loop] at ran
  have alone := ran.symm.trans (@Conn.handleEvents_mapKernel env
    (fun other => if other ∈ batch.map Prod.fst then Option.map Interest.disarmed else id)
    ⟨request http revents, io, disarm fd interest world.loop⟩ (serving_request serving ..)
    (sound.orderly.congr rfl rfl) (if_neg (same.symm ▸ notMember)))
  cases result : Conn.handleEvents env
      ⟨request http revents, io, disarm fd interest world.loop⟩ with
  | error fault =>
      rw [result] at alone
      cases alone
  | ok after =>
      rw [result, Except.map, Except.ok.injEq] at alone
      refine ⟨after, rfl, ?_⟩
      rw [alone, update_delivered notMember]
      refine congrArg (World.mk · _) (funext fun other => ?_)
      by_cases own : other = fd
      · subst own
        rw [Function.update_self, Function.update_self]
        rfl
      · rw [Function.update_of_ne own, Function.update_of_ne own, delivered_conns_of_ne own]

/-- The invariant does not depend on which events have been delivered. -/
theorem Sound.delivered (sound : Sound world) (batch : List (Fd × Mask)) :
    Sound (world.delivered batch) := by
  have settled : ∀ other http, (world.delivered batch).conns other = some http →
      ∃ before, world.conns other = some before ∧ (http = before ∨
        ∃ revents, http = request before revents) := by
    intro other http present
    simp only [World.delivered] at present
    split at present
    · exact ⟨http, present, .inl rfl⟩
    · obtain ⟨before, stood, asked⟩ := Option.map_eq_some_iff.mp present
      exact ⟨before, stood, .inr ⟨_, asked.symm⟩⟩
  have waits : Sound { world with loop := (world.delivered batch).loop } := sound.congr
    (sound.orderly.congr rfl rfl) (fun _ => rfl) rfl rfl ?_ rfl
  · refine ⟨waits.orderly,
      fun other absent => waits.absent other (delivered_conns_eq_none.mp absent), ?_,
      waits.settled⟩
    intro other http present
    obtain ⟨before, stood, rfl | ⟨revents, rfl⟩⟩ := settled other http present
    · exact waits.present other http stood
    · obtain ⟨same, outcome⟩ := waits.present other before stood
      refine ⟨same, outcome.imp (And.imp_left fun serving => ?_) (And.imp_left fun closed => ?_)⟩
      · exact ⟨serving.own, serving.unfailed, serving.connected, serving.unkept, serving.held,
          serving.guarded⟩
      · exact ⟨closed.own, closed.disconnected, closed.silent, closed.dropped, closed.unguarded⟩
  · intro other unregistered
    show (world.loop.epollWait _).kernel other = none
    rw [Loop.epollWait_kernel, unregistered]
    exact ite_self _

end World

end FastWebServer
