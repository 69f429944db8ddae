import FastWebServer.Timer
import FastWebServer.Util
import FastWebServer.Http.AnalyzeRequest

/-!
# The poller

`Epoll` keeps, for every descriptor, the channel that is told of its events and
the connection it belongs to, and it owns the timers. `Loop` is this state, with
the interest set of the kernel and a log of what the connections did. The log is
not part of the program; it lets a statement speak about the order of calls.

A `Conn` is one connection while the loop thread works on it: its `HttpData`, the
system calls of its socket, and the loop.

The holder of a channel is a `weak_ptr`. It can be locked as long as something
owns the connection: `fd_to_http_`, a timer, or the functor that is being run
(`getHolder`). Likewise the timer of a connection can be locked as long as the
queue owns it.
-/

set_option autoImplicit false

namespace FastWebServer

open Cxx

/-! ## The state of a loop -/

/-- An entry of the interest set of the kernel. -/
structure Interest where
  mask : Mask
  armed : Bool
deriving Repr, DecidableEq

/-- What a connection does that can be seen from outside of it. -/
inductive Action where
  /-- `handle_connect` is entered by this connection. -/
  | handleConnect (self : HttpData)
  /-- `writen` is called on these bytes of `buffer_out_`. -/
  | writen (pending : Str)
  | handleError (report : ErrorReport)
  | shutdown
  | handleClose
  | updatePoller (events : Mask) (timeout : ℕ)
  | addTimer (timeout : ℕ)
  /-- `reset` clears these bytes of `buffer_in_`. -/
  | clearInput (discarded : Str)

/-- What the connections of a loop share. -/
structure Loop where
  /-- Whether `fd_to_channel_[fd]` is set. -/
  fdToChannel : Fd → Bool
  /-- Whether `fd_to_http_[fd]` is set. -/
  fdToHttp : Fd → Bool
  kernel : Fd → Option Interest
  timers : List Timer
  nextTimer : TimerId
  /-- The calls of `gettimeofday` so far. -/
  ticks : ℕ
  /-- The calls of `epoll_ctl` so far. -/
  ctls : ℕ
  log : List (Fd × Action)

/-- A loop without connections. -/
def Loop.new : Loop :=
  { fdToChannel := fun _ => false
    fdToHttp := fun _ => false
    kernel := fun _ => none
    timers := []
    nextTimer := 0
    ticks := 0
    ctls := 0
    log := [] }

/-- The answers of the system that a whole run meets: the time of day at each
call of `gettimeofday`, the calls of `epoll_ctl` that fail though their
descriptor is registered as they need it, and the choice among least timers. -/
structure Env where
  clock : ℕ → Timeval
  ctlFault : ℕ → Bool
  queue : TopOf Timer.expiredTime

/-- The system calls of a socket while an event is handled, and the bytes that
were sent. -/
structure Io where
  reads : List ReadResult
  writes : List WriteResult
  files : FileSystem
  sent : Str

/-- A connection while the loop thread works on it. -/
structure Conn where
  http : HttpData
  io : Io
  loop : Loop

/-! ## epoll_ctl -/

namespace Loop

def record (loop : Loop) (fd : Fd) (action : Action) : Loop :=
  { loop with log := loop.log ++ [(fd, action)] }

/-- `epoll_ctl` with `EPOLL_CTL_ADD` or `EPOLL_CTL_MOD`, which is `possible` or not
for the descriptor as it is registered. After a failure `fd_to_channel_[fd]` is
reset. -/
def epollCtl (env : Env) (possible : Bool) (fd : Fd) (mask : Mask) (loop : Loop) : Loop :=
  if possible && !env.ctlFault loop.ctls then
    { loop with
      kernel := Function.update loop.kernel fd (some ⟨mask, true⟩)
      ctls := loop.ctls + 1 }
  else
    { loop with
      fdToChannel := Function.update loop.fdToChannel fd false
      ctls := loop.ctls + 1 }

/-- `EPOLL_CTL_ADD` of a descriptor that is not registered. -/
def ctlAdd (env : Env) (fd : Fd) (mask : Mask) (loop : Loop) : Loop :=
  loop.epollCtl env (loop.kernel fd).isNone fd mask

/-- `EPOLL_CTL_MOD` of a descriptor that is registered. -/
def ctlMod (env : Env) (fd : Fd) (mask : Mask) (loop : Loop) : Loop :=
  loop.epollCtl env (loop.kernel fd).isSome fd mask

/-- `EPOLL_CTL_DEL`, after which both tables are reset whether it succeeded or
not. -/
def ctlDel (env : Env) (fd : Fd) (loop : Loop) : Loop :=
  { loop with
    kernel := if env.ctlFault loop.ctls then loop.kernel else Function.update loop.kernel fd none
    ctls := loop.ctls + 1
    fdToChannel := Function.update loop.fdToChannel fd false
    fdToHttp := Function.update loop.fdToHttp fd false }

/-- Whether a `weak_ptr` to a timer can be locked. -/
def lockTimer (loop : Loop) (timer : Option TimerId) : Option TimerId :=
  timer.filter fun id => loop.timers.any (·.id = id)

/-- `get_holder` of the channel of `fd`, for a caller that runs a functor bound to
the connection or not. -/
def getHolder (loop : Loop) (bound : Bool) (fd : Fd) : Option Fd :=
  if bound || loop.fdToHttp fd || loop.timers.any (·.holder = some fd) then some fd else none

end Loop

namespace Conn

def record (conn : Conn) (action : Action) : Conn :=
  { conn with loop := conn.loop.record conn.http.fd action }

/-! ## Epoll -/

/-- `Epoll::add_timer`, with `TimerPQueue::add_timer` and `link_timer`. -/
def addTimer (env : Env) (bound : Bool) (timeout : ℕ) (conn : Conn) : Conn :=
  match conn.loop.getHolder bound conn.http.fd with
  | none => conn
  | some holder =>
      let id := conn.loop.nextTimer
      let timer := Timer.new id holder (env.clock conn.loop.ticks) timeout
      record
        { conn with
          http := { conn.http with timer := some id }
          loop := { conn.loop with
            timers := timer :: conn.loop.timers
            nextTimer := id + 1
            ticks := conn.loop.ticks + 1 } }
        (.addTimer timeout)

/-- `last_events_ = events_`. -/
def noteEvents (conn : Conn) : Conn :=
  { conn with http := { conn.http with channel := conn.http.channel.updateLastEvents } }

/-- The end of `add_fd_in_epoll`: the channel is stored and registered. -/
def addInterest (env : Env) (conn : Conn) : Conn :=
  let loop :=
    { conn.loop with
      fdToChannel := Function.update conn.loop.fdToChannel conn.http.channel.fd true }
  { conn.noteEvents with loop := loop.ctlAdd env conn.http.channel.fd conn.http.channel.events }

/-- `add_fd_in_epoll`. It is called by the functor that is bound to the
connection. -/
def addFdInEpoll (env : Env) (timeout : ℕ) (conn : Conn) : Conn :=
  if 0 < timeout then
    let conn := conn.addTimer env true timeout
    let fd := conn.http.channel.fd
    let fdToHttp := Function.update conn.loop.fdToHttp fd (conn.loop.getHolder true fd).isSome
    addInterest env { conn with loop := { conn.loop with fdToHttp := fdToHttp } }
  else addInterest env conn

/-- The end of `modify_fd_in_epoll`: a mask that differs from the last one is
registered. -/
def modifyInterest (env : Env) (conn : Conn) : Conn :=
  if conn.http.channel.equalLastEvents then conn.noteEvents
  else
    { conn.noteEvents with
      loop := conn.loop.ctlMod env conn.http.channel.fd conn.http.channel.events }

/-- `modify_fd_in_epoll`. -/
def modifyFdInEpoll (env : Env) (timeout : ℕ) (conn : Conn) : Conn :=
  if 0 < timeout then modifyInterest env (conn.addTimer env false timeout)
  else modifyInterest env conn

/-- `delete_fd_in_epoll`. -/
def deleteFdInEpoll (env : Env) (conn : Conn) : Conn :=
  { conn with loop := conn.loop.ctlDel env conn.http.channel.fd }

/-! ## EventLoop -/

/-- `update_poller`. -/
def updatePoller (env : Env) (timeout : ℕ) (conn : Conn) : Conn :=
  modifyFdInEpoll env timeout (conn.record (.updatePoller conn.http.channel.events timeout))

/-- `shutdown`. -/
def shutdown (conn : Conn) : Conn := conn.record .shutdown

end Conn

/-! ## What the operations keep -/

/-- The queue of timers: identities are not used twice, and a timer that is
deleted holds nothing. -/
structure Loop.Orderly (loop : Loop) : Prop where
  distinct : (loop.timers.map Timer.id).Nodup
  fresh : ∀ timer ∈ loop.timers, timer.id < loop.nextTimer
  holders : ∀ timer ∈ loop.timers, timer.deleted = true → timer.holder = none

theorem Loop.orderly_new : Loop.new.Orderly :=
  ⟨List.nodup_nil, fun _ member => absurd member List.not_mem_nil,
    fun _ member => absurd member List.not_mem_nil⟩

/-- What an operation on `fd` leaves alone: the other descriptors. What it adds
to the log it adds for `fd`. -/
structure Frame (fd : Fd) (before after : Loop) : Prop where
  fdToChannel : ∀ other, other ≠ fd → after.fdToChannel other = before.fdToChannel other
  fdToHttp : ∀ other, other ≠ fd → after.fdToHttp other = before.fdToHttp other
  kernel : ∀ other, other ≠ fd → after.kernel other = before.kernel other
  live : ∀ other, other ≠ fd → live after.timers other = live before.timers other
  log : ∃ actions : List Action, after.log = before.log ++ actions.map (Prod.mk fd)

namespace Frame

variable {fd : Fd} {first second third : Loop}

theorem refl (fd : Fd) (loop : Loop) : Frame fd loop loop :=
  ⟨fun _ _ => rfl, fun _ _ => rfl, fun _ _ => rfl, fun _ _ => rfl, [], (List.append_nil _).symm⟩

theorem trans (earlier : Frame fd first second) (later : Frame fd second third) :
    Frame fd first third := by
  obtain ⟨actions, log⟩ := earlier.log
  obtain ⟨actions', log'⟩ := later.log
  refine ⟨fun other ne => ?_, fun other ne => ?_, fun other ne => ?_, fun other ne => ?_,
    actions ++ actions', ?_⟩
  · rw [later.fdToChannel other ne, earlier.fdToChannel other ne]
  · rw [later.fdToHttp other ne, earlier.fdToHttp other ne]
  · rw [later.kernel other ne, earlier.kernel other ne]
  · rw [later.live other ne, earlier.live other ne]
  · rw [log', log, List.map_append, List.append_assoc]

end Frame

theorem Loop.Orderly.congr {loop loop' : Loop} (orderly : loop.Orderly)
    (timers : loop'.timers = loop.timers) (next : loop'.nextTimer = loop.nextTimer) :
    loop'.Orderly :=
  ⟨timers ▸ orderly.distinct, timers ▸ next ▸ orderly.fresh, timers ▸ orderly.holders⟩

theorem Loop.frame_record (loop : Loop) (fd : Fd) (action : Action) :
    Frame fd loop (loop.record fd action) :=
  ⟨fun _ _ => rfl, fun _ _ => rfl, fun _ _ => rfl, fun _ _ => rfl, [action], rfl⟩

/-- A connection is guarded by one timer, the one it knows. -/
def Guarded (http : HttpData) (loop : Loop) : Prop :=
  ∃ timer, live loop.timers http.fd = [timer] ∧ http.timer = some timer.id

/-- A connection is guarded by no timer and knows of none. -/
def Unguarded (http : HttpData) (loop : Loop) : Prop :=
  live loop.timers http.fd = [] ∧ http.timer = none

/-- The kernel has the mask that the channel remembers, and has disarmed it only
if it is for one event. -/
def Registered (channel : Channel) (loop : Loop) : Prop :=
  ∃ interest, loop.kernel channel.fd = some interest ∧ interest.mask = channel.lastEvents ∧
    (interest.armed = false → interest.mask.meets epollOneshot)

/-- A run in which `epoll_ctl` succeeds on every descriptor that is registered as
it needs it. -/
def Env.Reliable (env : Env) : Prop := ∀ n, env.ctlFault n = false

namespace Conn

/-! ### Timers -/

/-- A timer is added when the holder can be locked. -/
theorem addTimer_locked {env : Env} {bound : Bool} {timeout : ℕ} {conn : Conn}
    (locked : conn.loop.getHolder bound conn.http.fd = some conn.http.fd) :
    conn.addTimer env bound timeout =
      { conn with
        http := { conn.http with timer := some conn.loop.nextTimer }
        loop := { conn.loop with
          timers := Timer.new conn.loop.nextTimer conn.http.fd (env.clock conn.loop.ticks) timeout ::
            conn.loop.timers
          nextTimer := conn.loop.nextTimer + 1
          ticks := conn.loop.ticks + 1
          log := conn.loop.log ++ [(conn.http.fd, .addTimer timeout)] } } := by
  simp only [addTimer, locked]
  rfl

/-- No timer is added when it cannot. -/
theorem addTimer_unlocked {env : Env} {bound : Bool} {timeout : ℕ} {conn : Conn}
    (unlocked : conn.loop.getHolder bound conn.http.fd = none) :
    conn.addTimer env bound timeout = conn := by
  simp only [addTimer, unlocked]

/-- **A new timer guards its connection**, and no other. -/
theorem addTimer_guards {env : Env} {bound : Bool} {timeout : ℕ} {conn : Conn}
    (orderly : conn.loop.Orderly) (unguarded : live conn.loop.timers conn.http.fd = [])
    (locked : conn.loop.getHolder bound conn.http.fd = some conn.http.fd) :
    (conn.addTimer env bound timeout).loop.Orderly ∧
      Guarded (conn.addTimer env bound timeout).http (conn.addTimer env bound timeout).loop ∧
      Frame conn.http.fd conn.loop (conn.addTimer env bound timeout).loop := by
  rw [addTimer_locked locked]
  refine ⟨⟨?_, ?_, ?_⟩,
    ⟨Timer.new conn.loop.nextTimer conn.http.fd (env.clock conn.loop.ticks) timeout, ?_, rfl⟩,
    ⟨fun _ _ => rfl, fun _ _ => rfl, fun _ _ => rfl, ?_, [.addTimer timeout], rfl⟩⟩
  · simp only [List.map_cons, Timer.new_id, List.nodup_cons, List.mem_map, not_exists, not_and]
    refine ⟨fun timer member same => ?_, orderly.distinct⟩
    exact absurd same (Nat.ne_of_lt (orderly.fresh timer member))
  · intro timer member
    rcases List.mem_cons.mp member with rfl | member
    · simp
    · exact Nat.lt_succ_of_lt (orderly.fresh timer member)
  · intro timer member
    rcases List.mem_cons.mp member with rfl | member
    · simp [Timer.new]
    · exact orderly.holders timer member
  · simp only [live] at unguarded ⊢
    simp [unguarded]
  · intro other ne
    simp [live, ne.symm]

/-! ### Interest sets -/

end Conn

namespace Loop

variable (env : Env) (possible : Bool) (fd : Fd) (mask : Mask) (loop : Loop)

@[simp] theorem epollCtl_timers : (loop.epollCtl env possible fd mask).timers = loop.timers := by
  unfold epollCtl
  split <;> rfl

@[simp] theorem epollCtl_nextTimer :
    (loop.epollCtl env possible fd mask).nextTimer = loop.nextTimer := by
  unfold epollCtl
  split <;> rfl

@[simp] theorem epollCtl_log : (loop.epollCtl env possible fd mask).log = loop.log := by
  unfold epollCtl
  split <;> rfl

@[simp] theorem epollCtl_fdToHttp :
    (loop.epollCtl env possible fd mask).fdToHttp = loop.fdToHttp := by
  unfold epollCtl
  split <;> rfl

/-- `epoll_ctl` stores no channel. -/
theorem epollCtl_fdToChannel {other : Fd} (unset : loop.fdToChannel other = false) :
    (loop.epollCtl env possible fd mask).fdToChannel other = false := by
  unfold epollCtl
  split
  · exact unset
  · by_cases same : other = fd
    · subst same
      exact Function.update_self ..
    · exact (Function.update_of_ne same _ _).trans unset

/-- `epoll_ctl` concerns its descriptor only. -/
theorem frame_epollCtl : Frame fd loop (loop.epollCtl env possible fd mask) := by
  unfold epollCtl
  split
  · exact ⟨fun _ _ => rfl, fun _ _ => rfl, fun _ ne => Function.update_of_ne ne _ _,
      fun _ _ => rfl, [], (List.append_nil _).symm⟩
  · exact ⟨fun _ ne => Function.update_of_ne ne _ _, fun _ _ => rfl, fun _ _ => rfl,
      fun _ _ => rfl, [], (List.append_nil _).symm⟩

theorem frame_ctlDel : Frame fd loop (loop.ctlDel env fd) := by
  refine ⟨fun _ ne => Function.update_of_ne ne _ _, fun _ ne => Function.update_of_ne ne _ _,
    fun other ne => ?_, fun _ _ => rfl, [], (List.append_nil _).symm⟩
  simp only [ctlDel]
  split
  · rfl
  · exact Function.update_of_ne ne _ _

end Loop

namespace Conn

/-- The loop after `modify_fd_in_epoll` has dealt with the mask. -/
theorem modifyInterest_eq (env : Env) (conn : Conn) :
    ∃ loop, conn.modifyInterest env = { conn.noteEvents with loop := loop } ∧
      loop.timers = conn.loop.timers ∧ loop.nextTimer = conn.loop.nextTimer ∧
      loop.log = conn.loop.log ∧ loop.fdToHttp = conn.loop.fdToHttp ∧
      (∀ other, conn.loop.fdToChannel other = false → loop.fdToChannel other = false) ∧
      Frame conn.http.channel.fd conn.loop loop := by
  unfold modifyInterest
  split
  · exact ⟨conn.loop, rfl, rfl, rfl, rfl, rfl, fun _ => id, .refl _ _⟩
  · exact ⟨_, rfl, Loop.epollCtl_timers .., Loop.epollCtl_nextTimer .., Loop.epollCtl_log ..,
      Loop.epollCtl_fdToHttp .., fun _ => Loop.epollCtl_fdToChannel _ _ _ _ _,
      Loop.frame_epollCtl ..⟩

/-- **The skipped call of `epoll_ctl` is sound**: whether it is made or not, the
kernel then has the mask that was asked for, armed. -/
theorem modifyInterest_registers {env : Env} {conn : Conn} (reliable : env.Reliable)
    (registered : Registered conn.http.channel conn.loop)
    (lasting : conn.http.channel.events.meets epollOneshot = false) :
    (conn.modifyInterest env).loop.kernel conn.http.channel.fd =
      some ⟨conn.http.channel.events, true⟩ := by
  obtain ⟨⟨mask, armed⟩, entry, same, disarmed⟩ := registered
  unfold modifyInterest
  split
  · rename_i unchanged
    have unchanged : conn.http.channel.events = conn.http.channel.lastEvents := by
      simpa [Channel.equalLastEvents] using unchanged
    simp only at same disarmed
    rw [same, ← unchanged, lasting] at disarmed
    cases armed with
    | false => simp at disarmed
    | true =>
        show conn.loop.kernel conn.http.channel.fd = _
        rw [entry, same, unchanged]
  · simp [Loop.ctlMod, Loop.epollCtl, entry, reliable conn.loop.ctls]

/-! ### update_poller -/

/-- What `update_poller` does for a connection whose holder can be locked. -/
structure Updated (timeout : ℕ) (before after : Conn) : Prop where
  http : ∃ id, after.http = { before.noteEvents.http with timer := some id }
  io : after.io = before.io
  orderly : after.loop.Orderly
  guarded : Guarded after.http after.loop
  fdToHttp : after.loop.fdToHttp = before.loop.fdToHttp
  frame : Frame before.http.fd before.loop after.loop
  log : after.loop.log = before.loop.log ++
    [(before.http.fd, .updatePoller before.http.channel.events timeout),
      (before.http.fd, .addTimer timeout)]

/-- **`update_poller` gives an unguarded connection its timer.** -/
theorem updatePoller_held {env : Env} {timeout : ℕ} {conn : Conn} (positive : 0 < timeout)
    (own : conn.http.channel.fd = conn.http.fd) (orderly : conn.loop.Orderly)
    (unguarded : live conn.loop.timers conn.http.fd = [])
    (held : conn.loop.fdToHttp conn.http.fd = true) :
    Updated timeout conn (conn.updatePoller env timeout) := by
  let asked := conn.record (.updatePoller conn.http.channel.events timeout)
  have locked : asked.loop.getHolder false asked.http.fd = some asked.http.fd := by
    show Loop.getHolder _ false conn.http.fd = some conn.http.fd
    have held : asked.loop.fdToHttp conn.http.fd = true := held
    simp [Loop.getHolder, held]
  have askedOrderly : asked.loop.Orderly := orderly.congr rfl rfl
  obtain ⟨added, ⟨timer, guards, known⟩, framed⟩ :=
    @addTimer_guards env false timeout asked askedOrderly unguarded locked
  obtain ⟨loop, modified, timers, next, log, fdToHttp, -, frame⟩ :=
    modifyInterest_eq env (asked.addTimer env false timeout)
  have same : (asked.addTimer env false timeout).http.channel.fd = conn.http.fd := by
    rw [addTimer_locked locked]
    exact own
  rw [same] at frame
  have result : conn.updatePoller env timeout =
      { (asked.addTimer env false timeout).noteEvents with loop := loop } := by
    rw [← modified]
    exact if_pos positive
  rw [addTimer_locked locked] at *
  rw [result]
  refine ⟨⟨asked.loop.nextTimer, rfl⟩, rfl, added.congr timers next, ⟨timer, ?_, known⟩, fdToHttp,
    ?_, ?_⟩
  · rw [← guards, ← timers]
    rfl
  · exact (Loop.frame_record ..).trans (framed.trans frame)
  · show loop.log = _
    rw [log]
    exact List.append_assoc ..

/-- `update_poller` for a connection that nothing owns any more: no timer is
added, and its log says so. -/
theorem updatePoller_dropped {env : Env} {timeout : ℕ} {conn : Conn} (positive : 0 < timeout)
    (own : conn.http.channel.fd = conn.http.fd) (orderly : conn.loop.Orderly)
    (dropped : conn.loop.getHolder false conn.http.fd = none) :
    ∃ loop, conn.updatePoller env timeout = { conn.noteEvents with loop := loop } ∧
      loop.Orderly ∧ loop.timers = conn.loop.timers ∧ loop.fdToHttp = conn.loop.fdToHttp ∧
      (∀ other, conn.loop.fdToChannel other = false → loop.fdToChannel other = false) ∧
      Frame conn.http.fd conn.loop loop ∧
      loop.log = conn.loop.log ++
        [(conn.http.fd, .updatePoller conn.http.channel.events timeout)] := by
  let asked := conn.record (.updatePoller conn.http.channel.events timeout)
  have unlocked : asked.addTimer env false timeout = asked := addTimer_unlocked dropped
  obtain ⟨loop, modified, timers, next, log, fdToHttp, silent, frame⟩ :=
    modifyInterest_eq env asked
  refine ⟨loop, ?_, orderly.congr timers next, timers, fdToHttp, silent, ?_, log⟩
  · refine (if_pos positive).trans ?_
    rw [unlocked]
    exact modified
  · have same : asked.http.channel.fd = conn.http.fd := own
    rw [same] at frame
    exact (Loop.frame_record conn.loop conn.http.fd _).trans frame

theorem addTimer_channel (env : Env) (bound : Bool) (timeout : ℕ) (conn : Conn) :
    (conn.addTimer env bound timeout).http.channel = conn.http.channel := by
  unfold addTimer
  split <;> rfl

theorem addTimer_kernel (env : Env) (bound : Bool) (timeout : ℕ) (conn : Conn) :
    (conn.addTimer env bound timeout).loop.kernel = conn.loop.kernel := by
  unfold addTimer
  split <;> rfl

/-- **`update_poller` leaves the kernel with the mask that was asked for.** -/
theorem updatePoller_registers {env : Env} {timeout : ℕ} {conn : Conn} (reliable : env.Reliable)
    (registered : Registered conn.http.channel conn.loop)
    (lasting : conn.http.channel.events.meets epollOneshot = false) :
    (conn.updatePoller env timeout).loop.kernel conn.http.channel.fd =
      some ⟨conn.http.channel.events, true⟩ := by
  let asked := conn.record (.updatePoller conn.http.channel.events timeout)
  show (modifyFdInEpoll env timeout asked).loop.kernel conn.http.channel.fd = _
  unfold modifyFdInEpoll
  split
  · have channel : (asked.addTimer env false timeout).http.channel = conn.http.channel :=
      addTimer_channel ..
    have kernel : (asked.addTimer env false timeout).loop.kernel = conn.loop.kernel :=
      addTimer_kernel ..
    obtain ⟨interest, entry, rest⟩ := registered
    have registered :
        Registered (asked.addTimer env false timeout).http.channel
          (asked.addTimer env false timeout).loop :=
      ⟨interest, channel ▸ kernel ▸ entry, channel ▸ rest⟩
    have modified := modifyInterest_registers reliable registered (channel ▸ lasting)
    rwa [channel] at modified
  · exact modifyInterest_registers reliable registered lasting

end Conn

end FastWebServer
