import Mathlib.Data.List.MinMax
import FastWebServer.LoopThread

/-!
# The life of a connection

An open connection is guarded by exactly one timer, the one it is linked to, in
every reachable state (`openConnection_guarded`). No order of events, answers of
the socket and readings of the clock lets it escape the timeout.

A closed connection is not always left alone. The branch of `handle_connect` for
idle connections runs `handle_close` on the spot and then calls `update_poller`.
Nothing else touches a closed connection (`closedStaysClosed`). A request that is
answered completely leads there (`helloArrives_idle`).
-/

set_option autoImplicit false

namespace FastWebServer

open Cxx

/-! ## A run -/

/-- The first of the least elements. -/
def TopOf.least {Element : Type} (rank : Element → ℕ) : TopOf rank where
  top queue := queue.argmin rank
  top_mem _ _ least := List.argmin_mem least
  top_least _ _ least _ member := List.le_of_mem_argmin member least
  top_none _ none := List.argmin_eq_none.mp none

/-- A system in which the clock stands still and `epoll_ctl` never fails. -/
def Env.calm : Env :=
  { clock := fun _ => ⟨0, 0⟩
    ctlFault := fun _ => false
    queue := TopOf.least _ }

/-- A socket on which one packet has arrived. -/
def Io.packet (bytes : Str) : Io := { Io.unused with reads := [.data bytes] }

/-- A request for the fixed text. -/
def helloRequest : Str := "GET /hello HTTP/1.1\r\nA: b\r\n\r\n".toList

namespace World

variable {env : Env} {world : World}

/-- The world with one new connection. -/
def accepted : World := start.newEvent Env.calm 5

theorem accepted_reachable : (machine Env.calm).Reachable accepted :=
  (Runs.Machine.Reachable.start rfl).step (.newEvent 5 rfl)

/-! ## Open connections -/

/-- **An open connection is guarded by exactly one timer**, the one it is linked
to. -/
theorem openConnection_guarded (reachable : (machine env).Reachable world) {fd : Fd}
    {http : HttpData} (present : world.conns fd = some http)
    (opened : (fd, Action.handleClose) ∉ world.loop.log) :
    ∃ timer, world.loop.timers.filter
        (fun timer => !timer.deleted && decide (timer.holder = some fd)) = [timer] ∧
      http.timer = some timer.id := by
  obtain ⟨rfl, outcome⟩ := (reachable_sound reachable).present fd http present
  rcases outcome with ⟨serving, -⟩ | ⟨-, closed⟩
  · exact serving.guarded
  · exact absurd closed opened

/-- The new connection when a part of a request arrives. -/
def partArrives : Conn :=
  { http := request (Conn.newEvent Env.calm ⟨HttpData.new 5, Io.unused, Loop.new⟩).http epollIn
    io := Io.packet "GET /hello HTTP/1.1\r\nA".toList
    loop := disarm 5 ⟨defaultEvent, true⟩ accepted.loop }

/-- It is registered again, with a new timer. -/
theorem partArrives_handled :
    ∃ conn self, partArrives.handleEvents Env.calm = .ok conn ∧
      conn.loop.log = [(5, Action.addTimer defaultExpiredTime), (5, .handleConnect self),
        (5, .updatePoller (epollIn ||| epollEt) defaultExpiredTime),
        (5, .addTimer defaultExpiredTime)] ∧
      conn.loop.kernel 5 = some ⟨epollIn ||| epollEt, true⟩ ∧ conn.http.timer = some 1 := by
  have looped : ∃ flow read self, Conn.stages (partArrives.storeEvents 0#32) = .ok (flow, read) ∧
      (read.finishRead.handleConnect Env.calm).loop.log =
        [(5, Action.addTimer defaultExpiredTime), (5, .handleConnect self),
          (5, .updatePoller (epollIn ||| epollEt) defaultExpiredTime),
          (5, .addTimer defaultExpiredTime)] ∧
      (read.finishRead.handleConnect Env.calm).loop.kernel 5 = some ⟨epollIn ||| epollEt, true⟩ ∧
      (read.finishRead.handleConnect Env.calm).http.timer = some 1 :=
    ⟨_, _, _, rfl, rfl, rfl, rfl⟩
  obtain ⟨flow, read, self, looped, after⟩ := looped
  refine ⟨read.finishRead.handleConnect Env.calm, self, ?_, after⟩
  rw [Conn.handleEvents_eq (by decide), if_pos (by decide), Conn.handleRead_eq, looped]
  rfl

/-- The connection is guarded by the new timer, and no longer by the one of `new_event`. -/
theorem partArrives_guarded :
    ∃ conn timer, partArrives.handleEvents Env.calm = .ok conn ∧ timer.id = 1 ∧
      conn.loop.timers.filter
        (fun timer => !timer.deleted && decide (timer.holder = some 5)) = [timer] ∧
      conn.http.timer = some timer.id := by
  obtain ⟨conn, self, ran, log, -, renewed⟩ := partArrives_handled
  have reachable := accepted_reachable.step (.dispatch rfl rfl rfl rfl ran)
  have present : (accepted.update 5 conn).conns 5 = some conn.http := by simp [World.update]
  have opened : (5, Action.handleClose) ∉ (accepted.update 5 conn).loop.log := by
    show (5, Action.handleClose) ∉ conn.loop.log
    simp [log]
  obtain ⟨timer, guards, linked⟩ := openConnection_guarded reachable present opened
  exact ⟨conn, timer, ran, Option.some.inj (linked.symm.trans renewed), guards, linked⟩

/-! ## Closed connections -/

/-- A closed connection is never given a timer and never registered, and no timer
guards it. -/
def ClosedStaysClosed (world : World) : Prop :=
  LogSettled world.loop.log ∧
    ∀ fd, (fd, Action.handleClose) ∈ world.loop.log → live world.loop.timers fd = []

/-- Closed connections stay closed as long as `handle_connect` is not entered by an
idle connection. -/
theorem closedStaysClosed (sound : Sound world) (free : LogIdleFree world.loop.log) :
    world.ClosedStaysClosed := by
  refine ⟨sound.settled.mpr free, fun fd closed => ?_⟩
  cases present : world.conns fd with
  | none => exact absurd closed ((sound.absent fd present).unlogged _)
  | some http =>
      obtain ⟨rfl, ⟨-, opened⟩ | ⟨dead, -⟩⟩ := sound.present fd http present
      · exact absurd closed opened
      · exact dead.unguarded

/-- The new connection when the request for the fixed text arrives. -/
def helloArrives : Conn :=
  { http := request (Conn.newEvent Env.calm ⟨HttpData.new 5, Io.unused, Loop.new⟩).http epollIn
    io := Io.packet helloRequest
    loop := disarm 5 ⟨defaultEvent, true⟩ accepted.loop }

/-- The request is answered completely, and the connection asks for nothing. -/
theorem helloArrives_idle :
    ∃ read, (helloArrives.storeEvents 0#32).handleRead = .ok read ∧ read.http.Idle ∧
      read.loop.log = [(5, Action.addTimer defaultExpiredTime), (5, .writen HttpData.helloResponse),
        (5, .clearInput [])] := by
  have looped : ∃ flow read, Conn.stages (helloArrives.storeEvents 0#32) = .ok (flow, read) ∧
      (read.finishRead.http.isError = false ∧
        read.finishRead.http.connectionState = .connected ∧
        read.finishRead.http.channel.events = 0#32 ∧
        read.finishRead.http.keepAlive = false) ∧
      read.finishRead.loop.log = [(5, Action.addTimer defaultExpiredTime),
        (5, .writen HttpData.helloResponse), (5, .clearInput [])] :=
    ⟨_, _, rfl, by decide, rfl⟩
  obtain ⟨flow, read, looped, ⟨unfailed, connected, empty, unkept⟩, log⟩ := looped
  refine ⟨read.finishRead, ?_, ⟨unfailed, connected, empty, unkept⟩, log⟩
  rw [Conn.handleRead_eq, looped]
  rfl

end World

end FastWebServer
