import FastWebServer.Lifetimes
import FastWebServer.Http.HandlerLog

/-!
# Keeping a connection alive

`analyze_request` notes in `keep_alive_` that a request asks to keep the connection.
When the response has been written, `handle_read` calls `reset`, which clears the
note, and only then `handle_connect` looks at it. The mask is zero by then, so the
connection counts as idle: it is shut down and closed.

No request is spared. Whenever a request with `Connection: keep-alive` is answered
successfully and its response is taken by the kernel, the connection is closed
(`keepAlive_neverKept`).
-/

set_option autoImplicit false

namespace FastWebServer

open Cxx

namespace Conn

variable {env : Env} {conn : Conn}

/-- The connection was left open and registered for the next request. -/
structure KeptAlive (before after : Conn) : Prop where
  stays : ∀ action ∈ loggedSince before after, action.ends = false
  registered : Action.updatePoller (epollIn ||| epollEt) defaultKeepAliveTime ∈
    loggedSince before after

/-- A healthy connection meets an event with `EPOLLIN` that completes a request.
The request asks to keep the connection, is answered successfully, and the kernel
takes the response. -/
structure KeepAliveRequest (conn : Conn) : Prop where
  healthy : conn.http.Healthy
  readable : conn.http.channel.revents = epollIn
  answered : ∃ flow read, stages (conn.storeEvents 0#32) = .ok (flow, read) ∧
    read.http.isError = false ∧ read.http.processState = .finish ∧
    (read.http.httpMethod = .get ∨ read.http.httpMethod = .head) ∧
    read.http.wantsKeepAlive = true ∧ Takes read.io.writes

/-- **A connection that should be kept alive is shut down and closed.** -/
theorem keepAlive_neverKept (request : KeepAliveRequest conn) :
    ∃ after, conn.handleEvents env = .ok after ∧
      Action.shutdown ∈ loggedSince conn after ∧ Action.handleClose ∈ loggedSince conn after ∧
      ¬ KeptAlive conn after := by
  obtain ⟨flow, read, looped, unfailed, finished, -, -, takes⟩ := request.answered
  have steady := stages_keeps _ _ _ looped
  have connected : read.http.connectionState = .connected :=
    (steady.sound unfailed).2.trans request.healthy.connected
  obtain ⟨written, -⟩ := flush_takes unfailed (by rw [connected]; decide) takes
  obtain ⟨timer, forgotten, -⟩ := reset_keeps read.flush
  have finish : read.finishRead = read.flush.reset := by
    unfold finishRead
    rw [if_pos (by rw [written]; exact ⟨unfailed, finished⟩)]
  have idle : read.finishRead.http.Idle := by
    rw [finish, forgotten, written]
    refine ⟨unfailed, connected, ?_, rfl⟩
    show read.http.channel.events = 0#32
    rw [steady.channel]
    rfl
  have ran : (conn.storeEvents 0#32).handleRead = .ok read.finishRead := by
    rw [handleRead_eq, looped]
    rfl
  obtain ⟨logged, conduct⟩ := handleRead_conduct ran
  obtain ⟨actions, closing⟩ := @conduct_idle env _ idle
  have handled : conn.handleEvents env = .ok (read.finishRead.handleConnect env) := by
    rw [handleEvents_eq (by rw [request.readable]; decide), request.readable, if_pos (by decide), ran]
    rfl
  have since : loggedSince conn (read.finishRead.handleConnect env) =
      logged ++ .handleConnect read.finishRead.http :: .shutdown :: .handleClose :: actions := by
    refine @loggedSince_eq conn _ conn.http.fd _ ?_
    rw [closing.log, conduct.log, conduct.fd]
    simp [storeEvents, HttpData.setEvents]
  refine ⟨_, handled, ?_, ?_, fun kept => ?_⟩
  · rw [since]
    simp
  · rw [since]
    simp
  · have ends := kept.stays .shutdown (by rw [since]; simp)
    cases ends

/-- A request for the fixed text that asks to keep the connection. -/
def keepAliveRequest : Str := "GET /hello HTTP/1.1\r\nConnection: keep-alive\r\n\r\n".toList

/-- The request arrives on a new connection. -/
def keepAliveArrives : Conn :=
  { http := World.request (Conn.newEvent Env.calm ⟨HttpData.new 5, Io.unused, Loop.new⟩).http epollIn
    io := Io.packet keepAliveRequest
    loop := World.accepted.loop }

theorem keepAliveArrives_request : KeepAliveRequest keepAliveArrives where
  healthy := ⟨rfl, rfl⟩
  readable := rfl
  answered := ⟨_, _, rfl, rfl, rfl, .inl rfl, rfl, takes_nil⟩

/-- The new connection is not kept. -/
theorem keepAliveArrives_closed :
    KeepAliveRequest keepAliveArrives ∧
      ∃ after self, keepAliveArrives.handleEvents Env.calm = .ok after ∧
        loggedSince keepAliveArrives after =
          [.writen HttpData.helloResponse, .clearInput [], .handleConnect self, .shutdown,
            .handleClose, .updatePoller (epollIn ||| epollEt) (defaultKeepAliveTime >>> 1)] ∧
        ¬ KeptAlive keepAliveArrives after := by
  have looped : ∃ flow read self, stages (keepAliveArrives.storeEvents 0#32) = .ok (flow, read) ∧
      loggedSince keepAliveArrives (read.finishRead.handleConnect Env.calm) =
        [.writen HttpData.helloResponse, .clearInput [], .handleConnect self, .shutdown,
          .handleClose, .updatePoller (epollIn ||| epollEt) (defaultKeepAliveTime >>> 1)] :=
    ⟨_, _, _, rfl, rfl⟩
  obtain ⟨flow, read, self, looped, log⟩ := looped
  refine ⟨keepAliveArrives_request, read.finishRead.handleConnect Env.calm, self, ?_, log, ?_⟩
  · rw [handleEvents_eq (by decide), if_pos (by decide), handleRead_eq, looped]
    rfl
  · intro kept
    have ends := kept.stays .shutdown (by rw [log]; simp)
    cases ends

/-- As every connection that should be. -/
theorem keepAliveArrives_neverKept :
    ∃ after, keepAliveArrives.handleEvents Env.calm = .ok after ∧
      Action.shutdown ∈ loggedSince keepAliveArrives after ∧
      Action.handleClose ∈ loggedSince keepAliveArrives after ∧
      ¬ KeptAlive keepAliveArrives after :=
  keepAlive_neverKept keepAliveArrives_request

end Conn

end FastWebServer
