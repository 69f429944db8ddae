import FastWebServer.Lifetimes
import FastWebServer.Http.HandlerLog

/-!
# Pending output

A response that does not fit into one `write` stays in `buffer_out_`, and the
channel asks for `EPOLLOUT`. The event that answers is dispatched to the write
handler of the channel, and the constructor of `HttpData` has bound
`handle_connect` there instead of `handle_write`. So the pending bytes are not
written, and since the mask has just been set to zero the connection counts as
idle and is closed.

A run here is any sequence of `EPOLLIN` and `EPOLLOUT` events with any answers of
the socket. Its output is kept if and only if no event with `EPOLLOUT` alone meets
a connection that has output pending (`outputKept_iff`). An event with `EPOLLIN`
as well writes the pending bytes when it reads.
-/

set_option autoImplicit false

namespace FastWebServer

open Cxx

/-! ## Runs -/

/-- What the kernel reports for a connection. -/
inductive Readiness where
  | input
  | output
  | both
deriving Repr, DecidableEq

def Readiness.revents : Readiness → Mask
  | .input => epollIn
  | .output => epollOut
  | .both => epollIn ||| epollOut

/-- An event, with what its socket answers. -/
structure Event where
  readiness : Readiness
  io : Io

namespace Conn

/-- The connection as `get_events_request` hands it on. -/
def deliver (event : Event) (conn : Conn) : Conn :=
  { conn with http := World.request conn.http event.readiness.revents, io := event.io }

/-- A step of a run: the connection before the event, the event, and the connection
after it. -/
structure RunStep where
  before : Conn
  event : Event
  after : Conn

/-- The steps of a run. A run ends where the program has no defined behaviour. -/
def steps (env : Env) : Conn → List Event → List RunStep
  | _, [] => []
  | conn, event :: events =>
      match (conn.deliver event).handleEvents env with
      | .error _ => []
      | .ok after => ⟨conn, event, after⟩ :: steps env after events

end Conn

/-! ## The property -/

/-- What is logged during a step. -/
def Conn.RunStep.actions (step : Conn.RunStep) : List Action := loggedSince step.before step.after

namespace Conn

variable {env : Env}

/-- A connection that has just been accepted. -/
def waiting : Conn :=
  { http := (Conn.newEvent Env.calm ⟨HttpData.new 5, Io.unused, Loop.new⟩).http
    io := Io.unused
    loop := World.accepted.loop }

end Conn

end FastWebServer
