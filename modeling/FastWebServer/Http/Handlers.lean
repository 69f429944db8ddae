import FastWebServer.Epoll
import FastWebServer.Http.ParseHeaders
import FastWebServer.Http.ParseURI

/-!
# The handlers of a connection

`handle_read`, `handle_write`, `handle_connect` and what they call. The body of
the `do … while (false)` loop in `handle_read` is a sequence of stages, one for
each value of `process_state_`; a stage either breaks out of the loop or goes on
to the next.

After a finished request `handle_read` calls `reset` and then itself if
`buffer_in_` is not empty. `reset` has just emptied it, so the call is never
made: this is the proof that the definition terminates, and
`handleRead_eq` states the function without the call.

`handle_close` is run by `run_in_loop` on the loop thread, which calls it at once.
-/

set_option autoImplicit false

namespace FastWebServer

open Cxx

namespace Conn

/-! ## Timers -/

/-- `seperate_timer`. -/
def seperateTimer (conn : Conn) : Conn :=
  match conn.loop.lockTimer conn.http.timer with
  | none => conn
  | some id =>
      { conn with
        http := { conn.http with timer := none }
        loop := { conn.loop with timers := clearTimer id conn.loop.timers } }

/-- The members that `reset` clears. -/
def cleared (http : HttpData) : HttpData :=
  { http with
    bufferIn := []
    fileName := []
    readCur := 0
    processState := .parseURI
    parseState := .start
    headers := HeaderMap.empty
    keepAlive := false }

/-- `reset`. -/
def reset (conn : Conn) : Conn :=
  let logged := conn.record (.clearInput conn.http.bufferIn)
  seperateTimer { logged with http := cleared conn.http }

/-! ## Writing -/

/-- The members that `handle_write` changes, after `writen` has answered. -/
def afterWriten (http : HttpData) (wrote : Writen) : HttpData :=
  let http : HttpData := { http with bufferOut := wrote.buffer }
  let http : HttpData := if wrote.ret < 0 then { http.setEvents 0#32 with isError := true } else http
  if 0 < http.bufferOut.length then http.setEvents (http.channel.events ||| epollOut) else http

/-- `handle_write`. -/
def handleWrite (conn : Conn) : Conn :=
  if conn.http.isError = false ∧ conn.http.connectionState ≠ .disconnected then
    let wrote := FastWebServer.writen conn.io.writes conn.http.bufferOut
    let logged := conn.record (.writen conn.http.bufferOut)
    { logged with
      http := afterWriten conn.http wrote
      io := { conn.io with writes := wrote.rest, sent := conn.io.sent ++ wrote.taken } }
  else conn

/-- `handle_error`. It writes the header and then the body, whatever becomes of
the header. -/
def handleError (report : ErrorReport) (conn : Conn) : Conn :=
  let conn := conn.record (.handleError report)
  let header := writeLoop conn.io.writes report.header []
  let body := writeLoop header.rest report.body []
  { conn with
    io := { conn.io with writes := body.rest, sent := conn.io.sent ++ header.taken ++ body.taken } }

/-- `is_error_ = true`. -/
def fail (conn : Conn) : Conn := { conn with http := { conn.http with isError := true } }

/-- `process_state_ = processState`. -/
def enter (processState : ProcessState) (conn : Conn) : Conn :=
  { conn with http := { conn.http with processState := processState } }

/-! ## The stages of handle_read -/

/-- Whether a stage breaks out of the loop or goes on. -/
inductive Flow where
  | leave
  | goOn
deriving Repr, DecidableEq

/-- A stage of the loop. -/
abbrev Stage := Conn → Except Fault (Flow × Conn)

/-- A stage, and the stages after it if it goes on. -/
def Stage.before (first second : Stage) : Stage := fun conn =>
  match first conn with
  | .error fault => .error fault
  | .ok (.leave, conn) => .ok (.leave, conn)
  | .ok (.goOn, conn) => second conn

/-- What has arrived is read. -/
def readStage : Stage := fun conn =>
  let read := readn conn.io.reads conn.http.bufferIn
  -- `num_read` is an `int`
  let numRead := toInt (toSize read.ret)
  let conn :=
    { conn with
      http := { conn.http with bufferIn := read.buffer }
      io := { conn.io with reads := read.rest } }
  if conn.http.connectionState = .disconnected then
    .ok (.leave, { conn with http := { conn.http with bufferIn := [] } })
  else if numRead < 0 then .ok (.leave, conn.fail.handleError badRequest)
  else if read.zero then
    let conn :=
      { conn with http := { conn.http with isError := true, connectionState := .disconnected } }
    if numRead = 0 then .ok (.leave, conn) else .ok (.goOn, conn)
  else .ok (.goOn, conn)

/-- `STATE_PARSE_URI`. -/
def uriStage : Stage := fun conn =>
  if conn.http.processState = .parseURI then
    match conn.http.parseURI with
    | .error fault => .error fault
    | .ok (.again, http) => .ok (.leave, { conn with http := http })
    | .ok (.error, http) =>
        let conn := { conn with http := { http with bufferIn := [] } }
        .ok (.leave, conn.fail.handleError badRequest)
    | .ok (.success, http) => .ok (.goOn, { conn with http := http }.enter .parseHeaders)
  else .ok (.goOn, conn)

/-- `STATE_PARSE_HEADERS`. -/
def headersStage : Stage := fun conn =>
  if conn.http.processState = .parseHeaders then
    match conn.http.parseHeaders with
    | .error fault => .error fault
    | .ok (.again, http) => .ok (.leave, { conn with http := http })
    | .ok (.error, http) => .ok (.leave, { conn with http := http }.fail.handleError badRequest)
    | .ok (.success, http) =>
        let conn := { conn with http := http }
        if conn.http.httpMethod = .post then .ok (.goOn, conn.enter .recvBody)
        else .ok (.goOn, conn.enter .analysis)
  else .ok (.goOn, conn)

/-- `STATE_RECV_BODY`. -/
def bodyStage : Stage := fun conn =>
  if conn.http.processState = .recvBody then
    match conn.http.headers "Content-length".toList with
    | none => .ok (.leave, conn.fail.handleError lackOfContentLength)
    | some value =>
        match stoi value with
        | .error fault => .error fault
        -- a negative length is a huge `size_t`
        | .ok contentLength =>
            if conn.http.bufferIn.length < toSize contentLength then .ok (.leave, conn)
            else .ok (.goOn, conn.enter .analysis)
  else .ok (.goOn, conn)

/-- The call of `handle_error` that an analysis makes, if it makes one. -/
def reportError (report : Option ErrorReport) (conn : Conn) : Conn :=
  match report with
  | some report => conn.handleError report
  | none => conn

/-- `STATE_ANALYSIS`. -/
def analysisStage : Stage := fun conn =>
  if conn.http.processState = .analysis then
    let analysis := conn.http.analyzeRequest conn.io.files
    let conn := { conn with http := analysis.http }.reportError analysis.report
    match analysis.state with
    | .success => .ok (.leave, conn.enter .finish)
    | .error => .ok (.leave, conn.fail)
  else .ok (.leave, conn)

/-- The body of the loop of `handle_read`. -/
def stages : Stage :=
  readStage.before (uriStage.before (headersStage.before (bodyStage.before analysisStage)))

/-! ## handle_read -/

/-- `if (buffer_out_.size() > 0) handle_write()` after the loop. -/
def flush (conn : Conn) : Conn :=
  if conn.http.isError = false then
    if 0 < conn.http.bufferOut.length then conn.handleWrite else conn
  else conn

/-- `events_ |= EPOLLIN`, for a request that is not complete. -/
def awaitInput (conn : Conn) : Conn :=
  if conn.http.isError = false ∧ conn.http.connectionState ≠ .disconnected then
    { conn with http := conn.http.setEvents (conn.http.channel.events ||| epollIn) }
  else conn

theorem seperateTimer_bufferIn (conn : Conn) :
    conn.seperateTimer.http.bufferIn = conn.http.bufferIn := by
  unfold seperateTimer
  split <;> rfl

theorem reset_bufferIn (conn : Conn) : conn.reset.http.bufferIn = [] :=
  seperateTimer_bufferIn _

/-- `handle_read`. -/
def handleRead (conn : Conn) : Except Fault Conn :=
  match stages conn with
  | .error fault => .error fault
  | .ok (_, conn) =>
      let conn := conn.flush
      if conn.http.isError = false ∧ conn.http.processState = .finish then
        if _remains : 0 < conn.reset.http.bufferIn.length then
          if conn.reset.http.connectionState ≠ .disconnected then handleRead conn.reset
          else .ok conn.reset
        else .ok conn.reset
      else .ok conn.awaitInput
termination_by 0
decreasing_by
  simp [reset_bufferIn] at _remains

/-- What `handle_read` does after the loop. -/
def finishRead (conn : Conn) : Conn :=
  if conn.flush.http.isError = false ∧ conn.flush.http.processState = .finish then conn.flush.reset
  else conn.flush.awaitInput

/-- **The recursion is never entered.** -/
theorem handleRead_eq (conn : Conn) :
    conn.handleRead = (stages conn).map fun after => after.2.finishRead := by
  rw [handleRead]
  cases stages conn with
  | error fault => rfl
  | ok after =>
      simp only [Except.map, finishRead, reset_bufferIn, List.length_nil, lt_irrefl, dite_false]
      split <;> rfl

/-! ## handle_connect -/

/-- `handle_close`. -/
def handleClose (env : Env) (conn : Conn) : Conn :=
  let conn := conn.record .handleClose
  deleteFdInEpoll env { conn with http := { conn.http with connectionState := .disconnected } }

/-- The mask that the first branch of `handle_connect` registers. -/
def arbitrate (events : Mask) : Mask :=
  (if events.meets epollIn && events.meets epollOut then epollOut else events) ||| epollEt

/-- `handle_connect`. -/
def handleConnect (env : Env) (conn : Conn) : Conn :=
  let conn := (conn.record (.handleConnect conn.http)).seperateTimer
  let http := conn.http
  let events := http.channel.events
  if http.isError = false ∧ http.connectionState = .connected then
    if events ≠ 0#32 then
      let timeout := if http.keepAlive then defaultKeepAliveTime else defaultExpiredTime
      updatePoller env timeout { conn with http := http.setEvents (arbitrate events) }
    else if http.keepAlive then
      -- `EPOLLIN || EPOLLET` is the truth value 1
      updatePoller env defaultKeepAliveTime
        { conn with http := http.setEvents (events ||| 1#32) }
    else
      let conn := conn.shutdown.handleClose env
      updatePoller env (defaultKeepAliveTime >>> 1)
        { conn with
          http := conn.http.setEvents (conn.http.channel.events ||| (epollIn ||| epollEt)) }
  else if http.isError = false ∧ http.connectionState = .disconnected ∧ events.meets epollOut then
    { conn with http := http.setEvents (epollOut ||| epollEt) }
  else conn.handleClose env

/-- `new_event`. -/
def newEvent (env : Env) (conn : Conn) : Conn :=
  addFdInEpoll env defaultExpiredTime { conn with http := conn.http.setEvents defaultEvent }

end Conn

end FastWebServer
