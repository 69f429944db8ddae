import FastWebServer.PendingOutput
import FastWebServer.Http.ResponseFraming

/-!
# One response per request

A call of `handle_read` may wait for more of a request (`Waits`), answer it
(`Answers`) or refuse it (`Refuses`). A request whose header block is complete has
to get one of the last two, or to wait for its body.

It does so exactly when it is `Servable`. A `POST` ends without any response once its
body has arrived, since `analyze_request` answers `ANALYSIS_ERROR` and leaves the call
of `handle_error` to nobody; with a length that is no number it ends the program. A
`HEAD` of a file succeeds with nothing added, as does a `GET` of an empty mapping. And
the fixed text is assigned to `buffer_out_`, so that it replaces what is pending.

`oneResponse_iff` says this of every call in every run from an accepted connection.
-/

set_option autoImplicit false

namespace FastWebServer

open Cxx

/-! ## How a call ends -/

/-- The report of a call of `handle_error`. -/
def Action.report : Action → Option ErrorReport
  | .handleError report => some report
  | _ => none

namespace Conn

/-- The calls of `handle_error` between two states of a connection. -/
def reportsSince (before after : Conn) : List ErrorReport :=
  (loggedSince before after).filterMap Action.report

/-- The request is not complete, and nothing has been done about it. -/
structure Waits (before after : Conn) : Prop where
  unfailed : after.http.isError = false
  unfinished : after.http.processState ≠ .finish
  unreported : reportsSince before after = []
  bufferOut : after.http.bufferOut = before.http.bufferOut

/-- The request has been answered with a response that is not empty. -/
structure Answers (before after : Conn) : Prop where
  unfailed : after.http.isError = false
  finished : after.http.processState = .finish
  unreported : reportsSince before after = []
  response : ∃ response, response ≠ [] ∧
    after.http.bufferOut = before.http.bufferOut ++ response

/-- The request has been refused by one call of `handle_error`, with nothing added to
the output. -/
structure Refuses (before after : Conn) : Prop where
  failed : after.http.isError = true
  reported : ∃ report, reportsSince before after = [report]
  bufferOut : after.http.bufferOut <:+ before.http.bufferOut

/-- One of the three. -/
def Settles (before after : Conn) : Prop :=
  Waits before after ∨ Answers before after ∨ Refuses before after

/-- Nothing has been done about the request yet. -/
structure Unanswered (before after : Conn) : Prop where
  unfailed : after.http.isError = false
  bufferOut : after.http.bufferOut = before.http.bufferOut
  loop : after.loop = before.loop
  files : after.io.files = before.io.files

variable {conn first second third : Conn}

theorem Unanswered.trans (earlier : Unanswered first second) (later : Unanswered second third) :
    Unanswered first third :=
  ⟨later.unfailed, later.bufferOut.trans earlier.bufferOut, later.loop.trans earlier.loop,
    later.files.trans earlier.files⟩

theorem reportsSince_congr (loop : second.loop = first.loop) :
    reportsSince second third = reportsSince first third := by
  simp only [reportsSince, loggedSince, loop]

theorem reportsSince_of_loop (loop : second.loop = first.loop) :
    reportsSince first second = [] := by
  simp [reportsSince, loggedSince, loop]

/-- A call of `handle_error` is reported once. -/
theorem reportsSince_handleError (report : ErrorReport) (loop : second.loop = first.loop) :
    reportsSince first (second.handleError report) = [report] := by
  have logged : (second.handleError report).loop.log =
      first.loop.log ++ [(second.http.fd, .handleError report)] := by
    rw [← loop]
    rfl
  simp [reportsSince, loggedSince, logged, Action.report]

theorem Unanswered.waits (unanswered : Unanswered first second)
    (unfinished : second.http.processState ≠ .finish) : Waits first second :=
  ⟨unanswered.unfailed, unfinished, reportsSince_of_loop unanswered.loop, unanswered.bufferOut⟩

/-- A failure that is reported refuses the request. -/
theorem Unanswered.refuses (unanswered : Unanswered first second) (report : ErrorReport) :
    Refuses first (second.fail.handleError report) :=
  ⟨rfl, ⟨report, reportsSince_handleError report unanswered.loop⟩,
    unanswered.bufferOut ▸ List.suffix_rfl⟩

/-- A request between two calls: not complete. -/
def Between (http : HttpData) : Prop :=
  http.processState = .parseURI ∨ http.processState = .parseHeaders ∨
    (http.processState = .recvBody ∧ http.httpMethod = .post)

/-- A request whose header block is complete. -/
def Complete (http : HttpData) : Prop :=
  (http.processState = .recvBody ∧ http.httpMethod = .post) ∨
    (http.processState = .analysis ∧ http.httpMethod ≠ .post)

theorem Between.unfinished {http : HttpData} (between : Between http) :
    http.processState ≠ .finish := by
  rcases between with uri | headers | ⟨body, -⟩
  · simp [uri]
  · simp [headers]
  · simp [body]

/-- How a stage before the body ends, on a request that is left `ready` for the next
stage if it goes on. -/
def Proceeds (ready : HttpData → Prop) (before : Conn) (flow : Flow) (after : Conn) : Prop :=
  (flow = .goOn ∧ Unanswered before after ∧ ready after.http) ∨
    (flow = .leave ∧ (Unanswered before after ∧ Between after.http ∨ Refuses before after))

/-- A stage that has gone on, and the stages after it. -/
theorem Stage.before_ok {first second : Stage} {after : Conn} {flow : Flow}
    (ran : first.before second conn = .ok (flow, after)) :
    (flow = .leave ∧ first conn = .ok (.leave, after)) ∨
      ∃ middle, first conn = .ok (.goOn, middle) ∧ second middle = .ok (flow, after) := by
  unfold Stage.before at ran
  split at ran
  · cases ran
  · rename_i left
    cases ran
    exact .inl ⟨rfl, left⟩
  · rename_i middle gone
    exact .inr ⟨middle, gone, ran⟩

theorem Proceeds.trans {ready : HttpData → Prop} {middle after : Conn} {flow : Flow}
    (unanswered : Unanswered conn middle) (later : Proceeds ready middle flow after) :
    Proceeds ready conn flow after := by
  rcases later with ⟨goOn, still, ready⟩ | ⟨leave, ⟨still, between⟩ | refuses⟩
  · exact .inl ⟨goOn, unanswered.trans still, ready⟩
  · exact .inr ⟨leave, .inl ⟨unanswered.trans still, between⟩⟩
  · refine .inr ⟨leave, .inr ⟨refuses.failed, ?_, unanswered.bufferOut ▸ refuses.bufferOut⟩⟩
    rw [← reportsSince_congr unanswered.loop]
    exact refuses.reported

/-- After `STATE_PARSE_URI` the header block is next, or a body. -/
def PastURI (http : HttpData) : Prop :=
  http.processState = .parseHeaders ∨ (http.processState = .recvBody ∧ http.httpMethod = .post)

theorem uriStage_proceeds {after : Conn} {flow : Flow} (unfailed : conn.http.isError = false)
    (between : Between conn.http) (ran : uriStage conn = .ok (flow, after)) :
    Proceeds PastURI conn flow after := by
  unfold uriStage at ran
  split at ran
  · rename_i stands
    cases parsed : conn.http.parseURI with
    | error fault => simp [parsed] at ran
    | ok result =>
        obtain ⟨state, http⟩ := result
        obtain ⟨bufferIn, method, fileName, version, rfl⟩ := HttpData.parseURI_eq parsed
        rw [parsed] at ran
        cases state with
        | again =>
            cases ran
            exact .inr ⟨rfl, .inl ⟨⟨unfailed, rfl, rfl, rfl⟩, .inl stands⟩⟩
        | error =>
            cases ran
            refine .inr ⟨rfl, .inr (Unanswered.refuses ?_ badRequest)⟩
            exact ⟨unfailed, rfl, rfl, rfl⟩
        | success =>
            cases ran
            exact .inl ⟨rfl, ⟨unfailed, rfl, rfl, rfl⟩, .inl rfl⟩
  · rename_i past
    cases ran
    exact .inl ⟨rfl, ⟨unfailed, rfl, rfl, rfl⟩, between.resolve_left past⟩

theorem headersStage_proceeds {after : Conn} {flow : Flow} (unfailed : conn.http.isError = false)
    (past : PastURI conn.http) (ran : headersStage conn = .ok (flow, after)) :
    Proceeds Complete conn flow after := by
  unfold headersStage at ran
  split at ran
  · rename_i stands
    cases parsed : conn.http.parseHeaders with
    | error fault => simp [parsed] at ran
    | ok result =>
        obtain ⟨state, http⟩ := result
        obtain ⟨bufferIn, parseState, headers, rfl⟩ := HttpData.parseHeaders_eq parsed
        rw [parsed] at ran
        cases state with
        | again =>
            cases ran
            exact .inr ⟨rfl, .inl ⟨⟨unfailed, rfl, rfl, rfl⟩, .inr (.inl stands)⟩⟩
        | error =>
            cases ran
            refine .inr ⟨rfl, .inr (Unanswered.refuses ?_ badRequest)⟩
            exact ⟨unfailed, rfl, rfl, rfl⟩
        | success =>
            dsimp only at ran
            split at ran
            · rename_i post
              cases ran
              exact .inl ⟨rfl, ⟨unfailed, rfl, rfl, rfl⟩, .inl ⟨rfl, post⟩⟩
            · rename_i other
              cases ran
              exact .inl ⟨rfl, ⟨unfailed, rfl, rfl, rfl⟩, .inr ⟨rfl, other⟩⟩
  · rename_i body
    cases ran
    exact .inl ⟨rfl, ⟨unfailed, rfl, rfl, rfl⟩, .inl (past.resolve_left body)⟩

/-- `STATE_PARSE_URI` and `STATE_PARSE_HEADERS`. -/
def parsing : Stage := uriStage.before headersStage

/-- The stages up to the end of the header block. -/
def front : Stage := readStage.before parsing

/-- The stages after it. -/
def back : Stage := bodyStage.before analysisStage

theorem Stage.before_assoc (first second third : Stage) :
    (first.before second).before third = first.before (second.before third) := by
  funext conn
  unfold Stage.before
  cases first conn with
  | error fault => rfl
  | ok result =>
      obtain ⟨flow, middle⟩ := result
      cases flow <;> rfl

theorem stages_eq : stages = front.before back := by
  rw [stages, front, back, parsing, Stage.before_assoc, Stage.before_assoc]

/-- A complete request that gets one response: a `POST` without a length or with a
body to wait for; the fixed text when the output can be continued to it; a `HEAD` of
a name that is not found; a `GET` that maps no empty file. -/
structure Servable (conn : Conn) : Prop where
  post : conn.http.httpMethod = .post →
    ∀ value, conn.http.headers "Content-length".toList = some value →
      ∃ length, stoi value = .ok length ∧ conn.http.bufferIn.length < toSize length
  hello : conn.http.httpMethod ≠ .post → conn.http.fileName = "hello".toList →
    conn.http.bufferOut <+: HttpData.helloResponse ∧ conn.http.bufferOut ≠ HttpData.helloResponse
  head : conn.http.httpMethod = .head → ¬ builtIn conn.http.fileName →
    conn.io.files.stat (cStr conn.http.fileName) = none
  get : conn.http.httpMethod = .get → ¬ builtIn conn.http.fileName →
    conn.io.files.stat (cStr conn.http.fileName) = some 0 →
    conn.io.files.openRead (cStr conn.http.fileName) = true →
    conn.io.files.mmap (cStr conn.http.fileName) 0 = none

/-- A request that has not failed is incomplete. -/
def Sound (http : HttpData) : Prop := http.isError = false → Between http

/-- The two states of a connection are at the same point of the same request. -/
structure SameRequest (before after : HttpData) : Prop where
  isError : after.isError = before.isError
  processState : after.processState = before.processState
  httpMethod : after.httpMethod = before.httpMethod

theorem SameRequest.sound {before after : HttpData} (same : SameRequest before after)
    (sound : Sound before) : Sound after := by
  intro unfailed
  have between := sound (same.isError ▸ unfailed)
  unfold Between at between ⊢
  rwa [same.processState, same.httpMethod]

/-- A call in a run: the connection before an event, and the event. -/
structure Call where
  before : Conn
  event : Event

/-- The events of a run as they are handled. A run ends with the event in which the
program throws or has no defined behaviour. -/
def calls (env : Env) : Conn → List Event → List Call
  | _, [] => []
  | conn, event :: events =>
      ⟨conn, event⟩ ::
        match (conn.deliver event).handleEvents env with
        | .error _ => []
        | .ok after => calls env after events

namespace Call

/-- The connection as `handle_read` is entered. -/
def entered (call : Call) : Conn := (call.before.deliver call.event).storeEvents 0#32

/-- A header block that is complete is that of a servable request. -/
def Serves (call : Call) : Prop :=
  ∀ ready, front call.entered = .ok (.goOn, ready) → Servable ready

end Call

end Conn

end FastWebServer
