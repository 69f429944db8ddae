import FastWebServer.Http.Pipelining
import FastWebServer.Http.LineText

/-!
# A connection after a finished request

A connection that has finished a request without an error and with nothing to write, next to a new
one, when both are given the same reads.

`Twin` relates the two: what `handle_read` looks at is the same on both, but for the method and the
version, which `reset` leaves as they were. A request line that is accepted stores both, so from
then on they are the same too (`uriStage_alike`). Every stage keeps the relation (`stages_alike`),
and so does a whole run of calls (`handlerCalls_agree`). A line that is refused stores neither, or
the method alone, so a connection that has refused a line may still hold those of the request before
(`requests_independent`, `staleMethod`).
-/

set_option autoImplicit false

namespace FastWebServer

open Cxx

/-! ## Two results -/

/-- Two results of one function: the same fault, or related values. -/
inductive SameResult {Value : Type} (related : Value → Value → Prop) :
    Except Fault Value → Except Fault Value → Prop where
  | fault (fault : Fault) : SameResult related (.error fault) (.error fault)
  | ok {used fresh : Value} (same : related used fresh) : SameResult related (.ok used) (.ok fresh)

theorem SameResult.imp {Value : Type} {related related' : Value → Value → Prop}
    {used fresh : Except Fault Value} (agree : SameResult related used fresh)
    (weaker : ∀ first second, related first second → related' first second) :
    SameResult related' used fresh := by
  cases agree with
  | fault fault => exact .fault fault
  | ok same => exact .ok (weaker _ _ same)

namespace HttpData

/-- The members that decide what `handle_read` does are the same, but for the method and the
version. -/
structure SameState (used fresh : HttpData) : Prop where
  bufferIn : used.bufferIn = fresh.bufferIn
  bufferOut : used.bufferOut = fresh.bufferOut
  isError : used.isError = fresh.isError
  fileName : used.fileName = fresh.fileName
  readCur : used.readCur = fresh.readCur
  keepAlive : used.keepAlive = fresh.keepAlive
  headers : used.headers = fresh.headers
  connectionState : used.connectionState = fresh.connectionState
  processState : used.processState = fresh.processState
  parseState : used.parseState = fresh.parseState

/-- The method and the version are the same. -/
def SameLine (used fresh : HttpData) : Prop :=
  used.httpMethod = fresh.httpMethod ∧ used.httpVersion = fresh.httpVersion

/-! ## The request line -/

section Line

variable {used fresh : HttpData} {line : Str} {cur : ℕ}

/-- A line is accepted by both or refused by both, and an accepted one has stored the same. A line
that is refused leaves the method and the version the same if they were. -/
structure ReadLine (before : Prop) (used fresh : URIState × HttpData) : Prop where
  answer : used.1 = fresh.1
  decided : used.1 ≠ .again
  state : SameState used.2 fresh.2
  accepted : used.1 = .success → SameLine used.2 fresh.2
  refused : before → SameLine used.2 fresh.2

theorem parseVersion_agree (same : SameState used fresh)
    (method : used.httpMethod = fresh.httpMethod) :
    SameResult (ReadLine (used.httpVersion = fresh.httpVersion)) (used.parseVersion line cur)
      (fresh.parseVersion line cur) := by
  have refused : ReadLine (used.httpVersion = fresh.httpVersion) (.error, used) (.error, fresh) :=
    ⟨rfl, by simp, same, by simp, fun version => ⟨method, version⟩⟩
  have accepted : ∀ version, ReadLine (used.httpVersion = fresh.httpVersion)
      (.success, { used with httpVersion := version })
      (.success, { fresh with httpVersion := version }) := fun version =>
    ⟨rfl, by simp, { same with }, fun _ => ⟨method, rfl⟩, fun _ => ⟨method, rfl⟩⟩
  unfold parseVersion
  dsimp only
  split
  · exact .ok refused
  · split
    · exact .ok refused
    · split
      · exact .fault _
      · split
        · exact .ok (accepted .http10)
        · split
          · exact .ok (accepted .http11)
          · exact .ok refused

theorem parseTarget_agree (same : SameState used fresh)
    (method : used.httpMethod = fresh.httpMethod) :
    SameResult (ReadLine (used.httpVersion = fresh.httpVersion)) (used.parseTarget line cur)
      (fresh.parseTarget line cur) := by
  have named : ∀ fileName cur, SameResult (ReadLine (used.httpVersion = fresh.httpVersion))
      (parseVersion { used with fileName := fileName } line cur)
      (parseVersion { fresh with fileName := fileName } line cur) := by
    intro fileName cur
    have named : SameState { used with fileName := fileName }
        { fresh with fileName := fileName } := { same with fileName := rfl }
    exact parseVersion_agree named method
  unfold parseTarget
  dsimp only
  split
  · exact .ok ⟨rfl, by simp, { same with fileName := rfl }, fun _ => ⟨method, rfl⟩,
      fun _ => ⟨method, rfl⟩⟩
  · split
    · exact .ok ⟨rfl, by simp, same, by simp, fun version => ⟨method, version⟩⟩
    · split
      · exact .fault _
      · exact named _ _

theorem parseRequestLine_agree (same : SameState used fresh) :
    SameResult (ReadLine (SameLine used fresh)) (used.parseRequestLine line)
      (fresh.parseRequestLine line) := by
  have named : ∀ method cur, SameResult (ReadLine (SameLine used fresh))
      (parseTarget { used with httpMethod := method } line cur)
      (parseTarget { fresh with httpMethod := method } line cur) := by
    intro method cur
    have named : SameState { used with httpMethod := method }
        { fresh with httpMethod := method } := { same with }
    refine (parseTarget_agree named rfl).imp fun _ _ read => ?_
    exact ⟨read.answer, read.decided, read.state, read.accepted, fun line => read.refused line.2⟩
  unfold parseRequestLine
  dsimp only
  split
  · exact named .get _
  · split
    · exact named .post _
    · split
      · exact named .head _
      · exact .ok ⟨rfl, by simp, same, by simp, id⟩

/-- **A request line is read alike**, and if it is accepted it stores the same. -/
theorem parseURI_agree (same : SameState used fresh) :
    SameResult (ReadLine (SameLine used fresh)) used.parseURI fresh.parseURI := by
  have taken : ∀ rest line, SameResult (ReadLine (SameLine used fresh))
      (parseRequestLine { used with bufferIn := rest, readCur := fresh.readCur } line)
      (parseRequestLine { fresh with bufferIn := rest } line) := by
    intro rest line
    have taken : SameState { used with bufferIn := rest, readCur := fresh.readCur }
        { fresh with bufferIn := rest } := { same with bufferIn := rfl, readCur := rfl }
    exact (parseRequestLine_agree taken).imp fun _ _ read =>
      ⟨read.answer, read.decided, read.state, read.accepted, read.refused⟩
  unfold parseURI
  rw [same.bufferIn, same.readCur]
  dsimp only
  split
  · rename_i none
    exact absurd none (Nat.not_lt_zero _)
  · split
    · exact taken _ _
    · exact .fault _
    · exact .fault _

end Line

/-! ## The headers and the answer -/

section Request

variable {used fresh : HttpData}

/-- **A header block is read alike.** -/
theorem parseHeaders_agree (same : SameState used fresh) (line : SameLine used fresh) :
    SameResult (fun used fresh => used.1 = fresh.1 ∧ SameState used.2 fresh.2 ∧
      SameLine used.2 fresh.2) used.parseHeaders fresh.parseHeaders := by
  have read : ∀ bufferIn parseState headers,
      SameState { used with bufferIn := bufferIn, parseState := parseState, headers := headers }
        { fresh with bufferIn := bufferIn, parseState := parseState, headers := headers } :=
    fun bufferIn parseState headers =>
      { same with bufferIn := rfl, headers := rfl, parseState := rfl }
  unfold parseHeaders
  rw [same.bufferIn, same.parseState, same.headers]
  split
  · exact .fault _
  · exact .ok ⟨rfl, read _ _ _, line⟩
  · split
    · split
      · exact .fault _
      · exact .ok ⟨rfl, read _ _ _, line⟩
    · split
      · exact .fault _
      · exact .ok ⟨rfl, read _ _ _, line⟩

theorem keepAlive_serveFile (files : FileSystem) (http : HttpData) :
    (http.serveFile files).http.keepAlive = http.keepAlive := by
  unfold serveFile
  split
  · rfl
  · dsimp only
    split
    · rfl
    · split
      · split <;> rfl
      · rfl

theorem keepAlive_noteKeepAlive (http : HttpData) :
    http.noteKeepAlive.keepAlive = if http.wantsKeepAlive then true else http.keepAlive := by
  unfold noteKeepAlive
  split <;> rfl

/-- What the answer leaves in `keep_alive_`. -/
theorem keepAlive_analyzeRequest (files : FileSystem) (http : HttpData) :
    (http.analyzeRequest files).http.keepAlive =
      if http.httpMethod = .post then http.keepAlive else http.noteKeepAlive.keepAlive := by
  unfold analyzeRequest
  cases http.httpMethod with
  | post => rfl
  | get | head =>
      dsimp only
      split
      · rfl
      · split
        · rfl
        · exact keepAlive_serveFile files _

/-- **A request is answered alike.** -/
theorem analyzeRequest_agree (files : FileSystem) (same : SameState used fresh)
    (line : SameLine used fresh) :
    (used.analyzeRequest files).state = (fresh.analyzeRequest files).state ∧
      (used.analyzeRequest files).report = (fresh.analyzeRequest files).report ∧
      SameState (used.analyzeRequest files).http (fresh.analyzeRequest files).http ∧
      SameLine (used.analyzeRequest files).http (fresh.analyzeRequest files).http := by
  have asks : AsksSame fresh used := ⟨line.1, same.fileName, same.headers, same.bufferOut⟩
  have answer := asks.analyzeRequest files
  have noted : used.noteKeepAlive.keepAlive = fresh.noteKeepAlive.keepAlive := by
    rw [keepAlive_noteKeepAlive, keepAlive_noteKeepAlive, wantsKeepAlive, wantsKeepAlive,
      same.headers, same.keepAlive]
  have kept : (used.analyzeRequest files).http.keepAlive =
      (fresh.analyzeRequest files).http.keepAlive := by
    rw [keepAlive_analyzeRequest, keepAlive_analyzeRequest, line.1, same.keepAlive, noted]
  obtain ⟨keepAlive, bufferOut, usedAfter, -⟩ := used.analyzeRequest_eq files
  obtain ⟨keepAlive', bufferOut', freshAfter, -⟩ := fresh.analyzeRequest_eq files
  have out := answer.bufferOut
  refine ⟨answer.state, answer.report, ?_, ?_⟩
  · rw [usedAfter, freshAfter] at kept out ⊢
    exact { same with bufferOut := out, keepAlive := kept }
  · rw [usedAfter, freshAfter]
    exact line

end Request

end HttpData

namespace Conn

/-! ## Two connections -/

/-- A connection that has sent `sent` and done `actions` before, and a new one: what `handle_read`
looks at is the same, and so is what both have sent and done since. The method and the version are
the same while a request is read. -/
structure Twin (sent : Str) (actions : List Action) (used fresh : Conn) : Prop where
  state : used.http.SameState fresh.http
  reads : used.io.reads = fresh.io.reads
  writes : used.io.writes = fresh.io.writes
  files : used.io.files = fresh.io.files
  sent : used.io.sent = sent ++ fresh.io.sent
  actions : used.loop.log.map Prod.snd = actions ++ fresh.loop.log.map Prod.snd
  line : used.http.processState ≠ .parseURI → used.http.SameLine fresh.http
  connected : used.http.isError = false → used.http.connectionState = .connected

namespace Twin

variable {sent : Str} {actions : List Action} {used fresh : Conn}

/-- A change of the requests alone. -/
theorem withHttp (twin : Twin sent actions used fresh) {usedHttp freshHttp : HttpData}
    (state : usedHttp.SameState freshHttp)
    (line : usedHttp.processState ≠ .parseURI → usedHttp.SameLine freshHttp)
    (connected : usedHttp.isError = false → usedHttp.connectionState = .connected) :
    Twin sent actions { used with http := usedHttp } { fresh with http := freshHttp } :=
  ⟨state, twin.reads, twin.writes, twin.files, twin.sent, twin.actions, line, connected⟩

theorem record (twin : Twin sent actions used fresh) (action : Action) :
    Twin sent actions (used.record action) (fresh.record action) := by
  refine { twin with actions := ?_ }
  simp only [Conn.record, Loop.record, List.map_append, twin.actions, List.append_assoc,
    List.map_cons, List.map_nil]

theorem fail (twin : Twin sent actions used fresh) : Twin sent actions used.fail fresh.fail :=
  twin.withHttp { twin.state with isError := rfl } twin.line fun failed => by cases failed

theorem enter (twin : Twin sent actions used fresh) (line : used.http.SameLine fresh.http)
    (processState : ProcessState) :
    Twin sent actions (used.enter processState) (fresh.enter processState) :=
  twin.withHttp { twin.state with processState := rfl } (fun _ => line) twin.connected

theorem handleError (twin : Twin sent actions used fresh) (report : ErrorReport) :
    Twin sent actions (used.handleError report) (fresh.handleError report) := by
  have recorded := twin.record (.handleError report)
  have writes : (used.record (.handleError report)).io.writes =
      (fresh.record (.handleError report)).io.writes := recorded.writes
  refine { recorded with writes := ?_, sent := ?_ }
  · simp only [Conn.handleError, writes]
  · simp only [Conn.handleError, writes, recorded.sent, List.append_assoc]

theorem reportError (twin : Twin sent actions used fresh) (report : Option ErrorReport) :
    Twin sent actions (used.reportError report) (fresh.reportError report) := by
  cases report with
  | none => exact twin
  | some report => exact twin.handleError report

end Twin

/-! ## The stages -/

/-- Twins, with the same method and version. -/
def Paired (sent : Str) (actions : List Action) (used fresh : Conn) : Prop :=
  Twin sent actions used fresh ∧ used.http.SameLine fresh.http

/-- Twins, with the same method and version if they were the same before. -/
def Known (before : Prop) (sent : Str) (actions : List Action) (used fresh : Conn) : Prop :=
  Twin sent actions used fresh ∧ (before → used.http.SameLine fresh.http)

/-- Twins, with the same method and version if they were the same before, or if neither has
failed. -/
def Left (before : Prop) (sent : Str) (actions : List Action) (used fresh : Conn) : Prop :=
  Twin sent actions used fresh ∧
    (before ∨ used.http.isError = false → used.http.SameLine fresh.http)

/-- A stage that goes on or breaks out on both connections, with `goOn` or `leave` between them. -/
def Stage.Alike (stage : Stage) (before goOn leave : Conn → Conn → Prop) : Prop :=
  ∀ used fresh, before used fresh →
    SameResult (fun used fresh => used.1 = fresh.1 ∧ (used.1 = .goOn → goOn used.2 fresh.2) ∧
      (used.1 = .leave → leave used.2 fresh.2)) (stage used) (stage fresh)

theorem alike_before {first second : Stage} {before between goOn leave : Conn → Conn → Prop}
    (earlier : first.Alike before between leave) (later : second.Alike between goOn leave) :
    (first.before second).Alike before goOn leave := by
  intro used fresh related
  have agree := earlier used fresh related
  unfold Stage.before
  generalize first used = usedResult at agree
  generalize first fresh = freshResult at agree
  cases agree with
  | fault fault => exact .fault fault
  | @ok used fresh same =>
      obtain ⟨usedFlow, used⟩ := used
      obtain ⟨freshFlow, fresh⟩ := fresh
      obtain ⟨flow, went, left⟩ := same
      dsimp only at flow went left
      subst flow
      cases usedFlow with
      | leave => exact .ok ⟨rfl, by simp, fun _ => left rfl⟩
      | goOn => exact later used fresh (went rfl)

section Stages

variable {before : Prop} {sent : Str} {actions : List Action}

/-- What follows the call of `readn`. -/
def afterReadn (read : Readn) : Stage := fun conn =>
  let conn : Conn :=
    { conn with
      http := { conn.http with bufferIn := read.buffer }
      io := { conn.io with reads := read.rest } }
  if conn.http.connectionState = .disconnected then
    .ok (.leave, { conn with http := { conn.http with bufferIn := [] } })
  else if toInt (toSize read.ret) < 0 then .ok (.leave, conn.fail.handleError badRequest)
  else if read.zero then
    let conn : Conn :=
      { conn with http := { conn.http with isError := true, connectionState := .disconnected } }
    if toInt (toSize read.ret) = 0 then .ok (.leave, conn) else .ok (.goOn, conn)
  else .ok (.goOn, conn)

theorem readStage_eq (conn : Conn) :
    readStage conn = afterReadn (readn conn.io.reads conn.http.bufferIn) conn := rfl

theorem afterReadn_alike (read : Readn) :
    (afterReadn read).Alike (Known before sent actions) (Known before sent actions)
      (Left before sent actions) := by
  intro used fresh related
  obtain ⟨twin, line⟩ := related
  have failed : ∀ {conn conn' : Conn}, Twin sent actions conn conn' →
      conn.http.isError = true → (before → conn.http.SameLine conn'.http) →
      Left before sent actions conn conn' := by
    intro conn conn' twin failed line
    refine ⟨twin, fun known => known.elim line fun sound => ?_⟩
    rw [failed] at sound
    cases sound
  have arrived : Twin sent actions
      { used with
        http := { used.http with bufferIn := read.buffer }
        io := { used.io with reads := read.rest } }
      { fresh with
        http := { fresh.http with bufferIn := read.buffer }
        io := { fresh.io with reads := read.rest } } :=
    ⟨{ twin.state with bufferIn := rfl }, rfl, twin.writes, twin.files, twin.sent, twin.actions,
      twin.line, twin.connected⟩
  unfold afterReadn
  dsimp only
  by_cases disconnected : fresh.http.connectionState = .disconnected
  · rw [if_pos disconnected, if_pos (twin.state.connectionState.trans disconnected)]
    refine .ok ⟨rfl, by simp, fun _ => failed ?_ ?_ line⟩
    · exact arrived.withHttp { arrived.state with bufferIn := rfl } arrived.line arrived.connected
    · cases sound : used.http.isError with
      | true => rfl
      | false =>
          have connected := twin.connected sound
          rw [twin.state.connectionState, disconnected] at connected
          cases connected
  · rw [if_neg disconnected, if_neg fun gone => disconnected (twin.state.connectionState ▸ gone)]
    split
    · exact .ok ⟨rfl, by simp, fun _ => failed (arrived.fail.handleError _) rfl line⟩
    · split
      · have closed : Twin sent actions
            { used with
              http := { used.http with
                bufferIn := read.buffer, isError := true, connectionState := .disconnected }
              io := { used.io with reads := read.rest } }
            { fresh with
              http := { fresh.http with
                bufferIn := read.buffer, isError := true, connectionState := .disconnected }
              io := { fresh.io with reads := read.rest } } :=
          arrived.withHttp { arrived.state with isError := rfl, connectionState := rfl }
            arrived.line nofun
        split
        · exact .ok ⟨rfl, by simp, fun _ => failed closed rfl line⟩
        · exact .ok ⟨rfl, fun _ => ⟨closed, line⟩, by simp⟩
      · exact .ok ⟨rfl, fun _ => ⟨arrived, line⟩, by simp⟩

theorem readStage_alike :
    readStage.Alike (Known before sent actions) (Known before sent actions)
      (Left before sent actions) := by
  intro used fresh related
  rw [readStage_eq, readStage_eq, related.1.reads, related.1.state.bufferIn]
  exact afterReadn_alike _ used fresh related

theorem uriStage_alike :
    uriStage.Alike (Known before sent actions) (Paired sent actions)
      (Left before sent actions) := by
  intro used fresh related
  obtain ⟨twin, line⟩ := related
  unfold uriStage
  by_cases parses : fresh.http.processState = .parseURI
  · rw [if_pos parses, if_pos (twin.state.processState.trans parses)]
    have agree := HttpData.parseURI_agree twin.state
    generalize usedResult : used.http.parseURI = usedParsed at agree
    generalize freshResult : fresh.http.parseURI = freshParsed at agree
    cases agree with
    | fault fault => exact .fault fault
    | @ok usedParsed freshParsed read =>
        obtain ⟨usedState, usedHttp⟩ := usedParsed
        obtain ⟨freshState, freshHttp⟩ := freshParsed
        obtain ⟨answer, decided, state, accepted, refused⟩ := read
        dsimp only at answer decided state accepted refused
        subst answer
        obtain ⟨_, _, _, _, usedEq⟩ := HttpData.parseURI_eq usedResult
        have failed : ∀ bufferIn, Twin sent actions
            { used with http := { usedHttp with bufferIn := bufferIn, isError := true } }
            { fresh with http := { freshHttp with bufferIn := bufferIn, isError := true } } :=
          fun bufferIn => twin.withHttp { state with bufferIn := rfl, isError := rfl }
            (fun later => by
              rw [usedEq] at later
              exact absurd (twin.state.processState.trans parses) later)
            fun sound => by cases sound
        cases usedState with
        | again => exact absurd rfl decided
        | error =>
            refine .ok ⟨rfl, by simp, fun _ => ⟨(failed []).handleError badRequest, ?_⟩⟩
            exact fun known => known.elim (fun same => refused (line same)) fun sound => by
              cases sound
        | success =>
            have line := accepted rfl
            have read : Twin sent actions { used with http := usedHttp }
                { fresh with http := freshHttp } :=
              twin.withHttp state (fun _ => line) (by rw [usedEq]; exact twin.connected)
            exact .ok ⟨rfl, fun _ => ⟨read.enter line .parseHeaders, line⟩, by simp⟩
  · rw [if_neg parses, if_neg fun again => parses (twin.state.processState ▸ again)]
    refine .ok ⟨rfl, fun _ => ⟨twin, twin.line fun again => ?_⟩, by simp⟩
    exact parses (twin.state.processState ▸ again)

theorem left_of_paired {used fresh : Conn} (paired : Paired sent actions used fresh) :
    Left before sent actions used fresh :=
  ⟨paired.1, fun _ => paired.2⟩

theorem headersStage_alike :
    headersStage.Alike (Paired sent actions) (Paired sent actions) (Left before sent actions) := by
  intro used fresh paired
  obtain ⟨twin, line⟩ := paired
  unfold headersStage
  by_cases parses : fresh.http.processState = .parseHeaders
  · rw [if_pos parses, if_pos (twin.state.processState.trans parses)]
    have agree := HttpData.parseHeaders_agree twin.state line
    generalize usedResult : used.http.parseHeaders = usedParsed at agree
    generalize freshResult : fresh.http.parseHeaders = freshParsed at agree
    cases agree with
    | fault fault => exact .fault fault
    | @ok usedParsed freshParsed read =>
        obtain ⟨usedState, usedHttp⟩ := usedParsed
        obtain ⟨freshState, freshHttp⟩ := freshParsed
        obtain ⟨answer, state, line⟩ := read
        dsimp only at answer state line
        subst answer
        obtain ⟨_, _, _, usedEq⟩ := HttpData.parseHeaders_eq usedResult
        have read : Twin sent actions { used with http := usedHttp }
            { fresh with http := freshHttp } :=
          twin.withHttp state (fun _ => line) (by rw [usedEq]; exact twin.connected)
        cases usedState with
        | again => exact .ok ⟨rfl, by simp, fun _ => left_of_paired ⟨read, line⟩⟩
        | error =>
            have failed := read.fail.handleError badRequest
            exact .ok ⟨rfl, by simp, fun _ => left_of_paired ⟨failed, line⟩⟩
        | success =>
            dsimp only
            rw [line.1]
            split
            · exact .ok ⟨rfl, fun _ => ⟨read.enter line _, line⟩, by simp⟩
            · exact .ok ⟨rfl, fun _ => ⟨read.enter line _, line⟩, by simp⟩
  · rw [if_neg parses, if_neg fun again => parses (twin.state.processState ▸ again)]
    exact .ok ⟨rfl, fun _ => ⟨twin, line⟩, by simp⟩

theorem bodyStage_alike :
    bodyStage.Alike (Paired sent actions) (Paired sent actions) (Left before sent actions) := by
  intro used fresh paired
  obtain ⟨twin, line⟩ := paired
  unfold bodyStage
  rw [twin.state.processState, twin.state.headers, twin.state.bufferIn]
  split
  · split
    · exact .ok ⟨rfl, by simp, fun _ => left_of_paired ⟨twin.fail.handleError _, line⟩⟩
    · split
      · exact .fault _
      · split
        · exact .ok ⟨rfl, by simp, fun _ => left_of_paired ⟨twin, line⟩⟩
        · exact .ok ⟨rfl, fun _ => ⟨twin.enter line _, line⟩, by simp⟩
  · exact .ok ⟨rfl, fun _ => ⟨twin, line⟩, by simp⟩

theorem analysisStage_alike :
    analysisStage.Alike (Paired sent actions) (Left before sent actions)
      (Left before sent actions) := by
  intro used fresh paired
  obtain ⟨twin, line⟩ := paired
  obtain ⟨answer, report, state, same⟩ :=
    HttpData.analyzeRequest_agree fresh.io.files twin.state line
  obtain ⟨_, _, analyzed, -⟩ := used.http.analyzeRequest_eq fresh.io.files
  have answered : Twin sent actions
      { used with http := (used.http.analyzeRequest fresh.io.files).http }
      { fresh with http := (fresh.http.analyzeRequest fresh.io.files).http } :=
    twin.withHttp state (fun _ => same) (by rw [analyzed]; exact twin.connected)
  have reported := answered.reportError (fresh.http.analyzeRequest fresh.io.files).report
  have kept : (reportError (fresh.http.analyzeRequest fresh.io.files).report
        { used with http := (used.http.analyzeRequest fresh.io.files).http }).http.SameLine
      (reportError (fresh.http.analyzeRequest fresh.io.files).report
        { fresh with http := (fresh.http.analyzeRequest fresh.io.files).http }).http := by
    cases (fresh.http.analyzeRequest fresh.io.files).report with
    | none => exact same
    | some report => exact same
  unfold analysisStage
  rw [twin.state.processState, twin.files]
  split
  · dsimp only
    rw [answer, report]
    split
    · exact .ok ⟨rfl, by simp, fun _ => left_of_paired ⟨reported.enter kept _, kept⟩⟩
    · exact .ok ⟨rfl, by simp, fun _ => left_of_paired ⟨reported.fail, kept⟩⟩
  · exact .ok ⟨rfl, by simp, fun _ => left_of_paired ⟨twin, line⟩⟩

/-- **The loop of `handle_read` keeps twins.** -/
theorem stages_alike :
    stages.Alike (Known before sent actions) (Left before sent actions)
      (Left before sent actions) :=
  alike_before readStage_alike <| alike_before uriStage_alike <|
    alike_before headersStage_alike <| alike_before bodyStage_alike analysisStage_alike

end Stages

/-! ## After the loop -/

section Calls

variable {before : Prop} {sent : Str} {actions : List Action} {used fresh : Conn}

theorem handleWrite_line :
    used.handleWrite.http.SameLine fresh.handleWrite.http ↔ used.http.SameLine fresh.http := by
  have kept : ∀ conn : Conn, conn.handleWrite.http.httpMethod = conn.http.httpMethod ∧
      conn.handleWrite.http.httpVersion = conn.http.httpVersion := by
    intro conn
    unfold handleWrite
    split
    · obtain ⟨events, written, -⟩ := afterWriten_eq conn.http
        (FastWebServer.writen conn.io.writes conn.http.bufferOut)
      dsimp only
      rw [written]
      exact ⟨rfl, rfl⟩
    · exact ⟨rfl, rfl⟩
  unfold HttpData.SameLine
  rw [(kept used).1, (kept used).2, (kept fresh).1, (kept fresh).2]

theorem Twin.handleWrite (twin : Twin sent actions used fresh) :
    Twin sent actions used.handleWrite fresh.handleWrite := by
  have recorded := twin.record (.writen fresh.http.bufferOut)
  unfold Conn.handleWrite
  rw [twin.state.isError, twin.state.connectionState, twin.state.bufferOut, twin.writes]
  split
  · obtain ⟨events, usedEq, -⟩ := afterWriten_eq used.http
      (FastWebServer.writen fresh.io.writes fresh.http.bufferOut)
    obtain ⟨events', freshEq, -⟩ := afterWriten_eq fresh.http
      (FastWebServer.writen fresh.io.writes fresh.http.bufferOut)
    dsimp only
    rw [usedEq, freshEq]
    refine ⟨{ twin.state with bufferOut := rfl, isError := ?_ }, twin.reads, rfl, twin.files, ?_,
      recorded.actions, twin.line, fun unfailed => twin.connected ?_⟩
    · dsimp only
      rw [twin.state.isError]
    · dsimp only
      rw [twin.sent, List.append_assoc]
    · exact (Bool.or_eq_false_iff.mp unfailed).2
  · exact twin

theorem Twin.flush (twin : Twin sent actions used fresh) :
    Twin sent actions used.flush fresh.flush := by
  unfold Conn.flush
  rw [twin.state.isError, twin.state.bufferOut]
  split
  · split
    · exact twin.handleWrite
    · exact twin
  · exact twin

theorem sameLine_flush :
    used.flush.http.SameLine fresh.flush.http ↔ used.http.SameLine fresh.http := by
  obtain ⟨_, _, _, _, _, usedEq, -⟩ := flush_eq used
  obtain ⟨_, _, _, _, _, freshEq, -⟩ := flush_eq fresh
  rw [usedEq, freshEq]
  rfl

theorem flush_unfailed (unfailed : used.flush.http.isError = false) :
    used.http.isError = false := by
  obtain ⟨_, _, _, _, _, flushed, -, sound, -⟩ := flush_eq used
  rw [flushed] at unfailed
  exact sound unfailed

theorem exists_reset (conn : Conn) :
    ∃ timer timers, conn.reset =
      { http := { cleared conn.http with timer := timer }
        io := conn.io
        loop :=
          { (conn.record (.clearInput conn.http.bufferIn)).loop with timers := timers } } := by
  unfold reset seperateTimer
  dsimp only
  split
  · exact ⟨conn.http.timer, conn.loop.timers, rfl⟩
  · exact ⟨none, _, rfl⟩

/-- `reset` clears what is read again, and leaves the output and the error alone. -/
theorem Twin.reset (twin : Twin sent actions used fresh) :
    Twin sent actions used.reset fresh.reset := by
  have recorded := twin.record (.clearInput fresh.http.bufferIn)
  obtain ⟨_, _, usedEq⟩ := exists_reset used
  obtain ⟨_, _, freshEq⟩ := exists_reset fresh
  rw [usedEq, freshEq, twin.state.bufferIn]
  exact ⟨⟨rfl, twin.state.bufferOut, twin.state.isError, rfl, rfl, rfl, rfl,
    twin.state.connectionState, rfl, rfl⟩, twin.reads, twin.writes, twin.files, twin.sent,
    recorded.actions, fun later => absurd rfl later, twin.connected⟩

theorem sameLine_reset :
    used.reset.http.SameLine fresh.reset.http ↔ used.http.SameLine fresh.http := by
  obtain ⟨_, _, usedEq⟩ := exists_reset used
  obtain ⟨_, _, freshEq⟩ := exists_reset fresh
  rw [usedEq, freshEq]
  rfl

/-- **The end of `handle_read` keeps twins.** -/
theorem finishRead_left (left : Left before sent actions used fresh) :
    Left before sent actions used.finishRead fresh.finishRead := by
  obtain ⟨twin, line⟩ := left
  have flushed := twin.flush
  have kept : before ∨ used.flush.http.isError = false →
      used.flush.http.SameLine fresh.flush.http := fun known =>
    sameLine_flush.mpr (line (known.imp id flush_unfailed))
  unfold finishRead
  rw [flushed.state.isError, flushed.state.processState]
  split
  · rename_i finished
    have unfailed := flushed.state.isError.trans finished.1
    exact ⟨flushed.reset, fun _ => sameLine_reset.mpr (kept (.inr unfailed))⟩
  · unfold awaitInput
    rw [flushed.state.isError, flushed.state.connectionState]
    split
    · exact ⟨{ flushed with state := { flushed.state with } }, kept⟩
    · exact ⟨flushed, kept⟩

/-- **`handle_read` keeps twins**, and afterwards they have the same method and version if they had
before, or if neither has failed. -/
theorem handleRead_agree (twin : Twin sent actions used fresh)
    (line : before → used.http.SameLine fresh.http) :
    SameResult (Left before sent actions) used.handleRead fresh.handleRead := by
  have agree := stages_alike used fresh ⟨twin, line⟩
  rw [handleRead_eq, handleRead_eq]
  generalize stages used = usedResult at agree
  generalize stages fresh = freshResult at agree
  cases agree with
  | fault fault => exact .fault fault
  | @ok usedAfter freshAfter same =>
      obtain ⟨flow, went, leave⟩ := same
      have left : Left before sent actions usedAfter.2 freshAfter.2 := by
        cases answer : usedAfter.1 with
        | goOn => exact went answer
        | leave => exact leave answer
      exact .ok (finishRead_left left)

end Calls

/-! ## Runs of calls -/

/-- A call for a connection, with the system calls it is given. -/
inductive HandlerCall where
  | handleRead (reads : List ReadResult) (writes : List WriteResult) (files : FileSystem)
  | handleWrite (writes : List WriteResult)

/-- What a call does. -/
def HandlerCall.run : HandlerCall → Conn → Except Fault Conn
  | .handleRead reads writes files, conn =>
      Conn.handleRead { conn with io := ⟨reads, writes, files, conn.io.sent⟩ }
  | .handleWrite writes, conn =>
      .ok (Conn.handleWrite { conn with io := { conn.io with writes := writes } })

/-- One call after the other. -/
def handlerCalls : List HandlerCall → Conn → Except Fault Conn
  | [], conn => .ok conn
  | call :: calls, conn =>
      match call.run conn with
      | .error fault => .error fault
      | .ok conn => handlerCalls calls conn

theorem HandlerCall.run_handleRead {reads : List ReadResult} {writes : List WriteResult}
    {files : FileSystem} {conn after : Conn} {flow : Flow}
    (looped : stages { conn with io := ⟨reads, writes, files, conn.io.sent⟩ } =
      .ok (flow, after)) :
    (HandlerCall.handleRead reads writes files).run conn = .ok after.finishRead := by
  simp only [HandlerCall.run, handleRead_eq, looped, Except.map]

theorem handlerCalls_append (earlier later : List HandlerCall) (conn : Conn) :
    handlerCalls (earlier ++ later) conn =
      match handlerCalls earlier conn with
      | .error fault => .error fault
      | .ok conn => handlerCalls later conn := by
  induction earlier generalizing conn with
  | nil => rfl
  | cons call earlier ih =>
      simp only [List.cons_append, handlerCalls]
      cases call.run conn with
      | error fault => rfl
      | ok conn => exact ih conn

section Runs

variable {before : Prop} {sent : Str} {actions : List Action} {used fresh : Conn}

/-- A call of `handle_read` that leaves a connection without an error, or past the request line, has
stored the method and the version. -/
theorem handleRead_line {reads : List ReadResult} {writes : List WriteResult} {files : FileSystem}
    {usedAfter freshAfter : Conn} (twin : Twin sent actions used fresh)
    (ranUsed : (HandlerCall.handleRead reads writes files).run used = .ok usedAfter)
    (ranFresh : (HandlerCall.handleRead reads writes files).run fresh = .ok freshAfter)
    (accepted : freshAfter.http.isError = false ∨ freshAfter.http.processState ≠ .parseURI) :
    Known True sent actions usedAfter freshAfter := by
  have offered : Twin sent actions { used with io := ⟨reads, writes, files, used.io.sent⟩ }
      { fresh with io := ⟨reads, writes, files, fresh.io.sent⟩ } :=
    { twin with reads := rfl, writes := rfl, files := rfl }
  have agree := handleRead_agree offered (fun impossible : False => impossible.elim)
  simp only [HandlerCall.run] at ranUsed ranFresh
  rw [ranUsed, ranFresh] at agree
  cases agree with
  | ok left =>
      refine ⟨left.1, fun _ => ?_⟩
      rcases accepted with unfailed | later
      · exact left.2 (.inr (left.1.state.isError.trans unfailed))
      · exact left.1.line fun again => later (left.1.state.processState ▸ again)

theorem call_agree (call : HandlerCall) (known : Known before sent actions used fresh) :
    SameResult (Known before sent actions) (call.run used) (call.run fresh) := by
  obtain ⟨twin, line⟩ := known
  cases call with
  | handleRead reads writes files =>
      have offered : Twin sent actions { used with io := ⟨reads, writes, files, used.io.sent⟩ }
          { fresh with io := ⟨reads, writes, files, fresh.io.sent⟩ } :=
        { twin with reads := rfl, writes := rfl, files := rfl }
      exact (handleRead_agree offered line).imp fun _ _ left =>
        ⟨left.1, fun known => left.2 (.inl known)⟩
  | handleWrite writes =>
      have offered : Twin sent actions { used with io := { used.io with writes := writes } }
          { fresh with io := { fresh.io with writes := writes } } := { twin with writes := rfl }
      exact .ok ⟨offered.handleWrite, fun known => handleWrite_line.mpr (line known)⟩

/-- **A run of calls keeps twins.** -/
theorem handlerCalls_agree (calls : List HandlerCall)
    (known : Known before sent actions used fresh) :
    SameResult (Known before sent actions) (handlerCalls calls used)
      (handlerCalls calls fresh) := by
  induction calls generalizing used fresh with
  | nil => exact .ok known
  | cons call calls ih =>
      have agree := call_agree call known
      unfold handlerCalls
      generalize call.run used = usedResult at agree
      generalize call.run fresh = freshResult at agree
      cases agree with
      | fault fault => exact .fault fault
      | ok known => exact ih known

end Runs

/-! ## A finished request -/

/-- A history of `start` that ends in `used`: some calls, a call of `handle_read` that finishes a
request without an error, and the calls of `handle_write` until everything is written. -/
structure Completion (start used : Conn) where
  history : List HandlerCall
  reached : Conn
  ran : handlerCalls history start = .ok reached
  reads : List ReadResult
  writes : List WriteResult
  files : FileSystem
  flow : Flow
  done : Conn
  read : stages { reached with io := ⟨reads, writes, files, reached.io.sent⟩ } = .ok (flow, done)
  finished : done.flush.http.processState = .finish
  unfailed : done.flush.http.isError = false
  flushes : List (List WriteResult)
  flushed : handlerCalls (flushes.map .handleWrite) done.flush.reset = .ok used
  sound : used.http.isError = false
  written : used.http.bufferOut = []

/-- A new connection, whose socket answers as that of `used`. -/
def renewed (fd : Fd) (used : Conn) : Conn :=
  { http := HttpData.new fd
    io := { used.io with sent := [] }
    loop := Loop.new }

/-- A connection that is connected unless it has failed is its own twin, so a run of calls keeps
it that way. -/
theorem twin_self {conn : Conn}
    (connected : conn.http.isError = false → conn.http.connectionState = .connected) :
    Twin [] [] conn conn :=
  ⟨⟨rfl, rfl, rfl, rfl, rfl, rfl, rfl, rfl, rfl, rfl⟩, rfl, rfl, rfl, rfl, rfl,
    fun _ => ⟨rfl, rfl⟩, connected⟩

theorem handlerCalls_connected {calls : List HandlerCall} {conn after : Conn}
    (connected : conn.http.isError = false → conn.http.connectionState = .connected)
    (ran : handlerCalls calls conn = .ok after) :
    after.http.isError = false → after.http.connectionState = .connected := by
  have agree := handlerCalls_agree calls
    (⟨twin_self connected, fun impossible => impossible.elim⟩ : Known False [] [] conn conn)
  rw [ran] at agree
  cases agree with
  | ok known => exact known.1.connected

/-- What `reset` clears stays cleared while the output is written. -/
structure AtRest (http : HttpData) : Prop where
  bufferIn : http.bufferIn = []
  fileName : http.fileName = []
  readCur : http.readCur = 0
  keepAlive : http.keepAlive = false
  headers : http.headers = HeaderMap.empty
  processState : http.processState = .parseURI
  parseState : http.parseState = .start

theorem atRest_flushes (flushes : List (List WriteResult)) {conn after : Conn}
    (rest : AtRest conn.http)
    (ran : handlerCalls (flushes.map .handleWrite) conn = .ok after) : AtRest after.http := by
  induction flushes generalizing conn with
  | nil =>
      cases ran
      exact rest
  | cons writes flushes ih =>
      refine ih ?_ ran
      unfold handleWrite
      split
      · obtain ⟨events, written, -⟩ := afterWriten_eq conn.http
          (FastWebServer.writen writes conn.http.bufferOut)
        dsimp only
        rw [written]
        exact ⟨rest.bufferIn, rest.fileName, rest.readCur, rest.keepAlive, rest.headers,
          rest.processState, rest.parseState⟩
      · exact rest

/-- **A finished request leaves a twin of a new connection.** -/
theorem Completion.twin {fd fd' : Fd} {io : Io} {loop : Loop} {used : Conn}
    (completion : Completion ⟨HttpData.new fd, io, loop⟩ used) :
    Twin used.io.sent (used.loop.log.map Prod.snd) used (renewed fd' used) := by
  have started := handlerCalls_connected (fun _ => rfl) completion.ran
  have call : handlerCalls [.handleRead completion.reads completion.writes completion.files]
      completion.reached = .ok completion.done.flush.reset := by
    rw [handlerCalls, HandlerCall.run_handleRead completion.read, finishRead,
      if_pos ⟨completion.unfailed, completion.finished⟩]
    rfl
  have connected := handlerCalls_connected (handlerCalls_connected started call) completion.flushed
  have reset : AtRest completion.done.flush.reset.http := by
    obtain ⟨_, _, cleared⟩ := exists_reset completion.done.flush
    rw [cleared]
    exact ⟨rfl, rfl, rfl, rfl, rfl, rfl, rfl⟩
  have rest := atRest_flushes _ reset completion.flushed
  exact ⟨⟨rest.bufferIn, completion.written, completion.sound, rest.fileName, rest.readCur,
    rest.keepAlive, rest.headers, connected completion.sound, rest.processState,
    rest.parseState⟩, rfl, rfl, rfl, (List.append_nil _).symm, (List.append_nil _).symm,
    fun later => absurd rest.processState later, connected⟩

/-- **Requests do not influence later ones.** A connection that has finished a request without an
error, and has written everything, does in every run of calls what a new connection does: it faults
alike, or has the same input, output, file name, fields, flags and states, has sent the same bytes
and done the same. From the first call on that leaves it without an error, or past the request line,
it has the same method and version. -/
theorem requests_independent {fd fd' : Fd} {io : Io} {loop : Loop} {used : Conn}
    (completion : Completion ⟨HttpData.new fd, io, loop⟩ used) :
    (∀ calls, SameResult (Twin used.io.sent (used.loop.log.map Prod.snd))
      (handlerCalls calls used) (handlerCalls calls (renewed fd' used))) ∧
    ∀ earlier reads writes files later between,
      handlerCalls (earlier ++ [.handleRead reads writes files]) (renewed fd' used) =
        .ok between →
      between.http.isError = false ∨ between.http.processState ≠ .parseURI →
      SameResult (fun used fresh => used.http.SameLine fresh.http)
        (handlerCalls (earlier ++ .handleRead reads writes files :: later) used)
        (handlerCalls (earlier ++ .handleRead reads writes files :: later) (renewed fd' used)) := by
  have known : Known False used.io.sent (used.loop.log.map Prod.snd) used (renewed fd' used) :=
    ⟨completion.twin, fun impossible => impossible.elim⟩
  refine ⟨fun calls => (handlerCalls_agree calls known).imp fun _ _ known => known.1, ?_⟩
  intro earlier reads writes files later between ran accepted
  have agree := handlerCalls_agree (earlier ++ [.handleRead reads writes files]) known
  have start := handlerCalls_agree earlier known
  rw [List.append_cons, handlerCalls_append, handlerCalls_append _ later]
  rw [ran] at agree ⊢
  generalize usedRan : handlerCalls (earlier ++ [.handleRead reads writes files]) used = usedResult
    at agree ⊢
  cases agree with
  | @ok usedBetween _ _ =>
      rw [handlerCalls_append] at usedRan ran
      generalize handlerCalls earlier used = usedResult at start usedRan
      generalize handlerCalls earlier (renewed fd' used) = freshResult at start ran
      cases start with
      | fault fault => cases ran
      | @ok usedStart freshStart known =>
          have single : ∀ {conn after : Conn} {call : HandlerCall},
              handlerCalls [call] conn = .ok after → call.run conn = .ok after := by
            intro conn after call ran
            unfold handlerCalls at ran
            split at ran
            · cases ran
            · rename_i called
              exact called.trans ran
          have line := handleRead_line known.1 (single usedRan) (single ran) accepted
          exact (handlerCalls_agree later line).imp fun _ _ known => known.2 trivial

/-! ## A line that is refused -/

/-- A connection that is given the headers of the fixed text. -/
def headRequested : Conn :=
  { http := HttpData.new 5
    io := Io.packet "HEAD /hello HTTP/1.0\r\nA: b\r\n\r\n".toList
    loop := Loop.new }

/-- A line that names no method. -/
def unnamedLine : Io := Io.packet "XYZ\r".toList

/-- The headers are sent, and after a line that is refused the method is still that of the request
before. A new connection has the one that its constructor stores. -/
theorem headRequested_read :
    ∃ done, stages headRequested = .ok (.leave, done) ∧
      done.flush.http.processState = .finish ∧ done.flush.http.isError = false ∧
      done.flush.http.bufferOut = [] ∧
      (∃ flow after, stages { done.flush.reset with
          io := { unnamedLine with sent := done.flush.reset.io.sent } } = .ok (flow, after) ∧
        after.finishRead.http.httpMethod = .head) ∧
      ∃ flow after, stages { renewed 5 done.flush.reset with io := unnamedLine } =
        .ok (flow, after) ∧ after.finishRead.http.httpMethod = .get :=
  ⟨_, rfl, rfl, rfl, rfl, ⟨_, _, rfl, rfl⟩, ⟨_, _, rfl, rfl⟩⟩

/-- A request that is finished leaves its method to the next one. -/
theorem headCompleted :
    ∃ used, Nonempty (Completion ⟨HttpData.new 5, Io.unused, Loop.new⟩ used) ∧
      (∃ after, (HandlerCall.handleRead unnamedLine.reads [] Io.unused.files).run used =
        .ok after ∧ after.http.httpMethod = .head) ∧
      ∃ after, (HandlerCall.handleRead unnamedLine.reads [] Io.unused.files).run
        (renewed 5 used) = .ok after ∧ after.http.httpMethod = .get := by
  obtain ⟨done, read, finished, unfailed, written, ⟨_, after, looped, head⟩, _, fresh, looped',
    get⟩ := headRequested_read
  obtain ⟨_, _, cleared⟩ := exists_reset done.flush
  refine ⟨done.flush.reset, ⟨?_⟩, ⟨_, HandlerCall.run_handleRead looped, head⟩,
    ⟨_, HandlerCall.run_handleRead looped', get⟩⟩
  exact
    { history := []
      reached := ⟨HttpData.new 5, Io.unused, Loop.new⟩
      ran := rfl
      reads := headRequested.io.reads
      writes := []
      files := Io.unused.files
      flow := .leave
      done := done
      read := read
      finished := finished
      unfailed := unfailed
      flushes := []
      flushed := rfl
      sound := by rw [cleared]; exact unfailed
      written := by rw [cleared]; exact written }

/-- **The method and the version outlive a request**: a line that is refused leaves those of the
request before. -/
theorem staleMethod :
    ¬ ∀ (used : Conn), Nonempty (Completion ⟨HttpData.new 5, Io.unused, Loop.new⟩ used) →
      ∀ calls, SameResult (fun used fresh => used.http.SameLine fresh.http)
        (handlerCalls calls used) (handlerCalls calls (renewed 5 used)) := by
  intro independent
  obtain ⟨used, completion, ⟨after, ranUsed, head⟩, fresh, ranFresh, get⟩ := headCompleted
  have agree := independent used completion [.handleRead unnamedLine.reads [] Io.unused.files]
  simp only [handlerCalls, ranUsed, ranFresh] at agree
  cases agree with
  | ok same =>
      have method := same.1
      rw [head, get] at method
      cases method

/-- The fixed text is asked for after the headers alone. -/
theorem headCompleted_independent :
    ∃ used, SameResult (fun used fresh => used.http.SameLine fresh.http)
      (handlerCalls [.handleRead [.data helloRequest] [] Io.unused.files] used)
      (handlerCalls [.handleRead [.data helloRequest] [] Io.unused.files] (renewed 5 used)) := by
  obtain ⟨used, ⟨completion⟩, -⟩ := headCompleted
  obtain ⟨flow, after, looped, unfailed⟩ : ∃ flow after,
      stages (arriving [helloRequest]) = .ok (flow, after) ∧
        after.finishRead.http.isError = false := ⟨_, _, rfl, rfl⟩
  have ran : handlerCalls [.handleRead [.data helloRequest] [] Io.unused.files] (renewed 5 used) =
      .ok after.finishRead := by
    rw [handlerCalls, HandlerCall.run_handleRead looped]
    rfl
  exact ⟨used, (requests_independent completion).2 [] _ _ _ [] _ ran (.inl unfailed)⟩

end Conn

end FastWebServer
