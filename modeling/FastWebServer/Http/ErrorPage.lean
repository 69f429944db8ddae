import FastWebServer.Http.OneResponse
import FastWebServer.Http.Pipelining
import FastWebServer.Ownership

/-!
# What an event sends

`handle_error` writes a header and then a page. Together they are a well-formed response, whose
`Content-Length` is that of the page (`ErrorReport.response_render`).

The loop thread sends something for a connection only in an event, and only in one of two ways
(`World.dispatch_sends`). Either one `handle_write` hands the pending output to the kernel, or one
request is refused with one of three reports. A refusal sends as much of the header and of the
page as the kernel takes, the whole response if it keeps taking, and the event that refuses the
request also closes the connection, for which nothing is sent again.
-/

set_option autoImplicit false

namespace FastWebServer

open Cxx

/-! ## The page as a response -/

theorem OneLine.append {first second : Str} (before : OneLine first) (after : OneLine second) :
    OneLine (first ++ second) := by
  simp only [OneLine, List.mem_append, not_or]
  exact ⟨⟨before.1, after.1⟩, before.2, after.2⟩

theorem oneLine_decimal (n : ℕ) : OneLine (decimal n) := by
  have digits : ∀ c ∈ decimal n, c.isDigit = true := fun c member =>
    Nat.isDigit_of_mem_toDigits (by decide) le_rfl (by simpa [decimal, Nat.repr] using member)
  refine ⟨fun member => ?_, fun member => ?_⟩
  · simpa using digits _ member
  · simpa using digits _ member

namespace ErrorReport

/-- The status line of `header_buffer`. -/
def statusLine (report : ErrorReport) : Str :=
  "HTTP/1.1 ".toList ++ decimal report.code ++ " ".toList ++ report.message

/-- The lines of `header_buffer`. -/
def lines (report : ErrorReport) : List Str :=
  ["Content-Type: text/html".toList, "Connection: Close".toList,
    contentLengthLine report.body.length, "Server: Svain's Fast Web Server".toList]

theorem lines_wellFormed (report : ErrorReport) :
    ∀ line ∈ report.lines, line ≠ [] ∧ OneLine line := by
  have name : OneLine "Content-Length: ".toList := by decide
  have length : OneLine (contentLengthLine report.body.length) := name.append (oneLine_decimal _)
  have type : OneLine "Content-Type: text/html".toList := by decide
  have connection : OneLine "Connection: Close".toList := by decide
  have server : OneLine "Server: Svain's Fast Web Server".toList := by decide
  intro line member
  simp only [lines, List.mem_cons, List.not_mem_nil, or_false] at member
  rcases member with rfl | rfl | rfl | rfl
  · exact ⟨by decide, type⟩
  · exact ⟨by decide, connection⟩
  · exact ⟨List.append_ne_nil_of_left_ne_nil (by decide) _, length⟩
  · exact ⟨by decide, server⟩

theorem statusLine_prefix (report : ErrorReport) :
    "HTTP/1.1 ".toList <+: report.statusLine := by
  unfold statusLine
  exact (List.prefix_append _ _).trans ((List.prefix_append _ _).trans (List.prefix_append _ _))

theorem statusLine_oneLine (report : ErrorReport) (oneLine : OneLine report.message) :
    OneLine report.statusLine := by
  have version : OneLine "HTTP/1.1 ".toList := by decide
  have blank : OneLine " ".toList := by decide
  exact ((version.append (oneLine_decimal _)).append blank).append oneLine

/-- **An error page is a well-formed response.** -/
def response (report : ErrorReport) (oneLine : OneLine report.message) : HttpResponse where
  statusLine := report.statusLine
  lines := report.lines
  body := report.body
  status := ⟨report.statusLine_prefix, report.statusLine_oneLine oneLine⟩
  wellFormed := report.lines_wellFormed
  framed := List.mem_cons_of_mem _ (List.mem_cons_of_mem _ (List.mem_cons_self ..))

theorem response_render (report : ErrorReport) (oneLine : OneLine report.message) :
    (report.response oneLine).render = report.header ++ report.body := by
  have type : "Content-Type: text/html\r\n".toList = "Content-Type: text/html".toList ++ crlf := by
    decide
  have connection : "Connection: Close\r\n".toList = "Connection: Close".toList ++ crlf := by decide
  have server : "Server: Svain's Fast Web Server\r\n".toList =
      "Server: Svain's Fast Web Server".toList ++ crlf := by decide
  show report.statusLine ++ crlf ++ report.lines.flatMap (· ++ crlf) ++ crlf ++ report.body = _
  unfold statusLine lines contentLengthLine header
  rw [type, connection, server]
  simp only [List.flatMap_cons, List.flatMap_nil, List.append_assoc, List.nil_append]

end ErrorReport

/-- The reports that `handle_read` makes. -/
def errorReports : List ErrorReport := [badRequest, notFound, lackOfContentLength]

theorem errorReports_oneLine : ∀ report ∈ errorReports, OneLine report.message := by decide

/-! ## What is written -/

/-- The loop of `writen` takes a part of the bytes from their beginning. -/
theorem writeLoop_taken (script : List WriteResult) (left taken : Str) :
    ∃ sent, (writeLoop script left taken).taken = taken ++ sent ∧ sent <+: left := by
  induction script generalizing left taken with
  | nil =>
      cases left with
      | nil => exact ⟨[], by simp [writeLoop], List.prefix_rfl⟩
      | cons c left => exact ⟨c :: left, rfl, List.prefix_rfl⟩
  | cons result script ih =>
      cases left with
      | nil => exact ⟨[], by simp [writeLoop], List.prefix_rfl⟩
      | cons c left =>
          cases result with
          | accepted count =>
              obtain ⟨sent, took, part⟩ :=
                ih ((c :: left).drop count) (taken ++ (c :: left).take count)
              refine ⟨(c :: left).take count ++ sent, by rw [writeLoop, took, List.append_assoc], ?_⟩
              have whole := (List.prefix_append_right_inj ((c :: left).take count)).mpr part
              rwa [List.take_append_drop] at whole
          | eintr => exact ih (c :: left) taken
          | eagain | error => exact ⟨[], by simp [writeLoop], List.nil_prefix⟩

/-- The answers that are left over are the last ones. -/
theorem writeLoop_rest (script : List WriteResult) (left taken : Str) :
    (writeLoop script left taken).rest <:+ script := by
  induction script generalizing left taken with
  | nil => cases left <;> exact List.suffix_rfl
  | cons result script ih =>
      cases left with
      | nil => exact List.suffix_rfl
      | cons c left =>
          cases result with
          | accepted | eintr => exact (ih _ _).trans (List.suffix_cons ..)
          | eagain | error => exact List.suffix_cons ..

/-- The bytes of a report that the kernel takes. -/
def ErrorReport.written (report : ErrorReport) (script : List WriteResult) : Str :=
  let header := writeLoop script report.header []
  header.taken ++ (writeLoop header.rest report.body []).taken

/-- A part of the header and a part of the page. -/
theorem ErrorReport.written_parts (report : ErrorReport) (script : List WriteResult) :
    ∃ header body, header <+: report.header ∧ body <+: report.body ∧
      report.written script = header ++ body := by
  obtain ⟨header, took, part⟩ := writeLoop_taken script report.header []
  obtain ⟨body, took', part'⟩ :=
    writeLoop_taken (writeLoop script report.header []).rest report.body []
  exact ⟨header, body, part, part', by rw [written, took, took', List.nil_append, List.nil_append]⟩

/-- **A kernel that goes on taking bytes gets the whole report.** -/
theorem ErrorReport.written_takes (report : ErrorReport) {script : List WriteResult}
    (takes : Takes script) : report.written script = report.header ++ report.body := by
  have later : Takes (writeLoop script report.header []).rest := fun result member =>
    takes result ((writeLoop_rest script report.header []).subset member)
  obtain ⟨rest, first⟩ := writeLoop_takes report.header [] takes
  obtain ⟨rest', second⟩ := writeLoop_takes report.body [] later
  simp only [written, second]
  simp [first]

/-! ## How a stage reports -/

/-- The actions that send something. -/
def Action.sends : Action → Bool
  | .writen _ => true
  | .handleError _ => true
  | _ => false

namespace Conn

/-- Nothing has been sent and nothing has been done. -/
structure Silent (before after : Conn) : Prop where
  fd : after.http.fd = before.http.fd
  sent : after.io.sent = before.io.sent
  writes : after.io.writes = before.io.writes
  loop : after.loop = before.loop

/-- One report has been sent, and the connection has failed. -/
structure Reported (before after : Conn) (report : ErrorReport) : Prop where
  known : report ∈ errorReports
  fd : after.http.fd = before.http.fd
  failed : after.http.isError = true
  sent : after.io.sent = before.io.sent ++ report.written before.io.writes
  loop : after.loop = before.loop.record before.http.fd (.handleError report)

/-- A stage reports once, and then leaves the loop, or it is silent. -/
def Stage.Reports (stage : Stage) : Prop :=
  ∀ conn flow after, stage conn = .ok (flow, after) →
    Silent conn after ∨ flow = .leave ∧ ∃ report, Reported conn after report

theorem Silent.refl (conn : Conn) : Silent conn conn := ⟨rfl, rfl, rfl, rfl⟩

theorem Silent.trans {first second third : Conn} (earlier : Silent first second)
    (later : Silent second third) : Silent first third :=
  ⟨later.fd.trans earlier.fd, later.sent.trans earlier.sent, later.writes.trans earlier.writes,
    later.loop.trans earlier.loop⟩

theorem Silent.reported {first second third : Conn} {report : ErrorReport}
    (earlier : Silent first second) (later : Reported second third report) :
    Reported first third report := by
  refine ⟨later.known, later.fd.trans earlier.fd, later.failed, ?_, ?_⟩
  · rw [later.sent, earlier.sent, earlier.writes]
  · rw [later.loop, earlier.loop, earlier.fd]

/-- A call of `handle_error`. -/
theorem reported_handleError {before conn : Conn} {report : ErrorReport} (silent : Silent before conn)
    (known : report ∈ errorReports) : Reported before (conn.fail.handleError report) report := by
  refine silent.reported ⟨known, rfl, rfl, ?_, rfl⟩
  exact List.append_assoc ..

theorem reports_before {first second : Stage} (earlier : first.Reports) (later : second.Reports) :
    (first.before second).Reports := by
  intro conn flow after ran
  unfold Stage.before at ran
  split at ran
  · cases ran
  · rename_i left
    cases ran
    exact earlier _ _ _ left
  · rename_i went
    rcases earlier _ _ _ went with silent | ⟨left, -⟩
    · rcases later _ _ _ ran with silent' | ⟨left, report, reported⟩
      · exact .inl (silent.trans silent')
      · exact .inr ⟨left, report, silent.reported reported⟩
    · cases left

theorem readStage_reports : readStage.Reports := by
  intro conn flow after ran
  simp only [readStage] at ran
  split at ran
  · cases ran
    exact .inl ⟨rfl, rfl, rfl, rfl⟩
  · split at ran
    · cases ran
      exact .inr ⟨rfl, badRequest, reported_handleError ⟨rfl, rfl, rfl, rfl⟩ (by decide)⟩
    · split at ran
      · split at ran <;> (cases ran; exact .inl ⟨rfl, rfl, rfl, rfl⟩)
      · cases ran
        exact .inl ⟨rfl, rfl, rfl, rfl⟩

theorem uriStage_reports : uriStage.Reports := by
  intro conn flow after ran
  simp only [uriStage] at ran
  split at ran
  · cases parsed : conn.http.parseURI with
    | error fault => simp [parsed] at ran
    | ok result =>
        obtain ⟨state, http⟩ := result
        obtain ⟨bufferIn, fileName, httpMethod, httpVersion, rfl⟩ := HttpData.parseURI_eq parsed
        simp only [parsed] at ran
        cases state with
        | again =>
            cases ran
            exact .inl ⟨rfl, rfl, rfl, rfl⟩
        | error =>
            cases ran
            exact .inr ⟨rfl, badRequest, reported_handleError ⟨rfl, rfl, rfl, rfl⟩ (by decide)⟩
        | success =>
            cases ran
            exact .inl ⟨rfl, rfl, rfl, rfl⟩
  · cases ran
    exact .inl (.refl conn)

theorem headersStage_reports : headersStage.Reports := by
  intro conn flow after ran
  simp only [headersStage] at ran
  split at ran
  · split at ran
    · cases ran
    · rename_i http parsed
      cases ran
      obtain ⟨_, _, _, rfl⟩ := HttpData.parseHeaders_eq parsed
      exact .inl ⟨rfl, rfl, rfl, rfl⟩
    · rename_i http parsed
      cases ran
      obtain ⟨_, _, _, rfl⟩ := HttpData.parseHeaders_eq parsed
      exact .inr ⟨rfl, badRequest, reported_handleError ⟨rfl, rfl, rfl, rfl⟩ (by decide)⟩
    · rename_i http parsed
      obtain ⟨_, _, _, rfl⟩ := HttpData.parseHeaders_eq parsed
      split at ran <;> (cases ran; exact .inl ⟨rfl, rfl, rfl, rfl⟩)
  · cases ran
    exact .inl (.refl conn)

theorem bodyStage_reports : bodyStage.Reports := by
  intro conn flow after ran
  simp only [bodyStage] at ran
  split at ran
  · split at ran
    · cases ran
      exact .inr ⟨rfl, lackOfContentLength, reported_handleError (.refl conn) (by decide)⟩
    · split at ran
      · cases ran
      · split at ran <;> (cases ran; exact .inl ⟨rfl, rfl, rfl, rfl⟩)
  · cases ran
    exact .inl (.refl conn)

end Conn

namespace HttpData

theorem serveFile_report {files : FileSystem} {http : HttpData} {report : ErrorReport}
    (reported : (http.serveFile files).report = some report) :
    report = notFound ∧ (http.serveFile files).state = .error := by
  unfold serveFile at reported ⊢
  split at reported
  · cases reported
    exact ⟨rfl, rfl⟩
  · simp only at reported ⊢
    split at reported
    · cases reported
    · split at reported
      · split at reported <;> cases reported
        simp_all
      · cases reported
        simp_all

/-- The report of an analysis is that of a file that cannot be served, and the analysis fails. -/
theorem analyzeRequest_report {files : FileSystem} {http : HttpData} {report : ErrorReport}
    (reported : (http.analyzeRequest files).report = some report) :
    report = notFound ∧ (http.analyzeRequest files).state = .error := by
  unfold analyzeRequest at reported ⊢
  split at reported
  · cases reported
  · simp only at reported ⊢
    split at reported
    · cases reported
    · split at reported
      · cases reported
      · rename_i fixed image
        simp only [if_neg fixed, if_neg image]
        exact serveFile_report reported
  · simp only at reported ⊢
    split at reported
    · cases reported
    · split at reported
      · cases reported
      · rename_i fixed image
        simp only [if_neg fixed, if_neg image]
        exact serveFile_report reported

end HttpData

namespace Conn

theorem analysisStage_reports : analysisStage.Reports := by
  intro conn flow after ran
  simp only [analysisStage] at ran
  split at ran
  · obtain ⟨keepAlive, bufferOut, analyzed, -⟩ := conn.http.analyzeRequest_eq conn.io.files
    rw [analyzed] at ran
    cases reported : (conn.http.analyzeRequest conn.io.files).report with
    | none =>
        rw [reported] at ran
        split at ran <;> (cases ran; exact .inl ⟨rfl, rfl, rfl, rfl⟩)
    | some report =>
        obtain ⟨rfl, failed⟩ := HttpData.analyzeRequest_report reported
        rw [reported, failed] at ran
        cases ran
        refine .inr ⟨rfl, notFound, by decide, rfl, rfl, ?_, rfl⟩
        exact List.append_assoc ..
  · cases ran
    exact .inl (.refl conn)

/-- **The loop of `handle_read` reports at most once.** -/
theorem stages_reports : stages.Reports :=
  reports_before readStage_reports <| reports_before uriStage_reports <|
    reports_before headersStage_reports <| reports_before bodyStage_reports analysisStage_reports

/-! ## What a handler sends -/

/-- How the bytes that are sent belong to the actions that send. -/
inductive Sending (before after : Conn) : List Action → Str → Prop where
  | nothing : Sending before after [] []
  | output {pending sent : Str} (part : sent <+: pending) :
      Sending before after [.writen pending] sent
  | page {report : ErrorReport} (known : report ∈ errorReports)
      (failed : after.http.isError = true) :
      Sending before after [.handleError report] (report.written before.io.writes)

/-- What a handler logs and sends. -/
structure Sends (before after : Conn) (actions : List Action) (sent : Str) : Prop where
  fd : after.http.fd = before.http.fd
  log : after.loop.log = before.loop.log ++ actions.map (Prod.mk before.http.fd)
  grown : after.io.sent = before.io.sent ++ sent
  sending : Sending before after (actions.filter Action.sends) sent

/-- `handle_write` sends a part of the output. -/
theorem handleWrite_sends (conn : Conn) :
    ∃ actions sent, Sends conn conn.handleWrite actions sent := by
  unfold handleWrite
  split
  · obtain ⟨sent, took, part⟩ := writeLoop_taken conn.io.writes conn.http.bufferOut []
    have taken : (FastWebServer.writen conn.io.writes conn.http.bufferOut).taken = sent := by
      rw [List.nil_append] at took
      unfold FastWebServer.writen
      dsimp only
      split
      · exact took
      · split <;> exact took
    refine ⟨[.writen conn.http.bufferOut], sent, ?_, rfl, congrArg _ taken, .output part⟩
    simp only [afterWriten]
    split <;> split <;> rfl
  · exact ⟨[], [], rfl, by simp, by simp, .nothing⟩

/-- A handler that does nothing more than to change members and timers, after one that sends. -/
theorem Sends.quiet {before middle after : Conn} {actions later : List Action} {sent : Str}
    (sends : Sends before middle actions sent) (fd : after.http.fd = middle.http.fd)
    (io : after.io = middle.io) (failed : after.http.isError = middle.http.isError)
    (log : after.loop.log = middle.loop.log ++ later.map (Prod.mk middle.http.fd))
    (silent : ∀ action ∈ later, action.sends = false) :
    Sends before after (actions ++ later) sent := by
  refine ⟨fd.trans sends.fd, ?_, by rw [io, sends.grown], ?_⟩
  · rw [log, sends.log, sends.fd, List.map_append, List.append_assoc]
  · have none : later.filter Action.sends = [] := List.filter_eq_nil_iff.mpr fun action member => by
      simp [silent action member]
    have sending := sends.sending
    rw [List.filter_append, none, List.append_nil]
    generalize actions.filter Action.sends = sending' at sending ⊢
    cases sending with
    | nothing => exact .nothing
    | output part => exact .output part
    | page known failed' => exact .page known (failed.trans failed')

/-- `handle_write` after the loop. -/
theorem flush_sends (conn : Conn) : ∃ actions sent, Sends conn conn.flush actions sent := by
  unfold flush
  split
  · split
    · exact handleWrite_sends conn
    · exact ⟨[], [], rfl, by simp, by simp, .nothing⟩
  · exact ⟨[], [], rfl, by simp, by simp, .nothing⟩

/-- A silent stage, before a handler that sends output. -/
theorem Silent.sends {before middle after : Conn} {actions : List Action} {sent : Str}
    (silent : Silent before middle) (sends : Sends middle after actions sent) :
    Sends before after actions sent := by
  refine ⟨sends.fd.trans silent.fd, ?_, by rw [sends.grown, silent.sent], ?_⟩
  · rw [sends.log, silent.loop, silent.fd]
  · have sending := sends.sending
    generalize actions.filter Action.sends = sending' at sending ⊢
    cases sending with
    | nothing => exact .nothing
    | output part => exact .output part
    | page known failed => exact silent.writes ▸ .page known failed

/-- What follows the output sends nothing. -/
theorem finishRead_sends {before read : Conn} {actions : List Action} {sent : Str}
    (sends : Sends before read.flush actions sent) :
    ∃ actions, Sends before read.finishRead actions sent := by
  unfold finishRead
  split
  · obtain ⟨timer, http, cleared⟩ := reset_keeps read.flush
    have log : read.flush.reset.loop.log = read.flush.loop.log ++
        [Action.clearInput read.flush.http.bufferIn].map (Prod.mk read.flush.http.fd) := cleared
    refine ⟨actions ++ [.clearInput read.flush.http.bufferIn], sends.quiet ?_ (reset_io _) ?_ log ?_⟩
    · rw [http]
      rfl
    · rw [http]
      rfl
    · simp [Action.sends]
  · obtain ⟨events, http, loop, -⟩ := awaitInput_keeps read.flush
    have io : read.flush.awaitInput.io = read.flush.io := by
      unfold awaitInput
      split <;> rfl
    refine ⟨actions ++ [], sends.quiet ?_ io ?_ (by rw [loop]; simp) (by simp)⟩
    · rw [http]
      rfl
    · rw [http]
      rfl

/-- **What `handle_read` sends.** -/
theorem handleRead_sends {conn after : Conn} (ran : conn.handleRead = .ok after) :
    ∃ actions sent, Sends conn after actions sent := by
  rw [handleRead_eq] at ran
  cases looped : stages conn with
  | error fault => simp [looped, Except.map] at ran
  | ok result =>
      obtain ⟨flow, read⟩ := result
      simp only [looped, Except.map, Except.ok.injEq] at ran
      subst ran
      rcases stages_reports _ _ _ looped with silent | ⟨-, report, reported⟩
      · obtain ⟨actions, sent, sends⟩ := flush_sends read
        obtain ⟨actions, sends⟩ := finishRead_sends (silent.sends sends)
        exact ⟨actions, sent, sends⟩
      · have unflushed : read.flush = read := by
          rw [flush, if_neg (by simp [reported.failed])]
        have sends : Sends conn read.flush [.handleError report]
            (report.written conn.io.writes) := by
          rw [unflushed]
          exact ⟨reported.fd, by rw [reported.loop]; rfl, reported.sent,
            .page reported.known reported.failed⟩
        obtain ⟨actions, sends⟩ := finishRead_sends sends
        exact ⟨actions, _, sends⟩

/-! ## What an event sends -/

/-- A handler that sends nothing. -/
structure Unsent (before after : Conn) : Prop where
  fd : after.http.fd = before.http.fd
  io : after.io = before.io
  isError : after.http.isError = before.http.isError
  log : ∃ actions : List Action,
    after.loop.log = before.loop.log ++ actions.map (Prod.mk before.http.fd) ∧
      ∀ action ∈ actions, action.sends = false

theorem Unsent.trans {first second third : Conn} (earlier : Unsent first second)
    (later : Unsent second third) : Unsent first third := by
  obtain ⟨actions, log, silent⟩ := earlier.log
  obtain ⟨actions', log', silent'⟩ := later.log
  refine ⟨later.fd.trans earlier.fd, later.io.trans earlier.io, later.isError.trans earlier.isError,
    actions ++ actions', ?_, fun action member => ?_⟩
  · rw [log', log, earlier.fd, List.map_append, List.append_assoc]
  · exact (List.mem_append.mp member).elim (silent action) (silent' action)

theorem enterConnect_unsent (conn : Conn) : Unsent conn conn.enterConnect := by
  obtain ⟨timer, http, log⟩ := enterConnect_keeps conn
  exact ⟨by rw [http], seperateTimer_io _, by rw [http], [.handleConnect conn.http], log,
    by simp [Action.sends]⟩

/-- The mask is not sent. -/
theorem unsent_setEvents (conn : Conn) (events : Mask) :
    Unsent conn { conn with http := conn.http.setEvents events } :=
  ⟨rfl, rfl, rfl, [], by simp, by simp⟩

theorem handleClose_unsent (env : Env) (conn : Conn) : Unsent conn (conn.handleClose env) :=
  ⟨rfl, rfl, rfl, [.handleClose], rfl, by simp [Action.sends]⟩

theorem updatePoller_unsent (env : Env) (timeout : ℕ) (conn : Conn) :
    Unsent conn (conn.updatePoller env timeout) := by
  obtain ⟨timer, actions, http, log, all⟩ := updatePoller_keeps env timeout conn
  refine ⟨by rw [http]; rfl, ?_, by rw [http]; rfl, _, log, fun action member => ?_⟩
  · have modified : ∀ middle : Conn, (modifyInterest env middle).io = middle.io := by
      intro middle
      obtain ⟨loop, modified, -⟩ := modifyInterest_eq env middle
      rw [modified]
      rfl
    unfold updatePoller modifyFdInEpoll
    split
    · rw [modified]
      unfold addTimer
      split <;> rfl
    · rw [modified]
      rfl
  · rcases List.mem_cons.mp member with rfl | member
    · rfl
    · rw [all action member]
      rfl

/-- **`handle_connect` sends nothing.** -/
theorem handleConnect_unsent (env : Env) (conn : Conn) : Unsent conn (conn.handleConnect env) := by
  have entered := enterConnect_unsent conn
  show Unsent conn (handleConnect env conn)
  unfold handleConnect
  rw [← enterConnect]
  dsimp only
  split
  · split
    · exact entered.trans ((unsent_setEvents _ _).trans (updatePoller_unsent env _ _))
    · split
      · exact entered.trans ((unsent_setEvents _ _).trans (updatePoller_unsent env _ _))
      · have shut : Unsent conn.enterConnect conn.enterConnect.shutdown :=
          ⟨rfl, rfl, rfl, [.shutdown], rfl, by simp [Action.sends]⟩
        exact entered.trans (shut.trans ((handleClose_unsent env _).trans
          ((unsent_setEvents _ _).trans (updatePoller_unsent env _ _))))
  · split
    · exact entered.trans (unsent_setEvents _ _)
    · exact entered.trans (handleClose_unsent env _)

theorem Sends.unsent {before middle after : Conn} {actions : List Action} {sent : Str}
    (sends : Sends before middle actions sent) (unsent : Unsent middle after) :
    ∃ actions, Sends before after actions sent := by
  obtain ⟨later, log, silent⟩ := unsent.log
  exact ⟨_, sends.quiet unsent.fd unsent.io unsent.isError log silent⟩

/-- **What an event sends.** -/
theorem handleEvents_sends {env : Env} {conn after : Conn}
    (ran : conn.handleEvents env = .ok after) : ∃ actions sent, Sends conn after actions sent := by
  have stored : Silent conn (conn.storeEvents 0#32) := ⟨rfl, rfl, rfl, rfl⟩
  have waiting : Sends (conn.storeEvents 0#32) (conn.storeEvents 0#32) [] [] :=
    ⟨rfl, by simp, by simp, .nothing⟩
  cases drops : conn.http.channel.revents.drops with
  | true =>
      rw [handleEvents_drops drops, Except.ok.injEq] at ran
      subst ran
      exact ⟨[], [], stored.sends waiting⟩
  | false =>
      rw [handleEvents_eq drops] at ran
      cases came : (if conn.http.channel.revents.reads = true then
          (conn.storeEvents 0#32).handleRead
        else .ok (conn.storeEvents 0#32)) with
      | error fault => simp [came, Except.map] at ran
      | ok read =>
          simp only [came, Except.map, Except.ok.injEq] at ran
          subst ran
          have reading : ∃ actions sent, Sends conn read actions sent := by
            split at came
            · obtain ⟨actions, sent, sends⟩ := handleRead_sends came
              exact ⟨actions, sent, stored.sends sends⟩
            · cases came
              exact ⟨[], [], stored.sends waiting⟩
          obtain ⟨actions, sent, sends⟩ := reading
          obtain ⟨actions, once⟩ := sends.unsent (handleConnect_unsent env read)
          split
          · obtain ⟨actions, twice⟩ :=
              once.unsent (handleConnect_unsent env (read.handleConnect env))
            exact ⟨actions, sent, twice⟩
          · exact ⟨actions, sent, once⟩

end Conn

namespace World

variable {env : Env} {world : World} {fd : Fd}

/-- **What the loop thread sends for a connection.** In any reachable state, an event that is
delivered to a connection either sends nothing, or a part of the output that was pending, or one
of three reports. A report fails the connection and closes it in the same event. What the kernel
takes of it is a part of the header and a part of the page, and all of a well-formed response with
the code and the message of the report if the kernel goes on taking. -/
theorem dispatch_sends (reachable : (machine env).Reachable world) {http : HttpData}
    {interest : Interest} {revents : Mask} {io : Io} {conn : Conn}
    (present : world.conns fd = some http) (stored : world.loop.fdToChannel fd = true)
    (ran : Conn.handleEvents env ⟨request http revents, io, disarm fd interest world.loop⟩ =
      .ok conn) :
    ∃ (actions : List Action) (sent : Str),
      conn.loop.log = world.loop.log ++ actions.map (Prod.mk fd) ∧
      conn.io.sent = io.sent ++ sent ∧
      (actions.filter Action.sends = [] ∧ sent = [] ∨
        (∃ pending, actions.filter Action.sends = [.writen pending] ∧ sent <+: pending) ∨
        ∃ report ∈ errorReports, actions.filter Action.sends = [.handleError report] ∧
          conn.http.isError = true ∧ ¬ (world.update fd conn).Open fd ∧
          (∃ header body, header <+: report.header ∧ body <+: report.body ∧
            sent = header ++ body) ∧
          (Takes io.writes → ∃ response : HttpResponse,
            response.statusLine = report.statusLine ∧ sent = response.render)) := by
  have sound := reachable_sound reachable
  obtain ⟨rfl, serving, -⟩ := sound.serving present stored
  obtain ⟨actions, sent, sends⟩ := Conn.handleEvents_sends ran
  refine ⟨actions, sent, sends.log, sends.grown, ?_⟩
  have sending := sends.sending
  generalize sendings : actions.filter Action.sends = sending' at sending ⊢
  cases sending with
  | nothing => exact .inl ⟨rfl, rfl⟩
  | output part => exact .inr (.inl ⟨_, rfl, part⟩)
  | @page report known failed =>
      have effect := Conn.handleEvents_effect (serving_request serving revents interest)
        (sound.orderly.congr rfl rfl) ran
      obtain ⟨logged, log, -, ⟨serving', -⟩ | ⟨-, closed⟩⟩ := effect.log
      · simp [serving'.unfailed] at failed
      · obtain ⟨header, body, part, part', written⟩ := report.written_parts io.writes
        refine .inr (.inr ⟨report, known, rfl, failed, ?_, ⟨header, body, part, part', written⟩,
          fun takes => ?_⟩)
        · rintro ⟨http', -, unclosed⟩
          refine unclosed ?_
          show _ ∈ conn.loop.log
          rw [log]
          exact List.mem_append_right _ (List.mem_map.mpr ⟨_, closed, rfl⟩)
        · refine ⟨report.response (errorReports_oneLine report known), rfl, ?_⟩
          rw [report.response_render]
          exact report.written_takes takes

/-- The new connection when its socket cannot be read. -/
def readFails : Conn :=
  { helloArrives with io := { Io.unused with reads := [.error] } }

/-- It is told about a bad request, and closed. -/
theorem readFails_refused :
    ∃ conn, readFails.handleEvents Env.calm = .ok conn ∧ ¬ (accepted.update 5 conn).Open 5 ∧
      ∃ response : HttpResponse, response.statusLine = badRequest.statusLine ∧
        conn.io.sent = response.render := by
  have looped : ∃ flow read, Conn.stages (readFails.storeEvents 0#32) = .ok (flow, read) ∧
      read.finishRead.http.fd = 5 ∧
      read.finishRead.loop.log =
        [(5, Action.addTimer defaultExpiredTime), (5, .handleError badRequest)] :=
    ⟨_, _, rfl, rfl, rfl⟩
  obtain ⟨flow, read, looped, fd, logged⟩ := looped
  have ran : (readFails.storeEvents 0#32).handleRead = .ok read.finishRead := by
    rw [Conn.handleRead_eq, looped]
    rfl
  have handled : readFails.handleEvents Env.calm =
      .ok (read.finishRead.handleConnect Env.calm) := by
    rw [Conn.handleEvents_eq (by decide), if_pos (by decide), ran]
    rfl
  obtain ⟨actions, sent, log, grown, sending⟩ :=
    @dispatch_sends Env.calm accepted 5 accepted_reachable _ _ _ _ _ rfl rfl handled
  obtain ⟨later, decided, -⟩ := (Conn.handleConnect_unsent Env.calm read.finishRead).log
  rw [decided, logged, fd] at log
  have reported : Action.handleError badRequest ∈ actions.filter Action.sends := by
    have member : (5, Action.handleError badRequest) ∈
        accepted.loop.log ++ actions.map (Prod.mk 5) := by
      rw [← log]
      simp
    rcases List.mem_append.mp member with earlier | later
    · have earlier : (5, Action.handleError badRequest) ∈
          [(5, Action.addTimer defaultExpiredTime)] := earlier
      simp at earlier
    · obtain ⟨action, member, same⟩ := List.mem_map.mp later
      obtain ⟨-, rfl⟩ := Prod.mk.inj same
      exact List.mem_filter.mpr ⟨member, rfl⟩
  rcases sending with ⟨none, -⟩ | ⟨pending, output, -⟩ | ⟨report, -, page, -, shut, -, whole⟩
  · simp [none] at reported
  · simp [output] at reported
  · rw [page, List.mem_singleton] at reported
    obtain rfl : badRequest = report := Action.handleError.inj reported
    obtain ⟨response, status, rendered⟩ := whole fun _ member => absurd member List.not_mem_nil
    exact ⟨_, handled, shut, response, status, by rw [grown, rendered]; rfl⟩

end World

end FastWebServer
