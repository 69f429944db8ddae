import FastWebServer.Http.OneResponse

/-!
# Requests that arrive together

Several `GET` requests that are delivered in one read, on a connection with no request in
progress. Each of them is complete and resolves: alone on a new connection it is answered.

`parse_Headers` ends a block in the pass after its last character, so the first character
of what follows the block is read with it, and `reset` empties `buffer_in_` before
`handle_read` looks whether anything is left in it. Of several requests only the first is
answered (`stages_first`), and the others are discarded. `pipelined_iff` says that all of
them are answered exactly when there is one.
-/

set_option autoImplicit false

namespace FastWebServer

open Cxx

/-! ## Requests -/

/-- A complete `GET` request without a body: it ends with the first blank line in it. -/
structure CompleteGet (request : Str) : Prop where
  get : "GET ".toList <+: request
  ends : blankLine <:+ request
  first : ∀ before, before <+: request → blankLine <:+ before → before = request

namespace Conn

/-- A request alone on a new connection, over these files. -/
def alone (fd : Fd) (files : FileSystem) (request : Str) : Conn :=
  { http := HttpData.new fd
    io := { Io.packet request with files := files }
    loop := Loop.new }

/-- A request that is answered with this response when it is alone on a new connection. -/
def Resolves (fd : Fd) (files : FileSystem) (request response : Str) : Prop :=
  ∃ flow done, stages (alone fd files request) = .ok (flow, done) ∧ done.http.isError = false ∧
    done.http.processState = .finish ∧ done.flush.io.sent = response

/-- A connection with no request in progress and nothing pending. -/
structure Ready (http : HttpData) : Prop where
  healthy : http.Healthy
  bufferIn : http.bufferIn = []
  bufferOut : http.bufferOut = []
  readCur : http.readCur = 0
  processState : http.processState = .parseURI
  parseState : http.parseState = .start
  headers : http.headers = HeaderMap.empty

/-- All requests are answered in order, and none of their bytes is discarded. -/
structure Pipelined (before : Conn) (responses : List Str) (after : Conn) : Prop where
  unfailed : after.http.isError = false
  sent : after.io.sent = before.io.sent ++ responses.flatten
  consumed : after.http.bufferIn = []
  undiscarded : ∀ discarded, .clearInput discarded ∈ loggedSince before after → discarded = []

end Conn

/-! ## The same request on another connection -/

namespace HttpData

variable {http after : HttpData}

/-- What a line says of the version does not depend on the connection. -/
theorem parseVersion_other {line : Str} {cur : ℕ}
    (parsed : http.parseVersion line cur = .ok (.success, after)) (other : HttpData) :
    other.parseVersion line cur =
      .ok (.success, { other with httpVersion := after.httpVersion }) := by
  simp only [parseVersion] at parsed ⊢
  split at parsed
  · cases parsed
  · rename_i found
    rw [if_neg found]
    split at parsed
    · cases parsed
    · rename_i long
      rw [if_neg long]
      split at parsed
      · cases parsed
      · split at parsed
        · rename_i old
          cases parsed
          rw [if_pos old]
        · rename_i new
          rw [if_neg new]
          split at parsed
          · rename_i current
            cases parsed
            rw [if_pos current]
          · cases parsed

/-- Nor what it says of the target. -/
theorem parseTarget_other {line : Str} {cur : ℕ}
    (parsed : http.parseTarget line cur = .ok (.success, after)) (other : HttpData) :
    other.parseTarget line cur = .ok (.success,
      { other with fileName := after.fileName, httpVersion := after.httpVersion }) := by
  simp only [parseTarget] at parsed ⊢
  split at parsed
  · rename_i absent
    cases parsed
    rw [if_pos absent]
  · rename_i found
    rw [if_neg found]
    split at parsed
    · cases parsed
    · rename_i spaced
      rw [if_neg spaced]
      split at parsed
      · cases parsed
      · rw [parseVersion_other parsed]
        obtain ⟨version, rfl⟩ := parseVersion_eq parsed
        rfl

/-- A line that begins with `GET` is read as one of that method. -/
theorem parseRequestLine_get (http : HttpData) (target : Str) :
    http.parseRequestLine ("GET ".toList ++ target) =
      parseTarget { http with httpMethod := .get } ("GET ".toList ++ target) 0 := by
  have position : findStr "GET".toList ("GET ".toList ++ target) 0 = 0 := by
    simp [findStr, List.isPrefixOf]
  simp only [parseRequestLine, position]
  rw [if_pos (by decide)]
  rfl

/-- Two requests ask `analyze_request` for the same. -/
structure AsksSame (first second : HttpData) : Prop where
  httpMethod : second.httpMethod = first.httpMethod
  fileName : second.fileName = first.fileName
  headers : second.headers = first.headers
  bufferOut : second.bufferOut = first.bufferOut

/-- The parts of two analyses that are seen from outside are the same. -/
structure SameAnswer (first second : Analysis) : Prop where
  state : second.state = first.state
  report : second.report = first.report
  bufferOut : second.http.bufferOut = first.http.bufferOut

namespace AsksSame

variable {other : HttpData}

theorem noteKeepAlive (same : AsksSame http other) :
    AsksSame http.noteKeepAlive other.noteKeepAlive := by
  obtain ⟨keepAlive, noted⟩ := http.noteKeepAlive_eq
  obtain ⟨keepAlive', noted'⟩ := other.noteKeepAlive_eq
  rw [noted, noted']
  exact ⟨same.httpMethod, same.fileName, same.headers, same.bufferOut⟩

theorem responseHead (same : AsksSame http other) : other.responseHead = http.responseHead := by
  unfold HttpData.responseHead wantsKeepAlive
  rw [same.headers]

theorem faviconHeader (same : AsksSame http other) :
    other.faviconHeader = http.faviconHeader := by
  unfold HttpData.faviconHeader
  rw [same.responseHead]

theorem serveFile (same : AsksSame http other) (files : FileSystem) :
    SameAnswer (http.serveFile files) (other.serveFile files) := by
  unfold HttpData.serveFile
  rw [same.fileName, same.httpMethod]
  cases files.stat (cStr http.fileName) with
  | none => exact ⟨rfl, rfl, same.bufferOut⟩
  | some size =>
      dsimp only
      split
      · exact ⟨rfl, rfl, same.bufferOut⟩
      · split
        · cases files.mmap (cStr http.fileName) size with
          | none => exact ⟨rfl, rfl, rfl⟩
          | some content => exact ⟨rfl, rfl, congrArg (· ++ content.val) same.bufferOut⟩
        · exact ⟨rfl, rfl, rfl⟩

/-- **The analysis looks at nothing else.** -/
theorem analyzeRequest (same : AsksSame http other) (files : FileSystem) :
    SameAnswer (http.analyzeRequest files) (other.analyzeRequest files) := by
  have noted := same.noteKeepAlive
  unfold HttpData.analyzeRequest
  rw [same.httpMethod]
  cases http.httpMethod with
  | post => exact ⟨rfl, rfl, same.bufferOut⟩
  | get | head =>
      dsimp only
      rw [noted.fileName]
      split
      · exact ⟨rfl, rfl, rfl⟩
      · split
        · refine ⟨rfl, rfl, ?_⟩
          show other.noteKeepAlive.bufferOut ++ other.noteKeepAlive.faviconHeader ++ favicon =
            http.noteKeepAlive.bufferOut ++ http.noteKeepAlive.faviconHeader ++ favicon
          rw [noted.bufferOut, noted.faviconHeader]
        · exact noted.serveFile files

end AsksSame

theorem serveFile_unreported {files : FileSystem}
    (succeeds : (http.serveFile files).state = .success) :
    (http.serveFile files).report = none := by
  unfold serveFile at succeeds ⊢
  split at succeeds
  · cases succeeds
  · dsimp only at succeeds ⊢
    split at succeeds
    · rename_i head
      rw [if_pos head]
    · rename_i other
      rw [if_neg other]
      split at succeeds
      · rename_i opens
        rw [if_pos opens]
        split at succeeds
        · cases succeeds
        · rfl
      · cases succeeds

/-- An analysis that succeeds reports nothing. -/
theorem analyzeRequest_unreported {files : FileSystem}
    (succeeds : (http.analyzeRequest files).state = .success) :
    (http.analyzeRequest files).report = none := by
  unfold analyzeRequest at succeeds ⊢
  split at succeeds
  · cases succeeds
  all_goals
    dsimp only at succeeds ⊢
    split at succeeds
    · rename_i hello
      rw [if_pos hello]
    · rename_i other
      rw [if_neg other]
      split at succeeds
      · rename_i icon
        rw [if_pos icon]
      · rename_i file
        rw [if_neg file]
        exact serveFile_unreported succeeds

end HttpData

/-! ## The parts of a request -/

/-- The request line of a complete request, and what follows its carriage return. -/
theorem CompleteGet.line {request : Str} (complete : CompleteGet request) :
    ∃ target block, request = "GET ".toList ++ target ++ '\r' :: block ∧ '\r' ∉ target := by
  obtain ⟨text, rfl⟩ := complete.get
  have returns : '\r' ∈ text := by
    have member : '\r' ∈ "GET ".toList ++ text :=
      complete.ends.subset (show '\r' ∈ blankLine by decide)
    exact (List.mem_append.mp member).resolve_left (by decide)
  obtain ⟨target, block, rfl, absent⟩ := (split_first text '\r').resolve_left (not_not.mpr returns)
  exact ⟨target, block, by rw [List.append_assoc], absent⟩

/-- A scan of the block of a complete request that meets a blank line meets it at the end. -/
theorem CompleteGet.scan_end {request line block : Str} (complete : CompleteGet request)
    (split : request = line ++ '\r' :: block) {j : ℕ} {headers : HeaderMap} {last : HeaderScan}
    (stopped : scanHeaders block block 0 (.enter .start headers) = .stopped j last)
    (ended : last.parseState = .endLf) : j = block.length ∧ last.finished = false := by
  obtain ⟨read, left, rfl, blank, ⟨unfinished, rfl, rfl⟩ | ⟨finished, more⟩⟩ :=
    scan_ending stopped ended
  · exact ⟨by rw [List.append_nil], unfinished⟩
  · -- a blank line before the end contradicts that the request has only one
    have whole : line ++ '\r' :: read = request := by
      apply complete.first
      · exact ⟨left, by rw [split]; simp⟩
      · exact blank.trans ⟨line ++ ['\r'], by simp⟩
    rw [split, List.append_cancel_left_eq, List.cons.injEq] at whole
    exact absurd (List.self_eq_append_right.mp whole.2) more

/-! ## One request alone -/

namespace Conn

variable {conn : Conn}

/-- The connection after these bytes have been read. -/
def received (conn : Conn) (bytes : Str) (rest : List ReadResult) : Conn :=
  { conn with
    http := { conn.http with bufferIn := bytes }
    io := { conn.io with reads := rest } }

theorem readStage_ready {bytes : Str} (ready : Ready conn.http)
    (arrives : delivered conn.io.reads = some bytes) :
    ∃ rest, readStage conn =
      if toInt (toSize bytes.length) < 0 then
        .ok (.leave, (conn.received bytes rest).fail.handleError badRequest)
      else .ok (.goOn, conn.received bytes rest) := by
  obtain ⟨rest, read⟩ := readn_delivers conn.http.bufferIn arrives
  rw [ready.bufferIn, List.nil_append] at read
  refine ⟨rest, ?_⟩
  simp only [readStage, ready.bufferIn, read, ready.healthy.connected, reduceCtorEq, if_false,
    Bool.false_eq_true, received]

/-- `STATE_PARSE_URI` goes on for a `GET` request whose line it reads. -/
theorem uriStage_goOn_iff {target block : Str} {after : Conn}
    (stands : conn.http.processState = .parseURI) (start : conn.http.readCur = 0)
    (buffer : conn.http.bufferIn = "GET ".toList ++ target ++ '\r' :: block)
    (absent : '\r' ∉ target) (fits : conn.http.bufferIn.length < npos) :
    uriStage conn = .ok (.goOn, after) ↔
      ∃ http, HttpData.parseTarget { conn.http with bufferIn := block, httpMethod := .get }
          ("GET ".toList ++ target) 0 = .ok (.success, http) ∧
        after = { conn with http := http }.enter .parseHeaders := by
  have parsed : conn.http.parseURI =
      HttpData.parseTarget { conn.http with bufferIn := block, httpMethod := .get }
        ("GET ".toList ++ target) 0 := by
    rw [HttpData.parseURI_line start buffer, HttpData.parseRequestLine_get]
    · intro member
      exact (List.mem_append.mp member).elim (by decide) absent
    · rw [buffer] at fits
      simp only [List.length_append, List.length_cons, npos] at fits ⊢
      omega
  unfold uriStage
  rw [if_pos stands, parsed]
  generalize HttpData.parseTarget _ _ _ = result
  rcases result with fault | ⟨_ | _ | _, http⟩ <;> simp [eq_comm]

/-- `STATE_PARSE_HEADERS` goes on for a `GET` request whose block it reads. -/
theorem headersStage_goOn_iff {after : Conn} (stands : conn.http.processState = .parseHeaders)
    (get : conn.http.httpMethod = .get) :
    headersStage conn = .ok (.goOn, after) ↔
      ∃ http, conn.http.parseHeaders = .ok (.success, http) ∧
        after = { conn with http := http }.enter .analysis := by
  unfold headersStage
  rw [if_pos stands]
  cases parsed : conn.http.parseHeaders with
  | error fault => simp
  | ok result =>
      obtain ⟨_ | _ | _, http⟩ := result
      · have kept : http.httpMethod ≠ .post := by
          obtain ⟨bufferIn, parseState, headers, rfl⟩ := HttpData.parseHeaders_eq parsed
          simp [get]
        simp [kept, eq_comm]
      · simp
      · simp

/-- `STATE_ANALYSIS` finishes a request that it does not fail. -/
theorem back_finishes_iff {flow : Flow} {done : Conn} (stands : conn.http.processState = .analysis)
    (unfailed : conn.http.isError = false) :
    (back conn = .ok (flow, done) ∧ done.http.isError = false) ↔
      (conn.http.analyzeRequest conn.io.files).state = .success ∧ flow = .leave ∧
        done =
          { conn with http := (conn.http.analyzeRequest conn.io.files).http }.enter .finish := by
  have skips : bodyStage conn = .ok (.goOn, conn) := by
    rw [bodyStage, if_neg (by rw [stands]; decide)]
  obtain ⟨keepAlive, bufferOut, analyzed, -⟩ := conn.http.analyzeRequest_eq conn.io.files
  unfold back Stage.before
  rw [skips]
  simp only [analysisStage, if_pos stands]
  cases state : (conn.http.analyzeRequest conn.io.files).state with
  | success =>
      rw [HttpData.analyzeRequest_unreported state]
      constructor
      · rintro ⟨ran, -⟩
        cases ran
        exact ⟨rfl, rfl, rfl⟩
      · rintro ⟨-, rfl, rfl⟩
        exact ⟨rfl, by rw [analyzed]; exact unfailed⟩
  | error =>
      constructor
      · rintro ⟨ran, kept⟩
        cases ran
        cases kept
      · rintro ⟨none, -⟩
        cases none

/-- What a complete request that resolves says, and what is answered to it. -/
structure Reading (files : FileSystem) (request response : Str) where
  target : Str
  block : Str
  read : HttpData
  named : HttpData
  last : HeaderScan
  asked : HttpData
  split : request = "GET ".toList ++ target ++ '\r' :: block
  absent : '\r' ∉ target
  line : read.parseTarget ("GET ".toList ++ target) 0 = .ok (.success, named)
  stopped : scanHeaders block block 0 (.enter .start .empty) = .stopped block.length last
  ended : last.parseState = .endLf
  unfinished : last.finished = false
  httpMethod : asked.httpMethod = .get
  fileName : asked.fileName = named.fileName
  headers : asked.headers = last.headers
  bufferOut : asked.bufferOut = []
  succeeds : (asked.analyzeRequest files).state = .success
  answer : (asked.analyzeRequest files).http.bufferOut = response
  positive : 0 ≤ toInt (toSize request.length)


/-- Writing after the loop discards no input. -/
theorem flush_log (conn : Conn) :
    ∃ actions : List Action,
      conn.flush.loop.log = conn.loop.log ++ actions.map (Prod.mk conn.http.fd) ∧
      ∀ discarded, Action.clearInput discarded ∉ actions := by
  unfold flush handleWrite
  split
  · split
    · split
      · exact ⟨[.writen conn.http.bufferOut], rfl, by simp⟩
      · exact ⟨[], by simp, by simp⟩
    · exact ⟨[], by simp, by simp⟩
  · exact ⟨[], by simp, by simp⟩

/-- A stage before the body that ends the loop leaves the request unanswered. -/
theorem Proceeds.not_left {ready : HttpData → Prop} {before after : Conn}
    (proceeds : Proceeds ready before .leave after) (unfailed : after.http.isError = false)
    (finished : after.http.processState = .finish) : False := by
  rcases proceeds with ⟨none, -⟩ | ⟨-, ⟨-, between⟩ | refuses⟩
  · cases none
  · exact between.unfinished finished
  · simp [refuses.failed] at unfailed

/-- A request that is answered and written whole has been answered with what was sent. -/
theorem back_sends {asking done : Conn} {flow : Flow}
    (stands : asking.http.processState = .analysis) (healthy : asking.http.Healthy)
    (takes : Takes asking.io.writes) (ran : back asking = .ok (flow, done))
    (unfailed : done.http.isError = false) :
    (asking.http.analyzeRequest asking.io.files).state = .success ∧
      done.flush.io.sent =
        asking.io.sent ++ (asking.http.analyzeRequest asking.io.files).http.bufferOut := by
  obtain ⟨succeeds, -, ends⟩ := (back_finishes_iff stands healthy.unfailed).mp ⟨ran, unfailed⟩
  obtain ⟨_, _, analyzed, -⟩ := asking.http.analyzeRequest_eq asking.io.files
  have connected : done.http.connectionState ≠ .disconnected := by
    rw [ends]
    show (asking.http.analyzeRequest asking.io.files).http.connectionState ≠ _
    rw [analyzed]
    exact fun gone => by cases healthy.connected.symm.trans gone
  have written := (flush_takes unfailed connected (by rw [ends]; exact takes)).2
  refine ⟨succeeds, written.trans ?_⟩
  rw [ends]
  rfl

/-- **A request that resolves is read in one way**, whatever it is read from. -/
theorem Resolves.reading {fd : Fd} {files : FileSystem} {request response : Str}
    (complete : CompleteGet request) (fits : request.length < npos)
    (resolves : Resolves fd files request response) :
    Nonempty (Reading files request response) := by
  obtain ⟨flow, done, ran, unfailed, finished, sent⟩ := resolves
  obtain ⟨target, block, split, absent⟩ := complete.line
  have ready : Ready (alone fd files request).http := ⟨⟨rfl, rfl⟩, rfl, rfl, rfl, rfl, rfl, rfl⟩
  obtain ⟨rest, read⟩ := readStage_ready ready
    (show delivered [.data request] = some request by simp [delivered])
  unfold stages at ran
  -- the request is read
  rcases Stage.before_ok ran with ⟨rfl, left⟩ | ⟨arrived, went, ran⟩
  · rw [read] at left
    split at left <;> cases left
    simp [handleError, record, fail] at unfailed
  rw [read] at went
  split at went
  · cases went
  rename_i positive
  cases went
  -- its line is read
  rcases Stage.before_ok ran with ⟨rfl, left⟩ | ⟨arrived, went, ran⟩
  · exact ((uriStage_proceeds rfl (.inl rfl) left).not_left unfailed finished).elim
  obtain ⟨named, line, rfl⟩ := (uriStage_goOn_iff rfl rfl split absent fits).mp went
  obtain ⟨fileName, version, same⟩ := HttpData.parseTarget_eq line
  have method : named.httpMethod = .get := by rw [same]
  have output : named.bufferOut = [] := by rw [same]; rfl
  have healthy : named.Healthy := by rw [same]; exact ⟨rfl, rfl⟩
  -- its block is read
  rcases Stage.before_ok ran with ⟨rfl, left⟩ | ⟨arrived, went, ran⟩
  · exact ((headersStage_proceeds healthy.unfailed (.inl rfl) left).not_left unfailed finished).elim
  obtain ⟨parsed, headers, rfl⟩ := (headersStage_goOn_iff rfl method).mp went
  obtain ⟨j, last, bufferIn, stopped, ended, after⟩ := HttpData.parseHeaders_success headers
  have scanned : scanHeaders block block 0 (.enter .start .empty) = .stopped j last := by
    change scanHeaders named.bufferIn named.bufferIn 0 (.enter named.parseState named.headers) =
      .stopped j last at stopped
    rw [same] at stopped
    exact stopped
  obtain ⟨rfl, unfinished⟩ := complete.scan_end split scanned ended
  -- and it is answered
  have healthy' : parsed.Healthy := by rw [after]; exact ⟨healthy.unfailed, healthy.connected⟩
  obtain ⟨succeeds, written⟩ := back_sends rfl ⟨healthy'.unfailed, healthy'.connected⟩ takes_nil
    ran unfailed
  exact ⟨{
    target := target
    block := block
    read := { ((alone fd files request).received request rest).http with
      bufferIn := block, httpMethod := .get }
    named := named
    last := last
    asked := { parsed with processState := .analysis }
    split := split
    absent := absent
    line := line
    stopped := scanned
    ended := ended
    unfinished := unfinished
    httpMethod := by rw [after]; exact method
    fileName := by rw [after]; rfl
    headers := by rw [after]
    bufferOut := by rw [after]; exact output
    succeeds := succeeds
    answer := written.symm.trans sent
    positive := Int.not_lt.mp positive }⟩

/-! ## The first of several requests -/

/-- The loop after the first request of several: it is answered, and of the bytes after it
these are left. -/
structure FirstAnswered (before : Conn) (response left : Str) (after : Conn) : Prop where
  healthy : after.http.Healthy
  finished : after.http.processState = .finish
  bufferOut : after.http.bufferOut = response
  bufferIn : after.http.bufferIn = left
  fd : after.http.fd = before.http.fd
  sent : after.io.sent = before.io.sent
  writes : after.io.writes = before.io.writes
  log : after.loop.log = before.loop.log

/-- A connection in the middle of a `GET` request, with these bytes in its buffer and the
rest as it was before. -/
structure Holds (before : Conn) (bufferIn : Str) (after : Conn) : Prop where
  healthy : after.http.Healthy
  bufferIn : after.http.bufferIn = bufferIn
  bufferOut : after.http.bufferOut = []
  httpMethod : after.http.httpMethod = .get
  fd : after.http.fd = before.http.fd
  io : ∃ reads, after.io = { before.io with reads := reads }
  loop : after.loop = before.loop

theorem Stage.before_goOn {first second : Stage} {middle : Conn}
    (went : first conn = .ok (.goOn, middle)) : first.before second conn = second middle := by
  unfold Stage.before
  rw [went]

variable {request response more : Str}

/-- The request line is read. -/
theorem uriStage_first (ready : Ready conn.http) {files : FileSystem}
    (reading : Reading files request response) (rest : List ReadResult)
    (fits : (request ++ more).length < npos) :
    ∃ middle, uriStage (conn.received (request ++ more) rest) = .ok (.goOn, middle) ∧
      Holds conn (reading.block ++ more) middle ∧
      middle.http.fileName = reading.named.fileName ∧ middle.http.processState = .parseHeaders ∧
      middle.http.parseState = .start ∧ middle.http.headers = HeaderMap.empty := by
  have buffer : (conn.received (request ++ more) rest).http.bufferIn =
      "GET ".toList ++ reading.target ++ '\r' :: (reading.block ++ more) := by
    show request ++ more = _
    conv_lhs => rw [reading.split]
    rw [List.append_assoc, List.cons_append]
  have went := (@uriStage_goOn_iff (conn.received (request ++ more) rest) _ _ _ ready.processState
    ready.readCur buffer reading.absent fits).mpr
      ⟨_, HttpData.parseTarget_other reading.line _, rfl⟩
  refine ⟨_, went, ⟨?_, rfl, ready.bufferOut, rfl, rfl, ⟨rest, rfl⟩, rfl⟩, rfl, rfl,
    ready.parseState, ready.headers⟩
  exact ⟨ready.healthy.unfailed, ready.healthy.connected⟩

/-- The block is read, and one character of what follows it. -/
theorem headersStage_first {files : FileSystem} (reading : Reading files request response)
    {middle : Conn} (holds : Holds conn (reading.block ++ more) middle)
    (fileName : middle.http.fileName = reading.named.fileName)
    (stands : middle.http.processState = .parseHeaders) (start : middle.http.parseState = .start)
    (headers : middle.http.headers = HeaderMap.empty) :
    ∃ asking, headersStage middle = .ok (.goOn, asking) ∧ Holds conn (more.drop 1) asking ∧
      asking.http.processState = .analysis ∧ HttpData.AsksSame reading.asked asking.http := by
  have parsed := HttpData.parseHeaders_more holds.bufferIn start
    (by rw [headers]; exact reading.stopped) reading.ended reading.unfinished
  refine ⟨_, (headersStage_goOn_iff stands holds.httpMethod).mpr ⟨_, parsed, rfl⟩, ?_, rfl, ?_⟩
  · refine ⟨?_, rfl, holds.bufferOut, holds.httpMethod, holds.fd, holds.io, holds.loop⟩
    exact ⟨holds.healthy.unfailed, holds.healthy.connected⟩
  · exact
      { httpMethod := holds.httpMethod.trans reading.httpMethod.symm
        fileName := fileName.trans reading.fileName.symm
        headers := reading.headers.symm
        bufferOut := holds.bufferOut.trans reading.bufferOut.symm }

/-- The request is answered. -/
theorem back_first (reading : Reading conn.io.files request response) {asking : Conn} {left : Str}
    (holds : Holds conn left asking) (stands : asking.http.processState = .analysis)
    (asks : HttpData.AsksSame reading.asked asking.http) :
    ∃ done, back asking = .ok (.leave, done) ∧ FirstAnswered conn response left done := by
  obtain ⟨reads, io⟩ := holds.io
  have files : asking.io.files = conn.io.files := by rw [io]
  obtain ⟨state, -, output⟩ := asks.analyzeRequest conn.io.files
  rw [reading.succeeds] at state
  rw [reading.answer] at output
  obtain ⟨keepAlive, bufferOut, analyzed, -⟩ := asking.http.analyzeRequest_eq asking.io.files
  obtain ⟨ends, unfailed⟩ := (back_finishes_iff stands holds.healthy.unfailed).mpr
    ⟨by rw [files]; exact state, rfl, rfl⟩
  refine ⟨_, ends, ⟨unfailed, ?_⟩, rfl, ?_, ?_, ?_, ?_, ?_, ?_⟩
  · show (HttpData.analyzeRequest asking.io.files asking.http).http.connectionState = _
    rw [analyzed]
    exact holds.healthy.connected
  · show (HttpData.analyzeRequest asking.io.files asking.http).http.bufferOut = _
    rw [files]
    exact output
  · show (HttpData.analyzeRequest asking.io.files asking.http).http.bufferIn = _
    rw [analyzed]
    exact holds.bufferIn
  · show (HttpData.analyzeRequest asking.io.files asking.http).http.fd = _
    rw [analyzed]
    exact holds.fd
  · show asking.io.sent = _
    rw [io]
  · show asking.io.writes = _
    rw [io]
  · show asking.loop.log = _
    rw [holds.loop]

/-- **The loop of `handle_read` answers the first request**, unless the bytes are too many
for the `int` that counts them. -/
theorem stages_first (ready : Ready conn.http) (reading : Reading conn.io.files request response)
    (arrives : delivered conn.io.reads = some (request ++ more))
    (fits : (request ++ more).length < npos) :
    ∃ done, stages conn = .ok (.leave, done) ∧
      (toInt (toSize (request ++ more).length) < 0 ∧ done.http.isError = true ∨
        FirstAnswered conn response (more.drop 1) done) := by
  obtain ⟨rest, read⟩ := readStage_ready ready arrives
  unfold stages
  by_cases negative : toInt (toSize (request ++ more).length) < 0
  · rw [if_pos negative] at read
    refine ⟨(conn.received (request ++ more) rest).fail.handleError badRequest, ?_, ?_⟩
    · unfold Stage.before
      rw [read]
    · exact .inl ⟨negative, rfl⟩
  · rw [if_neg negative] at read
    obtain ⟨middle, lineRead, holds, fileName, stands, start, headers⟩ :=
      uriStage_first ready reading rest fits
    obtain ⟨asking, blockRead, holds, stands, asks⟩ :=
      headersStage_first reading holds fileName stands start headers
    obtain ⟨done, ends, answered⟩ := back_first reading holds stands asks
    refine ⟨done, ?_, .inr answered⟩
    rw [Stage.before_goOn read, Stage.before_goOn lineRead, Stage.before_goOn blockRead]
    exact ends

theorem seperateTimer_io (conn : Conn) : conn.seperateTimer.io = conn.io := by
  unfold seperateTimer
  split <;> rfl

/-- `reset` touches neither the socket nor the files. -/
theorem reset_io (conn : Conn) : conn.reset.io = conn.io := seperateTimer_io _

/-- **After the first request** its response has been sent, and what is left in the buffer
is discarded. -/
theorem finishRead_first {done : Conn} {response left : Str}
    (answered : FirstAnswered conn response left done) (takes : Takes conn.io.writes) :
    done.finishRead.http.isError = false ∧ done.finishRead.http.bufferIn = [] ∧
      done.finishRead.io.sent = conn.io.sent ++ response ∧
      ∀ discarded, .clearInput discarded ∈ loggedSince conn done.finishRead ↔ discarded = left := by
  obtain ⟨healthy, finished, bufferOut, bufferIn, fd, sent, writes, log⟩ := answered
  have connected : done.http.connectionState ≠ .disconnected := by
    rw [healthy.connected]
    decide
  obtain ⟨http, written⟩ := flush_takes healthy.unfailed connected (by rw [writes]; exact takes)
  obtain ⟨actions, logged, quiet⟩ := flush_log done
  obtain ⟨timer, cleared, log'⟩ := reset_keeps done.flush
  have resets : done.finishRead = done.flush.reset := by
    unfold finishRead
    rw [if_pos]
    rw [http]
    exact ⟨healthy.unfailed, finished⟩
  rw [resets]
  refine ⟨?_, ?_, ?_, fun discarded => ?_⟩
  · rw [cleared, http]
    exact healthy.unfailed
  · rw [cleared]
    rfl
  · rw [reset_io, written, sent, bufferOut]
  · have since : loggedSince conn done.flush.reset = actions ++ [.clearInput left] := by
      refine @loggedSince_eq conn _ conn.http.fd _ ?_
      rw [log', logged, log, http, fd, bufferIn]
      simp
    rw [since]
    simp [quiet discarded]

/-- A connection that has failed stays as it is. -/
theorem finishRead_failed {done : Conn} (failed : done.http.isError = true) :
    done.finishRead = done := by
  have unflushed : done.flush = done := by
    unfold flush
    rw [if_neg (by simp [failed])]
  unfold finishRead
  rw [unflushed, if_neg (by simp [failed]), awaitInput, if_neg (by simp [failed])]

/-- **Requests that arrive together are all answered exactly when there is one.** -/
theorem pipelined_iff {requests responses : List Str} (ready : Ready conn.http)
    (served : List.Forall₂ (fun request response => CompleteGet request ∧
      Resolves conn.http.fd conn.io.files request response) requests responses)
    (nonempty : requests ≠ []) (arrives : delivered conn.io.reads = some requests.flatten)
    (fits : requests.flatten.length < npos) (takes : Takes conn.io.writes) :
    (∃ after, conn.handleRead = .ok after ∧ Pipelined conn responses after) ↔
      requests.length = 1 := by
  cases served with
  | nil => exact absurd rfl nonempty
  | @cons request response requests responses first others =>
      obtain ⟨complete, resolves⟩ := first
      rw [List.flatten_cons] at arrives fits
      have fits' : request.length < npos := by
        rw [List.length_append] at fits
        omega
      obtain ⟨reading⟩ := resolves.reading complete fits'
      obtain ⟨done, looped, ends⟩ := stages_first ready reading arrives fits
      have ran : conn.handleRead = .ok done.finishRead := by
        rw [handleRead_eq, looped]
        rfl
      rcases ends with ⟨negative, failed⟩ | answered
      · -- the bytes are counted as a negative number, which one request alone is not
        refine iff_of_false ?_ fun one => ?_
        · rintro ⟨after, ran', pipelined⟩
          cases ran.symm.trans ran'
          have unfailed := pipelined.unfailed
          rw [finishRead_failed failed, failed] at unfailed
          cases unfailed
        · rw [List.length_cons, Nat.add_eq_right, List.length_eq_zero_iff] at one
          subst one
          rw [List.flatten_nil, List.append_nil] at negative
          exact absurd negative (Int.not_lt.mpr reading.positive)
      · obtain ⟨unfailed, consumed, sent, discards⟩ := finishRead_first answered takes
        cases others with
        | nil =>
            refine iff_of_true ⟨_, ran, unfailed, ?_, consumed, fun discarded member => ?_⟩ rfl
            · rw [sent, List.flatten_cons, List.flatten_nil, List.append_nil]
            · exact (discards discarded).mp member
        | @cons second _ _ _ next _ =>
            refine iff_of_false ?_ fun one => by simp at one
            rintro ⟨after, ran', pipelined⟩
            cases ran.symm.trans ran'
            have nothing := pipelined.undiscarded _ ((discards _).mpr rfl)
            have long := next.1.ends.length_le
            rw [List.flatten_cons, List.drop_eq_nil_iff, List.length_append] at nothing
            have four : blankLine.length = 4 := rfl
            omega

/-- A request for the fixed text is complete and resolves. -/
theorem helloRequest_served :
    CompleteGet helloRequest ∧
      Resolves 5 Io.unused.files helloRequest HttpData.helloResponse := by
  refine ⟨⟨by decide, by decide, ?_⟩, _, _, rfl, rfl, rfl, rfl⟩
  intro before first blank
  have all : ∀ n < 30, blankLine <:+ helloRequest.take n → helloRequest.take n = helloRequest := by
    decide
  have cut := List.prefix_iff_eq_take.mp first
  rw [cut] at blank ⊢
  exact all before.length (Nat.lt_succ_of_le first.length_le) blank

/-- These requests arrive together on a new connection. -/
def arriving (requests : List Str) : Conn :=
  { http := HttpData.new 5
    io := Io.packet requests.flatten
    loop := Loop.new }

theorem arriving_ready (requests : List Str) : Ready (arriving requests).http :=
  ⟨⟨rfl, rfl⟩, rfl, rfl, rfl, rfl, rfl, rfl⟩

theorem oneHello_pipelined :
    ∃ after, (arriving [helloRequest]).handleRead = .ok after ∧
      Pipelined (arriving [helloRequest]) [HttpData.helloResponse] after :=
  (pipelined_iff (arriving_ready _) (.cons helloRequest_served .nil) (by decide) rfl (by decide)
    takes_nil).mpr rfl

/-- Two requests for the fixed text arrive together, and the second is not answered. -/
theorem twoHellos_notPipelined :
    CompleteGet helloRequest ∧ Resolves 5 Io.unused.files helloRequest HttpData.helloResponse ∧
      ¬ ∃ after, (arriving [helloRequest, helloRequest]).handleRead = .ok after ∧
        Pipelined (arriving [helloRequest, helloRequest])
          [HttpData.helloResponse, HttpData.helloResponse] after := by
  refine ⟨helloRequest_served.1, helloRequest_served.2, ?_⟩
  rintro ⟨after, ran, pipelined⟩
  obtain ⟨flow, done, looped, sent⟩ : ∃ flow done,
      stages (arriving [helloRequest, helloRequest]) = .ok (flow, done) ∧
        done.finishRead.io.sent = HttpData.helloResponse := ⟨_, _, rfl, rfl⟩
  rw [handleRead_eq, looped] at ran
  cases ran
  have both := pipelined.sent
  rw [sent] at both
  exact absurd both (by decide)

end Conn

end FastWebServer
