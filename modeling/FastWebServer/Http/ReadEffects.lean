import Mathlib.Data.List.Nodup
import FastWebServer.Http.Handlers

/-!
# What reading a request can do

`handle_read` changes the request that is being read. Everything else about the
connection stays as it is, up to two points: a failure is noted in `is_error_`
and may disconnect, and `reset` clears the timer of a finished request.

Each stage of the loop is `Steady`: descriptor, channel and timer are not
touched, and the log grows by actions that open or close nothing. The stages
compose (`stages_steady`). `handleRead_effect` is the resulting rule for the whole
function: what it asks the poller for (`Asked`), and that a connection that did
not fail is still connected, is not kept alive and waits for its output to be
taken.
-/

set_option autoImplicit false

namespace FastWebServer

open Cxx

/-- The actions of a handler that neither ends the connection nor registers it. -/
def Action.quiet : Action → Bool
  | .writen _ => true
  | .handleError _ => true
  | .clearInput _ => true
  | _ => false

/-! ## The members a parser changes -/

namespace HttpData

variable {http http' : HttpData}

theorem parseVersion_eq {line : Str} {cur : ℕ} {state : URIState}
    (parsed : http.parseVersion line cur = .ok (state, http')) :
    ∃ version, http' = { http with httpVersion := version } := by
  simp only [parseVersion] at parsed
  split at parsed
  · cases parsed
    exact ⟨http.httpVersion, rfl⟩
  · split at parsed
    · cases parsed
      exact ⟨http.httpVersion, rfl⟩
    · split at parsed
      · cases parsed
      · split at parsed
        · cases parsed
          exact ⟨_, rfl⟩
        · split at parsed <;> cases parsed
          · exact ⟨_, rfl⟩
          · exact ⟨http.httpVersion, rfl⟩

theorem parseTarget_eq {line : Str} {cur : ℕ} {state : URIState}
    (parsed : http.parseTarget line cur = .ok (state, http')) :
    ∃ fileName version, http' = { http with fileName := fileName, httpVersion := version } := by
  simp only [parseTarget] at parsed
  split at parsed
  · cases parsed
    exact ⟨_, _, rfl⟩
  · split at parsed
    · cases parsed
      exact ⟨http.fileName, http.httpVersion, rfl⟩
    · split at parsed
      · cases parsed
      · obtain ⟨version, rfl⟩ := parseVersion_eq parsed
        exact ⟨_, version, rfl⟩

/-- A request line tells the method, the file name and the version. -/
theorem parseRequestLine_eq {line : Str} {state : URIState}
    (parsed : http.parseRequestLine line = .ok (state, http')) :
    ∃ method fileName version,
      http' = { http with httpMethod := method, fileName := fileName, httpVersion := version } := by
  simp only [parseRequestLine] at parsed
  split at parsed
  · obtain ⟨fileName, version, rfl⟩ := parseTarget_eq parsed
    exact ⟨.get, fileName, version, rfl⟩
  · split at parsed
    · obtain ⟨fileName, version, rfl⟩ := parseTarget_eq parsed
      exact ⟨.post, fileName, version, rfl⟩
    · split at parsed
      · obtain ⟨fileName, version, rfl⟩ := parseTarget_eq parsed
        exact ⟨.head, fileName, version, rfl⟩
      · cases parsed
        exact ⟨http.httpMethod, http.fileName, http.httpVersion, rfl⟩

theorem parseURI_eq {state : URIState} (parsed : http.parseURI = .ok (state, http')) :
    ∃ bufferIn method fileName version,
      http' = { http with
        bufferIn := bufferIn, httpMethod := method, fileName := fileName
        httpVersion := version } := by
  simp only [parseURI] at parsed
  split at parsed
  · cases parsed
    exact ⟨http.bufferIn, http.httpMethod, http.fileName, http.httpVersion, rfl⟩
  · split at parsed
    · obtain ⟨method, fileName, version, rfl⟩ := parseRequestLine_eq parsed
      exact ⟨_, method, fileName, version, rfl⟩
    · cases parsed
    · cases parsed

theorem parseHeaders_eq {state : HeaderState} (parsed : http.parseHeaders = .ok (state, http')) :
    ∃ bufferIn parseState headers,
      http' = { http with
        bufferIn := bufferIn, parseState := parseState, headers := headers } := by
  simp only [parseHeaders] at parsed
  split at parsed
  · cases parsed
  · cases parsed
    exact ⟨http.bufferIn, _, _, rfl⟩
  · split at parsed <;> split at parsed <;> cases parsed <;> exact ⟨_, _, _, rfl⟩

theorem noteKeepAlive_eq (http : HttpData) :
    ∃ keepAlive, http.noteKeepAlive = { http with keepAlive := keepAlive } := by
  unfold noteKeepAlive
  split
  · exact ⟨true, rfl⟩
  · exact ⟨http.keepAlive, rfl⟩

theorem serveFile_eq (files : FileSystem) (http : HttpData) :
    ∃ bufferOut, (http.serveFile files).http = { http with bufferOut := bufferOut } ∧
      ((http.serveFile files).state = .success → http.bufferOut ≠ [] → bufferOut ≠ []) := by
  unfold serveFile
  split
  · exact ⟨http.bufferOut, rfl, fun failed => by cases failed⟩
  · simp only
    split
    · exact ⟨http.bufferOut, rfl, fun _ pending => pending⟩
    · split
      · split
        · exact ⟨[], rfl, fun failed => by cases failed⟩
        · exact ⟨_, rfl, fun _ pending => by simp [pending]⟩
      · exact ⟨[], rfl, fun failed => by cases failed⟩

/-- An analysis appends to the output, or replaces it by something, unless it
fails. -/
theorem analyzeRequest_eq (files : FileSystem) (http : HttpData) :
    ∃ keepAlive bufferOut,
      (http.analyzeRequest files).http =
        { http with keepAlive := keepAlive, bufferOut := bufferOut } ∧
      ((http.analyzeRequest files).state = .success → http.bufferOut ≠ [] → bufferOut ≠ []) := by
  obtain ⟨keepAlive, noted⟩ := http.noteKeepAlive_eq
  obtain ⟨bufferOut, served, kept⟩ := http.noteKeepAlive.serveFile_eq files
  rw [noted] at served kept
  unfold analyzeRequest
  split
  · exact ⟨http.keepAlive, http.bufferOut, rfl, fun failed => by cases failed⟩
  all_goals
    simp only [noted]
    split
    · exact ⟨keepAlive, helloResponse, rfl, fun _ _ => by decide⟩
    · split
      · exact ⟨keepAlive, _, rfl, fun _ pending => by simp [pending]⟩
      · exact ⟨keepAlive, bufferOut, served, kept⟩

end HttpData

/-! ## The stages -/

/-- What a stage keeps. A stage that goes on does not touch `keep_alive_`. -/
structure Steady (flow : Conn.Flow) (before after : Conn) : Prop where
  fd : after.http.fd = before.http.fd
  channel : after.http.channel = before.http.channel
  timer : after.http.timer = before.http.timer
  loop : ∃ actions : List Action, (∀ action ∈ actions, action.quiet = true) ∧
    after.loop =
      { before.loop with log := before.loop.log ++ actions.map (Prod.mk before.http.fd) }
  sound : after.http.isError = false →
    before.http.isError = false ∧ after.http.connectionState = before.http.connectionState
  keepAlive : after.http.keepAlive = before.http.keepAlive ∨
    flow = .leave ∧ (after.http.isError = true ∨ after.http.processState = .finish)
  pending : after.http.isError = false → before.http.bufferOut ≠ [] → after.http.bufferOut ≠ []

namespace Steady

variable {flow : Conn.Flow} {first second third : Conn}

/-- A change of the request and of the socket. -/
theorem of_request {before after : Conn} (fd : after.http.fd = before.http.fd)
    (channel : after.http.channel = before.http.channel)
    (timer : after.http.timer = before.http.timer) (loop : after.loop = before.loop)
    (isError : after.http.isError = before.http.isError)
    (connectionState : after.http.connectionState = before.http.connectionState)
    (keepAlive : after.http.keepAlive = before.http.keepAlive)
    (bufferOut : after.http.bufferOut = before.http.bufferOut) : Steady flow before after where
  fd := fd
  channel := channel
  timer := timer
  loop := ⟨[], by simp, by simp [loop]⟩
  sound sound := ⟨isError ▸ sound, connectionState⟩
  keepAlive := .inl keepAlive
  pending _ pending := bufferOut ▸ pending

theorem refl (flow : Conn.Flow) (conn : Conn) : Steady flow conn conn :=
  of_request rfl rfl rfl rfl rfl rfl rfl rfl

theorem trans (earlier : Steady .goOn first second) (later : Steady flow second third) :
    Steady flow first third := by
  obtain ⟨actions, quiet, loop⟩ := earlier.loop
  obtain ⟨actions', quiet', loop'⟩ := later.loop
  have same : second.http.keepAlive = first.http.keepAlive :=
    earlier.keepAlive.resolve_right fun left => by cases left.1
  refine ⟨later.fd.trans earlier.fd, later.channel.trans earlier.channel,
    later.timer.trans earlier.timer, ⟨actions ++ actions', ?_, ?_⟩, ?_, ?_, ?_⟩
  · intro action member
    exact (List.mem_append.mp member).elim (quiet action) (quiet' action)
  · rw [loop', loop, earlier.fd]
    simp
  · intro sound
    obtain ⟨sound, connection⟩ := later.sound sound
    exact ⟨(earlier.sound sound).1, connection.trans (earlier.sound sound).2⟩
  · rw [← same]
    exact later.keepAlive
  · intro sound pending
    exact later.pending sound (earlier.pending (later.sound sound).1 pending)

end Steady

/-- A stage that keeps what `Steady` says. -/
def Conn.Stage.Keeps (stage : Conn.Stage) : Prop :=
  ∀ conn flow conn', stage conn = .ok (flow, conn') → Steady flow conn conn'

namespace Conn

/-- A failed connection is steady, whatever becomes of its other members. -/
theorem steady_failed {before after : Conn} (actions : List Action)
    (fd : after.http.fd = before.http.fd) (channel : after.http.channel = before.http.channel)
    (timer : after.http.timer = before.http.timer)
    (quiet : ∀ action ∈ actions, action.quiet = true)
    (loop : after.loop =
      { before.loop with log := before.loop.log ++ actions.map (Prod.mk before.http.fd) })
    (failed : after.http.isError = true) : Steady .leave before after where
  fd := fd
  channel := channel
  timer := timer
  loop := ⟨actions, quiet, loop⟩
  sound sound := by simp [failed] at sound
  keepAlive := .inr ⟨rfl, .inl failed⟩
  pending sound := by simp [failed] at sound

theorem keeps_before {first second : Stage} (earlier : first.Keeps) (later : second.Keeps) :
    (first.before second).Keeps := by
  intro conn flow conn' ran
  unfold Stage.before at ran
  split at ran
  · cases ran
  · rename_i left
    cases ran
    exact earlier _ _ _ left
  · rename_i went
    exact (earlier _ _ _ went).trans (later _ _ _ ran)

theorem readStage_keeps : readStage.Keeps := by
  intro conn flow conn' ran
  simp only [readStage] at ran
  split at ran
  · cases ran
    exact .of_request rfl rfl rfl rfl rfl rfl rfl rfl
  · split at ran
    · cases ran
      exact steady_failed [.handleError badRequest] rfl rfl rfl (by simp [Action.quiet]) rfl rfl
    · split at ran
      · have ended : ∀ flow, Steady flow conn
            { conn with
              http := { conn.http with
                bufferIn := (readn conn.io.reads conn.http.bufferIn).buffer
                isError := true
                connectionState := .disconnected }
              io := { conn.io with reads := (readn conn.io.reads conn.http.bufferIn).rest } } :=
          fun flow =>
            ⟨rfl, rfl, rfl, ⟨[], by simp, by simp⟩, fun sound => by simp at sound, .inl rfl,
              fun sound => by simp at sound⟩
        split at ran <;> cases ran
        · exact ended .leave
        · exact ended .goOn
      · cases ran
        exact .of_request rfl rfl rfl rfl rfl rfl rfl rfl

theorem uriStage_keeps : uriStage.Keeps := by
  intro conn flow conn' ran
  simp only [uriStage] at ran
  split at ran
  · split at ran
    · cases ran
    · rename_i http parsed
      cases ran
      obtain ⟨_, _, _, _, rfl⟩ := HttpData.parseURI_eq parsed
      exact .of_request rfl rfl rfl rfl rfl rfl rfl rfl
    · rename_i http parsed
      cases ran
      obtain ⟨_, _, _, _, rfl⟩ := HttpData.parseURI_eq parsed
      exact steady_failed [.handleError badRequest] rfl rfl rfl (by simp [Action.quiet]) rfl rfl
    · rename_i http parsed
      cases ran
      obtain ⟨_, _, _, _, rfl⟩ := HttpData.parseURI_eq parsed
      exact .of_request rfl rfl rfl rfl rfl rfl rfl rfl
  · cases ran
    exact .refl _ _

theorem headersStage_keeps : headersStage.Keeps := by
  intro conn flow conn' ran
  simp only [headersStage] at ran
  split at ran
  · split at ran
    · cases ran
    · rename_i http parsed
      cases ran
      obtain ⟨_, _, _, rfl⟩ := HttpData.parseHeaders_eq parsed
      exact .of_request rfl rfl rfl rfl rfl rfl rfl rfl
    · rename_i http parsed
      cases ran
      obtain ⟨_, _, _, rfl⟩ := HttpData.parseHeaders_eq parsed
      exact steady_failed [.handleError badRequest] rfl rfl rfl (by simp [Action.quiet]) rfl rfl
    · rename_i http parsed
      obtain ⟨_, _, _, rfl⟩ := HttpData.parseHeaders_eq parsed
      split at ran <;> cases ran <;> exact .of_request rfl rfl rfl rfl rfl rfl rfl rfl
  · cases ran
    exact .refl _ _

theorem bodyStage_keeps : bodyStage.Keeps := by
  intro conn flow conn' ran
  simp only [bodyStage] at ran
  split at ran
  · split at ran
    · cases ran
      exact steady_failed [.handleError lackOfContentLength] rfl rfl rfl (by simp [Action.quiet]) rfl
        rfl
    · split at ran
      · cases ran
      · split at ran <;> cases ran
        · exact .refl _ _
        · exact .of_request rfl rfl rfl rfl rfl rfl rfl rfl
  · cases ran
    exact .refl _ _

theorem reportError_eq (report : Option ErrorReport) (conn : Conn) :
    ∃ (io : Io) (actions : List Action), (∀ action ∈ actions, action.quiet = true) ∧
      reportError report conn =
        { conn with
          io := io
          loop := { conn.loop with
            log := conn.loop.log ++ actions.map (Prod.mk conn.http.fd) } } := by
  cases report with
  | none => exact ⟨conn.io, [], by simp, by simp [reportError]⟩
  | some report => exact ⟨_, [.handleError report], by simp [Action.quiet], rfl⟩

theorem analysisStage_keeps : analysisStage.Keeps := by
  intro conn flow conn' ran
  simp only [analysisStage] at ran
  split at ran
  · obtain ⟨keepAlive, bufferOut, analyzed, kept⟩ := conn.http.analyzeRequest_eq conn.io.files
    rw [analyzed] at ran
    obtain ⟨io, actions, quiet, reported⟩ :=
      reportError_eq (conn.http.analyzeRequest conn.io.files).report
        { conn with http := { conn.http with keepAlive := keepAlive, bufferOut := bufferOut } }
    rw [reported] at ran
    split at ran <;> cases ran
    · rename_i success
      exact ⟨rfl, rfl, rfl, ⟨actions, quiet, rfl⟩, fun sound => ⟨sound, rfl⟩,
        .inr ⟨rfl, .inr rfl⟩, fun _ => kept success⟩
    · exact steady_failed actions rfl rfl rfl quiet rfl rfl
  · cases ran
    exact .refl _ _

/-- **The loop of `handle_read` keeps the connection**, except that it may fail. -/
theorem stages_keeps : stages.Keeps :=
  keeps_before readStage_keeps <| keeps_before uriStage_keeps <|
    keeps_before headersStage_keeps <| keeps_before bodyStage_keeps analysisStage_keeps

end Conn

/-! ## Clearing the timer -/

/-- A connection that is guarded by one timer, or by none. -/
def Tended (http : HttpData) (loop : Loop) : Prop := Guarded http loop ∨ Unguarded http loop

/-- Clearing the timer that guards a connection leaves the other connections
guarded as they were. -/
theorem Loop.Orderly.live_clearTimer {loop : Loop} (orderly : loop.Orderly) {fd : Fd}
    {timer : Timer}
    (guards : live loop.timers fd = [timer]) :
    live (clearTimer timer.id loop.timers) fd = [] ∧
      ∀ other, other ≠ fd → live (clearTimer timer.id loop.timers) other = live loop.timers other := by
  have member : timer ∈ live loop.timers fd := by simp [guards]
  obtain ⟨queued, guarding⟩ := List.mem_filter.mp member
  refine ⟨by simp [FastWebServer.live_clearTimer, guards], fun other ne => ?_⟩
  rw [FastWebServer.live_clearTimer, List.filter_eq_self]
  intro timer' member'
  obtain ⟨queued', guarding'⟩ := List.mem_filter.mp member'
  rw [decide_eq_true_eq]
  intro same
  have equal := List.inj_on_of_nodup_map orderly.distinct queued' queued same
  subst equal
  simp only [Timer.guards, Bool.and_eq_true, decide_eq_true_eq] at guarding guarding'
  have equal := guarding'.2.symm.trans guarding.2
  exact ne (Option.some.inj equal)

theorem Loop.Orderly.clearTimer {loop : Loop} (orderly : loop.Orderly) (id : TimerId) :
    ({ loop with timers := clearTimer id loop.timers } : Loop).Orderly := by
  refine ⟨by simpa only [clearTimer_ids] using orderly.distinct, ?_, ?_⟩
  · intro timer member
    obtain ⟨before, queued, rfl⟩ := List.mem_map.mp member
    have fresh := orderly.fresh before queued
    split
    · exact fresh
    · exact fresh
  · intro timer member deleted
    obtain ⟨before, queued, rfl⟩ := List.mem_map.mp member
    split at deleted
    · rename_i same
      rw [if_pos same]
      rfl
    · rename_i different
      rw [if_neg different]
      exact orderly.holders before queued deleted

/-- **`seperate_timer` leaves its connection unguarded**, and the others as they
were. -/
theorem Conn.seperateTimer_eq {conn : Conn} (orderly : conn.loop.Orderly)
    (tended : Tended conn.http conn.loop) :
    ∃ timers, conn.seperateTimer =
        { conn with
          http := { conn.http with timer := none }
          loop := { conn.loop with timers := timers } } ∧
      ({ conn.loop with timers := timers } : Loop).Orderly ∧
      live timers conn.http.fd = [] ∧
      ∀ other, other ≠ conn.http.fd → live timers other = live conn.loop.timers other := by
  rcases tended with ⟨timer, guards, known⟩ | ⟨unguarded, unknown⟩
  · have queued : timer ∈ conn.loop.timers := by
      have member : timer ∈ live conn.loop.timers conn.http.fd := by simp [guards]
      exact (List.mem_filter.mp member).1
    have locked : conn.loop.lockTimer conn.http.timer = some timer.id := by
      rw [known]
      simp only [Loop.lockTimer, Option.filter_some, ite_eq_left_iff]
      intro absent
      exact absurd (List.any_eq_true.mpr ⟨timer, queued, by simp⟩) absent
    obtain ⟨cleared, others⟩ := orderly.live_clearTimer guards
    refine ⟨FastWebServer.clearTimer timer.id conn.loop.timers, ?_, orderly.clearTimer timer.id,
      cleared, others⟩
    simp only [seperateTimer, locked]
  · refine ⟨conn.loop.timers, ?_, orderly, unguarded, fun _ _ => rfl⟩
    have unlocked : conn.loop.lockTimer conn.http.timer = none := by
      rw [unknown]
      rfl
    simp only [seperateTimer, unlocked]
    rw [← unknown]

/-! ## After the loop -/

theorem Mask.meets_or_self (mask bits : Mask) (proper : bits ≠ 0#32) :
    (mask ||| bits).meets bits = true := by
  simp only [Mask.meets, bne_iff_ne]
  intro none
  apply proper
  have absorbed : (mask ||| bits) &&& bits = bits := by
    ext i
    simp only [BitVec.getElem_and, BitVec.getElem_or]
    cases bits[i] <;> simp
  rw [← absorbed, none]

namespace Conn

/-- `handle_write` changes the output, the error and the mask, and asks for what is left. -/
theorem afterWriten_eq (http : HttpData) (wrote : Writen) :
    ∃ events, afterWriten http wrote =
        { http with
          bufferOut := wrote.buffer
          isError := decide (wrote.ret < 0) || http.isError
          channel := { http.channel with events := events } } ∧
      (wrote.buffer ≠ [] → events.meets epollOut = true) := by
  have asks : ∀ mask : Mask, (mask ||| epollOut).meets epollOut = true := fun mask =>
    Mask.meets_or_self mask epollOut (by decide)
  have taken : ¬ 0 < wrote.buffer.length → wrote.buffer = [] := fun none =>
    List.length_eq_zero_iff.mp (Nat.eq_zero_of_not_pos none)
  unfold afterWriten
  dsimp only
  by_cases failed : wrote.ret < 0
  · rw [if_pos failed, decide_eq_true failed]
    split
    · exact ⟨_, rfl, fun _ => asks _⟩
    · rename_i none
      exact ⟨_, rfl, fun remains => absurd (taken none) remains⟩
  · rw [if_neg failed, decide_eq_false failed, Bool.false_or]
    split
    · exact ⟨_, rfl, fun _ => asks _⟩
    · rename_i none
      exact ⟨_, rfl, fun remains => absurd (taken none) remains⟩

/-- Writing after the loop: the output is taken, or more is asked for, or the
connection fails. -/
theorem flush_eq (conn : Conn) :
    ∃ (bufferOut : Str) (isError : Bool) (events : Mask) (io : Io) (actions : List Action),
      conn.flush =
        { http := { conn.http with
            bufferOut := bufferOut
            isError := isError
            channel := { conn.http.channel with events := events } }
          io := io
          loop := { conn.loop with
            log := conn.loop.log ++ actions.map (Prod.mk conn.http.fd) } } ∧
      (∀ action ∈ actions, action.quiet = true) ∧
      (isError = false → conn.http.isError = false) ∧
      (isError = false → conn.http.connectionState ≠ .disconnected →
        events = conn.http.channel.events ∧ bufferOut = [] ∨
          events = conn.http.channel.events ||| epollOut ∧ bufferOut ≠ []) ∧
      (isError = false → conn.http.connectionState ≠ .disconnected → conn.http.bufferOut ≠ [] →
        .writen conn.http.bufferOut ∈ actions) := by
  by_cases active : conn.http.isError = false ∧ 0 < conn.http.bufferOut.length ∧
      conn.http.connectionState ≠ .disconnected
  · obtain ⟨sound, pending, connected⟩ := active
    have written : conn.flush = conn.handleWrite := by
      simp only [flush, sound, pending, if_true]
    rw [written, handleWrite, if_pos ⟨sound, connected⟩]
    simp only [afterWriten]
    split
    · split
      · exact ⟨_, true, _, _, [.writen conn.http.bufferOut], rfl, by simp [Action.quiet],
          by simp, by simp, by simp⟩
      · exact ⟨_, true, _, _, [.writen conn.http.bufferOut], rfl, by simp [Action.quiet],
          by simp, by simp, by simp⟩
    · split
      · rename_i remains
        refine ⟨_, _, _, _, [.writen conn.http.bufferOut], rfl, by simp [Action.quiet], id,
          fun _ _ => .inr ⟨rfl, List.ne_nil_of_length_pos remains⟩, by simp⟩
      · rename_i taken
        refine ⟨_, _, _, _, [.writen conn.http.bufferOut], rfl, by simp [Action.quiet], id,
          fun _ _ => .inl ⟨rfl, ?_⟩, by simp⟩
        simpa using taken
  · have silent : conn.http.isError = false → conn.http.connectionState ≠ .disconnected →
        conn.http.bufferOut = [] := by
      intro unfailed connected
      by_contra pending
      exact active ⟨unfailed, List.length_pos_iff.mpr pending, connected⟩
    have unchanged : conn.flush = conn := by
      unfold flush
      split
      · rename_i sound
        split
        · rename_i pending
          rw [handleWrite, if_neg fun connected => active ⟨sound, pending, connected.2⟩]
        · rfl
      · rfl
    refine ⟨conn.http.bufferOut, conn.http.isError, conn.http.channel.events, conn.io, [], ?_,
      by simp, id, fun unfailed connected => .inl ⟨rfl, silent unfailed connected⟩,
      fun unfailed connected pending => absurd (silent unfailed connected) pending⟩
    rw [unchanged]
    simp

end Conn

/-- What `handle_read` has done when its loop is left and the output is written. -/
structure LoopEffect (before after : Conn) : Prop where
  fd : after.http.fd = before.http.fd
  channel : ∃ events, after.http.channel = { before.http.channel with events := events }
  timer : after.http.timer = before.http.timer
  loop : ∃ actions : List Action, (∀ action ∈ actions, action.quiet = true) ∧
    after.loop =
      { before.loop with log := before.loop.log ++ actions.map (Prod.mk before.http.fd) } ∧
    (after.http.isError = false → after.http.connectionState ≠ .disconnected →
      before.http.bufferOut ≠ [] → ∃ pending, pending ≠ [] ∧ Action.writen pending ∈ actions)
  sound : after.http.isError = false →
    before.http.isError = false ∧ after.http.connectionState = before.http.connectionState
  keepAlive : after.http.isError = false → after.http.processState ≠ .finish →
    after.http.keepAlive = before.http.keepAlive
  output : after.http.isError = false → after.http.connectionState ≠ .disconnected →
    after.http.channel.events = before.http.channel.events ∧ after.http.bufferOut = [] ∨
      after.http.channel.events = before.http.channel.events ||| epollOut ∧
        after.http.bufferOut ≠ []

theorem Conn.readLoop_effect {conn after : Conn} {flow : Conn.Flow}
    (ran : Conn.stages conn = .ok (flow, after)) : LoopEffect conn after.flush := by
  have steady := stages_keeps _ _ _ ran
  obtain ⟨bufferOut, isError, events, io, actions', flushed, quiet', sound, output, written⟩ :=
    flush_eq after
  obtain ⟨actions, quiet, loop⟩ := steady.loop
  rw [flushed]
  refine ⟨steady.fd, ⟨events, by rw [← steady.channel]⟩, steady.timer, ⟨actions ++ actions', ?_, ?_⟩,
    ?_, ?_, ?_⟩
  · intro action member
    exact (List.mem_append.mp member).elim (quiet action) (quiet' action)
  · refine ⟨by simp [loop, steady.fd], fun unfailed connected pending => ?_⟩
    have remains := steady.pending (sound unfailed) pending
    exact ⟨_, remains, List.mem_append_right _ (written unfailed connected remains)⟩
  · exact fun unfailed => steady.sound (sound unfailed)
  · intro unfailed unfinished
    refine steady.keepAlive.resolve_right fun left => left.2.elim (fun failed => ?_) unfinished
    simp [sound unfailed] at failed
  · rw [← steady.channel]
    exact output

/-! ## The rule for handle_read -/

/-- The masks that `handle_read` asks for, starting from the empty one. -/
def Asked (events : Mask) : Prop :=
  events = 0#32 ∨ events = epollIn ∨ events = epollOut ∨ events = epollOut ||| epollIn

/-- What `handle_read` keeps, and what it asks for. -/
structure ReadEffect (before after : Conn) : Prop where
  fd : after.http.fd = before.http.fd
  channel : ∃ events, after.http.channel = { before.http.channel with events := events }
  orderly : after.loop.Orderly
  tended : Tended after.http after.loop
  frame : Frame before.http.fd before.loop after.loop
  fdToChannel : after.loop.fdToChannel = before.loop.fdToChannel
  fdToHttp : after.loop.fdToHttp = before.loop.fdToHttp
  kernel : after.loop.kernel = before.loop.kernel
  log : ∃ actions : List Action, (∀ action ∈ actions, action.quiet = true) ∧
    after.loop.log = before.loop.log ++ actions.map (Prod.mk before.http.fd)
  sound : after.http.isError = false →
    before.http.isError = false ∧ after.http.connectionState = before.http.connectionState
  keepAlive : after.http.isError = false → before.http.keepAlive = false →
    after.http.keepAlive = false
  asked : after.http.isError = false → after.http.connectionState ≠ .disconnected →
    before.http.channel.events = 0#32 → Asked after.http.channel.events
  pending : after.http.isError = false → after.http.connectionState ≠ .disconnected →
    after.http.bufferOut ≠ [] → after.http.channel.events.meets epollOut = true

namespace LoopEffect

variable {before after : Conn}

theorem orderly (effect : LoopEffect before after) (orderly : before.loop.Orderly) :
    after.loop.Orderly := by
  obtain ⟨actions, -, loop, -⟩ := effect.loop
  exact orderly.congr (by rw [loop]) (by rw [loop])

theorem tended (effect : LoopEffect before after) (tended : Tended before.http before.loop) :
    Tended after.http after.loop := by
  obtain ⟨actions, -, loop, -⟩ := effect.loop
  simpa only [Tended, Guarded, Unguarded, effect.fd, effect.timer, loop] using tended

theorem frame (effect : LoopEffect before after) : Frame before.http.fd before.loop after.loop := by
  obtain ⟨actions, -, loop, -⟩ := effect.loop
  rw [loop]
  exact ⟨fun _ _ => rfl, fun _ _ => rfl, fun _ _ => rfl, fun _ _ => rfl, actions, rfl⟩

/-- The request is not finished: more input is asked for. -/
theorem awaitInput (effect : LoopEffect before after) (orderly : before.loop.Orderly)
    (tended : Tended before.http before.loop)
    (unfinished : after.http.isError = false → after.http.processState ≠ .finish) :
    ReadEffect before after.awaitInput := by
  obtain ⟨actions, quiet, loop, -⟩ := effect.loop
  obtain ⟨events, channel⟩ := effect.channel
  unfold Conn.awaitInput
  split
  · rename_i active
    refine
      { fd := effect.fd
        channel := ⟨_, by rw [HttpData.setEvents, channel]⟩
        orderly := effect.orderly orderly
        tended := effect.tended tended
        frame := effect.frame
        fdToChannel := by rw [loop]
        fdToHttp := by rw [loop]
        kernel := by rw [loop]
        log := ⟨actions, quiet, by rw [loop]⟩
        sound := effect.sound
        keepAlive := fun unfailed unkept =>
          (effect.keepAlive unfailed (unfinished unfailed)).trans unkept
        asked := fun unfailed connected empty => ?_
        pending := fun unfailed connected pending => ?_ }
    · show Asked (after.http.channel.events ||| epollIn)
      rcases effect.output unfailed connected with ⟨events, -⟩ | ⟨events, -⟩
      · rw [events, empty]
        exact .inr (.inl rfl)
      · rw [events, empty]
        exact .inr (.inr (.inr rfl))
    · show (after.http.channel.events ||| epollIn).meets epollOut = true
      rcases effect.output unfailed connected with ⟨-, taken⟩ | ⟨events, -⟩
      · exact absurd taken pending
      · rw [events, BitVec.or_assoc, BitVec.or_comm epollOut, ← BitVec.or_assoc]
        exact Mask.meets_or_self _ _ (by decide)
  · rename_i inactive
    have idle : after.http.isError = false → ¬ after.http.connectionState ≠ .disconnected :=
      fun unfailed connected => inactive ⟨unfailed, connected⟩
    exact
      { fd := effect.fd
        channel := effect.channel
        orderly := effect.orderly orderly
        tended := effect.tended tended
        frame := effect.frame
        fdToChannel := by rw [loop]
        fdToHttp := by rw [loop]
        kernel := by rw [loop]
        log := ⟨actions, quiet, by rw [loop]⟩
        sound := effect.sound
        keepAlive := fun unfailed unkept =>
          (effect.keepAlive unfailed (unfinished unfailed)).trans unkept
        asked := fun unfailed connected _ => absurd connected (idle unfailed)
        pending := fun unfailed connected _ => absurd connected (idle unfailed) }

/-- The request is finished: it is forgotten, and its timer is cleared. -/
theorem reset (effect : LoopEffect before after) (orderly : before.loop.Orderly)
    (tended : Tended before.http before.loop) (unfailed : after.http.isError = false) :
    ReadEffect before after.reset := by
  obtain ⟨actions, quiet, loop, -⟩ := effect.loop
  let forgotten : Conn :=
    { after.record (.clearInput after.http.bufferIn) with http := Conn.cleared after.http }
  have kept : forgotten.loop.Orderly := (effect.orderly orderly).congr rfl rfl
  have guarded : Tended forgotten.http forgotten.loop := effect.tended tended
  obtain ⟨timers, seperated, cleared, unguarded, others⟩ := Conn.seperateTimer_eq kept guarded
  have result : after.reset = { forgotten with
      http := { forgotten.http with timer := none }
      loop := { forgotten.loop with timers := timers } } := seperated
  have fdToChannel : after.loop.fdToChannel = before.loop.fdToChannel := by rw [loop]
  have fdToHttp : after.loop.fdToHttp = before.loop.fdToHttp := by rw [loop]
  have kernel : after.loop.kernel = before.loop.kernel := by rw [loop]
  have log : forgotten.loop.log = before.loop.log ++
      (actions ++ [Action.clearInput after.http.bufferIn]).map (Prod.mk before.http.fd) := by
    show after.loop.log ++ [(after.http.fd, Action.clearInput after.http.bufferIn)] = _
    rw [loop, effect.fd]
    simp
  rw [result]
  exact
    { fd := effect.fd
      channel := effect.channel
      orderly := cleared
      tended := .inr ⟨unguarded, rfl⟩
      frame :=
        { fdToChannel := fun _ _ => congrFun fdToChannel _
          fdToHttp := fun _ _ => congrFun fdToHttp _
          kernel := fun _ _ => congrFun kernel _
          live := fun other ne => by
            rw [← effect.fd] at ne
            exact (others other ne).trans (effect.frame.live other (effect.fd ▸ ne))
          log := ⟨_, log⟩ }
      fdToChannel := fdToChannel
      fdToHttp := fdToHttp
      kernel := kernel
      log := ⟨actions ++ [.clearInput after.http.bufferIn], fun action member =>
        (List.mem_append.mp member).elim (quiet action) fun last => by
          rw [List.mem_singleton.mp last]
          rfl, log⟩
      sound := effect.sound
      keepAlive := fun _ _ => rfl
      asked := fun _ connected empty => by
        show Asked after.http.channel.events
        rcases effect.output unfailed connected with ⟨events, -⟩ | ⟨events, -⟩
        · exact .inl (events.trans empty)
        · rw [events, empty]
          exact .inr (.inr (.inl rfl))
      pending := fun _ connected pending => by
        show after.http.channel.events.meets epollOut = true
        rcases effect.output unfailed connected with ⟨-, taken⟩ | ⟨events, -⟩
        · exact absurd taken pending
        · rw [events]
          exact Mask.meets_or_self _ _ (by decide) }

end LoopEffect

namespace Conn

/-- **The rule for `handle_read`.** -/
theorem handleRead_effect {conn after : Conn} (orderly : conn.loop.Orderly)
    (tended : Tended conn.http conn.loop) (ran : conn.handleRead = .ok after) :
    ReadEffect conn after := by
  rw [handleRead_eq] at ran
  cases looped : stages conn with
  | error fault => simp [looped, Except.map] at ran
  | ok result =>
      obtain ⟨flow, read⟩ := result
      simp only [looped, Except.map, Except.ok.injEq] at ran
      subst ran
      have effect := readLoop_effect looped
      unfold finishRead
      generalize read.flush = flushed at effect
      split
      · rename_i finished
        exact effect.reset orderly tended finished.1
      · rename_i unfinished
        exact effect.awaitInput orderly tended fun unfailed finished =>
          unfinished ⟨unfailed, finished⟩

end Conn

end FastWebServer
