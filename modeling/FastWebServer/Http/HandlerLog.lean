import FastWebServer.Http.ConnectEffects

/-!
# What the handlers log in any state

The rules of `handle_read` and `handle_connect` that need no invariant. Reading logs
no entry of `handle_connect`, and it writes the output that is pending
(`handleRead_conduct`). A call of `handle_connect` logs its entry and then actions of
its own, none of which is another entry (`handleConnect_conduct`). A connection that
is `Healthy` and asks for something is not ended by the call, and still asks for
something after it.
-/

set_option autoImplicit false

namespace FastWebServer

open Cxx

/-- A connected, error-free connection. -/
structure HttpData.Healthy (http : HttpData) : Prop where
  unfailed : http.isError = false
  connected : http.connectionState = .connected

/-- The actions that shut a connection down or close it. -/
def Action.ends : Action → Bool
  | .shutdown => true
  | .handleClose => true
  | _ => false

/-- The entries of `handle_connect`. -/
def Action.connects : Action → Bool
  | .handleConnect _ => true
  | _ => false

/-- The actions that are logged between two states of a connection. -/
def loggedSince (before after : Conn) : List Action :=
  (after.loop.log.drop before.loop.log.length).map Prod.snd

theorem loggedSince_eq {before after : Conn} {fd : Fd} {actions : List Action}
    (log : after.loop.log = before.loop.log ++ actions.map (Prod.mk fd)) :
    loggedSince before after = actions := by
  simp [loggedSince, log, Function.comp_def]

/-- What a call of `handle_connect` does to a connection, and what it logs after its
entry. -/
structure Conduct (before after : Conn) (own : List Action) : Prop where
  fd : after.http.fd = before.http.fd
  bufferOut : after.http.bufferOut = before.http.bufferOut
  isError : after.http.isError = before.http.isError
  connected : after.http.connectionState = .connected →
    before.http.connectionState = .connected
  log : after.loop.log = before.loop.log ++
    (.handleConnect before.http :: own).map (Prod.mk before.http.fd)
  single : ∀ action ∈ own, action.connects = false
  active : before.http.Healthy → before.http.channel.events ≠ 0#32 →
    (∀ action ∈ own, action.ends = false) ∧ after.http.channel.events ≠ 0#32

namespace Conn

variable {env : Env} {conn : Conn}

theorem seperateTimer_keeps (conn : Conn) :
    ∃ timer, conn.seperateTimer.http = { conn.http with timer := timer } ∧
      conn.seperateTimer.loop.log = conn.loop.log := by
  unfold seperateTimer
  split
  · exact ⟨conn.http.timer, rfl, rfl⟩
  · exact ⟨none, rfl, rfl⟩

theorem addTimer_keeps (env : Env) (bound : Bool) (timeout : ℕ) (conn : Conn) :
    ∃ (timer : Option TimerId) (actions : List Action),
      (conn.addTimer env bound timeout).http = { conn.http with timer := timer } ∧
      (conn.addTimer env bound timeout).loop.log =
        conn.loop.log ++ actions.map (Prod.mk conn.http.fd) ∧
      ∀ action ∈ actions, action = .addTimer timeout := by
  unfold addTimer
  split
  · exact ⟨conn.http.timer, [], rfl, by simp, by simp⟩
  · exact ⟨_, [.addTimer timeout], rfl, rfl, by simp⟩

/-- What `update_poller` does to any connection. -/
theorem updatePoller_keeps (env : Env) (timeout : ℕ) (conn : Conn) :
    ∃ (timer : Option TimerId) (actions : List Action),
      (conn.updatePoller env timeout).http = { conn.noteEvents.http with timer := timer } ∧
      (conn.updatePoller env timeout).loop.log = conn.loop.log ++
        (.updatePoller conn.http.channel.events timeout :: actions).map (Prod.mk conn.http.fd) ∧
      ∀ action ∈ actions, action = .addTimer timeout := by
  let asked := conn.record (.updatePoller conn.http.channel.events timeout)
  have modified : ∀ middle : Conn, (modifyInterest env middle).http = middle.noteEvents.http ∧
      (modifyInterest env middle).loop.log = middle.loop.log := by
    intro middle
    obtain ⟨loop, modified, -, -, log, -⟩ := modifyInterest_eq env middle
    exact ⟨by rw [modified], by rw [modified]; exact log⟩
  show ∃ (timer : Option TimerId) (actions : List Action),
    (modifyFdInEpoll env timeout asked).http = _ ∧ (modifyFdInEpoll env timeout asked).loop.log = _ ∧
      _
  unfold modifyFdInEpoll
  split
  · obtain ⟨timer, actions, http, log, all⟩ := addTimer_keeps env false timeout asked
    obtain ⟨http', log'⟩ := modified (asked.addTimer env false timeout)
    refine ⟨timer, actions, ?_, ?_, all⟩
    · rw [http']
      simp only [noteEvents, http]
      rfl
    · rw [log', log]
      exact List.append_assoc ..
  · obtain ⟨http', log'⟩ := modified asked
    exact ⟨conn.http.timer, [], http', log', by simp⟩

theorem enterConnect_keeps (conn : Conn) :
    ∃ timer, conn.enterConnect.http = { conn.http with timer := timer } ∧
      conn.enterConnect.loop.log =
        conn.loop.log ++ [(conn.http.fd, .handleConnect conn.http)] :=
  seperateTimer_keeps (conn.record (.handleConnect conn.http))

/-- The connection is registered with a new mask. -/
theorem conduct_update (timeout : ℕ) {mask : Mask} (proper : mask ≠ 0#32) :
    ∃ own, Conduct conn
      (updatePoller env timeout
        { conn.enterConnect with http := conn.enterConnect.http.setEvents mask }) own := by
  obtain ⟨timer, http, log⟩ := enterConnect_keeps conn
  obtain ⟨timer', actions, http', log', all⟩ := updatePoller_keeps env timeout
    { conn.enterConnect with http := conn.enterConnect.http.setEvents mask }
  have final : (updatePoller env timeout
        { conn.enterConnect with http := conn.enterConnect.http.setEvents mask }).http =
      { conn.http with
        timer := timer'
        channel := { conn.http.channel with events := mask, lastEvents := mask } } := by
    rw [http']
    simp only [noteEvents, http]
    rfl
  have fd : (conn.enterConnect.http.setEvents mask).fd = conn.http.fd := by
    rw [http]
    rfl
  refine ⟨.updatePoller mask timeout :: actions, ?_⟩
  exact
    { fd := by rw [final]
      bufferOut := by rw [final]
      isError := by rw [final]
      connected := fun connected => by rwa [final] at connected
      log := by
        rw [log', fd]
        show conn.enterConnect.loop.log ++ (Action.updatePoller mask timeout :: actions).map _ = _
        rw [log]
        simp
      single := fun action member => by
        rcases List.mem_cons.mp member with rfl | member
        · rfl
        · rw [all action member]
          rfl
      active := fun _ _ => ⟨fun action member => by
        rcases List.mem_cons.mp member with rfl | member
        · rfl
        · rw [all action member]
          rfl, by rw [final]; exact proper⟩ }

/-- The connection is closed. -/
theorem conduct_close (inactive : conn.http.Healthy → conn.http.channel.events = 0#32) :
    Conduct conn (conn.enterConnect.handleClose env) [.handleClose] := by
  obtain ⟨timer, http, log⟩ := enterConnect_keeps conn
  have fd : conn.enterConnect.http.fd = conn.http.fd := by rw [http]
  exact
    { fd := fd
      bufferOut := by
        show conn.enterConnect.http.bufferOut = _
        rw [http]
      isError := by
        show conn.enterConnect.http.isError = _
        rw [http]
      connected := fun connected => by cases connected
      log := by
        show conn.enterConnect.loop.log ++ [(conn.enterConnect.http.fd, Action.handleClose)] = _
        rw [log, fd]
        simp
      single := by simp [Action.connects]
      active := fun healthy asked => absurd (inactive healthy) asked }

/-- The connection is closed, and `update_poller` is called. -/
theorem conduct_idle (idle : conn.http.Idle) :
    ∃ actions, Conduct conn (conn.handleConnect env) (.shutdown :: .handleClose :: actions) := by
  obtain ⟨timer, http, log⟩ := enterConnect_keeps conn
  have entered : conn.enterConnect.http.Idle := by
    rw [http]
    exact ⟨idle.unfailed, idle.connected, idle.empty, idle.unkept⟩
  let rearmed : Conn := { conn.enterConnect.shutdown.handleClose env with
    http := (conn.enterConnect.shutdown.handleClose env).http.setEvents
      ((conn.enterConnect.shutdown.handleClose env).http.channel.events |||
        (epollIn ||| epollEt)) }
  have result : conn.handleConnect env = rearmed.updatePoller env (defaultKeepAliveTime >>> 1) :=
    handleConnect_idle_eq entered
  have fd : rearmed.http.fd = conn.http.fd := by
    show conn.enterConnect.http.fd = _
    rw [http]
  obtain ⟨timer', actions, http', log', all⟩ :=
    updatePoller_keeps env (defaultKeepAliveTime >>> 1) rearmed
  rw [result]
  refine ⟨.updatePoller rearmed.http.channel.events (defaultKeepAliveTime >>> 1) :: actions, ?_⟩
  exact
    { fd := by
        rw [http']
        exact fd
      bufferOut := by
        rw [http']
        show conn.enterConnect.http.bufferOut = _
        rw [http]
      isError := by
        rw [http']
        show conn.enterConnect.http.isError = _
        rw [http]
      connected := fun connected => by
        rw [http'] at connected
        cases connected
      log := by
        rw [log', fd]
        show ((conn.enterConnect.loop.log ++ [(conn.enterConnect.http.fd, Action.shutdown)]) ++
          [(conn.enterConnect.http.fd, Action.handleClose)]) ++ _ = _
        rw [log, http]
        simp
      single := fun action member => by
        simp only [List.mem_cons] at member
        rcases member with rfl | rfl | rfl | member
        · rfl
        · rfl
        · rfl
        · rw [all action member]
          rfl
      active := fun _ asked => absurd idle.empty asked }

/-- Only the mask is changed. -/
theorem conduct_late (mask : Mask) (unhealthy : ¬ conn.http.Healthy) :
    Conduct conn { conn.enterConnect with http := conn.enterConnect.http.setEvents mask } [] := by
  obtain ⟨timer, http, log⟩ := enterConnect_keeps conn
  exact
    { fd := by
        show conn.enterConnect.http.fd = _
        rw [http]
      bufferOut := by
        show conn.enterConnect.http.bufferOut = _
        rw [http]
      isError := by
        show conn.enterConnect.http.isError = _
        rw [http]
      connected := fun connected => by
        have connected : conn.enterConnect.http.connectionState = .connected := connected
        rwa [http] at connected
      log := log
      single := by simp
      active := fun healthy => absurd healthy unhealthy }

/-- **The conduct of `handle_connect`.** -/
theorem handleConnect_conduct (env : Env) (conn : Conn) :
    ∃ own, Conduct conn (conn.handleConnect env) own := by
  obtain ⟨timer, http, -⟩ := enterConnect_keeps conn
  by_cases healthy : conn.http.isError = false ∧ conn.http.connectionState = .connected
  · have unfailed : conn.enterConnect.http.isError = false := by
      rw [http]
      exact healthy.1
    have connected : conn.enterConnect.http.connectionState = .connected := by
      rw [http]
      exact healthy.2
    by_cases empty : conn.http.channel.events = 0#32
    · have empty' : conn.enterConnect.http.channel.events = 0#32 := by
        rw [http]
        exact empty
      cases kept : conn.http.keepAlive with
      | true =>
          have kept : conn.enterConnect.http.keepAlive = true := by
            rw [http]
            exact kept
          rw [handleConnect_kept_eq unfailed connected empty' kept]
          exact conduct_update _ (by decide)
      | false =>
          obtain ⟨actions, conduct⟩ :=
            @conduct_idle env conn ⟨healthy.1, healthy.2, empty, kept⟩
          exact ⟨_, conduct⟩
    · rw [handleConnect_active_eq unfailed connected (by rw [http]; exact empty)]
      exact conduct_update _ (arbitrate_ne_zero _)
  · have unhealthy : ¬ conn.http.Healthy := fun sound => healthy ⟨sound.unfailed, sound.connected⟩
    rcases @handleConnect_unhealthy_eq env conn (by rw [http]; exact healthy) with result | result
    · rw [result]
      exact ⟨_, conduct_close fun sound => absurd sound unhealthy⟩
    · rw [result]
      exact ⟨_, conduct_late _ unhealthy⟩

/-! ## handle_read -/

/-- What `handle_read` does to a connection, and what it logs. -/
structure ReadConduct (before after : Conn) (actions : List Action) : Prop where
  fd : after.http.fd = before.http.fd
  sound : after.http.isError = false →
    before.http.isError = false ∧ after.http.connectionState = before.http.connectionState
  log : after.loop.log = before.loop.log ++ actions.map (Prod.mk before.http.fd)
  quiet : ∀ action ∈ actions, action.quiet = true
  written : after.http.isError = false → after.http.connectionState ≠ .disconnected →
    before.http.bufferOut ≠ [] → ∃ pending, pending ≠ [] ∧ Action.writen pending ∈ actions
  asked : after.http.isError = false → after.http.connectionState ≠ .disconnected →
    after.http.bufferOut ≠ [] → after.http.channel.events ≠ 0#32

theorem ne_zero_of_meets {mask bits : Mask} (meets : mask.meets bits = true) : mask ≠ 0#32 := by
  rintro rfl
  simp [Mask.meets] at meets

theorem reset_keeps (conn : Conn) :
    ∃ timer, conn.reset.http = { cleared conn.http with timer := timer } ∧
      conn.reset.loop.log =
        conn.loop.log ++ [(conn.http.fd, .clearInput conn.http.bufferIn)] := by
  let logged := conn.record (.clearInput conn.http.bufferIn)
  exact seperateTimer_keeps { logged with http := cleared conn.http }

theorem awaitInput_keeps (conn : Conn) :
    ∃ events, conn.awaitInput.http = conn.http.setEvents events ∧
      conn.awaitInput.loop = conn.loop ∧
      (conn.http.channel.events ≠ 0#32 → events ≠ 0#32) := by
  unfold awaitInput
  split
  · refine ⟨_, rfl, rfl, fun _ => ne_zero_of_meets (Mask.meets_or_self _ epollIn (by decide))⟩
  · exact ⟨conn.http.channel.events, rfl, rfl, id⟩

/-- **The conduct of `handle_read`.** -/
theorem handleRead_conduct {after : Conn} (ran : conn.handleRead = .ok after) :
    ∃ actions, ReadConduct conn after actions := by
  rw [handleRead_eq] at ran
  cases looped : stages conn with
  | error fault => simp [looped, Except.map] at ran
  | ok result =>
      obtain ⟨flow, read⟩ := result
      simp only [looped, Except.map, Except.ok.injEq] at ran
      subst ran
      have effect := readLoop_effect looped
      obtain ⟨actions, quiet, loop, written⟩ := effect.loop
      have log : read.flush.loop.log =
          conn.loop.log ++ actions.map (Prod.mk conn.http.fd) := by rw [loop]
      have asked : read.flush.http.isError = false →
          read.flush.http.connectionState ≠ .disconnected → read.flush.http.bufferOut ≠ [] →
          read.flush.http.channel.events ≠ 0#32 := by
        intro unfailed connected pending
        rcases effect.output unfailed connected with ⟨-, taken⟩ | ⟨events, -⟩
        · exact absurd taken pending
        · rw [events]
          exact ne_zero_of_meets (Mask.meets_or_self _ _ (by decide))
      unfold finishRead
      split
      · obtain ⟨timer, http, log'⟩ := reset_keeps read.flush
        refine ⟨actions ++ [.clearInput read.flush.http.bufferIn], ?_⟩
        exact
          { fd := by
              rw [http]
              exact effect.fd
            sound := by
              rw [http]
              exact effect.sound
            log := by
              rw [log', log, effect.fd]
              simp
            quiet := fun action member =>
              (List.mem_append.mp member).elim (quiet action) fun last => by
                rw [List.mem_singleton.mp last]
                rfl
            written := by
              rw [http]
              intro unfailed connected pending
              obtain ⟨out, some, member⟩ := written unfailed connected pending
              exact ⟨out, some, List.mem_append_left _ member⟩
            asked := by
              rw [http]
              exact asked }
      · obtain ⟨events, http, loop', proper⟩ := awaitInput_keeps read.flush
        refine ⟨actions, ?_⟩
        exact
          { fd := by
              rw [http]
              exact effect.fd
            sound := by
              rw [http]
              exact effect.sound
            log := by rw [loop', log]
            quiet := quiet
            written := by
              rw [http]
              exact written
            asked := by
              rw [http]
              exact fun unfailed connected pending =>
                proper (asked unfailed connected pending) }

/-- **Output that the kernel takes is sent**, and nothing more is asked for. -/
theorem flush_takes (unfailed : conn.http.isError = false)
    (connected : conn.http.connectionState ≠ .disconnected) (takes : Takes conn.io.writes) :
    conn.flush.http = { conn.http with bufferOut := [] } ∧
      conn.flush.io.sent = conn.io.sent ++ conn.http.bufferOut := by
  obtain ⟨rest, wrote⟩ := writen_takes conn.http.bufferOut takes
  unfold flush
  rw [if_pos unfailed]
  split
  · rw [handleWrite, if_pos ⟨unfailed, connected⟩, wrote]
    have counted : ¬ ((conn.http.bufferOut.length : ℤ) < 0) := by omega
    refine ⟨?_, rfl⟩
    simp [afterWriten, counted]
  · rename_i empty
    have empty : conn.http.bufferOut = [] := by simpa using empty
    refine ⟨?_, by simp [empty]⟩
    rw [← empty]

end Conn

end FastWebServer
