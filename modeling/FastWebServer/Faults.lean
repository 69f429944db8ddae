import FastWebServer.Http.BodyLength
import FastWebServer.Http.CutLine
import FastWebServer.Http.LineText
import FastWebServer.EpollInterest
import FastWebServer.Destruction

/-!
# What ends the program

No handler catches anything, so an exception that an event throws ends the program, and so may an
operation without defined behaviour. `Life.dispatch_ends_iff` says for which events of the loop
thread this happens, when what a connection has buffered is short enough for an `int`: those that
complete a header line which an earlier event has left in its middle, those whose request has a
body and a `Content-length` that `stoi` does not read, and those that come to `handle_connect` with
a connection that is closed there and used again.

Nothing else ends the program. That rests on what is known of a connection between two events: a
connection that awaits a request line has not begun to read a header block (`Framed`). It is an
invariant of the members of a connection, which the channel, the timer and the closing do not touch,
and `World.members_invariant` is the rule for such invariants.
-/

set_option autoImplicit false

namespace FastWebServer

open Cxx

/-! ## Invariants of the members -/

/-- Nothing but the channel, the timer and the state of the connection has changed. -/
def Outer (before after : HttpData) : Prop :=
  ∃ channel timer connectionState, after =
    { before with channel := channel, timer := timer, connectionState := connectionState }

theorem Outer.refl (http : HttpData) : Outer http http :=
  ⟨http.channel, http.timer, http.connectionState, rfl⟩

theorem Outer.trans {first second third : HttpData} (earlier : Outer first second)
    (later : Outer second third) : Outer first third := by
  obtain ⟨_, _, _, rfl⟩ := earlier
  obtain ⟨channel, timer, connectionState, rfl⟩ := later
  exact ⟨channel, timer, connectionState, rfl⟩

theorem outer_setEvents (http : HttpData) (events : Mask) : Outer http (http.setEvents events) :=
  ⟨{ http.channel with events := events }, http.timer, http.connectionState, rfl⟩

/-- What holds of a new connection, and is kept by `handle_read` and by everything that is done to
the channel, the timer and the state of the connection. -/
structure MembersInvariant (holds : HttpData → Prop) : Prop where
  new : ∀ fd, holds (HttpData.new fd)
  outer : ∀ {before after : HttpData}, Outer before after → holds before → holds after
  read : ∀ {conn after : Conn}, conn.handleRead = .ok after → holds conn.http → holds after.http

namespace Conn

variable {env : Env} {conn after : Conn}

theorem outer_updatePoller (env : Env) (timeout : ℕ) (conn : Conn) :
    Outer conn.http (conn.updatePoller env timeout).http := by
  obtain ⟨timer, actions, http, -⟩ := updatePoller_keeps env timeout conn
  rw [http]
  exact ⟨conn.noteEvents.http.channel, timer, conn.http.connectionState, rfl⟩

theorem outer_enterConnect (conn : Conn) : Outer conn.http conn.enterConnect.http := by
  obtain ⟨timer, http, -⟩ := enterConnect_keeps conn
  rw [http]
  exact ⟨conn.http.channel, timer, conn.http.connectionState, rfl⟩

theorem outer_handleClose (env : Env) (conn : Conn) :
    Outer conn.http (conn.handleClose env).http :=
  ⟨conn.http.channel, conn.http.timer, .disconnected, rfl⟩

/-- `handle_connect` touches nothing else. -/
theorem outer_handleConnect (env : Env) (conn : Conn) :
    Outer conn.http (conn.handleConnect env).http := by
  have entered := outer_enterConnect conn
  have updated : ∀ (timeout : ℕ) (middle : Conn), Outer conn.enterConnect.http middle.http →
      Outer conn.http (middle.updatePoller env timeout).http := fun timeout middle same =>
    entered.trans (same.trans (outer_updatePoller env timeout middle))
  show Outer conn.http (handleConnect env conn).http
  unfold handleConnect
  rw [← enterConnect]
  dsimp only
  split
  · split
    · exact updated _ _ (outer_setEvents _ _)
    · split
      · exact updated _ _ (outer_setEvents _ _)
      · exact updated _ _ ((outer_handleClose env conn.enterConnect.shutdown).trans
          (outer_setEvents _ _))
  · split
    · exact entered.trans (outer_setEvents _ _)
    · exact entered.trans (outer_handleClose env _)

theorem outer_newEvent (env : Env) (conn : Conn) : Outer conn.http (conn.newEvent env).http := by
  let asking : Conn := { conn with http := conn.http.setEvents defaultEvent }
  have result : conn.newEvent env =
      (asking.addTimer env true defaultExpiredTime).heldByPoller.addInterest env :=
    addFdInEpoll_eq (by decide)
  obtain ⟨timer, -, http, -⟩ := addTimer_keeps env true defaultExpiredTime asking
  rw [result]
  show Outer conn.http ((asking.addTimer env true defaultExpiredTime).noteEvents).http
  refine (outer_setEvents conn.http defaultEvent).trans ?_
  simp only [noteEvents, http]
  exact ⟨_, timer, conn.http.connectionState, rfl⟩

/-- **An event keeps an invariant of the members.** -/
theorem handleEvents_members {holds : HttpData → Prop} (invariant : MembersInvariant holds)
    (ran : conn.handleEvents env = .ok after) (held : holds conn.http) : holds after.http := by
  have stored : holds (conn.storeEvents 0#32).http := invariant.outer (outer_setEvents _ _) held
  cases drops : conn.http.channel.revents.drops with
  | true =>
      rw [handleEvents_drops drops, Except.ok.injEq] at ran
      subst ran
      exact stored
  | false =>
      have connects : ∀ middle : Conn, holds middle.http → holds (middle.handleConnect env).http :=
        fun middle => invariant.outer (outer_handleConnect env middle)
      rw [handleEvents_eq drops] at ran
      cases came : (if conn.http.channel.revents.reads = true then
          (conn.storeEvents 0#32).handleRead
        else .ok (conn.storeEvents 0#32)) with
      | error fault => simp [came, Except.map] at ran
      | ok read =>
          simp only [came, Except.map, Except.ok.injEq] at ran
          subst ran
          have once : holds (read.handleConnect env).http := by
            refine connects read ?_
            split at came
            · exact invariant.read came stored
            · cases came
              exact stored
          split
          · exact connects _ once
          · exact once

end Conn

namespace World

variable {env : Env} {world : World} {fd : Fd}

/-- What every connection has. -/
def All (holds : HttpData → Prop) (world : World) : Prop :=
  ∀ fd http, world.conns fd = some http → holds http

theorem All.update {holds : HttpData → Prop} (all : world.All holds) {conn : Conn}
    (held : holds conn.http) : (world.update fd conn).All holds := by
  intro other http present
  by_cases same : other = fd
  · subst same
    simp only [World.update, Function.update_self, Option.some.injEq] at present
    subst present
    exact held
  · simp only [World.update, Function.update_of_ne same] at present
    exact all other http present

theorem All.pop {holds : HttpData → Prop} (invariant : MembersInvariant holds)
    (all : world.All holds) (timer : Timer) : (world.pop env timer).All holds := by
  unfold World.pop destroy
  split
  · exact all
  · split
    · exact all
    · rename_i http present
      let popped : World :=
        { world with loop := { world.loop with timers := world.loop.timers.erase timer } }
      have same : popped.All holds := all
      exact same.update (invariant.outer (Conn.outer_handleClose env ⟨http, Io.unused, popped.loop⟩)
        (all _ http present))

theorem All.handleExpired {holds : HttpData → Prop} (invariant : MembersInvariant holds)
    (all : world.All holds) : (world.handleExpired env).All holds := by
  fun_induction World.handleExpired env world with
  | case1 => exact all
  | case2 world timer least deleted ih => exact ih (all.pop invariant timer)
  | case3 => exact all
  | case4 world timer least undeleted expired ih =>
      have ticked : world.tick.All holds := all
      exact ih (ticked.pop invariant timer)

/-- **The rule for the members of the connections.** -/
theorem members_invariant {holds : HttpData → Prop} (invariant : MembersInvariant holds)
    (reachable : (machine env).Reachable world) : world.All holds := by
  refine reachable.induction (All holds) ?_ fun before after earlier all step => ?_
  · rintro first rfl fd http present
    cases present
  · cases step with
    | newEvent fd fresh =>
        exact all.update (invariant.outer (Conn.outer_newEvent env _) (invariant.new fd))
    | @dispatch fd http interest revents io conn present entry armed stored ran =>
        refine all.update (Conn.handleEvents_members invariant ran ?_)
        exact invariant.outer ⟨_, http.timer, http.connectionState, rfl⟩ (all fd http present)
    | ignored => exact all
    | handleExpired => exact all.handleExpired invariant

end World

/-! ## Before a header block -/

/-- A connection that awaits a request line has not begun to read a header block. -/
def Framed (http : HttpData) : Prop :=
  http.processState = .parseURI → http.parseState = .start

namespace Conn

variable {env : Env} {conn after : Conn}

/-- A stage leaves a connection framed. -/
def Stage.Frames (stage : Stage) : Prop :=
  ∀ conn flow after, stage conn = .ok (flow, after) → Framed conn.http → Framed after.http

theorem frames_before {first second : Stage} (earlier : first.Frames) (later : second.Frames) :
    (first.before second).Frames := by
  intro conn flow after ran framed
  rcases Stage.before_ok ran with ⟨-, left⟩ | ⟨middle, went, ran⟩
  · exact earlier _ _ _ left framed
  · exact later _ _ _ ran (earlier _ _ _ went framed)

theorem readStage_frames : readStage.Frames := by
  intro conn flow after ran framed
  simp only [readStage] at ran
  split at ran
  · cases ran
    exact framed
  · split at ran
    · cases ran
      exact framed
    · split at ran
      · split at ran <;> (cases ran; exact framed)
      · cases ran
        exact framed

theorem uriStage_frames : uriStage.Frames := by
  intro conn flow after ran framed
  unfold uriStage at ran
  split at ran
  · cases parsed : conn.http.parseURI with
    | error fault => simp [parsed] at ran
    | ok result =>
        obtain ⟨state, http⟩ := result
        obtain ⟨bufferIn, method, fileName, version, rfl⟩ := HttpData.parseURI_eq parsed
        rw [parsed] at ran
        cases state with
        | again =>
            cases ran
            exact framed
        | error =>
            cases ran
            exact framed
        | success =>
            cases ran
            exact nofun
  · cases ran
    exact framed

theorem headersStage_frames : headersStage.Frames := by
  intro conn flow after ran framed
  unfold headersStage at ran
  split at ran
  · rename_i stands
    have past : ∀ {http : HttpData}, http.processState = .parseHeaders → Framed http :=
      fun stands awaits => by cases stands.symm.trans awaits
    cases parsed : conn.http.parseHeaders with
    | error fault => simp [parsed] at ran
    | ok result =>
        obtain ⟨state, http⟩ := result
        obtain ⟨bufferIn, parseState, headers, rfl⟩ := HttpData.parseHeaders_eq parsed
        rw [parsed] at ran
        cases state with
        | again =>
            cases ran
            exact past stands
        | error =>
            cases ran
            exact past stands
        | success =>
            dsimp only at ran
            split at ran <;> (cases ran; exact nofun)
  · cases ran
    exact framed

theorem bodyStage_frames : bodyStage.Frames := by
  intro conn flow after ran framed
  unfold bodyStage at ran
  split at ran
  · split at ran
    · cases ran
      exact framed
    · split at ran
      · cases ran
      · split at ran
        · cases ran
          exact framed
        · cases ran
          exact nofun
  · cases ran
    exact framed

theorem analysisStage_frames : analysisStage.Frames := by
  intro conn flow after ran framed
  unfold analysisStage at ran
  split at ran
  · rename_i stands
    obtain ⟨keepAlive, bufferOut, analyzed, -⟩ := conn.http.analyzeRequest_eq conn.io.files
    dsimp only at ran
    rw [analyzed] at ran
    obtain ⟨io, actions, -, reported⟩ :=
      reportError_eq (conn.http.analyzeRequest conn.io.files).report
        { conn with http := { conn.http with keepAlive := keepAlive, bufferOut := bufferOut } }
    rw [reported] at ran
    split at ran
    · cases ran
      exact nofun
    · cases ran
      exact fun awaits => by cases stands.symm.trans awaits
  · cases ran
    exact framed

theorem stages_frames : stages.Frames :=
  frames_before readStage_frames <| frames_before uriStage_frames <|
    frames_before headersStage_frames <| frames_before bodyStage_frames analysisStage_frames

end Conn

/-- **Every connection is framed.** -/
theorem membersInvariant_framed : MembersInvariant Framed where
  new _ _ := rfl
  outer := by
    rintro before after ⟨channel, timer, connectionState, rfl⟩ framed
    exact framed
  read := by
    intro conn after ran framed
    rw [Conn.handleRead_eq] at ran
    cases looped : Conn.stages conn with
    | error fault => simp [looped, Except.map] at ran
    | ok result =>
        obtain ⟨flow, read⟩ := result
        simp only [looped, Except.map, Except.ok.injEq] at ran
        subst ran
        have kept := Conn.stages_frames _ _ _ looped framed
        obtain ⟨bufferOut, isError, events, io, actions, flushed, -⟩ := Conn.flush_eq read
        have written : Framed read.flush.http := by
          rw [flushed]
          exact kept
        unfold Conn.finishRead
        split
        · obtain ⟨timer, http, -⟩ := Conn.reset_keeps read.flush
          rw [http]
          exact fun _ => rfl
        · obtain ⟨events', http, -⟩ := Conn.awaitInput_keeps read.flush
          rw [http]
          exact written

/-! ## Where the stages throw -/

namespace Conn

variable {env : Env} {conn after : Conn}

/-- Two stages throw where the first does, or the second behind it. -/
theorem before_faults_iff {first second : Stage} :
    (∃ fault, first.before second conn = .error fault) ↔
      (∃ fault, first conn = .error fault) ∨
        ∃ middle, first conn = .ok (.goOn, middle) ∧ ∃ fault, second middle = .error fault := by
  unfold Stage.before
  cases first conn with
  | error fault => simp
  | ok result =>
      obtain ⟨flow, middle⟩ := result
      cases flow <;> simp

/-- What reading leaves of a request. -/
theorem readStage_keepsRequest {flow : Flow} {read : Conn}
    (ran : readStage conn = .ok (flow, read)) (goes : flow = .goOn) :
    read.http.processState = conn.http.processState ∧
      read.http.parseState = conn.http.parseState ∧
      read.http.bufferIn = (readn conn.io.reads conn.http.bufferIn).buffer := by
  subst goes
  simp only [readStage] at ran
  split at ran
  · cases ran
  · split at ran
    · cases ran
    · split at ran
      · split at ran
        · cases ran
        · cases ran
          exact ⟨rfl, rfl, rfl⟩
      · cases ran
        exact ⟨rfl, rfl, rfl⟩

theorem readStage_returns (conn : Conn) : ∃ result, readStage conn = .ok result := by
  unfold readStage
  dsimp only
  repeat' split
  all_goals exact ⟨_, rfl⟩

theorem uriStage_returns (short : conn.http.bufferIn.length < npos) :
    ∃ result, uriStage conn = .ok result := by
  unfold uriStage
  split
  · rw [HttpData.parseURI_text short]
    generalize HttpData.answer _ _ = answer
    obtain ⟨state, http⟩ := answer
    cases state <;> exact ⟨_, rfl⟩
  · exact ⟨_, rfl⟩

/-- A header block throws where a line of it is completed whose beginning is gone. -/
theorem headersStage_faults_iff (short : conn.http.bufferIn.length < 2 ^ 31) :
    (∃ fault, headersStage conn = .error fault) ↔
      conn.http.processState = .parseHeaders ∧
        completesLine conn.http.parseState 0 conn.http.bufferIn = true := by
  rw [← HttpData.parseHeaders_faults_iff short]
  unfold headersStage
  by_cases stands : conn.http.processState = .parseHeaders
  · rw [if_pos stands, and_iff_right stands]
    cases parsed : conn.http.parseHeaders with
    | error fault => simp
    | ok result =>
        obtain ⟨state, http⟩ := result
        cases state with
        | success =>
            dsimp only
            split <;> simp
        | _ => simp
  · rw [if_neg stands]
    simp [stands]

/-- A request line that is accepted leaves a shorter buffer and a header block that has not been
begun. -/
theorem uriStage_went {read : Conn} (framed : Framed conn.http)
    (short : conn.http.bufferIn.length < 2 ^ 31) (went : uriStage conn = .ok (.goOn, read)) :
    read = conn ∧ conn.http.processState ≠ .parseURI ∨
      conn.http.processState = .parseURI ∧ read.http.parseState = .start ∧
        read.http.bufferIn.length < 2 ^ 31 := by
  unfold uriStage at went
  split at went
  · rename_i stands
    right
    rw [HttpData.parseURI_text (short.trans (by decide))] at went
    unfold HttpData.answer at went
    split at went
    · cases went
    · cases went
    · cases went
    · rename_i parsed
      cases went
      rw [Except.ok.injEq, Prod.mk.injEq] at parsed
      obtain ⟨-, rfl⟩ := parsed
      refine ⟨stands, framed stands, ?_⟩
      show (List.drop _ conn.http.bufferIn).length < 2 ^ 31
      rw [List.length_drop]
      exact lt_of_le_of_lt (Nat.sub_le ..) short
  · rename_i past
    cases went
    exact .inl ⟨rfl, past⟩

/-- **Up to the header block** an event throws where it completes a line that an earlier one has
left in its middle. -/
theorem front_faults_iff (framed : Framed conn.http)
    (short : (readn conn.io.reads conn.http.bufferIn).buffer.length < 2 ^ 31) :
    (∃ fault, front conn = .error fault) ↔
      ∃ read, readStage conn = .ok (.goOn, read) ∧ read.http.processState = .parseHeaders ∧
        completesLine read.http.parseState 0 read.http.bufferIn = true := by
  unfold front parsing
  rw [before_faults_iff, or_iff_right fun ⟨fault, failed⟩ => by
    obtain ⟨result, ran⟩ := readStage_returns conn
    cases ran.symm.trans failed]
  refine exists_congr fun read => and_congr_right fun went => ?_
  obtain ⟨processState, parseState, buffer⟩ := readStage_keepsRequest went rfl
  have framed' : Framed read.http := readStage_frames _ _ _ went framed
  rw [← buffer] at short
  rw [before_faults_iff, or_iff_right fun ⟨fault, failed⟩ => by
    obtain ⟨result, ran⟩ := @uriStage_returns read (short.trans (by decide))
    cases ran.symm.trans failed]
  constructor
  · rintro ⟨parsed, went', faults⟩
    rcases uriStage_went framed' short went' with ⟨rfl, -⟩ | ⟨-, start, short'⟩
    · exact (headersStage_faults_iff short).mp faults
    · have completes := ((headersStage_faults_iff short').mp faults).2
      rw [start] at completes
      simp [completesLine] at completes
  · rintro ⟨stands, completes⟩
    have passes : uriStage read = .ok (.goOn, read) := by
      rw [uriStage, if_neg (by simp [stands])]
    exact ⟨read, passes, (headersStage_faults_iff short).mpr ⟨stands, completes⟩⟩

/-- **After it** where the request has a body whose length is not read. -/
theorem back_faults_iff :
    (∃ fault, back conn = .error fault) ↔
      conn.http.processState = .recvBody ∧ ∃ value fault,
        conn.http.headers "Content-length".toList = some value ∧ stoi value = .error fault := by
  unfold back
  rw [before_faults_iff, or_iff_left fun ⟨middle, _, fault, failed⟩ => by
    obtain ⟨after, ran⟩ := analysisStage_returns middle
    cases ran.symm.trans failed]
  unfold bodyStage
  by_cases stands : conn.http.processState = .recvBody
  · rw [if_pos stands, and_iff_right stands]
    cases stored : conn.http.headers "Content-length".toList with
    | none => simp
    | some value =>
        cases parsed : stoi value with
        | error fault => simp [parsed]
        | ok contentLength =>
            simp only [Option.some.injEq, parsed]
            split <;> simp [parsed]
  · rw [if_neg stands]
    simp [stands]

/-- The bytes that are read complete a header line that was left in its middle. -/
def CompletesCutLine (conn : Conn) : Prop :=
  ∃ read, readStage conn = .ok (.goOn, read) ∧ read.http.processState = .parseHeaders ∧
    completesLine read.http.parseState 0 read.http.bufferIn = true

/-- The request that is read has a body, and a length that `stoi` does not read. -/
def StatesNoLength (conn : Conn) : Prop :=
  ∃ read value fault, ReachesBody conn read ∧
    read.http.headers "Content-length".toList = some value ∧ stoi value = .error fault

/-- **When `handle_read` ends the program.** -/
theorem handleRead_faults_iff (framed : Framed conn.http)
    (short : (readn conn.io.reads conn.http.bufferIn).buffer.length < 2 ^ 31) :
    (∃ fault, conn.handleRead = .error fault) ↔ conn.CompletesCutLine ∨ conn.StatesNoLength := by
  have looped : (∃ fault, conn.handleRead = .error fault) ↔
      ∃ fault, stages conn = .error fault := by
    rw [handleRead_eq]
    cases stages conn with
    | error fault => simp [Except.map]
    | ok result => simp [Except.map]
  rw [looped, stages_eq, before_faults_iff, front_faults_iff framed short]
  refine or_congr_right ⟨?_, ?_⟩
  · rintro ⟨read, went, faults⟩
    obtain ⟨body, value, fault, stored, thrown⟩ := back_faults_iff.mp faults
    exact ⟨read, value, fault, ⟨went, body⟩, stored, thrown⟩
  · rintro ⟨read, value, fault, reaches, stored, thrown⟩
    exact ⟨read, reaches.wentOn, back_faults_iff.mpr ⟨reaches.body, value, fault, stored, thrown⟩⟩

end Conn

namespace Life

variable {env : Env} {world : World} {fd : Fd}

/-- **Which events end the program.** In any state of a thread that goes on, an event of a
connection whose buffer stays short enough for an `int` throws, or comes to an operation without
defined behaviour, if and only if it reads, and what it reads completes a header line that an
earlier event has left in its middle, or the request has a body and a `Content-length` that `stoi`
does not read; or it comes to `handle_connect` with a connection that is closed there and used
again. -/
theorem dispatch_ends_iff (reachable : (life env).Reachable (.running world)) {http : HttpData}
    (present : world.conns fd = some http) (stored : world.loop.fdToChannel fd = true)
    (interest : Interest) (revents : Mask) {io : Io}
    (short : (readn io.reads http.bufferIn).buffer.length < 2 ^ 31) :
    let conn : Conn := ⟨World.request http revents, io, World.disarm fd interest world.loop⟩
    (∃ halt, conn.handleEventsAlive env = .error halt) ↔ revents.drops = false ∧
      (revents.reads = true ∧
          ((conn.storeEvents 0#32).CompletesCutLine ∨ (conn.storeEvents 0#32).StatesNoLength) ∨
        ∃ mid, Conn.Connecting conn mid ∧ Conn.Dangles revents mid.http) := by
  intro conn
  have reached := reachable_world reachable world rfl
  have framed : Framed http :=
    World.members_invariant membersInvariant_framed reached fd http present
  have sound := World.reachable_sound reached
  obtain ⟨rfl, serving, -⟩ := sound.serving present stored
  have ends := @Conn.handleEventsAlive_ends_iff env conn
    (World.serving_request serving revents interest) (sound.orderly.congr rfl rfl)
  rwa [@Conn.handleRead_faults_iff (conn.storeEvents 0#32) framed short] at ends

/-- A connection on which a part of a header line has arrived, and then the rest of it arrives: the
key of the line is cut out from in front of the buffer. -/
theorem partArrives_faults :
    ∃ world http, (life Env.calm).Reachable (.running world) ∧ world.conns 5 = some http ∧
      ∃ halt, Conn.handleEventsAlive Env.calm ⟨World.request http epollIn,
        Io.packet ": b\r\n\r\n".toList,
        World.disarm 5 ⟨epollIn ||| epollEt, true⟩ world.loop⟩ = .error halt := by
  have looped : ∃ flow read, Conn.stages (World.partArrives.storeEvents 0#32) = .ok (flow, read) ∧
      read.finishRead.http.isError = false ∧ read.finishRead.http.channel.events = epollIn ∧
      (read.finishRead.handleConnect Env.calm).http.connectionState = .connected ∧
      (read.finishRead.handleConnect Env.calm).http.processState = .parseHeaders ∧
      (read.finishRead.handleConnect Env.calm).http.parseState = .key ∧
      (read.finishRead.handleConnect Env.calm).http.bufferIn = ['A'] ∧
      (read.finishRead.handleConnect Env.calm).loop.fdToChannel 5 = true :=
    ⟨_, _, rfl, rfl, rfl, rfl, rfl, rfl, rfl, rfl⟩
  obtain ⟨flow, read, looped, unfailed, asks, connected, awaits, cut, kept, stored⟩ := looped
  have ran : (World.partArrives.storeEvents 0#32).handleRead = .ok read.finishRead := by
    rw [Conn.handleRead_eq, looped]
    rfl
  have spared : ¬ Conn.Dangles epollIn read.finishRead.http := by
    rintro (idle | ⟨failed, -⟩)
    · exact absurd (asks.symm.trans idle.empty) (by decide)
    · cases unfailed.symm.trans failed
  have sound := World.reachable_sound World.accepted_reachable
  obtain ⟨-, serving, -⟩ := @World.Sound.serving World.accepted 5 sound _ rfl rfl
  obtain ⟨-, alive⟩ := ((@Conn.handleEventsAlive_eq Env.calm World.partArrives
    (World.serving_request serving epollIn ⟨defaultEvent, true⟩) (sound.orderly.congr rfl rfl)
      (by decide)).2 read.finishRead (.inr ⟨by decide, ran⟩)).2 spared
  have step : Step Env.calm (.running World.accepted)
      (handled World.accepted 5 (World.partArrives.handleEventsAlive Env.calm)) :=
    .dispatch rfl rfl rfl rfl
  rw [alive] at step
  have reachable := accepted_reachable.step step
  have goes : (if World.partArrives.http.channel.revents.meets epollOut then
      (read.finishRead.handleConnect Env.calm).handleConnect Env.calm
    else read.finishRead.handleConnect Env.calm) = read.finishRead.handleConnect Env.calm :=
    if_neg (by decide)
  rw [goes] at reachable
  generalize read.finishRead.handleConnect Env.calm = conn at *
  have present : (World.accepted.update 5 conn).conns 5 = some conn.http := by
    simp [World.update]
  have arrives : readn [.data ": b\r\n\r\n".toList] conn.http.bufferIn =
      ⟨7, "A: b\r\n\r\n".toList, false, []⟩ := by
    rw [kept]
    decide
  refine ⟨_, conn.http, reachable, present, ?_⟩
  refine (dispatch_ends_iff reachable present stored _ _ ?_).mpr
    ⟨by decide, .inl ⟨by decide, .inl ?_⟩⟩
  · show (readn [.data ": b\r\n\r\n".toList] conn.http.bufferIn).buffer.length < 2 ^ 31
    rw [arrives]
    decide
  · let entered : Conn := Conn.storeEvents 0#32 ⟨World.request conn.http epollIn,
      Io.packet ": b\r\n\r\n".toList, World.disarm 5 ⟨epollIn ||| epollEt, true⟩ conn.loop⟩
    have arrives : readn entered.io.reads entered.http.bufferIn =
        ⟨7, "A: b\r\n\r\n".toList, false, []⟩ := arrives
    have alive : entered.http.connectionState ≠ .disconnected := by
      show conn.http.connectionState ≠ .disconnected
      simp [connected]
    obtain ⟨after, went⟩ : ∃ after, Conn.readStage entered = .ok (.goOn, after) := by
      unfold Conn.readStage
      simp only [arrives, if_neg alive]
      exact ⟨_, rfl⟩
    obtain ⟨processState, parseState, buffer⟩ := Conn.readStage_keepsRequest went rfl
    refine ⟨after, went, processState.trans awaits, ?_⟩
    rw [parseState.trans cut, buffer, arrives]
    decide

end Life

end FastWebServer
