import FastWebServer.EpollInterest
import FastWebServer.Timer.Activity
import FastWebServer.Http.ErrorPage
import FastWebServer.Http.Pipelining

/-!
# One answer per connection

A request is answered within the call of `handle_read` that finishes it, and the mask that is left
asks for output or for nothing. A connection that asks for nothing is closed by the same event. One
that asks for output is registered for output only, so that its next event does not read, asks for
nothing and closes it. What is behind the first request is never looked at, and the answer is
written by one call of `writen`, however little of it the kernel takes.

This rests on the kernel: `epoll_wait` may report the bits of an entry, `EPOLLHUP` and `EPOLLERR`
(`Interest.Reports`). Then a connection writes once or sends one error page, in every run
(`World.oneAnswer`).
-/

set_option autoImplicit false

namespace FastWebServer

open Cxx

/-! ## The request that is not finished -/

namespace Conn

/-- A stage adds to the output only if it is the last one of a request. -/
def Stage.Pours (stage : Stage) : Prop :=
  ∀ conn flow after, stage conn = .ok (flow, after) →
    after.http.bufferOut = conn.http.bufferOut ∨
      flow = .leave ∧ (after.http.isError = true ∨ after.http.processState = .finish)

theorem pours_before {first second : Stage} (earlier : first.Pours) (later : second.Pours) :
    (first.before second).Pours := by
  intro conn flow after ran
  unfold Stage.before at ran
  split at ran
  · cases ran
  · rename_i left
    cases ran
    exact earlier _ _ _ left
  · rename_i went
    have same := (earlier _ _ _ went).resolve_right fun left => by cases left.1
    rcases later _ _ _ ran with same' | ended
    · exact .inl (same'.trans same)
    · exact .inr ended

theorem readStage_pours : readStage.Pours := by
  intro conn flow after ran
  left
  simp only [readStage] at ran
  split at ran
  · cases ran
    rfl
  · split at ran
    · cases ran
      rfl
    · split at ran
      · split at ran <;> (cases ran; rfl)
      · cases ran
        rfl

theorem uriStage_pours : uriStage.Pours := by
  intro conn flow after ran
  left
  unfold uriStage at ran
  split at ran
  · cases parsed : conn.http.parseURI with
    | error fault => simp [parsed] at ran
    | ok result =>
        obtain ⟨state, http⟩ := result
        obtain ⟨bufferIn, method, fileName, version, rfl⟩ := HttpData.parseURI_eq parsed
        rw [parsed] at ran
        cases state <;> (cases ran; rfl)
  · cases ran
    rfl

theorem headersStage_pours : headersStage.Pours := by
  intro conn flow after ran
  left
  unfold headersStage at ran
  split at ran
  · cases parsed : conn.http.parseHeaders with
    | error fault => simp [parsed] at ran
    | ok result =>
        obtain ⟨state, http⟩ := result
        obtain ⟨bufferIn, parseState, headers, rfl⟩ := HttpData.parseHeaders_eq parsed
        rw [parsed] at ran
        cases state with
        | again =>
            cases ran
            rfl
        | error =>
            cases ran
            rfl
        | success =>
            dsimp only at ran
            split at ran <;> (cases ran; rfl)
  · cases ran
    rfl

theorem bodyStage_pours : bodyStage.Pours := by
  intro conn flow after ran
  left
  unfold bodyStage at ran
  split at ran
  · split at ran
    · cases ran
      rfl
    · split at ran
      · cases ran
      · split at ran <;> (cases ran; rfl)
  · cases ran
    rfl

theorem analysisStage_pours : analysisStage.Pours := by
  intro conn flow after ran
  unfold analysisStage at ran
  split at ran
  · dsimp only at ran
    split at ran
    · cases ran
      exact .inr ⟨rfl, .inr rfl⟩
    · cases ran
      exact .inr ⟨rfl, .inl rfl⟩
  · cases ran
    exact .inl rfl

/-- **Output comes from a finished request.** -/
theorem stages_pours : stages.Pours :=
  pours_before readStage_pours <| pours_before uriStage_pours <|
    pours_before headersStage_pours <| pours_before bodyStage_pours analysisStage_pours

/-! ## What reading leaves -/

variable {env : Env} {conn after : Conn}

/-- **What `handle_read` leaves behind.** With no output pending, either nothing is sent and the
output is still empty, or the mask asks for output or for nothing. -/
theorem handleRead_leaves (drained : conn.http.bufferOut = [])
    (empty : conn.http.channel.events = 0#32) (connected : conn.http.connectionState = .connected)
    (ran : conn.handleRead = .ok after) (unfailed : after.http.isError = false) :
    after.http.bufferOut = [] ∧ after.loop.log = conn.loop.log ∨
      after.http.channel.events = 0#32 ∨ after.http.channel.events = epollOut := by
  rw [handleRead_eq] at ran
  cases looped : stages conn with
  | error fault => simp [looped, Except.map] at ran
  | ok result =>
      obtain ⟨flow, read⟩ := result
      simp only [looped, Except.map, Except.ok.injEq] at ran
      subst ran
      have passed : read.http.isError = false := by
        by_contra failed
        have failed : read.http.isError = true := by simpa using failed
        rw [finishRead_failed failed, failed] at unfailed
        cases unfailed
      obtain ⟨bufferOut, isError, events, io, actions, flushed, -⟩ := flush_eq read
      have state : read.flush.http.processState = read.http.processState := by rw [flushed]
      have effect := readLoop_effect looped
      unfold finishRead at unfailed ⊢
      split
      · -- the request is finished: the mask is what the output needs
        rename_i finished
        right
        obtain ⟨timer, http, -⟩ := reset_keeps read.flush
        have same : read.flush.reset.http.channel = read.flush.http.channel := by rw [http]; rfl
        have alive : read.flush.http.connectionState ≠ .disconnected := by
          simp [(effect.sound finished.1).2, connected]
        rw [same]
        rcases effect.output finished.1 alive with ⟨asks, -⟩ | ⟨asks, -⟩
        · exact .inl (asks.trans empty)
        · right
          rw [asks, empty]
          rfl
      · rename_i unfinished
        left
        rw [if_neg unfinished] at unfailed
        obtain ⟨events', http, loop, -⟩ := awaitInput_keeps read.flush
        have written : read.flush.http.isError = false := by rwa [http] at unfailed
        have poured : read.http.bufferOut = conn.http.bufferOut := by
          refine (stages_pours _ _ _ looped).resolve_right fun ended => ?_
          rcases ended.2 with failed | finished
          · cases passed.symm.trans failed
          · exact unfinished ⟨written, state.trans finished⟩
        have dry : read.http.bufferOut = [] := poured.trans drained
        have idle : read.flush = read := by simp [flush, dry]
        have silent : Silent conn read := by
          refine (stages_reports _ _ _ looped).resolve_right ?_
          rintro ⟨-, report, reported⟩
          cases passed.symm.trans reported.failed
        rw [http, loop, idle]
        exact ⟨dry, congrArg Loop.log silent.loop⟩

end Conn

/-! ## The two phases of a connection -/

/-- Nothing has been sent for a connection, and nothing is to be sent. -/
structure Awaiting (http : HttpData) (loop : Loop) : Prop where
  unsent : tally Action.sends loop.log http.fd = 0
  drained : http.bufferOut = []

theorem Awaiting.congr {http : HttpData} {loop loop' : Loop} (awaiting : Awaiting http loop)
    (same : tally Action.sends loop'.log http.fd = tally Action.sends loop.log http.fd) :
    Awaiting http loop' := ⟨same.trans awaiting.unsent, awaiting.drained⟩

/-- A connection that is registered for output only. -/
def Parting (http : HttpData) : Prop := http.channel.lastEvents = epollOut ||| epollEt

namespace Conn

variable {env : Env} {conn after : Conn}

theorem Unsent.tally (unsent : Unsent conn after) :
    tally Action.sends after.loop.log conn.http.fd =
      tally Action.sends conn.loop.log conn.http.fd := by
  obtain ⟨actions, log, silent⟩ := unsent.log
  have none : actions.filter Action.sends = [] := List.filter_eq_nil_iff.mpr fun action member => by
    simp [silent action member]
  rw [log, tally_append, tally_own, none, List.length_nil, Nat.add_zero]

/-- An event sends once at most. -/
theorem handleEvents_sendsOnce (ran : conn.handleEvents env = .ok after) :
    tally Action.sends after.loop.log conn.http.fd ≤
      tally Action.sends conn.loop.log conn.http.fd + 1 := by
  obtain ⟨actions, sent, sends⟩ := handleEvents_sends ran
  rw [sends.log, tally_append, tally_own]
  have sending := sends.sending
  generalize actions.filter Action.sends = sending' at sending ⊢
  cases sending with
  | nothing => exact Nat.le_succ _
  | output part => exact le_rfl
  | page known failed => exact le_rfl

/-- The calls of `handle_connect` in an event close a connection that has failed or asks for
nothing. -/
theorem handleConnects_close (pending : Pending conn.http conn.loop)
    (ends : conn.http.isError = true ∨ conn.http.channel.events = 0#32) (twice : Bool) :
    let once := conn.handleConnect env
    let after := if twice then once.handleConnect env else once
    Closed after.http after.loop := by
  have once : ConnectEffect conn (conn.handleConnect env) ∧
      Closed (conn.handleConnect env).http (conn.handleConnect env).loop ∧
      (conn.handleConnect env).http.timer = none := by
    by_cases failed : conn.http.isError = true
    · obtain ⟨effect, closed, unknown, -⟩ := @handleConnect_failed env conn pending failed
      exact ⟨effect, closed, unknown⟩
    · have unfailed : conn.http.isError = false := by simpa using failed
      obtain ⟨connected, unkept⟩ := pending.sound unfailed
      obtain ⟨effect, closed, unknown, -⟩ := @handleConnect_idle env conn pending
        ⟨unfailed, connected, ends.resolve_left failed, unkept⟩
      exact ⟨effect, closed, unknown⟩
  obtain ⟨effect, closed, unknown⟩ := once
  cases twice with
  | false => exact closed
  | true => exact (@handleConnect_closed env _ closed effect.orderly unknown).2.1

/-- A connection that asks for output is registered for output only, however often it enters
`handle_connect`. -/
theorem handleConnects_part (pending : Pending conn.http conn.loop)
    (unfailed : conn.http.isError = false) (asked : conn.http.channel.events = epollOut)
    (twice : Bool) :
    let once := conn.handleConnect env
    let after := if twice then once.handleConnect env else once
    Parting after.http := by
  have proper : conn.http.channel.events ≠ 0#32 := by
    rw [asked]
    decide
  obtain ⟨effect, serving, events, last, -⟩ :=
    @handleConnect_active env conn pending unfailed proper
  have mask : arbitrate conn.http.channel.events = epollOut ||| epollEt := by
    rw [asked]
    decide
  cases twice with
  | false => exact last.trans mask
  | true =>
      have proper' : (conn.handleConnect env).http.channel.events ≠ 0#32 :=
        events ▸ arbitrate_ne_zero _
      obtain ⟨-, -, -, last', -⟩ := @handleConnect_active env (conn.handleConnect env)
        (serving.pending effect.orderly) serving.unfailed proper'
      refine last'.trans ?_
      rw [events, mask]
      decide

/-- What the calls of `handle_connect` in an event send and keep. -/
theorem handleConnects_unsent (conn : Conn) (twice : Bool) :
    let once := conn.handleConnect env
    let after := if twice then once.handleConnect env else once
    Unsent conn after ∧ after.http.bufferOut = conn.http.bufferOut := by
  obtain ⟨own, once⟩ := handleConnect_conduct env conn
  cases twice with
  | false => exact ⟨handleConnect_unsent env conn, once.bufferOut⟩
  | true =>
      obtain ⟨own', again⟩ := handleConnect_conduct env (conn.handleConnect env)
      exact ⟨(handleConnect_unsent env conn).trans (handleConnect_unsent env _),
        again.bufferOut.trans once.bufferOut⟩

/-- **An event of a connection that awaits a request** leaves it waiting, registered for output
only, or closed. -/
theorem handleEvents_awaiting (serving : Serving conn.http conn.loop) (orderly : conn.loop.Orderly)
    (kept : conn.http.channel.revents.drops = false) (awaiting : Awaiting conn.http conn.loop)
    (ran : conn.handleEvents env = .ok after) (serving' : Serving after.http after.loop) :
    Awaiting after.http after.loop ∨ Parting after.http := by
  obtain ⟨mid, connecting, rfl⟩ := exists_connecting kept ran
  have deciding := connecting.deciding serving orderly
  generalize conn.http.channel.revents.meets epollOut = twice at serving' ⊢
  have lasts : ¬ (mid.http.isError = true ∨ mid.http.channel.events = 0#32) := fun ends =>
    serving'.not_closed (handleConnects_close deciding.pending ends twice)
  obtain ⟨failed, asked⟩ := not_or.mp lasts
  have unfailed : mid.http.isError = false := by simpa using failed
  rcases connecting with ⟨-, rfl⟩ | ⟨-, read⟩
  · exact absurd rfl asked
  · rcases @handleRead_leaves (conn.storeEvents 0#32) mid awaiting.drained rfl serving.connected
      read unfailed with ⟨drained, log⟩ | none | output
    · left
      obtain ⟨unsent, same⟩ := @handleConnects_unsent env mid twice
      refine ⟨?_, same.trans drained⟩
      rw [unsent.fd, unsent.tally, log, deciding.fd]
      exact awaiting.unsent
    · exact absurd none asked
    · exact .inr (handleConnects_part deciding.pending unfailed output twice)

/-- **An event that does not read closes the connection**, and sends nothing. -/
theorem handleEvents_unread (serving : Serving conn.http conn.loop) (orderly : conn.loop.Orderly)
    (kept : conn.http.channel.revents.drops = false)
    (unread : conn.http.channel.revents.reads = false) (ran : conn.handleEvents env = .ok after) :
    Closed after.http after.loop ∧
      tally Action.sends after.loop.log conn.http.fd =
        tally Action.sends conn.loop.log conn.http.fd := by
  obtain ⟨mid, ⟨-, rfl⟩ | ⟨read, -⟩, rfl⟩ := exists_connecting kept ran
  · have deciding := deciding_unread serving orderly
    exact ⟨handleConnects_close deciding.pending (.inr rfl) _,
      (@handleConnects_unsent env (conn.storeEvents 0#32) _).1.tally⟩
  · cases unread.symm.trans read

end Conn

/-! ## A kernel that reports what was asked for -/

/-- What `epoll_wait` may report for an entry: the bits of its mask, and `EPOLLHUP` and `EPOLLERR`,
for which an entry need not ask. -/
def Interest.Reports (interest : Interest) (revents : Mask) : Prop :=
  revents &&& ~~~(interest.mask ||| epollHup ||| epollErr) = 0#32

/-- An entry for output only never reports input. -/
theorem Interest.Reports.unread {interest : Interest} {revents : Mask}
    (reports : interest.Reports revents) (output : interest.mask = epollOut ||| epollEt) :
    revents.reads = false := by
  unfold Reports at reports
  rw [output] at reports
  have inputs : epollIn ||| epollPri ||| epollRdhup =
      ~~~(epollOut ||| epollEt ||| epollHup ||| epollErr) &&&
        (epollIn ||| epollPri ||| epollRdhup) := by decide
  have none : revents &&& (epollIn ||| epollPri ||| epollRdhup) = 0#32 := by
    rw [inputs, ← BitVec.and_assoc, reports, BitVec.zero_and]
  simp [Mask.reads, Mask.meets, none]

namespace World

variable {env : Env} {world next : World} {fd : Fd}

/-- A step of the loop thread on a kernel that reports what was asked for. -/
inductive PoliteStep (env : Env) : World → World → Prop where
  | newEvent {world : World} (fd : Fd) (fresh : world.conns fd = none) :
      PoliteStep env world (world.newEvent env fd)
  | dispatch {world : World} {fd : Fd} {http : HttpData} {interest : Interest} {revents : Mask}
      {io : Io} {conn : Conn} (present : world.conns fd = some http)
      (entry : world.loop.kernel fd = some interest) (armed : interest.armed = true)
      (reports : interest.Reports revents) (stored : world.loop.fdToChannel fd = true)
      (ran : Conn.handleEvents env ⟨request http revents, io, disarm fd interest world.loop⟩ =
        .ok conn) :
      PoliteStep env world (world.update fd conn)
  | ignored {world : World} {fd : Fd} {interest : Interest}
      (entry : world.loop.kernel fd = some interest) (armed : interest.armed = true)
      (unset : world.loop.fdToChannel fd = false) :
      PoliteStep env world { world with loop := disarm fd interest world.loop }
  | handleExpired {world : World} : PoliteStep env world (world.handleExpired env)

theorem PoliteStep.step (step : PoliteStep env world next) : Step env world next := by
  cases step with
  | newEvent fd fresh => exact .newEvent fd fresh
  | dispatch present entry armed reports stored ran =>
      exact .dispatch present entry armed stored ran
  | ignored entry armed unset => exact .ignored entry armed unset
  | handleExpired => exact .handleExpired

/-- The state machine of a loop thread on such a kernel. -/
def politeMachine (env : Env) : Runs.Machine World where
  start world := world = start
  step := PoliteStep env

/-- It does nothing that the loop thread does not do on any kernel. -/
theorem politeMachine_refines (env : Env) : Runs.Refines (politeMachine env) (machine env) id where
  start _ starts := starts
  step _ _ _ step := .inr (PoliteStep.step step)

/-! ## Whole runs -/

/-- A connection has sent once at most, and it awaits a request or is registered for output only. -/
structure Once (fd : Fd) (world : World) : Prop where
  single : tally Action.sends world.loop.log fd ≤ 1
  phase : ∀ http, world.conns fd = some http → http.connectionState = .connected →
    Awaiting http world.loop ∨ Parting http

/-- Work on another connection. -/
theorem Once.update_of_ne (once : Once fd world) (sound : Sound world) {other : Fd}
    (ne : fd ≠ other) {conn : Conn} (frame : Frame other world.loop conn.loop) :
    Once fd (world.update other conn) := by
  obtain ⟨actions, log⟩ := frame.log
  have same : tally Action.sends conn.loop.log fd = tally Action.sends world.loop.log fd := by
    rw [log, tally_append, tally_of_ne ne, Nat.add_zero]
  refine ⟨?_, fun http present connected => ?_⟩
  · show tally Action.sends conn.loop.log fd ≤ 1
    rw [same]
    exact once.single
  · have present : world.conns fd = some http := (Function.update_of_ne ne _ _).symm.trans present
    obtain rfl : http.fd = fd := (sound.present fd http present).1
    exact (once.phase http present connected).imp (fun awaiting => awaiting.congr same) id

/-- Work on the connection. -/
theorem once_update {conn : Conn} (single : tally Action.sends conn.loop.log fd ≤ 1)
    (phase : conn.http.connectionState = .connected →
      Awaiting conn.http conn.loop ∨ Parting conn.http) :
    Once fd (world.update fd conn) := by
  refine ⟨single, fun http present connected => ?_⟩
  obtain rfl : conn.http = http :=
    Option.some.inj ((Function.update_self fd _ world.conns).symm.trans present)
  exact phase connected

/-- A connection that has just been accepted awaits a request. -/
theorem awaiting_newEvent (unknown : Unknown fd world.loop) (orderly : world.loop.Orderly) :
    let after := Conn.newEvent env ⟨HttpData.new fd, Io.unused, world.loop⟩
    Awaiting after.http after.loop := by
  intro after
  obtain ⟨effect, -, log, -⟩ := @Conn.newEvent_effect env
    ⟨HttpData.new fd, Io.unused, world.loop⟩ rfl rfl rfl rfl orderly unknown.unguarded
  have unlogged : tally Action.sends world.loop.log fd = 0 := by
    refine List.countP_eq_zero.mpr fun entry member => ?_
    have other : entry.1 ≠ fd := by
      rintro rfl
      exact unknown.unlogged entry.2 member
    simp [other]
  refine ⟨?_, ?_⟩
  · have own : after.http.fd = fd := effect.fd
    have log : after.loop.log =
        world.loop.log ++ [Action.addTimer defaultExpiredTime].map (Prod.mk fd) := log
    rw [own, log, tally_append, unlogged, tally_own]
    rfl
  · let asking : Conn :=
      ⟨(HttpData.new fd).setEvents defaultEvent, Io.unused, world.loop⟩
    have result : after =
        (asking.addTimer env true defaultExpiredTime).heldByPoller.addInterest env :=
      Conn.addFdInEpoll_eq (by decide)
    obtain ⟨timer, -, http, -⟩ := Conn.addTimer_keeps env true defaultExpiredTime asking
    rw [result]
    show (asking.addTimer env true defaultExpiredTime).http.bufferOut = []
    rw [http]
    rfl

theorem Once.newEvent (once : Once fd world) (sound : Sound world) {other : Fd}
    (fresh : world.conns other = none) : Once fd (world.newEvent env other) := by
  have unknown := sound.absent other fresh
  obtain ⟨effect, -⟩ := @Conn.newEvent_effect env
    ⟨HttpData.new other, Io.unused, world.loop⟩ rfl rfl rfl rfl sound.orderly unknown.unguarded
  by_cases ne : fd = other
  · subst ne
    have awaiting := @awaiting_newEvent env world fd unknown sound.orderly
    refine once_update ?_ fun _ => .inl awaiting
    have unsent := awaiting.unsent
    rw [effect.fd] at unsent
    exact unsent.trans_le (Nat.zero_le 1)
  · exact once.update_of_ne sound ne effect.frame

/-- **An event keeps the phases.** It is here that the kernel has to report what was asked for. -/
theorem Once.dispatch (once : Once fd world) (sound : Sound world) (interested : Interested world)
    {other : Fd} {http : HttpData} {interest : Interest} {revents : Mask} {io : Io} {conn : Conn}
    (present : world.conns other = some http) (entry : world.loop.kernel other = some interest)
    (reports : interest.Reports revents) (stored : world.loop.fdToChannel other = true)
    (ran : Conn.handleEvents env ⟨request http revents, io, disarm other interest world.loop⟩ =
      .ok conn) : Once fd (world.update other conn) := by
  have sound' := sound.dispatch present stored ran
  obtain ⟨rfl, serving, -⟩ := sound.serving present stored
  have requested : Serving (request http revents) (disarm http.fd interest world.loop) :=
    serving_request serving revents interest
  have orderly : (disarm http.fd interest world.loop).Orderly := sound.orderly.congr rfl rfl
  by_cases ne : fd = http.fd
  · subst ne
    have phase := once.phase http present serving.connected
    cases drops : revents.drops with
    | true =>
        rw [Conn.handleEvents_drops (by exact drops), Except.ok.injEq] at ran
        subst ran
        refine once_update once.single fun _ => ?_
        exact phase.imp (fun awaiting => ⟨awaiting.unsent, awaiting.drained⟩) id
    | false =>
        have serves : conn.http.connectionState = .connected → Serving conn.http conn.loop := by
          intro connected
          obtain ⟨-, ⟨serving', -⟩ | ⟨closed, -⟩⟩ := sound'.present http.fd conn.http
            (Function.update_self http.fd _ world.conns)
          · exact serving'
          · cases connected.symm.trans closed.disconnected
        rcases phase with awaiting | parting
        · refine once_update ?_ fun connected => ?_
          · have once := Conn.handleEvents_sendsOnce ran
            have unsent : tally Action.sends world.loop.log http.fd = 0 := awaiting.unsent
            exact once.trans (Nat.succ_le_succ unsent.le)
          · exact Conn.handleEvents_awaiting requested orderly drops
              ⟨awaiting.unsent, awaiting.drained⟩ ran (serves connected)
        · have unread : revents.reads = false := by
            obtain ⟨known, entry', mask, -⟩ := interested http.fd http present serving.connected
            rw [serving.own, entry, Option.some.injEq] at entry'
            subst entry'
            exact reports.unread (mask.trans parting)
          obtain ⟨closed, same⟩ := Conn.handleEvents_unread requested orderly drops unread ran
          refine once_update (same.trans_le once.single) fun connected => ?_
          cases connected.symm.trans closed.disconnected
  · have effect := Conn.handleEvents_effect requested orderly ran
    exact once.update_of_ne sound ne
      ((frame_disarm http.fd interest world.loop).trans effect.frame)

theorem Once.handleExpired (once : Once fd world) (sound : Sound world) :
    Once fd (world.handleExpired env) := by
  have same : tally Action.sends (world.handleExpired env).loop.log fd =
      tally Action.sends world.loop.log fd := tally_handleExpired rfl
  refine ⟨same.trans_le once.single, fun http present connected => ?_⟩
  obtain ⟨own, ⟨-, unclosed⟩ | ⟨closed, -⟩⟩ := sound.handleExpired.present fd http present
  · rw [conns_handleExpired sound.held unclosed] at present
    subst own
    exact (once.phase http present connected).imp (fun awaiting => awaiting.congr same) id
  · cases connected.symm.trans closed.disconnected

/-- **The phases last.** -/
theorem reachable_once (reliable : env.Reliable)
    (reachable : (politeMachine env).Reachable world) (fd : Fd) : Once fd world := by
  refine reachable.induction (Once fd) ?_ fun before after earlier once step => ?_
  · rintro first rfl
    exact ⟨Nat.zero_le 1, fun http present => by cases present⟩
  · have earlier : (machine env).Reachable before := (politeMachine_refines env).reachable earlier
    have sound := reachable_sound earlier
    cases step with
    | newEvent other fresh => exact once.newEvent sound fresh
    | dispatch present entry armed reports stored ran =>
        have interested := reachable_interested reliable earlier
        exact once.dispatch sound interested present entry reports stored ran
    | ignored =>
        exact ⟨once.single, fun http present connected =>
          (once.phase http present connected).imp (fun awaiting => awaiting.congr rfl) id⟩
    | handleExpired => exact once.handleExpired sound

/-- **A connection gets one answer.** On a kernel that reports what an entry asks for, and with
`epoll_ctl` not failing, in every reachable state a connection has written its output once at most
or sent one error page, and while it is still open after that, its entry in the kernel is for output
only, so that it is not even told about a further request. -/
theorem oneAnswer (reliable : env.Reliable) (reachable : (politeMachine env).Reachable world)
    (fd : Fd) :
    tally Action.sends world.loop.log fd ≤ 1 ∧
      (0 < tally Action.sends world.loop.log fd → world.Open fd →
        ∃ interest, world.loop.kernel fd = some interest ∧
          interest.mask = epollOut ||| epollEt) := by
  have once := reachable_once reliable reachable fd
  refine ⟨once.single, fun sent opened => ?_⟩
  have reachable : (machine env).Reachable world := (politeMachine_refines env).reachable reachable
  obtain ⟨http, present, unclosed⟩ := opened
  obtain ⟨rfl, ⟨serving, -⟩ | ⟨-, closed⟩⟩ := (reachable_sound reachable).present fd http present
  · obtain ⟨interest, entry, mask, -⟩ :=
      reachable_interested reliable reachable http.fd http present serving.connected
    rw [serving.own] at entry
    refine ⟨interest, entry, mask.trans ?_⟩
    rcases once.phase http present serving.connected with awaiting | parting
    · exact absurd awaiting.unsent (Nat.pos_iff_ne_zero.mp sent)
    · exact parting
  · exact absurd closed unclosed

/-- The new connection when the request for the fixed text arrives, on a socket that takes ten bytes
of the answer. -/
def helloHalfTaken : Conn :=
  { helloArrives with io := { Io.packet helloRequest with writes := [.accepted 10, .eagain] } }

/-- The rest of the answer waits for output, and so does the connection. -/
theorem helloHalfTaken_once :
    ∃ world, (politeMachine Env.calm).Reachable world ∧ world.Open 5 ∧
      tally Action.sends world.loop.log 5 = 1 ∧
      ∃ interest, world.loop.kernel 5 = some interest ∧ interest.mask = epollOut ||| epollEt := by
  have looped : ∃ flow read self, Conn.stages (helloHalfTaken.storeEvents 0#32) = .ok (flow, read) ∧
      (read.finishRead.handleConnect Env.calm).loop.log =
        [(5, Action.addTimer defaultExpiredTime), (5, .writen HttpData.helloResponse),
          (5, .clearInput []), (5, .handleConnect self),
          (5, .updatePoller (epollOut ||| epollEt) defaultExpiredTime),
          (5, .addTimer defaultExpiredTime)] :=
    ⟨_, _, _, rfl, rfl⟩
  obtain ⟨flow, read, self, looped, log⟩ := looped
  have ran : helloHalfTaken.handleEvents Env.calm =
      .ok (read.finishRead.handleConnect Env.calm) := by
    rw [Conn.handleEvents_eq (by decide), if_pos (by decide), Conn.handleRead_eq, looped]
    rfl
  have reports : Interest.Reports ⟨defaultEvent, true⟩ epollIn := by
    show _ = _
    decide
  have accepts : (politeMachine Env.calm).Reachable accepted :=
    (Runs.Machine.Reachable.start rfl).step (.newEvent 5 rfl)
  have reachable := accepts.step (.dispatch rfl rfl rfl reports rfl ran)
  have opened : (accepted.update 5 (read.finishRead.handleConnect Env.calm)).Open 5 := by
    refine ⟨(read.finishRead.handleConnect Env.calm).http, by simp [World.update], ?_⟩
    show (5, Action.handleClose) ∉ (read.finishRead.handleConnect Env.calm).loop.log
    rw [log]
    simp
  have sent : tally Action.sends (read.finishRead.handleConnect Env.calm).loop.log 5 = 1 := by
    rw [log]
    rfl
  obtain ⟨-, waits⟩ := oneAnswer (fun _ => rfl) reachable 5
  exact ⟨_, reachable, opened, sent, waits (Nat.lt_of_lt_of_eq Nat.one_pos sent.symm) opened⟩

end World

end FastWebServer
