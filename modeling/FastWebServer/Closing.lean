import FastWebServer.Timer.Activity
import FastWebServer.Http.ErrorPage
import FastWebServer.Util.Drain

/-!
# What ends a connection

A connection that is open ends in two ways only (`World.closing_explained`): `handle_expired_event`
finds its timer due, or `handle_connect` is entered by it, in an event of its own, when it has
failed or asks for nothing. A connection that asks for nothing after its input was read has no
output left; an event that does not read the input may leave output behind.

One way to fail is a peer that is gone. When the reading ends with the end of the file or with an
error, the event closes the connection, and nothing is sent but possibly an error page, neither the
output that was pending nor an answer to a request that has just become complete
(`World.lostPeer_unanswered`).
-/

set_option autoImplicit false

namespace FastWebServer

open Cxx

/-! ## The reasons -/

/-- Why a connection is closed by the `handle_connect` that it enters. -/
def HttpData.Ends (self : HttpData) : Prop :=
  self.isError = true ∨
    self.Idle ∧ (self.bufferOut = [] ∨ self.channel.revents.reads = false)

namespace Conn

variable {env : Env} {conn after : Conn}

/-- A connection that asks for nothing after its input was read has no output left. -/
theorem Connecting.taken {mid : Conn} (connecting : Connecting conn mid)
    (serving : Serving conn.http conn.loop) (orderly : conn.loop.Orderly) (idle : mid.http.Idle) :
    mid.http.bufferOut = [] ∨ mid.http.channel.revents.reads = false := by
  rcases connecting with ⟨unread, rfl⟩ | ⟨-, read⟩
  · exact .inr unread
  · left
    have start := deciding_unread serving orderly
    have effect := handleRead_effect start.pending.orderly start.pending.tended read
    by_contra pending
    have connected : mid.http.connectionState ≠ .disconnected := by simp [idle.connected]
    have asks := effect.pending idle.unfailed connected pending
    rw [idle.empty] at asks
    cases asks

/-- **An event that ends a serving connection** has its reason where `handle_connect` is entered for
the first time. -/
theorem exists_ends (serving : Serving conn.http conn.loop) (orderly : conn.loop.Orderly)
    (kept : conn.http.channel.revents.drops = false) (ran : conn.handleEvents env = .ok after)
    (ended : ¬ Serving after.http after.loop) :
    ∃ self : HttpData, self.Ends ∧
      ∃ entries, after.loop.log = conn.loop.log ++ entries ∧
        (conn.http.fd, .handleConnect self) ∈ entries := by
  obtain ⟨mid, connecting, rfl⟩ := exists_connecting kept ran
  have deciding := connecting.deciding serving orderly
  refine ⟨mid.http, ?_, ?_⟩
  · by_cases failed : mid.http.isError = true
    · exact .inl failed
    · have unfailed : mid.http.isError = false := by simpa using failed
      obtain ⟨connected, unkept⟩ := deciding.pending.sound unfailed
      by_cases empty : mid.http.channel.events = 0#32
      · have idle : mid.http.Idle := ⟨unfailed, connected, empty, unkept⟩
        exact .inr ⟨idle, connecting.taken serving orderly idle⟩
      · -- the connection goes on, and it does so at the second call as well
        obtain ⟨effect, once, asks, -⟩ :=
          @handleConnect_active env mid deciding.pending unfailed empty
        refine absurd ?_ ended
        split
        · have asked : (mid.handleConnect env).http.channel.events ≠ 0#32 :=
            asks ▸ arbitrate_ne_zero _
          exact (handleConnect_active (once.pending effect.orderly) once.unfailed asked).2.1
        · exact once
  · have logged := handleConnect_logged env mid
    rw [deciding.fd] at logged
    have onward : (mid.loop.log ++ [(conn.http.fd, .handleConnect mid.http)]) <+:
        (if conn.http.channel.revents.meets epollOut then
          (mid.handleConnect env).handleConnect env
          else mid.handleConnect env).loop.log := by
      split
      · exact logged.trans (onward_handleConnect env _).log
      · exact logged
    obtain ⟨earlier, before⟩ := connecting.onward.log
    obtain ⟨later, behind⟩ := onward
    rw [← behind, ← before]
    exact ⟨earlier ++ (conn.http.fd, .handleConnect mid.http) :: later, by simp, by simp⟩

end Conn

namespace World

variable {env : Env} {world next : World} {fd : Fd}

/-- **What ends a connection.** A step that closes an open connection, from any reachable state, is
an expiry that finds its timer due, or an event in which `handle_connect` was entered by the
connection when it had failed, or when it asked for nothing and its output had been taken or its
input not read. -/
theorem closing_explained (reachable : (machine env).Reachable world) (opened : world.Open fd)
    (step : Step env world next) (closed : (fd, Action.handleClose) ∈ next.loop.log) :
    (∃ timer reading, live world.loop.timers fd = [timer] ∧ world.loop.ticks ≤ reading ∧
        reading < next.loop.ticks ∧ timer.expiredTime ≤ (env.clock reading).millis) ∨
      ∃ self : HttpData, self.Ends ∧ ∃ entries, next.loop.log = world.loop.log ++ entries ∧
        (fd, Action.handleConnect self) ∈ entries := by
  have sound := reachable_sound reachable
  have counted := connects_mono step.onward.log fd
  by_cases rests : connects next.loop.log fd = connects world.loop.log fd
  · left
    obtain ⟨http, present, unclosed⟩ := opened
    obtain ⟨rfl, ⟨serving, -⟩ | ⟨-, logged⟩⟩ := sound.present fd http present
    · obtain ⟨timer, only, -⟩ := serving.guarded
      rcases waits_step sound ⟨http, present, unclosed⟩ only step rests with
        ⟨⟨-, -, unclosed'⟩, -⟩ | ⟨-, reading, first, last, due⟩
      · exact absurd closed unclosed'
      · exact ⟨timer, reading, only, first, last, due⟩
    · exact absurd logged unclosed
  · right
    have sound' := sound.step step
    have active : Active fd world next := .inr (Nat.lt_of_le_of_ne counted (Ne.symm rests))
    rcases step.active_cases sound active with
      ⟨fresh, -⟩ | ⟨http, interest, revents, io, conn, present, stored, kept, ran, rfl⟩
    · obtain ⟨http, present, -⟩ := opened
      cases fresh.symm.trans present
    · obtain ⟨own, serving, -⟩ := sound.serving present stored
      have requested : Serving (request http revents) (disarm fd interest world.loop) :=
        @serving_request fd _ _ serving revents interest
      have ended : ¬ Serving conn.http conn.loop := by
        intro serving'
        obtain ⟨-, ⟨-, unclosed⟩ | ⟨closed', -⟩⟩ :=
          sound'.present fd conn.http (Function.update_self fd _ world.conns)
        · exact unclosed closed
        · exact serving'.not_closed closed'
      obtain ⟨self, ends, entries, log, logged⟩ :=
        Conn.exists_ends requested (sound.orderly.congr rfl rfl) kept ran ended
      exact ⟨self, ends, entries, log, own ▸ logged⟩

/-- The connection whose first request is answered ends for a reason of its own. -/
theorem answered_explained :
    ∃ world, Step Env.calm accepted world ∧ (5, Action.handleClose) ∈ world.loop.log ∧
      ∃ self : HttpData, self.Ends ∧ (5, Action.handleConnect self) ∈ world.loop.log := by
  obtain ⟨world, step, closed⟩ := answered_closed
  refine ⟨world, step, closed, ?_⟩
  rcases closing_explained accepted_reachable accepted_open step closed with
    ⟨timer, reading, only, -, -, due⟩ | ⟨self, ends, entries, log, logged⟩
  · have mine : live accepted.loop.timers 5 = [Timer.new 0 5 ⟨0, 0⟩ defaultExpiredTime] := rfl
    rw [mine, List.singleton_inj] at only
    subst only
    have early : ¬ Timeval.millis ⟨0, 0⟩ + defaultExpiredTime ≤ Timeval.millis ⟨0, 0⟩ := by decide
    exact absurd due early
  · exact ⟨self, ends, by rw [log]; exact List.mem_append_right _ logged⟩

end World

/-! ## A peer that is gone -/

namespace Conn

variable {env : Env} {conn after : Conn} {earlier rest : List ReadResult} {stop : ReadResult}

/-- The reading fails the connection at the end of the file and at an error. -/
theorem readStage_gone (connected : conn.http.connectionState = .connected)
    (script : conn.io.reads = earlier ++ stop :: rest) (passing : Passing earlier)
    (gone : stop = .eof ∨ stop = .error) :
    ∃ flow mid, readStage conn = .ok (flow, mid) ∧ mid.http.isError = true := by
  have stops : stop.Stops := gone.elim .inl fun error => .inr (.inr error)
  have drained : readn conn.io.reads conn.http.bufferIn =
      ⟨answer stop (0 + (chunks earlier).length), conn.http.bufferIn ++ chunks earlier,
        decide (stop = .eof), rest⟩ := by
    rw [script]
    exact readnLoop_drains passing stops conn.http.bufferIn 0
  have alive : ¬ conn.http.connectionState = .disconnected := by simp [connected]
  unfold readStage
  simp only [drained, if_neg alive]
  split
  · exact ⟨_, _, rfl, rfl⟩
  · rename_i counted
    rcases gone with rfl | rfl
    · simp only [decide_true, if_true]
      split
      · exact ⟨_, _, rfl, rfl⟩
      · exact ⟨_, _, rfl, rfl⟩
    · have answered : answer .error (0 + (chunks earlier).length) = -1 := if_pos rfl
      rw [answered] at counted
      exact absurd (by decide) counted

/-- A failure lasts through the stages that follow. -/
theorem stages_gone {flow : Flow} (connected : conn.http.connectionState = .connected)
    (script : conn.io.reads = earlier ++ stop :: rest) (passing : Passing earlier)
    (gone : stop = .eof ∨ stop = .error) (ran : stages conn = .ok (flow, after)) :
    after.http.isError = true := by
  obtain ⟨first, mid, read, failed⟩ := readStage_gone connected script passing gone
  unfold stages Stage.before at ran
  rw [read] at ran
  cases first with
  | leave =>
      cases ran
      exact failed
  | goOn =>
      have steady := keeps_before uriStage_keeps (keeps_before headersStage_keeps
        (keeps_before bodyStage_keeps analysisStage_keeps)) mid flow after ran
      by_contra unfailed
      have unfailed : after.http.isError = false := by simpa using unfailed
      rw [(steady.sound unfailed).1] at failed
      cases failed

/-- What a handler sends when the peer is gone: nothing, or one error page. -/
structure Abandoned (before after : Conn) : Prop where
  failed : after.http.isError = true
  sent : after.io.sent = before.io.sent ∨
    ∃ report ∈ errorReports, after.io.sent = before.io.sent ++ report.written before.io.writes
  log : ∃ actions : List Action,
    after.loop.log = before.loop.log ++ actions.map (Prod.mk before.http.fd) ∧
      ∀ pending, .writen pending ∉ actions

theorem Abandoned.unsent {before middle after : Conn} (abandoned : Abandoned before middle)
    (fd : middle.http.fd = before.http.fd) (unsent : Unsent middle after) :
    Abandoned before after := by
  obtain ⟨actions, log, none⟩ := abandoned.log
  obtain ⟨later, log', silent⟩ := unsent.log
  refine ⟨unsent.isError.trans abandoned.failed, by rw [unsent.io]; exact abandoned.sent,
    actions ++ later, ?_, fun pending member => ?_⟩
  · rw [log', log, fd, List.map_append, List.append_assoc]
  · rcases List.mem_append.mp member with earlier | now
    · exact none pending earlier
    · cases silent _ now

/-- `handle_read` answers nothing. -/
theorem handleRead_gone (connected : conn.http.connectionState = .connected)
    (script : conn.io.reads = earlier ++ stop :: rest) (passing : Passing earlier)
    (gone : stop = .eof ∨ stop = .error) (ran : conn.handleRead = .ok after) :
    Abandoned conn after ∧ after.http.fd = conn.http.fd := by
  rw [handleRead_eq] at ran
  cases looped : stages conn with
  | error fault => simp [looped, Except.map] at ran
  | ok result =>
      obtain ⟨flow, read⟩ := result
      simp only [looped, Except.map, Except.ok.injEq] at ran
      have failed := stages_gone connected script passing gone looped
      rw [finishRead_failed failed] at ran
      subst ran
      rcases stages_reports _ _ _ looped with silent | ⟨-, report, reported⟩
      · refine ⟨⟨failed, .inl silent.sent, [], ?_, fun _ => List.not_mem_nil⟩, silent.fd⟩
        rw [silent.loop]
        exact (List.append_nil _).symm
      · refine ⟨⟨failed, .inr ⟨report, reported.known, reported.sent⟩, [.handleError report], ?_,
          by simp⟩, reported.fd⟩
        rw [reported.loop]
        rfl

/-- **An event that finds the peer gone** fails the connection and answers nothing. -/
theorem handleEvents_gone (connected : conn.http.connectionState = .connected)
    (kept : conn.http.channel.revents.drops = false)
    (reads : conn.http.channel.revents.reads = true)
    (script : conn.io.reads = earlier ++ stop :: rest) (passing : Passing earlier)
    (gone : stop = .eof ∨ stop = .error) (ran : conn.handleEvents env = .ok after) :
    Abandoned conn after := by
  obtain ⟨mid, ⟨unread, -⟩ | ⟨-, read⟩, rfl⟩ := exists_connecting kept ran
  · cases unread.symm.trans reads
  · obtain ⟨first, fd⟩ := @handleRead_gone (conn.storeEvents 0#32) mid earlier rest stop connected
      script passing gone read
    have begun : Abandoned conn mid := ⟨first.failed, first.sent, first.log⟩
    have once := begun.unsent fd (handleConnect_unsent env mid)
    split
    · have fd' := (handleConnect_unsent env mid).fd.trans fd
      exact once.unsent fd' (handleConnect_unsent env _)
    · exact once

end Conn

namespace World

variable {env : Env} {world : World} {fd : Fd}

/-- **A peer that is gone gets no answer.** In any reachable state, an event whose reading ends with
the end of the file or an error closes the connection, whatever was read before. It writes nothing
of the output, pending or new, and sends nothing or an error page. -/
theorem lostPeer_unanswered (reachable : (machine env).Reachable world) {http : HttpData}
    {interest : Interest} {revents : Mask} {io : Io} {conn : Conn}
    {earlier rest : List ReadResult} {stop : ReadResult} (present : world.conns fd = some http)
    (stored : world.loop.fdToChannel fd = true) (kept : revents.drops = false)
    (reads : revents.reads = true) (script : io.reads = earlier ++ stop :: rest)
    (passing : Passing earlier) (gone : stop = .eof ∨ stop = .error)
    (ran : Conn.handleEvents env ⟨request http revents, io, disarm fd interest world.loop⟩ =
      .ok conn) :
    (fd, Action.handleClose) ∈ conn.loop.log ∧ ¬ (world.update fd conn).Open fd ∧
      (conn.io.sent = io.sent ∨
        ∃ report ∈ errorReports, conn.io.sent = io.sent ++ report.written io.writes) ∧
      ∃ actions : List Action, conn.loop.log = world.loop.log ++ actions.map (Prod.mk fd) ∧
        ∀ pending, .writen pending ∉ actions := by
  have sound := reachable_sound reachable
  obtain ⟨rfl, serving, -⟩ := sound.serving present stored
  have abandoned := @Conn.handleEvents_gone env
    ⟨request http revents, io, disarm http.fd interest world.loop⟩ conn earlier rest stop
    serving.connected kept reads script passing gone ran
  obtain ⟨-, ⟨serving', -⟩ | ⟨-, closed⟩⟩ := (sound.dispatch present stored ran).present http.fd
    conn.http (Function.update_self http.fd _ world.conns)
  · cases serving'.unfailed.symm.trans abandoned.failed
  · exact ⟨closed, fun opened => opened.choose_spec.2 closed, abandoned.sent, abandoned.log⟩

/-- The new connection when a whole request arrives together with the end of the file. -/
def helloHangsUp : Conn :=
  { helloArrives with io := { Io.unused with reads := [.data helloRequest, .eof] } }

/-- The request is not answered. -/
theorem helloHangsUp_unanswered :
    ∃ conn, helloHangsUp.handleEvents Env.calm = .ok conn ∧ ¬ (accepted.update 5 conn).Open 5 ∧
      ∀ pending, (5, Action.writen pending) ∉ conn.loop.log := by
  have looped : ∃ flow read, Conn.stages (helloHangsUp.storeEvents 0#32) = .ok (flow, read) :=
    ⟨_, _, rfl⟩
  obtain ⟨flow, read, looped⟩ := looped
  have ran : (helloHangsUp.storeEvents 0#32).handleRead = .ok read.finishRead := by
    rw [Conn.handleRead_eq, looped]
    rfl
  have handled : helloHangsUp.handleEvents Env.calm =
      .ok (read.finishRead.handleConnect Env.calm) := by
    rw [Conn.handleEvents_eq (by decide), if_pos (by decide), ran]
    rfl
  have passing : Passing [.data helloRequest] := by
    intro result member
    exact .inr ⟨helloRequest, List.mem_singleton.mp member⟩
  obtain ⟨-, shut, -, actions, log, none⟩ :=
    @lostPeer_unanswered Env.calm accepted 5 accepted_reachable _ _ _ _ _ _ [] _ rfl rfl (by decide)
      (by decide) rfl passing (.inl rfl) handled
  refine ⟨_, handled, shut, fun pending member => ?_⟩
  rw [log] at member
  rcases List.mem_append.mp member with earlier | now
  · have earlier : (5, Action.writen pending) ∈ [(5, Action.addTimer defaultExpiredTime)] := earlier
    simp at earlier
  · obtain ⟨action, member, same⟩ := List.mem_map.mp now
    obtain ⟨-, rfl⟩ := Prod.mk.inj same
    exact none pending member

end World

end FastWebServer
