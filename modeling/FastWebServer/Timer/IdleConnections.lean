import FastWebServer.EventLoop.Iteration
import FastWebServer.Timer.Expiry

/-!
# Connections that nothing happens to

Every open connection has a timer in the queue, which is replaced whenever the connection is
worked on. So what one call of `handle_expired_event` does to an open connection is decided by its
one timer: the connection is closed if the timer was due when the call read the clock for it, and
otherwise it is as it was, with a timer that is not due at the last reading of the call
(`idleConnection_expires`). The deleted timers that stand before it in the queue do not hide it.
-/

set_option autoImplicit false

namespace FastWebServer

namespace World

variable {env : Env} {world : World}

/-! ## What a call leaves alone -/

theorem log_pop (timer : Timer) : world.loop.log <+: (world.pop env timer).loop.log := by
  unfold pop destroy
  split
  · exact List.prefix_rfl
  · split
    · exact List.prefix_rfl
    · exact List.prefix_append ..

/-- The log only grows. -/
theorem log_handleExpired : world.loop.log <+: (world.handleExpired env).loop.log := by
  fun_induction World.handleExpired env world with
  | case1 => exact List.prefix_rfl
  | case2 world timer least deleted ih => exact (log_pop timer).trans ih
  | case3 => exact List.prefix_rfl
  | case4 world timer least undeleted expired ih =>
      exact (@log_pop env world.tick timer).trans ih

/-- A timer that is taken out changes no connection that it does not close. -/
theorem conns_pop (held : world.Held) {timer : Timer} (queued : timer ∈ world.loop.timers) {fd : Fd}
    (opened : (fd, Action.handleClose) ∉ (world.pop env timer).loop.log) :
    (world.pop env timer).conns fd = world.conns fd := by
  unfold pop destroy at opened ⊢
  cases holds : timer.holder with
  | none => rfl
  | some closing =>
      obtain ⟨http, present, rfl⟩ := held timer queued closing holds
      simp only [holds, present] at opened ⊢
      refine Function.update_of_ne (fun same => opened ?_) ..
      rw [same]
      exact List.mem_append_right _ (List.mem_singleton_self _)

/-- A connection that is still open is as it was. -/
theorem conns_handleExpired (held : world.Held) {fd : Fd}
    (opened : (fd, Action.handleClose) ∉ (world.handleExpired env).loop.log) :
    (world.handleExpired env).conns fd = world.conns fd := by
  fun_induction World.handleExpired env world with
  | case1 => rfl
  | case2 world timer least deleted ih =>
      have queued := env.queue.top_mem _ _ least
      have opened' : (fd, Action.handleClose) ∉ (world.pop env timer).loop.log :=
        fun member => opened (log_handleExpired.subset member)
      exact (ih (pop_held held timer) opened).trans (conns_pop held queued opened')
  | case3 => rfl
  | case4 world timer least undeleted expired ih =>
      have queued := env.queue.top_mem _ _ least
      have held' : world.tick.Held := held
      have opened' : (fd, Action.handleClose) ∉ (world.tick.pop env timer).loop.log :=
        fun member => opened (log_handleExpired.subset member)
      exact (ih (pop_held held' timer) opened).trans (conns_pop held' queued opened')

/-- The connections that have been closed are those of the log. -/
theorem mem_closings {log : List (Fd × Action)} {fd : Fd} :
    fd ∈ closings log ↔ (fd, Action.handleClose) ∈ log := by
  unfold closings
  rw [List.mem_map]
  constructor
  · rintro ⟨⟨_, action⟩, member, rfl⟩
    obtain ⟨logged, closes⟩ := List.mem_filter.mp member
    cases action <;> first | exact logged | cases closes
  · exact fun logged => ⟨_, List.mem_filter.mpr ⟨logged, rfl⟩, rfl⟩

/-! ## The readings of a call -/

theorem readings_erase {timers : List Timer} {timer : Timer} (queued : timer ∈ timers) :
    readings timers = readings [timer] + readings (timers.erase timer) := by
  have parts : readings timers = readings (timer :: timers.erase timer) :=
    (List.perm_cons_erase queued).countP_eq _
  rw [parts]
  exact @List.countP_append _ _ [timer] (timers.erase timer)

/-- The clock is read for every timer that is taken out and is not deleted. -/
theorem ticks_handleExpired :
    world.loop.ticks + readings world.loop.timers ≤
      (world.handleExpired env).loop.ticks + readings (world.handleExpired env).loop.timers := by
  fun_induction World.handleExpired env world with
  | case1 => exact le_rfl
  | case2 world timer least deleted ih =>
      have split := readings_erase (env.queue.top_mem _ _ least)
      have none : readings [timer] = 0 := by simp [readings, deleted]
      rw [pop_ticks, pop_timers] at ih
      omega
  | case3 world => exact Nat.add_le_add_right (Nat.le_succ _) _
  | case4 world timer least undeleted expired ih =>
      have split := readings_erase (env.queue.top_mem _ _ least)
      have one : readings [timer] = 1 := by simp [readings, undeleted]
      rw [pop_ticks, pop_timers] at ih
      have ticks : world.tick.loop.ticks = world.loop.ticks + 1 := rfl
      have timers : world.tick.loop.timers = world.loop.timers := rfl
      rw [ticks, timers] at ih
      omega

/-- The reading for a timer that was taken out is one of the call. -/
theorem Expiry.reading {after : World} {removed : List Timer}
    (expiry : Expiry env world after removed)
    (ticks : world.loop.ticks + readings world.loop.timers ≤
      after.loop.ticks + readings after.loop.timers) {timer : Timer} (taken : timer ∈ removed)
    (undeleted : timer.deleted = false) :
    ∃ tick, world.loop.ticks ≤ tick ∧ tick < after.loop.ticks ∧
      timer.expiredTime ≤ (env.clock tick).millis := by
  obtain ⟨earlier, later, rfl⟩ := List.append_of_mem taken
  have due := (expiry.due earlier timer later rfl).resolve_left (by simp [undeleted])
  have counted : readings world.loop.timers =
      readings earlier + (readings later + 1) + readings after.loop.timers := by
    have parts : readings ((earlier ++ timer :: later) ++ after.loop.timers) =
        readings world.loop.timers := expiry.parts.countP_eq _
    simp only [readings, List.countP_append, List.countP_cons, undeleted, Bool.not_false,
      if_true] at parts ⊢
    omega
  exact ⟨_, Nat.le_add_right .., by omega, due⟩

/-! ## Open connections -/

/-- The timer that guards an open connection is the only one that holds it. -/
theorem Sound.guard (sound : Sound world) {fd : Fd} {timer : Timer}
    (only : live world.loop.timers fd = [timer]) {other : Timer}
    (queued : other ∈ world.loop.timers) (holds : other.holder = some fd) : other = timer := by
  have undeleted : other.deleted = false := by
    cases deleted : other.deleted with
    | false => rfl
    | true => exact absurd (holds.symm.trans (sound.orderly.holders other queued deleted)) nofun
  have guarding : other ∈ live world.loop.timers fd :=
    List.mem_filter.mpr ⟨queued, by simp [Timer.guards, undeleted, holds]⟩
  rw [only] at guarding
  exact List.mem_singleton.mp guarding

/-- The timer that guards an open connection is taken out when it was due, and closes it then, or
it stays, and with it the connection. -/
theorem Sound.expires_or_stays (sound : Sound world) {fd : Fd} {http : HttpData} {timer : Timer}
    (only : live world.loop.timers fd = [timer]) (present : world.conns fd = some http)
    (opened : (fd, Action.handleClose) ∉ world.loop.log) :
    let after := world.handleExpired env
    (∃ tick, world.loop.ticks ≤ tick ∧ tick < after.loop.ticks ∧
        timer.expiredTime ≤ (env.clock tick).millis ∧ (fd, Action.handleClose) ∈ after.loop.log) ∨
      ((fd, Action.handleClose) ∉ after.loop.log ∧ after.conns fd = some http ∧
        live after.loop.timers fd = [timer] ∧
        (env.clock (after.loop.ticks - 1)).millis < timer.expiredTime) := by
  intro after
  have sound' : Sound after := sound.handleExpired
  have member : timer ∈ live world.loop.timers fd := only ▸ List.mem_singleton_self _
  obtain ⟨queued, guards⟩ := List.mem_filter.mp member
  obtain ⟨undeleted, holds⟩ : timer.deleted = false ∧ timer.holder = some fd := by
    simpa [Timer.guards] using guards
  obtain ⟨removed, expiry⟩ := @exists_expiry env world sound.held
  by_cases taken : timer ∈ removed
  · left
    obtain ⟨tick, first, last, due⟩ := expiry.reading ticks_handleExpired taken undeleted
    have closing : fd ∈ closings after.loop.log := by
      rw [expiry.closed]
      exact List.mem_append_right _ (List.mem_filterMap.mpr ⟨timer, taken, holds⟩)
    exact ⟨tick, first, last, due, mem_closings.mp closing⟩
  · right
    have remains : timer ∈ after.loop.timers :=
      (List.mem_append.mp (expiry.parts.mem_iff.mpr queued)).resolve_left taken
    have unclosed : (fd, Action.handleClose) ∉ after.loop.log := by
      intro logged
      have closing := mem_closings.mpr logged
      rw [expiry.closed] at closing
      rcases List.mem_append.mp closing with earlier | now
      · exact opened (mem_closings.mp earlier)
      · obtain ⟨other, taken', holds'⟩ := List.mem_filterMap.mp now
        have queued' := expiry.parts.subset (List.mem_append_left _ taken')
        exact taken (sound.guard only queued' holds' ▸ taken')
    have same : after.conns fd = some http :=
      (conns_handleExpired sound.held unclosed).trans present
    obtain ⟨ticks, -, valid⟩ := expiry.left (List.ne_nil_of_mem remains)
    refine ⟨unclosed, same, ?_, ?_⟩
    · obtain ⟨own, ⟨serving', -⟩ | ⟨-, logged⟩⟩ := sound'.present fd http same
      · obtain ⟨timer', only', -⟩ := serving'.guarded
        rw [own] at only'
        rw [only', sound'.guard only' remains holds]
      · exact absurd logged unclosed
    · rw [show after.loop.ticks = _ from ticks]
      exact valid timer remains

/-- **What one call of `handle_expired_event` does to an open connection.** In every reachable
state the connection has one timer. Either the timer was due at a reading that the call took, and
the connection has been closed and its channel forgotten, or the connection is open and unchanged,
with the same timer, which is not due at the last reading of the call. -/
theorem idleConnection_expires (reachable : (machine env).Reachable world) {fd : Fd}
    {http : HttpData} (present : world.conns fd = some http)
    (opened : (fd, Action.handleClose) ∉ world.loop.log) :
    let after := world.handleExpired env
    ∃ timer, live world.loop.timers fd = [timer] ∧
      ((∃ tick, world.loop.ticks ≤ tick ∧ tick < after.loop.ticks ∧
          timer.expiredTime ≤ (env.clock tick).millis ∧
          (fd, Action.handleClose) ∈ after.loop.log ∧ after.loop.fdToChannel fd = false ∧
          after.loop.fdToHttp fd = false ∧ live after.loop.timers fd = []) ∨
        ((fd, Action.handleClose) ∉ after.loop.log ∧ after.conns fd = some http ∧
          live after.loop.timers fd = [timer] ∧
          (env.clock (after.loop.ticks - 1)).millis < timer.expiredTime)) := by
  intro after
  have sound := reachable_sound reachable
  have sound' : Sound after := sound.handleExpired
  obtain ⟨own, ⟨serving, -⟩ | ⟨-, closed⟩⟩ := sound.present fd http present
  · obtain ⟨timer, only, -⟩ := serving.guarded
    rw [own] at only
    refine ⟨timer, only, ?_⟩
    obtain ⟨tick, first, last, due, logged⟩ | stays :=
      @Sound.expires_or_stays env world sound fd http timer only present opened
    · left
      have there : after.conns fd ≠ none := (handleExpired_conns fd).mpr (by simp [present])
      obtain ⟨http', present'⟩ := Option.ne_none_iff_exists'.mp there
      obtain ⟨own', ⟨-, unlogged⟩ | ⟨ended, -⟩⟩ := sound'.present fd http' present'
      · exact absurd logged unlogged
      · exact ⟨tick, first, last, due, logged, own' ▸ ended.silent, own' ▸ ended.dropped,
          own' ▸ ended.unguarded⟩
    · exact .inr stays
  · exact absurd closed opened

/-- The connection that has just been accepted stays open while the clock stands still. -/
theorem accepted_waits :
    (5, Action.handleClose) ∉ (accepted.handleExpired Env.calm).loop.log ∧
      ∃ timer, live (accepted.handleExpired Env.calm).loop.timers 5 = [timer] := by
  have opened : (5, Action.handleClose) ∉ accepted.loop.log := by
    show (5, Action.handleClose) ∉ [(5, Action.addTimer defaultExpiredTime)]
    simp
  obtain ⟨timer, only, ⟨tick, -, -, due, -⟩ | ⟨unclosed, -, guarded, -⟩⟩ :=
    idleConnection_expires accepted_reachable rfl opened
  · have mine : live accepted.loop.timers 5 = [Timer.new 0 5 ⟨0, 0⟩ defaultExpiredTime] := rfl
    rw [mine, List.singleton_inj] at only
    subst only
    have waits : ¬ (Timer.new 0 5 ⟨0, 0⟩ defaultExpiredTime).expiredTime ≤ Timeval.millis ⟨0, 0⟩ := by
      decide
    exact absurd due waits
  · exact ⟨unclosed, timer, guarded⟩

end World

end FastWebServer
