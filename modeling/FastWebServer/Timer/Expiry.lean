import Mathlib.Data.List.Count
import FastWebServer.Lifetimes

/-!
# The timers that expire

`handle_expired_event` looks at the top of the queue only, and takes it out as long as it is deleted
or not valid. A timer that is cleared below the top stays where it is.

`Expiry` says what one call does, for the timers that it removes in their order: each of them was
deleted, or due at the reading that was taken of it; nothing that is left is due at the last
reading, because the top is least; and `handle_close` is run for the connections that the removed
timers held, in the same order. Every call does that, whatever the queue holds and whatever the
clock answers (`handleExpired_exact`).
-/

set_option autoImplicit false

namespace FastWebServer

/-- The readings of the clock that the timers of a list need: a deleted timer is not asked. -/
def readings (timers : List Timer) : ℕ := timers.countP (!·.deleted)

/-- The connections that have been closed, in order. -/
def closings (log : List (Fd × Action)) : List Fd := (log.filter (·.2.closes)).map Prod.fst

theorem closings_append (log later : List (Fd × Action)) :
    closings (log ++ later) = closings log ++ closings later := by
  unfold closings
  rw [List.filter_append, List.map_append]

namespace World

variable {env : Env} {world : World}

/-- A `shared_ptr` that is set points to a connection, and a connection has the descriptor that it
is known by. -/
def Held (world : World) : Prop :=
  ∀ timer ∈ world.loop.timers, ∀ fd, timer.holder = some fd →
    ∃ http, world.conns fd = some http ∧ http.fd = fd

/-- What one call of `handle_expired_event` does, removing these timers one after the other. -/
structure Expiry (env : Env) (world after : World) (removed : List Timer) : Prop where
  parts : (removed ++ after.loop.timers).Perm world.loop.timers
  due : ∀ earlier timer later, removed = earlier ++ timer :: later →
    timer.deleted = true ∨
      timer.expiredTime ≤ (env.clock (world.loop.ticks + readings earlier)).millis
  left : after.loop.timers ≠ [] →
    after.loop.ticks = world.loop.ticks + readings removed + 1 ∧
      (∃ top, env.queue.top after.loop.timers = some top ∧ top.deleted = false) ∧
      ∀ timer ∈ after.loop.timers,
        (env.clock (world.loop.ticks + readings removed)).millis < timer.expiredTime
  closed : closings after.loop.log = closings world.loop.log ++ removed.filterMap Timer.holder

/-! ## Taking one timer out -/

theorem pop_ticks (env : Env) (timer : Timer) (world : World) :
    (world.pop env timer).loop.ticks = world.loop.ticks := by
  unfold pop destroy
  split
  · rfl
  · split
    · rfl
    · rfl

/-- The connection that a removed timer holds is closed. -/
theorem pop_closings (held : world.Held) {timer : Timer} (queued : timer ∈ world.loop.timers) :
    closings (world.pop env timer).loop.log =
      closings world.loop.log ++ timer.holder.toList := by
  unfold pop destroy
  cases holds : timer.holder with
  | none => exact (List.append_nil _).symm
  | some fd =>
      obtain ⟨http, present, same⟩ := held timer queued fd holds
      dsimp only
      rw [present]
      have logged : ∀ loop : Loop,
          (Conn.handleClose env ⟨http, Io.unused, loop⟩).loop.log =
            loop.log ++ [(fd, .handleClose)] := by
        intro loop
        rw [← same]
        rfl
      dsimp only [update]
      rw [logged, closings_append]
      rfl

theorem pop_held (held : world.Held) (timer : Timer) : (world.pop env timer).Held := by
  intro other queued fd holds
  rw [pop_timers] at queued
  obtain ⟨http, present, same⟩ := held other (List.mem_of_mem_erase queued) fd holds
  unfold pop destroy
  split
  · exact ⟨http, present, same⟩
  · rename_i closing _
    split
    · exact ⟨http, present, same⟩
    · rename_i closed stored
      by_cases equal : fd = closing
      · subst equal
        refine ⟨_, Function.update_self .., ?_⟩
        cases stored.symm.trans present
        exact same
      · exact ⟨http, (Function.update_of_ne equal _ _).trans present, same⟩

/-! ## The rounds of the loop -/

/-- A round that removes the top, after `asked` readings of it. -/
theorem Expiry.cons {next after : World} {timer : Timer} {removed : List Timer} (asked : ℕ)
    (queued : timer ∈ world.loop.timers) (reads : readings [timer] = asked)
    (due : timer.deleted = true ∨ timer.expiredTime ≤ (env.clock world.loop.ticks).millis)
    (timers : next.loop.timers = world.loop.timers.erase timer)
    (ticks : next.loop.ticks = world.loop.ticks + asked)
    (closing : closings next.loop.log = closings world.loop.log ++ timer.holder.toList)
    (later : Expiry env next after removed) : Expiry env world after (timer :: removed) := by
  have counted : ∀ timers, world.loop.ticks + readings (timer :: timers) =
      next.loop.ticks + readings timers := by
    intro timers
    have split : readings (timer :: timers) = readings [timer] + readings timers :=
      @List.countP_append _ _ [timer] timers
    omega
  refine ⟨?_, ?_, ?_, ?_⟩
  · have rest := later.parts
    rw [timers] at rest
    exact (rest.cons timer).trans (List.perm_cons_erase queued).symm
  · intro earlier other rest split
    cases earlier with
    | nil =>
        obtain ⟨rfl, -⟩ := List.cons.inj split
        exact due
    | cons first earlier =>
        obtain ⟨rfl, rest'⟩ := List.cons.inj split
        rw [counted]
        exact later.due earlier other rest rest'
  · intro remains
    rw [counted]
    exact later.left remains
  · rw [later.closed, closing, List.append_assoc]
    cases holds : timer.holder with
    | none => rw [List.filterMap_cons_none holds]; rfl
    | some fd => rw [List.filterMap_cons_some holds]; rfl

/-- The loop is left at a timer that is valid. -/
theorem expiry_valid {timer : Timer} (least : env.queue.top world.loop.timers = some timer)
    (undeleted : timer.deleted = false)
    (valid : timer.isValid (env.clock world.loop.ticks) = true) :
    Expiry env world world.tick [] := by
  refine ⟨.refl _, fun earlier other later split => ?_,
    fun _ => ⟨rfl, ⟨timer, least, undeleted⟩, ?_⟩, (List.append_nil _).symm⟩
  · cases earlier with
    | nil => cases split
    | cons first earlier => cases split
  · intro other queued
    exact lt_of_lt_of_le (decide_eq_true_iff.mp valid) (env.queue.top_least _ _ least other queued)

/-- **Every call of `handle_expired_event`** removes timers as `Expiry` says. -/
theorem exists_expiry (held : world.Held) :
    ∃ removed, Expiry env world (world.handleExpired env) removed := by
  fun_induction World.handleExpired env world with
  | case1 world least =>
      have empty := env.queue.top_none _ least
      refine ⟨[], .refl _, fun earlier other later split => ?_, fun remains => absurd empty remains,
        (List.append_nil _).symm⟩
      cases earlier with
      | nil => cases split
      | cons first earlier => cases split
  | case2 world timer least deleted ih =>
      have queued := env.queue.top_mem _ _ least
      obtain ⟨removed, later⟩ := ih (pop_held held timer)
      refine ⟨timer :: removed, .cons 0 queued ?_ (.inl deleted) (pop_timers ..) (pop_ticks ..)
        (pop_closings held queued) later⟩
      simp [readings, deleted]
  | case3 world timer least undeleted valid =>
      exact ⟨[], expiry_valid least (Bool.eq_false_iff.mpr undeleted) valid⟩
  | case4 world timer least undeleted expired ih =>
      have queued := env.queue.top_mem _ _ least
      have due : timer.expiredTime ≤ (env.clock world.loop.ticks).millis :=
        not_lt.mp fun valid => expired (decide_eq_true_iff.mpr valid)
      have held' : world.tick.Held := held
      obtain ⟨removed, later⟩ := ih (pop_held held' timer)
      refine ⟨timer :: removed, .cons 1 queued ?_ (.inr due) (pop_timers env timer world.tick)
        (pop_ticks env timer world.tick) (pop_closings held' queued) later⟩
      simp [readings, undeleted]

/-- A connection that no timer of the queue holds is not closed. -/
theorem Expiry.separated {after : World} {removed : List Timer}
    (expiry : Expiry env world after removed) {fd : Fd}
    (separated : ∀ timer ∈ world.loop.timers, timer.holder ≠ some fd) :
    fd ∉ removed.filterMap Timer.holder := by
  intro member
  obtain ⟨timer, removing, holds⟩ := List.mem_filterMap.mp member
  exact separated timer (expiry.parts.subset (List.mem_append_left _ removing)) holds

/-- **Lazy deletion is exact**: every call of `handle_expired_event` removes the timers that are due
or deleted down to a top that is neither, and closes the connections that these hold, and no
connection that no timer of the queue holds. -/
theorem handleExpired_exact (env : Env) {world : World} (held : world.Held) :
    ∃ removed, Expiry env world (world.handleExpired env) removed ∧
      ∀ fd, (∀ timer ∈ world.loop.timers, timer.holder ≠ some fd) →
        fd ∉ removed.filterMap Timer.holder := by
  obtain ⟨removed, expiry⟩ := exists_expiry held
  exact ⟨removed, expiry, fun fd separated => expiry.separated separated⟩

/-- Pointers are set to connections in every reachable state. -/
theorem Sound.held (sound : Sound world) : world.Held := by
  intro timer queued fd holds
  have undeleted : timer.deleted = false := by
    cases deleted : timer.deleted with
    | false => rfl
    | true => exact absurd (holds.symm.trans (sound.orderly.holders timer queued deleted)) nofun
  have guarding : timer ∈ live world.loop.timers fd :=
    List.mem_filter.mpr ⟨queued, by simp [Timer.guards, undeleted, holds]⟩
  cases present : world.conns fd with
  | none =>
      rw [(sound.absent fd present).unguarded] at guarding
      cases guarding
  | some http => exact ⟨http, rfl, (sound.present fd http present).1⟩

/-- One second after the clock of the timers has begun again. -/
def oneSecond : Env := { Env.calm with clock := fun _ => ⟨1, 0⟩ }

/-- A timer that is due, one that has been cleared, and one that is live. -/
def due : Timer := ⟨0, false, 1000, some 5⟩
def cleared : Timer := ⟨1, true, 800, none⟩
def pending : Timer := ⟨2, false, 3000, some 6⟩

def threeTimers : World :=
  { conns := fun fd => if fd = 5 ∨ fd = 6 then some (HttpData.new fd) else none
    loop := { Loop.new with timers := [pending, cleared, due] } }

/-- The first two are taken out and the connection of the first is closed; the third one stays. -/
theorem threeTimers_expires :
    ∃ removed, Expiry oneSecond threeTimers (threeTimers.handleExpired oneSecond) removed ∧
      due ∈ removed ∧ cleared ∈ removed ∧
      pending ∈ (threeTimers.handleExpired oneSecond).loop.timers ∧
      5 ∈ closings (threeTimers.handleExpired oneSecond).loop.log := by
  have held : threeTimers.Held := by
    intro timer queued fd holds
    have known : fd = 5 ∨ fd = 6 := by
      simp only [threeTimers, List.mem_cons, List.not_mem_nil, or_false] at queued
      rcases queued with rfl | rfl | rfl <;> cases holds
      · exact .inr rfl
      · exact .inl rfl
    exact ⟨_, if_pos known, rfl⟩
  obtain ⟨removed, expiry, -⟩ := handleExpired_exact oneSecond held
  have placed : ∀ timer ∈ [pending, cleared, due],
      timer ∈ removed ∨ timer ∈ (threeTimers.handleExpired oneSecond).loop.timers :=
    fun timer queued => List.mem_append.mp (expiry.parts.mem_iff.mpr queued)
  -- every reading of the clock is 1000
  have late : ∀ timer ∈ (threeTimers.handleExpired oneSecond).loop.timers,
      1000 < timer.expiredTime := by
    intro timer left
    have later := (expiry.left (List.ne_nil_of_mem left)).2.2 timer left
    simpa [oneSecond, Timeval.millis] using later
  have dueOut : due ∈ removed := (placed due (by simp)).resolve_right fun left =>
    absurd (late due left) (by decide)
  refine ⟨removed, expiry, dueOut, ?_, ?_, ?_⟩
  · exact (placed cleared (by simp)).resolve_right fun left =>
      absurd (late cleared left) (by decide)
  · refine (placed pending (by simp)).resolve_left fun out => ?_
    obtain ⟨earlier, later, split⟩ := List.append_of_mem out
    rcases expiry.due earlier pending later split with deleted | due
    · cases deleted
    · exact absurd due (by simp [oneSecond, pending, Timeval.millis])
  · rw [expiry.closed]
    exact List.mem_append_right _ (List.mem_filterMap.mpr ⟨due, dueOut, rfl⟩)

end World

end FastWebServer
