import Mathlib.Logic.Function.Basic
import Mathlib.Logic.Function.Iterate
import FastWebServer.Library.Runs

/-!
# Monitors

Data behind a mutex with one condition variable. A thread waits until a guard holds of the data,
testing it again whenever it is woken, or it updates the data and announces the update to all
waiters if it should (`Scheme`). A wait may also end for no reason.

A scheme is complete when the guard is never lost and an update that makes it hold is announced.
Then no waiter sleeps while the guard holds, but for the moment between an update and its
announcement, and a wait that has returned leaves the guard true for good (`Reachable.sound`). A
thread inside of a call can always be helped on by a step of some thread, unless it sleeps and the
guard does not hold (`Sound.helped`).
-/

set_option autoImplicit false

namespace Monitor

open Runs

universe u v

/-- What the threads wait for, how they update the data, and which updates they announce. -/
structure Scheme (Data : Type v) where
  guard : Data → Bool
  update : Data → Data
  /-- Of the data after the update. -/
  announces : Data → Bool

/-- The guard is never lost, and an update that makes it hold is announced. -/
structure Scheme.Complete {Data : Type v} (scheme : Scheme Data) : Prop where
  stable : ∀ data, scheme.guard data = true → scheme.guard (scheme.update data) = true
  announced : ∀ data, scheme.guard data = false → scheme.guard (scheme.update data) = true →
    scheme.announces (scheme.update data) = true

/-- Where a thread stands. -/
inductive Place where
  | outside
  /-- Before the lock, in a wait. -/
  | awaiting
  /-- With the lock, at the test of the guard. -/
  | testing
  | parked
  /-- Woken, before it has the lock again. -/
  | woken
  /-- Before the lock, in an update. -/
  | calling
  /-- With the lock, before the update. -/
  | updating
  /-- With the lock, after the update and before the announcement. -/
  | announcing
deriving Repr, DecidableEq

/-- Whether a thread at this place has the lock. -/
def Place.locked : Place → Bool
  | testing => true
  | updating => true
  | announcing => true
  | _ => false

/-- A monitor and its threads, with the waits that have returned and the updates so far. -/
structure State (Id : Type u) (Data : Type v) where
  data : Data
  owner : Option Id
  stands : Id → Place
  passed : Id → Bool
  updates : ℕ

namespace State

variable {Id : Type u} {Data : Type v}

/-- A monitor that no thread has entered. -/
def new (data : Data) : State Id Data :=
  { data := data
    owner := none
    stands := fun _ => .outside
    passed := fun _ => false
    updates := 0 }

/-- The monitor after a thread has come to another place. -/
def put [DecidableEq Id] (state : State Id Data) (id : Id) (place : Place)
    (owner : Option Id) : State Id Data :=
  { state with owner := owner, stands := Function.update state.stands id place }

/-- Every sleeping thread is woken. -/
def wakeAll (state : State Id Data) : State Id Data :=
  { state with
    stands := fun id => if state.stands id = .parked then .woken else state.stands id }

end State

variable {Id : Type u} {Data : Type v} [DecidableEq Id]

/-- The next step of a thread inside of a call. -/
inductive Move (scheme : Scheme Data) (id : Id) : State Id Data → State Id Data → Prop where
  | lock {state : State Id Data} (stands : state.stands id = .awaiting ∨ state.stands id = .woken)
      (free : state.owner = none) : Move scheme id state (state.put id .testing (some id))
  | pass {state : State Id Data} (stands : state.stands id = .testing)
      (holds : scheme.guard state.data = true) :
      Move scheme id state
        { state.put id .outside none with passed := Function.update state.passed id true }
  | park {state : State Id Data} (stands : state.stands id = .testing)
      (fails : scheme.guard state.data = false) :
      Move scheme id state (state.put id .parked none)
  | enter {state : State Id Data} (stands : state.stands id = .calling)
      (free : state.owner = none) : Move scheme id state (state.put id .updating (some id))
  | update {state : State Id Data} (stands : state.stands id = .updating)
      (silent : scheme.announces (scheme.update state.data) = false) :
      Move scheme id state
        { state.put id .outside none with
          data := scheme.update state.data
          updates := state.updates + 1 }
  | change {state : State Id Data} (stands : state.stands id = .updating)
      (loud : scheme.announces (scheme.update state.data) = true) :
      Move scheme id state
        { state.put id .announcing (some id) with
          data := scheme.update state.data
          updates := state.updates + 1 }
  | announce {state : State Id Data} (stands : state.stands id = .announcing) :
      Move scheme id state (state.wakeAll.put id .outside none)

/-- A step of a thread: the next one of its call, the beginning of a call, or the end of its
sleep. -/
inductive Step (scheme : Scheme Data) (id : Id) : State Id Data → State Id Data → Prop where
  | move {state next : State Id Data} (move : Move scheme id state next) :
      Step scheme id state next
  | await {state : State Id Data} (stands : state.stands id = .outside) :
      Step scheme id state (state.put id .awaiting state.owner)
  | call {state : State Id Data} (stands : state.stands id = .outside) :
      Step scheme id state (state.put id .calling state.owner)
  | wake {state : State Id Data} (stands : state.stands id = .parked) :
      Step scheme id state (state.put id .woken state.owner)

variable (Id) in
/-- The state machine of a monitor. -/
def machine (scheme : Scheme Data) (data : Data) : Machine (State Id Data) where
  start state := state = .new data
  step state next := ∃ id, Step scheme id state next

/-! ## The invariant -/

/-- What holds of a monitor in every state. -/
structure Sound (scheme : Scheme Data) (data : Data) (state : State Id Data) : Prop where
  /-- The thread that has the lock is the one at a place where it should. -/
  locked : ∀ id, (state.stands id).locked = true ↔ state.owner = some id
  /-- No wake-up is lost. -/
  asleep : ∀ id, state.stands id = .parked →
    scheme.guard state.data = false ∨ ∃ other, state.stands other = .announcing
  passed : ∀ id, state.passed id = true → scheme.guard state.data = true
  counted : state.data = scheme.update^[state.updates] data

variable {scheme : Scheme Data} {data : Data} {state next : State Id Data} {id : Id}

theorem State.put_locked (locked : ∀ id, (state.stands id).locked = true ↔ state.owner = some id)
    {place : Place} {owner : Option Id} (free : state.owner = none ∨ state.owner = some id)
    (mine : owner = if place.locked then some id else none) (other : Id) :
    ((state.put id place owner).stands other).locked = true ↔ owner = some other := by
  by_cases same : other = id
  · subst same
    rw [mine]
    simp [State.put]
  · have apart : (state.stands other).locked = true → False := by
      intro locks
      have owns := (locked other).mp locks
      rcases free with none | some
      · rw [none] at owns
        cases owns
      · rw [some] at owns
        exact same (Option.some.inj owns).symm
    have elsewhere : ¬ owner = some other := by
      rw [mine]
      split
      · exact fun equal => same (Option.some.inj equal).symm
      · exact nofun
    refine iff_of_false ?_ elsewhere
    simpa [State.put, same] using apart

/-- A place that only this thread has left is where the others stood before. -/
theorem State.put_stands {place stood : Place} (moves : place ≠ stood) (other : Id)
    (stands : Function.update state.stands id place other = stood) :
    state.stands other = stood := by
  by_cases same : other = id
  · subst same
    exact absurd ((Function.update_self ..).symm.trans stands) moves
  · exact (Function.update_of_ne same ..).symm.trans stands

/-- A thread that goes to a place where it does not sleep. -/
theorem Sound.put (sound : Sound scheme data state) {place : Place} {owner : Option Id}
    (free : state.owner = none ∨ state.owner = some id)
    (mine : owner = if place.locked then some id else none) (awake : place ≠ .parked)
    (unbound : state.stands id ≠ .announcing) : Sound scheme data (state.put id place owner) where
  locked := State.put_locked sound.locked free mine
  asleep other parked := by
    refine (sound.asleep other (State.put_stands awake other parked)).imp_right ?_
    rintro ⟨last, stands⟩
    have apart : last ≠ id := by
      rintro rfl
      exact unbound stands
    exact ⟨last, by simpa [State.put, apart] using stands⟩
  passed := sound.passed
  counted := sound.counted

/-- A thread outside of the lock goes to a place outside of the lock. -/
theorem Sound.putOutside (sound : Sound scheme data state) {place : Place}
    (awake : place ≠ .parked) (outside : place.locked = false)
    (unlocked : (state.stands id).locked = false) :
    Sound scheme data (state.put id place state.owner) := by
  refine ⟨fun other => ?_, fun other parked => ?_, sound.passed, sound.counted⟩
  · by_cases same : other = id
    · subst same
      have foreign : ¬ state.owner = some other := fun owns => by
        simp [(sound.locked other).mpr owns] at unlocked
      exact iff_of_false (by simp [State.put, outside]) foreign
    · simpa [State.put, same] using sound.locked other
  · refine (sound.asleep other (State.put_stands awake other parked)).imp_right ?_
    rintro ⟨last, stands⟩
    have apart : last ≠ id := by
      rintro rfl
      simp [stands, Place.locked] at unlocked
    exact ⟨last, by simpa [State.put, apart] using stands⟩

omit [DecidableEq Id] in
/-- A thread that has the lock is alone. -/
theorem Sound.alone (sound : Sound scheme data state) (locks : (state.stands id).locked = true)
    {other : Id} (announces : state.stands other = .announcing) : other = id := by
  have owns := (sound.locked other).mp (by rw [announces]; rfl)
  rw [(sound.locked id).mp locks] at owns
  exact (Option.some.inj owns).symm

/-- A thread that makes a step is inside of a call. -/
theorem Move.inside (move : Move scheme id state next) : state.stands id ≠ .outside := by
  intro outside
  cases move with
  | lock stands => simp [outside] at stands
  | pass stands | park stands | enter stands | update stands | change stands | announce stands =>
      simp [outside] at stands

/-- **The next step of a call keeps the invariant.** -/
theorem Move.sound (move : Move scheme id state next) (complete : scheme.Complete)
    (sound : Sound scheme data state) : Sound scheme data next := by
  have owns : (state.stands id).locked = true → state.owner = some id := (sound.locked id).mp
  cases move with
  | lock stands free =>
      refine sound.put (.inl free) rfl (by simp) fun announces => ?_
      rcases stands with stands | stands <;> simp [stands] at announces
  | pass stands holds =>
      have left := @Sound.put _ _ _ _ _ _ id sound .outside none
        (.inr (owns (by rw [stands]; rfl))) rfl (by simp) (by simp [stands])
      refine ⟨left.locked, left.asleep, fun other returned => ?_, left.counted⟩
      exact holds
  | park stands fails =>
      refine ⟨State.put_locked sound.locked (.inr (owns (by rw [stands]; rfl))) rfl,
        fun _ _ => .inl fails, sound.passed, sound.counted⟩
  | enter stands free => exact sound.put (.inl free) rfl (by simp) (by simp [stands])
  | update stands silent =>
      have locks : (state.stands id).locked = true := by rw [stands]; rfl
      refine ⟨State.put_locked sound.locked (.inr (owns locks)) rfl, fun other parked => ?_,
        fun other returned => complete.stable _ (sound.passed other returned), ?_⟩
      · left
        rcases sound.asleep other (State.put_stands (by simp) other parked) with fails | announces
        · by_contra holds
          have loud := complete.announced _ fails (by simpa using holds)
          simp [silent] at loud
        · obtain ⟨last, announces⟩ := announces
          simp [sound.alone locks announces, stands] at announces
      · show scheme.update state.data = _
        rw [Function.iterate_succ_apply', sound.counted]
  | change stands loud =>
      have locks : (state.stands id).locked = true := by rw [stands]; rfl
      refine ⟨State.put_locked sound.locked (.inr (owns locks)) rfl, fun other parked => ?_,
        fun other returned => complete.stable _ (sound.passed other returned), ?_⟩
      · exact .inr ⟨id, by simp [State.put]⟩
      · show scheme.update state.data = _
        rw [Function.iterate_succ_apply', sound.counted]
  | announce stands =>
      have locks : (state.stands id).locked = true := by rw [stands]; rfl
      have locked : ∀ other, ((state.wakeAll).stands other).locked = true ↔
          state.owner = some other := by
        intro other
        rw [← sound.locked other]
        by_cases parked : state.stands other = .parked
        · simp [State.wakeAll, parked, Place.locked]
        · simp [State.wakeAll, parked]
      refine ⟨State.put_locked locked (.inr (owns locks)) rfl, fun other parked => ?_,
        sound.passed, sound.counted⟩
      have sleeps := State.put_stands (by simp) other parked
      by_cases before : state.stands other = .parked
      · simp [State.wakeAll, before] at sleeps
      · simp [State.wakeAll, before] at sleeps

theorem Step.sound (step : Step scheme id state next) (complete : scheme.Complete)
    (sound : Sound scheme data state) : Sound scheme data next := by
  cases step with
  | move move => exact move.sound complete sound
  | await stands => exact sound.putOutside (by simp) rfl (by rw [stands]; rfl)
  | call stands => exact sound.putOutside (by simp) rfl (by rw [stands]; rfl)
  | wake stands => exact sound.putOutside (by simp) rfl (by rw [stands]; rfl)

/-- **The rule of monitors.** In a complete scheme no wake-up is lost in any run, and the guard
holds for good once a wait has returned. -/
theorem Reachable.sound (complete : scheme.Complete)
    (reachable : (machine Id scheme data).Reachable state) : Sound scheme data state := by
  refine reachable.induction (Sound scheme data) ?_ ?_
  · rintro _ rfl
    refine ⟨fun id => ?_, nofun, nofun, rfl⟩
    exact iff_of_false (by simp [State.new, Place.locked]) (by simp [State.new])
  · rintro state next - sound ⟨id, step⟩
    exact step.sound complete sound

/-! ## Progress -/

/-- A thread that has the lock can take its next step. -/
theorem Sound.lockedMoves (locks : (state.stands id).locked = true) :
    ∃ next, Move scheme id state next := by
  cases stands : state.stands id with
  | testing =>
      cases guard : scheme.guard state.data with
      | true => exact ⟨_, .pass stands guard⟩
      | false => exact ⟨_, .park stands guard⟩
  | updating =>
      cases loud : scheme.announces (scheme.update state.data) with
      | true => exact ⟨_, .change stands loud⟩
      | false => exact ⟨_, .update stands loud⟩
  | announcing => exact ⟨_, .announce stands⟩
  | outside | awaiting | parked | woken | calling => simp [stands, Place.locked] at locks

/-- **A thread inside of a call is helped on** by a step of some thread, unless it sleeps and the
guard does not hold. -/
theorem Sound.helped (sound : Sound scheme data state) (inside : state.stands id ≠ .outside) :
    (∃ other next, Move scheme other state next) ∨
      state.stands id = .parked ∧ scheme.guard state.data = false := by
  cases owner : state.owner with
  | some other =>
      obtain ⟨next, move⟩ := @Sound.lockedMoves _ _ _ scheme state other
        ((sound.locked other).mpr owner)
      exact .inl ⟨other, next, move⟩
  | none =>
      have unlocked : ∀ other, (state.stands other).locked ≠ true := fun other locks => by
        have owns := (sound.locked other).mp locks
        rw [owner] at owns
        cases owns
      cases stands : state.stands id with
      | outside => exact absurd stands inside
      | awaiting => exact .inl ⟨id, _, .lock (.inl stands) owner⟩
      | woken => exact .inl ⟨id, _, .lock (.inr stands) owner⟩
      | calling => exact .inl ⟨id, _, .enter stands owner⟩
      | testing | updating | announcing => exact absurd (by rw [stands]; rfl) (unlocked id)
      | parked =>
          rcases sound.asleep id stands with fails | ⟨other, announces⟩
          · exact .inr ⟨rfl, fails⟩
          · exact absurd (by rw [announces]; rfl) (unlocked other)

end Monitor
