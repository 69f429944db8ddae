import Mathlib.Data.Nat.Basic
import FastWebServer.Timer

/-!
# The deadline of a timer

A timer should be valid until its timeout has passed since it was created. Both the deadline and
the time it is compared with are counted from the last multiple of 10000 seconds, each from its own.

`Timeval.floorMillis` is the time of day in milliseconds, and `crossed` the multiples that the clock
has passed between two times. A timer answers as it should unless it is asked in a window after its
deadline, of 10000 seconds for every multiple passed (`deadlineKept_iff`). Where the deadline lies
past the next multiple the window has no end: the timer is valid at every time (`neverExpires_iff`).
-/

set_option autoImplicit false

namespace FastWebServer

namespace Timeval

/-- The time of day in milliseconds. -/
def floorMillis (now : Timeval) : ℕ := 1000 * now.sec + now.usec / 1000

/-- The microseconds are less than a second, as `gettimeofday` answers them. -/
def Proper (now : Timeval) : Prop := now.usec < 1000000

/-- The milliseconds after which the count of a timer starts again. -/
def period : ℕ := 10000 * 1000

/-- The multiples of 10000 seconds that the clock passes. -/
def crossed (creation later : Timeval) : ℕ := later.sec / 10000 - creation.sec / 10000

variable {creation later : Timeval}

/-- The count of a timer is the time of day without the periods before it. -/
theorem floorMillis_eq {now : Timeval} :
    now.floorMillis = now.millis + period * (now.sec / 10000) := by
  unfold floorMillis millis period
  omega

theorem millis_lt {now : Timeval} (proper : now.Proper) : now.millis < period := by
  unfold Proper at proper
  unfold millis period
  omega

/-- Time that passes, counted by a timer. -/
theorem elapsed_eq (proper : creation.Proper) (proper' : later.Proper)
    (since : creation.floorMillis ≤ later.floorMillis) :
    later.floorMillis + creation.millis =
      creation.floorMillis + later.millis + period * crossed creation later := by
  have order : creation.sec / 10000 ≤ later.sec / 10000 := by
    unfold floorMillis at since
    unfold Proper at proper proper'
    omega
  have split : period * (later.sec / 10000) =
      period * (creation.sec / 10000) + period * crossed creation later := by
    rw [← Nat.mul_add, crossed, Nat.add_sub_cancel' order]
  rw [@floorMillis_eq creation, @floorMillis_eq later, split]
  omega

end Timeval

namespace Timer

variable {creation later : Timeval}

theorem isValid_iff {timer : Timer} {now : Timeval} :
    timer.isValid now = true ↔ now.millis < timer.expiredTime :=
  decide_eq_true_iff

/-- The answer that `is_valid` should give. -/
def DeadlineKept (creation later : Timeval) (timeout : ℕ) (answer : Bool) : Prop :=
  answer = true ↔ later.floorMillis < creation.floorMillis + timeout

/-- The times after the deadline at which a timer takes itself for valid. -/
def InWindow (creation later : Timeval) (timeout : ℕ) : Prop :=
  creation.floorMillis + timeout ≤ later.floorMillis ∧
    later.floorMillis <
      creation.floorMillis + timeout + Timeval.period * Timeval.crossed creation later

/-- What `is_valid` answers: the window is added to the timeout. -/
theorem isValid_new (id : TimerId) (holder : Fd) (timeout : ℕ) (proper : creation.Proper)
    (proper' : later.Proper) (since : creation.floorMillis ≤ later.floorMillis) :
    (new id holder creation timeout).isValid later = true ↔
      later.floorMillis <
        creation.floorMillis + timeout + Timeval.period * Timeval.crossed creation later := by
  have elapsed := Timeval.elapsed_eq proper proper' since
  have deadline : (new id holder creation timeout).expiredTime = creation.millis + timeout := rfl
  rw [isValid_iff, deadline]
  omega

/-- **A timer answers as it should exactly outside the window.** -/
theorem deadlineKept_iff (id : TimerId) (holder : Fd) (timeout : ℕ) (proper : creation.Proper)
    (proper' : later.Proper) (since : creation.floorMillis ≤ later.floorMillis) :
    DeadlineKept creation later timeout ((new id holder creation timeout).isValid later) ↔
      ¬ InWindow creation later timeout := by
  unfold DeadlineKept InWindow
  rw [isValid_new id holder timeout proper proper' since]
  omega

/-- **A timer never expires** if its deadline lies past the period in which it was created. -/
theorem neverExpires_iff (id : TimerId) (holder : Fd) (creation : Timeval) (timeout : ℕ) :
    (∀ later : Timeval, later.Proper → (new id holder creation timeout).isValid later = true) ↔
      Timeval.period ≤ creation.millis + timeout := by
  have deadline : (new id holder creation timeout).expiredTime = creation.millis + timeout := rfl
  constructor
  · intro valid
    have last := valid ⟨9999, 999999⟩ (by unfold Timeval.Proper; decide)
    rw [isValid_iff, deadline] at last
    exact last
  · intro past later proper
    rw [isValid_iff, deadline]
    exact lt_of_lt_of_le (Timeval.millis_lt proper) past

/-- A connection that is accepted one second before a multiple of 10000 seconds is not closed when
its two seconds are over. -/
theorem wrapped_notExpired :
    (new 0 5 ⟨9999, 0⟩ defaultExpiredTime).isValid ⟨10001, 0⟩ = true ∧
      ¬ DeadlineKept ⟨9999, 0⟩ ⟨10001, 0⟩ defaultExpiredTime
        ((new 0 5 ⟨9999, 0⟩ defaultExpiredTime).isValid ⟨10001, 0⟩) := by
  refine ⟨rfl, fun kept => ?_⟩
  exact absurd (kept.mp rfl) (by decide)

/-- In the middle of a period it is. -/
theorem unwrapped_expired :
    DeadlineKept ⟨5000, 0⟩ ⟨5002, 0⟩ defaultExpiredTime
      ((new 0 5 ⟨5000, 0⟩ defaultExpiredTime).isValid ⟨5002, 0⟩) := by
  refine (deadlineKept_iff 0 5 defaultExpiredTime ?_ ?_ ?_).mpr ?_
  · unfold Timeval.Proper; decide
  · unfold Timeval.Proper; decide
  · decide
  · unfold InWindow; decide

end Timer

end FastWebServer
