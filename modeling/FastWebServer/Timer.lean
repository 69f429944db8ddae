import Mathlib.Data.List.Basic
import FastWebServer.Http.Data

/-!
# Timers

A timer carries a deadline and the connection it closes when it is destroyed.
The deadline is in milliseconds, counted from a multiple of 10000 seconds.

The timers of a loop are kept by `TimerPQueue`, a priority queue with the least
deadline at its top. Nothing is taken out of its middle: a timer that is not
needed any more is cleared, which marks it as deleted and lets go of its
connection, and it leaves the queue when it reaches the top. `live` are the
timers that still guard a connection.

The queue is the list of its elements. Which of several least elements is at the
top depends on the history of the heap; `TopOf` is any choice of one.
-/

set_option autoImplicit false

namespace FastWebServer

/-- What `gettimeofday` answers. -/
structure Timeval where
  sec : ℕ
  usec : ℕ
deriving Repr, DecidableEq

/-- A time of day as the timers count it. -/
def Timeval.millis (now : Timeval) : ℕ := now.sec % 10000 * 1000 + now.usec / 1000

structure Timer where
  id : TimerId
  deleted : Bool
  expiredTime : ℕ
  /-- The connection in `Http_data_sptr`. -/
  holder : Option Fd
deriving Repr, DecidableEq

namespace Timer

/-- The constructor `Timer(request_data, timeout)`. -/
def new (id : TimerId) (holder : Fd) (now : Timeval) (timeout : ℕ) : Timer :=
  { id := id, deleted := false, expiredTime := now.millis + timeout, holder := some holder }

/-- `set_deleted`. -/
def setDeleted (timer : Timer) : Timer := { timer with deleted := true }

/-- The answer of `is_valid`; a timer that is not valid is marked as deleted. -/
def isValid (timer : Timer) (now : Timeval) : Bool := now.millis < timer.expiredTime

/-- `clear_request`. -/
def clearRequest (timer : Timer) : Timer := { timer with holder := none, deleted := true }

/-- Whether the timer will close the connection when it is destroyed. -/
def guards (timer : Timer) (fd : Fd) : Bool := !timer.deleted && decide (timer.holder = some fd)

@[simp] theorem clearRequest_id (timer : Timer) : timer.clearRequest.id = timer.id := rfl

@[simp] theorem clearRequest_guards (timer : Timer) (fd : Fd) :
    timer.clearRequest.guards fd = false := rfl

@[simp] theorem new_id (id : TimerId) (holder : Fd) (now : Timeval) (timeout : ℕ) :
    (new id holder now timeout).id = id := rfl

@[simp] theorem new_guards (id : TimerId) (holder fd : Fd) (now : Timeval) (timeout : ℕ) :
    (new id holder now timeout).guards fd = decide (holder = fd) := by
  simp [new, guards]

end Timer

/-- A choice of the top of a priority queue: an element whose rank is least. -/
structure TopOf {Element : Type} (rank : Element → ℕ) where
  top : List Element → Option Element
  top_mem : ∀ queue element, top queue = some element → element ∈ queue
  top_least : ∀ queue element, top queue = some element →
    ∀ other ∈ queue, rank element ≤ rank other
  top_none : ∀ queue, top queue = none → queue = []

/-! ## The queue -/

/-- The timers that guard a connection. -/
def live (timers : List Timer) (fd : Fd) : List Timer := timers.filter (·.guards fd)

/-- Clear the timer of an identity. -/
def clearTimer (id : TimerId) (timers : List Timer) : List Timer :=
  timers.map fun timer => if timer.id = id then timer.clearRequest else timer

@[simp] theorem clearTimer_cons (id : TimerId) (timer : Timer) (timers : List Timer) :
    clearTimer id (timer :: timers) =
      (if timer.id = id then timer.clearRequest else timer) :: clearTimer id timers := rfl

/-- Clearing changes no identity. -/
theorem clearTimer_ids (id : TimerId) (timers : List Timer) :
    (clearTimer id timers).map Timer.id = timers.map Timer.id := by
  induction timers with
  | nil => rfl
  | cons timer timers ih =>
      rw [clearTimer_cons, List.map_cons, List.map_cons, ih]
      split <;> rfl

/-- A cleared timer guards nothing; the others guard what they did. -/
theorem live_clearTimer (id : TimerId) (timers : List Timer) (fd : Fd) :
    live (clearTimer id timers) fd = (live timers fd).filter fun timer => timer.id ≠ id := by
  induction timers with
  | nil => rfl
  | cons timer timers ih =>
      simp only [live] at ih ⊢
      by_cases same : timer.id = id
      · cases guards : timer.guards fd <;> simp [same, guards, ih]
      · cases guards : timer.guards fd <;> simp [same, guards, ih]

end FastWebServer
