import FastWebServer.Library.Operations
import FastWebServer.Lifetimes

/-!
# The two tables of the poller

`fd_to_channel_` and `fd_to_http_` should have an entry for the same descriptors. A state is
`Consistent` when they do. The operations are `add_fd_in_epoll` with a timeout, `modify_fd_in_epoll`
and `delete_fd_in_epoll`, for any channels, and between them the interest set of the kernel may
change in any way, as it does when a descriptor is closed, so that each call of `epoll_ctl` may
succeed or fail.

Only `delete_fd_in_epoll` resets both entries. After a failure the other two reset the channel
alone, and the connection stays. The tables are consistent throughout exactly when no such failure
leaves a connection behind (`registryConsistent_iff`).
-/

set_option autoImplicit false

namespace FastWebServer

/-- Both tables have an entry for a descriptor, or neither has. -/
def Consistent (loop : Loop) : Prop := ∀ fd, loop.fdToChannel fd = loop.fdToHttp fd

/-- An operation on the tables. -/
inductive Registration where
  /-- `add_fd_in_epoll` with a timeout that is positive, for a channel whose holder is alive. -/
  | add (http : HttpData) (timeout : ℕ) (positive : 0 < timeout)
  | modify (http : HttpData) (timeout : ℕ)
  | delete (http : HttpData)
  /-- The interest set changes outside of these operations. -/
  | kernel (entries : Fd → Option Interest)

namespace Registration

variable {env : Env} {loop : Loop}

/-- What an operation does to the loop. -/
def run (env : Env) : Registration → Loop → Loop
  | .add http timeout _, loop => (Conn.addFdInEpoll env timeout ⟨http, Io.unused, loop⟩).loop
  | .modify http timeout, loop => (Conn.modifyFdInEpoll env timeout ⟨http, Io.unused, loop⟩).loop
  | .delete http, loop => (Conn.deleteFdInEpoll env ⟨http, Io.unused, loop⟩).loop
  | .kernel entries, loop => { loop with kernel := entries }

/-- The next call of `epoll_ctl` succeeds, given whether the interest set allows it. -/
def ctlSucceeds (env : Env) (possible : Bool) (loop : Loop) : Bool :=
  possible && !env.ctlFault loop.ctls

/-- No failure leaves a connection behind: the descriptor is added, and a mask that has changed is
registered, unless there is no connection for the descriptor. -/
def LeavesNone (env : Env) : Registration → Loop → Prop
  | .add http _ _, loop => ctlSucceeds env (loop.kernel http.channel.fd).isNone loop = true
  | .modify http _, loop =>
      http.channel.equalLastEvents = true ∨
        ctlSucceeds env (loop.kernel http.channel.fd).isSome loop = true ∨
        loop.fdToHttp http.channel.fd = false
  | .delete _, _ => True
  | .kernel _, _ => True

/-! ## The tables behind an operation -/

/-- A timer is added without a look at the tables. -/
theorem addTimer_tables (env : Env) (bound : Bool) (timeout : ℕ) (conn : Conn) :
    (conn.addTimer env bound timeout).loop.fdToChannel = conn.loop.fdToChannel ∧
      (conn.addTimer env bound timeout).loop.fdToHttp = conn.loop.fdToHttp ∧
      (conn.addTimer env bound timeout).loop.kernel = conn.loop.kernel ∧
      (conn.addTimer env bound timeout).loop.ctls = conn.loop.ctls ∧
      (conn.addTimer env bound timeout).http.channel = conn.http.channel := by
  unfold Conn.addTimer
  split
  · exact ⟨rfl, rfl, rfl, rfl, rfl⟩
  · exact ⟨rfl, rfl, rfl, rfl, rfl⟩

/-- A call of `epoll_ctl` touches the channel alone, and only if it fails. -/
theorem epollCtl_tables (env : Env) (possible : Bool) (fd : Fd) (mask : Mask) (loop : Loop) :
    (loop.epollCtl env possible fd mask).fdToHttp = loop.fdToHttp ∧
      (loop.epollCtl env possible fd mask).fdToChannel =
        if ctlSucceeds env possible loop then loop.fdToChannel
        else Function.update loop.fdToChannel fd false := by
  unfold Loop.epollCtl ctlSucceeds
  split
  · exact ⟨rfl, rfl⟩
  · exact ⟨rfl, rfl⟩

/-- The channel is stored, and reset if it cannot be registered. -/
theorem addInterest_tables (env : Env) (conn : Conn) :
    (conn.addInterest env).loop.fdToHttp = conn.loop.fdToHttp ∧
      (conn.addInterest env).loop.fdToChannel =
        Function.update conn.loop.fdToChannel conn.http.channel.fd
          (ctlSucceeds env (conn.loop.kernel conn.http.channel.fd).isNone conn.loop) := by
  obtain ⟨fdToHttp, fdToChannel⟩ := epollCtl_tables env
    (conn.loop.kernel conn.http.channel.fd).isNone conn.http.channel.fd conn.http.channel.events
    { conn.loop with
      fdToChannel := Function.update conn.loop.fdToChannel conn.http.channel.fd true }
  refine ⟨fdToHttp, fdToChannel.trans ?_⟩
  have same : ctlSucceeds env (conn.loop.kernel conn.http.channel.fd).isNone
      { conn.loop with
        fdToChannel := Function.update conn.loop.fdToChannel conn.http.channel.fd true } =
      ctlSucceeds env (conn.loop.kernel conn.http.channel.fd).isNone conn.loop := rfl
  rw [same]
  split
  · rename_i succeeds
    rw [succeeds]
  · rename_i fails
    rw [Bool.eq_false_iff.mpr fails]
    exact Function.update_idem ..

/-- `add_fd_in_epoll` stores both entries, and a failure resets the channel. -/
theorem add_tables (http : HttpData) {timeout : ℕ} (positive : 0 < timeout) :
    (run env (.add http timeout positive) loop).fdToHttp =
        Function.update loop.fdToHttp http.channel.fd true ∧
      (run env (.add http timeout positive) loop).fdToChannel =
        Function.update loop.fdToChannel http.channel.fd
          (ctlSucceeds env (loop.kernel http.channel.fd).isNone loop) := by
  obtain ⟨fdToChannel, fdToHttp, kernel, ctls, channel⟩ :=
    addTimer_tables env true timeout ⟨http, Io.unused, loop⟩
  simp only [run, Conn.addFdInEpoll, if_pos positive]
  generalize Conn.addTimer env true timeout ⟨http, Io.unused, loop⟩ = conn at *
  dsimp only at *
  obtain ⟨http', channel'⟩ := addInterest_tables env { conn with loop := { conn.loop with
    fdToHttp := Function.update conn.loop.fdToHttp conn.http.channel.fd
      (conn.loop.getHolder true conn.http.channel.fd).isSome } }
  refine ⟨http'.trans ?_, channel'.trans ?_⟩
  · dsimp only
    rw [fdToHttp, channel]
    rfl
  · dsimp only
    rw [fdToChannel, kernel, channel]
    unfold ctlSucceeds
    dsimp only
    rw [ctls]

/-- `modify_fd_in_epoll` leaves the connection alone, and a failure resets the channel. -/
theorem modify_tables (http : HttpData) (timeout : ℕ) :
    (run env (.modify http timeout) loop).fdToHttp = loop.fdToHttp ∧
      (run env (.modify http timeout) loop).fdToChannel =
        if http.channel.equalLastEvents = true ∨
            ctlSucceeds env (loop.kernel http.channel.fd).isSome loop = true then
          loop.fdToChannel
        else Function.update loop.fdToChannel http.channel.fd false := by
  have modified : ∀ conn : Conn,
      (conn.modifyInterest env).loop.fdToHttp = conn.loop.fdToHttp ∧
        (conn.modifyInterest env).loop.fdToChannel =
          if conn.http.channel.equalLastEvents = true ∨
              ctlSucceeds env (conn.loop.kernel conn.http.channel.fd).isSome conn.loop = true then
            conn.loop.fdToChannel
          else Function.update conn.loop.fdToChannel conn.http.channel.fd false := by
    intro conn
    unfold Conn.modifyInterest
    by_cases unchanged : conn.http.channel.equalLastEvents = true
    · rw [if_pos unchanged, if_pos (.inl unchanged)]
      exact ⟨rfl, rfl⟩
    · rw [if_neg unchanged]
      obtain ⟨fdToHttp, fdToChannel⟩ := epollCtl_tables env
        (conn.loop.kernel conn.http.channel.fd).isSome conn.http.channel.fd
        conn.http.channel.events conn.loop
      refine ⟨fdToHttp, fdToChannel.trans ?_⟩
      simp only [unchanged, Bool.false_eq_true, false_or]
  obtain ⟨fdToChannel, fdToHttp, kernel, ctls, channel⟩ :=
    addTimer_tables env false timeout ⟨http, Io.unused, loop⟩
  simp only [run, Conn.modifyFdInEpoll]
  by_cases positive : 0 < timeout
  · rw [if_pos positive]
    obtain ⟨http', channel'⟩ := modified (Conn.addTimer env false timeout ⟨http, Io.unused, loop⟩)
    refine ⟨http'.trans fdToHttp, channel'.trans ?_⟩
    unfold ctlSucceeds
    rw [fdToChannel, kernel, ctls, channel]
  · rw [if_neg positive]
    exact modified ⟨http, Io.unused, loop⟩

/-! ## Sequences of operations -/

theorem consistent_new : Consistent Loop.new := fun _ => rfl

/-- **An operation that leaves no connection behind keeps the tables consistent.** -/
theorem consistent_run (operation : Registration) (consistent : Consistent loop)
    (leaves : LeavesNone env operation loop) : Consistent (run env operation loop) := by
  intro fd
  cases operation with
  | add http timeout positive =>
      obtain ⟨fdToHttp, fdToChannel⟩ := @add_tables env loop http timeout positive
      have succeeds : ctlSucceeds env (loop.kernel http.channel.fd).isNone loop = true := leaves
      rw [fdToHttp, fdToChannel, succeeds, funext consistent]
  | modify http timeout =>
      obtain ⟨fdToHttp, fdToChannel⟩ := @modify_tables env loop http timeout
      rw [fdToHttp, fdToChannel]
      split
      · exact consistent fd
      · rename_i fails
        have absent : loop.fdToHttp http.channel.fd = false := by
          rcases leaves with unchanged | succeeds | absent
          · exact absurd (.inl unchanged) fails
          · exact absurd (.inr succeeds) fails
          · exact absent
        by_cases same : fd = http.channel.fd
        · rw [same, Function.update_self, absent]
        · rw [Function.update_of_ne same, consistent]
  | delete http =>
      have deleted : Function.update loop.fdToChannel http.channel.fd false fd =
          Function.update loop.fdToHttp http.channel.fd false fd := by
        rw [funext consistent]
      exact deleted
  | kernel entries => exact consistent fd

/-- **A failure that leaves a connection behind makes them inconsistent.** -/
theorem not_consistent_run (operation : Registration)
    (leaves : ¬ LeavesNone env operation loop) : ¬ Consistent (run env operation loop) := by
  intro consistent
  cases operation with
  | add http timeout positive =>
      obtain ⟨fdToHttp, fdToChannel⟩ := @add_tables env loop http timeout positive
      have same := consistent http.channel.fd
      rw [fdToHttp, fdToChannel, Function.update_self, Function.update_self] at same
      exact leaves same
  | modify http timeout =>
      obtain ⟨fdToHttp, fdToChannel⟩ := @modify_tables env loop http timeout
      unfold LeavesNone at leaves
      push Not at leaves
      obtain ⟨changed, fails, present⟩ := leaves
      have same := consistent http.channel.fd
      rw [fdToHttp, fdToChannel, if_neg (fun either => either.elim changed fails),
        Function.update_self] at same
      exact present same.symm
  | delete http => exact leaves trivial
  | kernel entries => exact leaves trivial

/-- **The tables are consistent throughout** a sequence of operations exactly if no failure of
`epoll_ctl` leaves a connection behind. -/
theorem registryConsistent_iff (env : Env) (operations : List Registration) :
    (∀ earlier, earlier <+: operations →
        Consistent (Operations.after (run env) earlier Loop.new)) ↔
      Operations.Each (run env) (LeavesNone env) operations Loop.new :=
  Operations.holds_iff (fun _ => id)
    (fun operation _ consistent leaves => consistent_run operation consistent leaves)
    (fun operation _ _ leaves => not_consistent_run operation leaves) operations consistent_new

/-- The first call of `epoll_ctl` fails. -/
def faulty : Env := { Env.calm with ctlFault := fun call => decide (call = 0) }

/-- A connection that cannot be added keeps its place in `fd_to_http_`. -/
theorem addFails_inconsistent :
    (run faulty (.add (HttpData.new 5) defaultExpiredTime (by decide)) Loop.new).fdToHttp 5 = true ∧
      (run faulty (.add (HttpData.new 5) defaultExpiredTime (by decide)) Loop.new).fdToChannel 5 =
        false ∧
      ¬ Consistent (run faulty (.add (HttpData.new 5) defaultExpiredTime (by decide)) Loop.new) := by
  refine ⟨rfl, rfl, fun consistent => ?_⟩
  cases consistent 5

end Registration

end FastWebServer
