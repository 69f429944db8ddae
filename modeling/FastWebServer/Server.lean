import Mathlib.Data.PNat.Basic
import FastWebServer.Http.Data

/-!
# Accepting connections

`EventLoopThreadPool`, which hands out its loops in turn, and the handler of the
listening socket. The pending connections are a list of positive descriptors, which
`accept` answers one after the other, and then a negative value. What the handler did is
kept beside the members: the descriptors accepted and closed, and the connections created
and queued.

`accept_fd` is taken from `accept` before the loop and never again, so a loop that is
entered for a descriptor does not return (`acceptLoop_none`): every round creates another
connection for the same descriptor, or closes it once more (`acceptLoop_rounds`).
`drainsBacklog_iff` is the consequence: the handler does its work exactly when no
connection is pending.
-/

set_option autoImplicit false

namespace FastWebServer

variable {LoopPtr : Type}

/-! ## The loops -/

/-- An `EventLoopThreadPool` whose constructor has checked the number of threads, before
or after `thread_pool_create`. -/
structure EventLoopThreadPool (LoopPtr : Type) where
  loop : LoopPtr
  started : Bool
  numThreads : ℕ
  next : ℕ
  loops : List LoopPtr
  bounded : next < numThreads
  created : loops = [] ∨ loops.length = numThreads

namespace EventLoopThreadPool

/-- The pool of a base loop after `thread_pool_create` has started these loops. -/
def threadPoolCreate (loop : LoopPtr) (loops : List LoopPtr) (positive : 0 < loops.length) :
    EventLoopThreadPool LoopPtr :=
  { loop := loop
    started := true
    numThreads := loops.length
    next := 0
    loops := loops
    bounded := positive
    created := .inr rfl }

/-- `next_ = (next_ + 1) % num_threads_`. -/
def advance (pool : EventLoopThreadPool LoopPtr) : EventLoopThreadPool LoopPtr :=
  { pool with
    next := (pool.next + 1) % pool.numThreads
    bounded := Nat.mod_lt _ (Nat.zero_lt_of_lt pool.bounded) }

theorem next_lt (pool : EventLoopThreadPool LoopPtr) (nonempty : pool.loops ≠ []) :
    pool.next < pool.loops.length := by
  rw [pool.created.resolve_left nonempty]
  exact pool.bounded

/-- `get_next_loop`, called on the thread of the base loop. It aborts if the pool has not
been started. -/
def getNextLoop (pool : EventLoopThreadPool LoopPtr) :
    Option (LoopPtr × EventLoopThreadPool LoopPtr) :=
  if pool.started then
    if empty : pool.loops = [] then some (pool.loop, pool)
    else some (pool.loops.get ⟨pool.next, pool.next_lt empty⟩, pool.advance)
  else none

theorem getNextLoop_isSome (pool : EventLoopThreadPool LoopPtr) (started : pool.started = true) :
    pool.getNextLoop.isSome := by
  unfold getNextLoop
  rw [if_pos started]
  split <;> rfl

theorem started_getNextLoop (pool : EventLoopThreadPool LoopPtr) {loop : LoopPtr}
    {later : EventLoopThreadPool LoopPtr} (answers : pool.getNextLoop = some (loop, later)) :
    later.started = true := by
  unfold getNextLoop at answers
  split at answers
  · split at answers
    all_goals
      cases answers
      assumption
  · cases answers

/-- The loops that successive calls of `get_next_loop` answer. -/
def nextLoops : ℕ → EventLoopThreadPool LoopPtr → List LoopPtr
  | 0, _ => []
  | calls + 1, pool =>
      match pool.getNextLoop with
      | none => []
      | some (loop, pool) => loop :: pool.nextLoops calls

/-- **The loops are handed out in turn.** -/
theorem getElem?_nextLoops (pool : EventLoopThreadPool LoopPtr) (started : pool.started = true)
    (nonempty : pool.loops ≠ []) {calls call : ℕ} (called : call < calls) :
    (pool.nextLoops calls)[call]? = pool.loops[(pool.next + call) % pool.loops.length]? := by
  induction calls generalizing pool call with
  | zero => exact absurd called (Nat.not_lt_zero call)
  | succ calls ih =>
      have bound := pool.next_lt nonempty
      have answers : pool.getNextLoop =
          some (pool.loops.get ⟨pool.next, bound⟩, pool.advance) := by
        unfold getNextLoop
        rw [if_pos started, dif_neg nonempty]
      unfold nextLoops
      rw [answers]
      cases call with
      | zero =>
          rw [Nat.add_zero, Nat.mod_eq_of_lt bound, List.getElem?_eq_getElem bound]
          rfl
      | succ call =>
          have later := ih pool.advance started nonempty (Nat.lt_of_succ_lt_succ called)
          rw [List.getElem?_cons_succ, later]
          have size : pool.numThreads = pool.loops.length :=
            (pool.created.resolve_left nonempty).symm
          show pool.loops[((pool.next + 1) % pool.numThreads + call) % pool.loops.length]? = _
          rw [size, Nat.mod_add_mod, Nat.add_assoc, Nat.add_comm 1 call]

end EventLoopThreadPool

/-! ## The server -/

/-- `MAXFDS_`. -/
def maxFds : ℤ := 100000

/-- What `handle_new_connection` reads and changes: the pool, the mask of the accept
channel, the connections that the kernel keeps pending, and what has been done. -/
structure Server (LoopPtr : Type) where
  pool : EventLoopThreadPool LoopPtr
  acceptEvents : Mask
  backlog : List ℕ+
  accepted : List ℤ
  closed : List ℤ
  /-- The connections created, with their loops. -/
  created : List (LoopPtr × HttpData)
  /-- The loops that `new_event` was queued on, with the connections. -/
  queued : List (LoopPtr × HttpData)

namespace Server

/-- `accept`. -/
def accept (server : Server LoopPtr) : ℤ × Server LoopPtr :=
  match server.backlog with
  | [] => (-1, server)
  | fd :: backlog =>
      ((fd : ℕ), { server with
        backlog := backlog
        accepted := server.accepted ++ [((fd : ℕ) : ℤ)] })

/-- The end of a round: `HttpData` is created for the descriptor, and its `new_event` is
queued. -/
def dispatch (eventLoop : LoopPtr) (acceptFd : ℤ) (server : Server LoopPtr) : Server LoopPtr :=
  let requestInfo := HttpData.new acceptFd.toNat
  { server with
    created := server.created ++ [(eventLoop, requestInfo)]
    queued := server.queued ++ [(eventLoop, requestInfo)] }

/-- The `while` of `handle_new_connection`. `setNonblock` is what `set_socket_nonblock`
answers after so many connections were created. -/
def acceptLoop (setNonblock : ℕ → ℤ) : ℕ → ℤ → Server LoopPtr → Option (Server LoopPtr)
  | 0, _, _ => none
  | fuel + 1, acceptFd, server =>
      if 0 < acceptFd then
        match server.pool.getNextLoop with
        | none => none
        | some (eventLoop, pool) =>
            let server := { server with pool := pool }
            if maxFds ≤ acceptFd then
              acceptLoop setNonblock fuel acceptFd
                { server with closed := server.closed ++ [acceptFd] }
            else if setNonblock server.created.length < 0 then some server
            else acceptLoop setNonblock fuel acceptFd (server.dispatch eventLoop acceptFd)
      else some { server with acceptEvents := epollIn ||| epollEt }

/-- `handle_new_connection`. -/
def handleNewConnection (setNonblock : ℕ → ℤ) (fuel : ℕ) (server : Server LoopPtr) :
    Option (Server LoopPtr) :=
  acceptLoop setNonblock fuel server.accept.1 server.accept.2

/-! ## Rounds -/

/-- A round of the loop for a descriptor, with the loop that `get_next_loop` answered. -/
def round (acceptFd : ℤ) (eventLoop : LoopPtr) (server : Server LoopPtr) : Server LoopPtr :=
  if maxFds ≤ acceptFd then { server with closed := server.closed ++ [acceptFd] }
  else server.dispatch eventLoop acceptFd

/-- A loop that is entered for a descriptor goes on with the same one. -/
theorem acceptLoop_succ {setNonblock : ℕ → ℤ} (succeeds : ∀ count, 0 ≤ setNonblock count)
    {acceptFd : ℤ} (positive : 0 < acceptFd) (fuel : ℕ) (server : Server LoopPtr) :
    acceptLoop setNonblock (fuel + 1) acceptFd server =
      server.pool.getNextLoop.bind fun (eventLoop, pool) =>
        acceptLoop setNonblock fuel acceptFd
          (round acceptFd eventLoop { server with pool := pool }) := by
  rw [acceptLoop, if_pos positive]
  cases server.pool.getNextLoop with
  | none => rfl
  | some answer =>
      obtain ⟨eventLoop, pool⟩ := answer
      simp only [Option.bind_some, round]
      split
      · rfl
      · rw [if_neg (Int.not_lt.mpr (succeeds _))]

/-- **A loop that is entered for a descriptor does not return.** -/
theorem acceptLoop_none {setNonblock : ℕ → ℤ} (succeeds : ∀ count, 0 ≤ setNonblock count)
    {acceptFd : ℤ} (positive : 0 < acceptFd) (fuel : ℕ) (server : Server LoopPtr) :
    acceptLoop setNonblock fuel acceptFd server = none := by
  induction fuel generalizing server with
  | zero => rfl
  | succ fuel ih =>
      rw [acceptLoop_succ succeeds positive]
      cases server.pool.getNextLoop with
      | none => rfl
      | some answer => exact ih _

/-- What the handler has done in some rounds for the same descriptor. -/
structure Repeats (acceptFd : ℤ) (rounds : ℕ) (server later : Server LoopPtr) : Prop where
  backlog : later.backlog = server.backlog
  accepted : later.accepted = server.accepted
  closed : later.closed =
    server.closed ++ if maxFds ≤ acceptFd then List.replicate rounds acceptFd else []
  queued : later.queued = server.queued ++ if maxFds ≤ acceptFd then [] else
    (server.pool.nextLoops rounds).map fun eventLoop => (eventLoop, HttpData.new acceptFd.toNat)

theorem repeats_zero (acceptFd : ℤ) (server : Server LoopPtr) :
    Repeats acceptFd 0 server server where
  backlog := rfl
  accepted := rfl
  closed := by simp
  queued := by simp [EventLoopThreadPool.nextLoops]

theorem Repeats.succ {acceptFd : ℤ} {rounds : ℕ} {server later : Server LoopPtr}
    {eventLoop : LoopPtr} {pool : EventLoopThreadPool LoopPtr}
    (answers : server.pool.getNextLoop = some (eventLoop, pool))
    (repeated :
      Repeats acceptFd rounds (round acceptFd eventLoop { server with pool := pool }) later) :
    Repeats acceptFd (rounds + 1) server later := by
  obtain ⟨backlog, accepted, closed, queued⟩ := repeated
  have loops : server.pool.nextLoops (rounds + 1) = eventLoop :: pool.nextLoops rounds := by
    rw [EventLoopThreadPool.nextLoops, answers]
  unfold round at backlog accepted closed queued
  by_cases limit : maxFds ≤ acceptFd
  · simp only [if_pos limit] at backlog accepted closed queued
    refine ⟨backlog, accepted, ?_, ?_⟩
    · rw [closed, if_pos limit, List.replicate_succ, List.append_assoc, List.singleton_append]
    · rw [queued, if_pos limit]
  · simp only [if_neg limit] at backlog accepted closed queued
    refine ⟨backlog, accepted, ?_, ?_⟩
    · rw [closed, if_neg limit]
      rfl
    · rw [queued, if_neg limit, loops, List.map_cons]
      simp only [dispatch, List.append_assoc, List.singleton_append]

/-- **The rounds of a loop that is entered.** They take no other descriptor from `accept`.
A descriptor at or above the limit is closed in each of them, and for any other one each
queues another connection. -/
theorem acceptLoop_rounds {setNonblock : ℕ → ℤ} (succeeds : ∀ count, 0 ≤ setNonblock count)
    {acceptFd : ℤ} (positive : 0 < acceptFd) {server : Server LoopPtr}
    (started : server.pool.started = true) (rounds fuel : ℕ) :
    ∃ later, Repeats acceptFd rounds server later ∧
      acceptLoop setNonblock (rounds + fuel) acceptFd server =
        acceptLoop setNonblock fuel acceptFd later := by
  induction rounds generalizing server with
  | zero => exact ⟨server, repeats_zero acceptFd server, by rw [Nat.zero_add]⟩
  | succ rounds ih =>
      obtain ⟨⟨eventLoop, pool⟩, answers⟩ := Option.isSome_iff_exists.mp
        (server.pool.getNextLoop_isSome started)
      have goesOn :
          (round acceptFd eventLoop { server with pool := pool }).pool.started = true := by
        unfold round
        split
        · exact server.pool.started_getNextLoop answers
        · exact server.pool.started_getNextLoop answers
      obtain ⟨later, repeated, same⟩ := ih goesOn
      refine ⟨later, repeated.succ answers, ?_⟩
      rw [Nat.add_right_comm, acceptLoop_succ succeeds positive, answers]
      exact same

/-! ## The backlog -/

/-- What a handler should queue: each pending descriptor below the limit, on the loop that
`get_next_loop` answers for it. -/
def toServe (server : Server LoopPtr) : List (LoopPtr × HttpData) :=
  ((server.pool.nextLoops server.backlog.length).zip server.backlog).filterMap
    fun (eventLoop, fd) =>
      if maxFds ≤ ((fd : ℕ) : ℤ) then none else some (eventLoop, HttpData.new fd)

/-- That the handler did its work and nothing else. -/
structure Drained (server final : Server LoopPtr) : Prop where
  accepted : final.accepted = server.accepted ++ server.backlog.map fun fd => ((fd : ℕ) : ℤ)
  created : final.created = server.created ++ server.toServe
  queued : final.queued = server.queued ++ server.toServe
  closed : final.closed =
    server.closed ++ (server.backlog.map fun fd => ((fd : ℕ) : ℤ)).filter (maxFds ≤ ·)
  rearmed : final.acceptEvents = epollIn ||| epollEt

/-- That `handle_new_connection` returns, and has drained the backlog when it does. -/
def DrainsBacklog (setNonblock : ℕ → ℤ) (server : Server LoopPtr) : Prop :=
  ∃ fuel final, server.handleNewConnection setNonblock fuel = some final ∧ Drained server final

/-- **The handler drains a backlog that is empty, and does not return from any other.** -/
theorem drainsBacklog_iff {setNonblock : ℕ → ℤ} (succeeds : ∀ count, 0 ≤ setNonblock count)
    (server : Server LoopPtr) : server.DrainsBacklog setNonblock ↔ server.backlog = [] := by
  constructor
  · rintro ⟨fuel, final, returns, -⟩
    by_contra pending
    obtain ⟨fd, backlog, stands⟩ := List.exists_cons_of_ne_nil pending
    have positive : 0 < server.accept.1 := by
      unfold accept
      rw [stands]
      exact Int.natCast_pos.mpr fd.pos
    rw [handleNewConnection, acceptLoop_none succeeds positive] at returns
    cases returns
  · intro empty
    have answer : server.accept = (-1, server) := by
      unfold accept
      rw [empty]
    refine ⟨1, { server with acceptEvents := epollIn ||| epollEt }, ?_, ?_⟩
    · rw [handleNewConnection, answer, acceptLoop, if_neg (show ¬ (0 : ℤ) < -1 by decide)]
    · have nothing : server.toServe = [] := by
        unfold toServe
        rw [empty, List.zip_nil_right]
        rfl
      constructor
      · simp [empty]
      · rw [nothing, List.append_nil]
      · rw [nothing, List.append_nil]
      · simp [empty]
      · rfl

/-- A server of one loop with these connections pending. -/
def waiting (backlog : List ℕ+) : Server ℕ :=
  { pool := .threadPoolCreate 0 [1] Nat.one_pos
    acceptEvents := 0#32
    backlog := backlog
    accepted := []
    closed := []
    created := []
    queued := [] }

/-- In three rounds the handler has queued the one connection three times. -/
theorem oneWaiting_rounds :
    ∃ later, Repeats 7 3 (waiting [7]).accept.2 later ∧
      later.queued = [(1, HttpData.new 7), (1, HttpData.new 7), (1, HttpData.new 7)] := by
  obtain ⟨later, repeated, -⟩ := @acceptLoop_rounds ℕ (fun _ => 0) (fun _ => le_refl 0) 7
    (by decide) (waiting [7]).accept.2 rfl 3 0
  exact ⟨later, repeated, repeated.queued⟩

/-- No connection is pending. -/
theorem noneWaiting_drained : (waiting []).DrainsBacklog fun _ => 0 :=
  (drainsBacklog_iff (fun _ => le_refl 0) (waiting [])).mpr rfl

/-- One connection is pending, and the handler creates `HttpData` for it for ever. -/
theorem oneWaiting_notDrained : ¬ (waiting [7]).DrainsBacklog fun _ => 0 := by
  rintro ⟨fuel, final, returns, -⟩
  have nothing := acceptLoop_none (fun _ => le_refl 0) (show 0 < (7 : ℤ) by decide) fuel
    (waiting [7]).accept.2
  exact Option.some_ne_none final (returns.symm.trans nothing)

end Server

end FastWebServer
