import FastWebServer.Library.Runs
import FastWebServer.ThreadPool.Tasks

/-!
# The threads of the pool

The interleavings of the worker threads with the calls of `thread_pool_add` and
`thread_pool_destory` that other threads make. A step is what a thread does
between two points at which another one can come in: while a thread holds
`mutex_lock_`, no other thread takes it.

`pthread_cond_signal` wakes at least one parked worker if there is one,
`pthread_cond_broadcast` wakes all of them, and a parked worker may also wake by
itself. A woken worker goes on once it has the lock again.

The history of a run is kept beside the members: the tasks accepted, the tasks
taken from the queue, and the tasks executed, each in order.
-/

set_option autoImplicit false

namespace FastWebServer

namespace ThreadPool

variable {Func Args : Type}

/-! ## Threads -/

/-- Where a worker stands in `thread_pool_thread`. -/
inductive Worker (Func Args : Type) where
  /-- Before `pthread_mutex_lock`. -/
  | locking
  /-- At the condition of the inner loop, with the lock. -/
  | testing
  /-- In `pthread_cond_wait`, not woken. -/
  | parked
  /-- In `pthread_cond_wait`, woken and without the lock. -/
  | woken
  /-- After the unlock, about to call the task. -/
  | running (task : ThreadPoolTask Func Args)
  /-- Out of the loop, with the lock. -/
  | leaving
  | left

/-- Who holds `mutex_lock_`. -/
inductive Owner where
  | worker (position : ℕ)
  | adder
  | destroyer
  /-- A call that returned, or locked the mutex twice, with the lock held. -/
  | nobody
deriving Repr, DecidableEq

/-- A pool, its threads, and the history of the run. -/
structure System (Func Args : Type) where
  pool : ThreadPool Func Args
  mutex : Option Owner
  /-- The threads that `thread_pool_create` has still to create. -/
  toCreate : ℕ
  workers : List (Worker Func Args)
  /-- Whether the broadcast of `thread_pool_destory` has been done. -/
  broadcasted : Bool
  accepted : List (ThreadPoolTask Func Args)
  dequeued : List (ThreadPoolTask Func Args)
  executed : List (ThreadPoolTask Func Args)

/-- A call of `thread_pool_create` that has yet to create its threads. -/
def System.create (pool : ThreadPool Func Args) (numThreads queueSize : ℤ) : System Func Args :=
  { pool := pool.threadPoolCreate numThreads queueSize
    mutex := none
    toCreate := (checkedSizes numThreads queueSize).1.toNat
    workers := []
    broadcasted := false
    accepted := []
    dequeued := []
    executed := [] }

/-- What a wake-up may do to a worker. -/
inductive Wakes : Worker Func Args → Worker Func Args → Prop where
  | same (worker : Worker Func Args) : Wakes worker worker
  | woken : Wakes .parked .woken

/-- `pthread_cond_signal`: some parked workers are woken, and at least one if there
is one. -/
def Signals (workers workers' : List (Worker Func Args)) : Prop :=
  List.Forall₂ Wakes workers workers' ∧ (.parked ∈ workers → workers' ≠ workers)

/-- `pthread_cond_broadcast` for one worker. -/
def Worker.wake : Worker Func Args → Worker Func Args
  | .parked => .woken
  | worker => worker

/-! ## Steps -/

/-- One step of one thread. The pool is used once it has been created. -/
inductive Step : System Func Args → System Func Args → Prop where
  | spawn {system : System Func Args} {toCreate : ℕ}
      (creating : system.toCreate = toCreate + 1) :
      Step system { system with
        pool := system.pool.countThread
        toCreate := toCreate
        workers := system.workers ++ [.locking] }
  | lock {system : System Func Args} {before after : List (Worker Func Args)}
      {worker : Worker Func Args} (stands : system.workers = before ++ worker :: after)
      (waits : worker = .locking ∨ worker = .woken) (free : system.mutex = none) :
      Step system { system with
        mutex := some (.worker before.length)
        workers := before ++ .testing :: after }
  | park {system : System Func Args} {before after : List (Worker Func Args)}
      (stands : system.workers = before ++ .testing :: after)
      (owns : system.mutex = some (.worker before.length))
      (waits : system.pool.mustWait = true) :
      Step system { system with mutex := none, workers := before ++ .parked :: after }
  | leave {system : System Func Args} {before after : List (Worker Func Args)}
      (stands : system.workers = before ++ .testing :: after)
      (owns : system.mutex = some (.worker before.length))
      (goesOn : system.pool.mustWait = false) (leaves : system.pool.mustLeave = true) :
      Step system { system with workers := before ++ .leaving :: after }
  | take {system : System Func Args} {before after : List (Worker Func Args)}
      (stands : system.workers = before ++ .testing :: after)
      (owns : system.mutex = some (.worker before.length))
      (goesOn : system.pool.mustWait = false) (stays : system.pool.mustLeave = false) :
      Step system { system with
        pool := system.pool.takeTask.2
        mutex := none
        workers := before ++ .running system.pool.takeTask.1 :: after
        dequeued := system.dequeued ++ [system.pool.takeTask.1] }
  | execute {system : System Func Args} {before after : List (Worker Func Args)}
      {task : ThreadPoolTask Func Args} (stands : system.workers = before ++ .running task :: after) :
      Step system { system with
        workers := before ++ .locking :: after
        executed := system.executed ++ [task] }
  | exit {system : System Func Args} {before after : List (Worker Func Args)}
      (stands : system.workers = before ++ .leaving :: after)
      (owns : system.mutex = some (.worker before.length)) :
      Step system { system with
        pool := system.pool.uncountThread
        mutex := none
        workers := before ++ .left :: after }
  | wake {system : System Func Args} {before after : List (Worker Func Args)}
      (stands : system.workers = before ++ .parked :: after) :
      Step system { system with workers := before ++ .woken :: after }
  | add {system : System Func Args} (args : Option Args) (func : Option Func)
      (created : system.toCreate = 0) (free : system.mutex = none)
      (accepts : (system.pool.threadPoolAdd args func).1 = 0) :
      Step system { system with
        pool := (system.pool.threadPoolAdd args func).2
        mutex := some .adder
        accepted := system.accepted ++ [⟨func, args⟩] }
  | reject {system : System Func Args} (args : Option Args) (func : Option Func)
      (created : system.toCreate = 0) (free : system.mutex = none)
      (rejects : (system.pool.threadPoolAdd args func).1 ≠ 0) :
      Step system { system with pool := (system.pool.threadPoolAdd args func).2 }
  | signal {system : System Func Args} {workers : List (Worker Func Args)}
      (owns : system.mutex = some .adder) (signals : Signals system.workers workers) :
      Step system { system with mutex := none, workers := workers }
  | destroy {system : System Func Args} (option : ShutdownOption)
      (created : system.toCreate = 0) (free : system.mutex = none) :
      Step system { system with
        pool := (system.pool.threadPoolDestory option).2
        -- a call that finds the flag set returns without unlocking
        mutex := some (if (system.pool.threadPoolDestory option).1 then .destroyer else .nobody) }
  | broadcast {system : System Func Args} (owns : system.mutex = some .destroyer) :
      Step system { system with
        mutex := none
        workers := system.workers.map Worker.wake
        broadcasted := true }
  | free {system : System Func Args} (broadcasted : system.broadcasted = true)
      (joined : ∀ worker ∈ system.workers, worker = .left) (free : system.mutex = none)
      (finished : system.pool.started ≤ 0) :
      -- `thread_pool_free` locks the mutex twice
      Step system { system with mutex := some .nobody }

/-- The state machine of a pool, from any call of `thread_pool_create` on. -/
def machine (Func Args : Type) : Runs.Machine (System Func Args) where
  start system := ∃ pool numThreads queueSize, system = .create pool numThreads queueSize
  step := Step

/-! ## A run of one worker -/

/-- The members before any pool is created. -/
def initial : ThreadPool ℕ ℕ :=
  { queue := []
    threadCount := 0
    queueSize := 0
    head := 0
    tail := 0
    count := 0
    shutdown := 0
    started := 0 }

/-- A pool of one thread and one slot, after one task has been added. -/
def oneTask : System ℕ ℕ :=
  { pool :=
      { queue := [⟨some 7, some 3⟩]
        threadCount := 1
        queueSize := 1
        head := 0
        tail := 0
        count := 1
        shutdown := 0
        started := 1 }
    mutex := none
    toCreate := 0
    workers := [.locking]
    broadcasted := false
    accepted := [⟨some 7, some 3⟩]
    dequeued := []
    executed := [] }

/-- The same pool after a graceful shutdown, when its worker has left. -/
def oneTaskDrained : System ℕ ℕ :=
  { pool :=
      { queue := [.empty]
        threadCount := 1
        queueSize := 1
        head := 0
        tail := 0
        count := 0
        shutdown := 2
        started := 0 }
    mutex := none
    toCreate := 0
    workers := [.left]
    broadcasted := true
    accepted := [⟨some 7, some 3⟩]
    dequeued := [⟨some 7, some 3⟩]
    executed := [⟨some 7, some 3⟩] }

theorem oneTask_reachable : (machine ℕ ℕ).Reachable oneTask := by
  have created : (machine ℕ ℕ).Reachable (.create initial 1 1) := .start ⟨initial, 1, 1, rfl⟩
  have spawned := created.step (@Step.spawn _ _ _ 0 rfl)
  have added := spawned.step (Step.add (some 3) (some 7) rfl rfl rfl)
  exact added.step (Step.signal rfl ⟨.cons (.same .locking) .nil, by simp [System.create]⟩)

theorem oneTaskDrained_reachable : (machine ℕ ℕ).Reachable oneTaskDrained := by
  have locked := oneTask_reachable.step (@Step.lock _ _ _ [] [] .locking rfl (.inl rfl) rfl)
  have taken := locked.step (@Step.take _ _ _ [] [] rfl rfl rfl rfl)
  have executed := taken.step (@Step.execute _ _ _ [] [] _ rfl)
  have flagged := executed.step (Step.destroy .gracefulShutdown rfl rfl)
  have broadcasted := flagged.step (Step.broadcast rfl)
  have locked' := broadcasted.step (@Step.lock _ _ _ [] [] .locking rfl (.inl rfl) rfl)
  have leaving := locked'.step (@Step.leave _ _ _ [] [] rfl rfl rfl rfl)
  exact leaving.step (@Step.exit _ _ _ [] [] rfl rfl)

end ThreadPool

end FastWebServer
