import Mathlib.Data.List.GetD
import FastWebServer.Library.RingBuffer

/-!
# The task queue of the thread pool

The static members of `ThreadPool` and the sections of its functions that run with
`mutex_lock_` held. The queue is a vector used in a circle: `head_` is the oldest
task, `tail_` the slot behind the newest, and `count_` their number.

These members represent a ring buffer (`Represents`). An accepted task is a push
(`threadPoolAdd_represents`), a task taken by a worker is a pop
(`takeTask_represents`), and a rejected task changes nothing.
-/

set_option autoImplicit false

namespace FastWebServer

/-! ## Members -/

/-- A task, or what is left of one in a free slot. -/
structure ThreadPoolTask (Func Args : Type) where
  func : Option Func
  args : Option Args
deriving Repr, DecidableEq

/-- A task without a function and without arguments. -/
def ThreadPoolTask.empty {Func Args : Type} : ThreadPoolTask Func Args := ⟨none, none⟩

structure ThreadPool (Func Args : Type) where
  queue : List (ThreadPoolTask Func Args)
  threadCount : ℤ
  queueSize : ℤ
  head : ℤ
  tail : ℤ
  count : ℤ
  shutdown : ℤ
  started : ℤ
deriving Repr, DecidableEq

inductive ShutdownOption where
  | immediateShutdown
  | gracefulShutdown
deriving Repr, DecidableEq

/-- The value of the enumerator. -/
def ShutdownOption.value : ShutdownOption → ℤ
  | .immediateShutdown => 1
  | .gracefulShutdown => 2

theorem ShutdownOption.value_ne_zero (option : ShutdownOption) : option.value ≠ 0 := by
  cases option <;> decide

/-- `MAX_THREADS`. -/
def maxThreads : ℤ := 1024

/-- `MAX_QUEUE`. -/
def maxQueue : ℤ := 65535

/-- The entry `THREADPOOL_QUEUE_FULL` of `THREAD_STATE`. -/
def threadpoolQueueFull : ℤ := -3

/-- The entry `THREADPOOL_SHUTDOWN` of `THREAD_STATE`. -/
def threadpoolShutdown : ℤ := -4

namespace ThreadPool

variable {Func Args : Type}

/-! ## Functions -/

/-- The numbers of threads and of slots that `thread_pool_create` goes on with. -/
def checkedSizes (numThreads queueSize : ℤ) : ℤ × ℤ :=
  if numThreads ≤ 0 ∨ numThreads > maxThreads ∨ queueSize ≤ 0 ∨ queueSize > maxQueue then (4, 1024)
  else (numThreads, queueSize)

/-- `queue_.resize(size)`. -/
def resizeQueue (queue : List (ThreadPoolTask Func Args)) (size : ℕ) :
    List (ThreadPoolTask Func Args) :=
  queue.take size ++ List.replicate (size - queue.length) .empty

/-- The part of `thread_pool_create` before any thread is created. -/
def threadPoolCreate (pool : ThreadPool Func Args) (numThreads queueSize : ℤ) :
    ThreadPool Func Args :=
  let sizes := checkedSizes numThreads queueSize
  { queue := resizeQueue pool.queue sizes.2.toNat
    threadCount := 0
    queueSize := sizes.2
    head := 0
    tail := 0
    count := 0
    shutdown := 0
    started := 0 }

/-- What `thread_pool_create` does after one thread is created. -/
def countThread (pool : ThreadPool Func Args) : ThreadPool Func Args :=
  { pool with threadCount := pool.threadCount + 1, started := pool.started + 1 }

/-- `thread_pool_add`, with the lock held. -/
def threadPoolAdd (pool : ThreadPool Func Args) (args : Option Args) (func : Option Func) :
    ℤ × ThreadPool Func Args :=
  let next := (pool.tail + 1).tmod pool.queueSize
  if pool.count = pool.queueSize then (threadpoolQueueFull, pool)
  else if pool.shutdown ≠ 0 then (threadpoolShutdown, pool)
  else (0, { pool with
    queue := pool.queue.set pool.tail.toNat ⟨func, args⟩
    tail := next
    count := pool.count + 1 })

/-- `(count_ == 0) && (!shutdown_)`: a worker waits. -/
def mustWait (pool : ThreadPool Func Args) : Bool := pool.count = 0 ∧ pool.shutdown = 0

/-- The condition on which a worker leaves its loop. -/
def mustLeave (pool : ThreadPool Func Args) : Bool :=
  pool.shutdown = ShutdownOption.immediateShutdown.value ∨
    pool.shutdown = ShutdownOption.gracefulShutdown.value ∧ pool.count = 0

/-- The task that a worker takes, and the queue without it. -/
def takeTask (pool : ThreadPool Func Args) : ThreadPoolTask Func Args × ThreadPool Func Args :=
  (pool.queue.getD pool.head.toNat .empty, { pool with
    queue := pool.queue.set pool.head.toNat .empty
    head := (pool.head + 1).tmod pool.queueSize
    count := pool.count - 1 })

/-- `--started_`. -/
def uncountThread (pool : ThreadPool Func Args) : ThreadPool Func Args :=
  { pool with started := pool.started - 1 }

/-- `thread_pool_destory` up to the broadcast, with the lock held: whether it goes
on, and the members. -/
def threadPoolDestory (pool : ThreadPool Func Args) (option : ShutdownOption) :
    Bool × ThreadPool Func Args :=
  if pool.shutdown ≠ 0 then (false, pool) else (true, { pool with shutdown := option.value })

@[simp] theorem mustLeave_countThread (pool : ThreadPool Func Args) :
    pool.countThread.mustLeave = pool.mustLeave := rfl

@[simp] theorem mustLeave_uncountThread (pool : ThreadPool Func Args) :
    pool.uncountThread.mustLeave = pool.mustLeave := rfl

/-- A call of `thread_pool_add` touches the queue only. -/
theorem threadPoolAdd_frame (pool : ThreadPool Func Args) (args : Option Args)
    (func : Option Func) :
    (pool.threadPoolAdd args func).2.shutdown = pool.shutdown ∧
      (pool.threadPoolAdd args func).2.started = pool.started := by
  unfold threadPoolAdd
  split
  · exact ⟨rfl, rfl⟩
  · split <;> exact ⟨rfl, rfl⟩

theorem threadPoolDestory_started (pool : ThreadPool Func Args) (option : ShutdownOption) :
    (pool.threadPoolDestory option).2.started = pool.started := by
  unfold threadPoolDestory
  split <;> rfl

/-! ## The queue as a ring buffer -/

/-- The `count_` tasks from `head_` on. -/
def tasks (pool : ThreadPool Func Args) : List (ThreadPoolTask Func Args) :=
  (List.range pool.count.toNat).map fun k : ℕ =>
    pool.queue.getD ((pool.head + k) % pool.queueSize).toNat .empty

/-- The members represent the ring buffer. -/
structure Represents (pool : ThreadPool Func Args) (ring : RingBuffer (ThreadPoolTask Func Args)) :
    Prop where
  queue : pool.queue = ring.slots
  queueSize : pool.queueSize = ring.slots.length
  head : pool.head = ring.head
  tail : pool.tail = ring.tail
  count : pool.count = ring.count

variable {pool : ThreadPool Func Args} {ring : RingBuffer (ThreadPoolTask Func Args)}

/-- The tasks from `head_` on are the content of the ring buffer. -/
theorem Represents.tasks (represents : pool.Represents ring) : pool.tasks = ring.toList := by
  rw [ThreadPool.tasks, RingBuffer.toList, represents.count, represents.head, represents.queueSize,
    represents.queue]
  refine List.map_congr_left fun k _ => ?_
  have index : ((ring.head : ℤ) + k) % ring.slots.length = ring.index k := by
    rw [RingBuffer.index]
    push_cast
    rfl
  rw [index, Int.toNat_natCast, List.getD_eq_getElem _ _ (ring.index_lt k)]
  rfl

/-- A new pool represents an empty ring buffer. -/
theorem threadPoolCreate_represents (pool : ThreadPool Func Args) (numThreads queueSize : ℤ) :
    ∃ ring, (pool.threadPoolCreate numThreads queueSize).Represents ring ∧ ring.count = 0 := by
  have size : 0 < (checkedSizes numThreads queueSize).2 := by
    unfold checkedSizes
    split
    · decide
    · rename_i inside
      simp only [not_or, not_le] at inside
      exact inside.2.2.1
  have length : (pool.threadPoolCreate numThreads queueSize).queue.length =
      (checkedSizes numThreads queueSize).2.toNat := by
    simp only [threadPoolCreate, resizeQueue, List.length_append, List.length_take,
      List.length_replicate]
    omega
  refine ⟨⟨(pool.threadPoolCreate numThreads queueSize).queue, 0, 0, by omega, by omega⟩,
    ⟨rfl, ?_, rfl, ?_, rfl⟩, rfl⟩
  · rw [length]
    exact (Int.toNat_of_nonneg size.le).symm
  · simp [threadPoolCreate, RingBuffer.tail, RingBuffer.index]

/-- **An accepted task is pushed**, and any other changes nothing. -/
theorem threadPoolAdd_represents (represents : pool.Represents ring) (args : Option Args)
    (func : Option Func) :
    (pool.count = pool.queueSize ∨ pool.shutdown ≠ 0) ∧ (pool.threadPoolAdd args func).1 ≠ 0 ∧
        (pool.threadPoolAdd args func).2 = pool ∨
      ∃ room : ring.count < ring.slots.length, pool.shutdown = 0 ∧
        (pool.threadPoolAdd args func).1 = 0 ∧
        (pool.threadPoolAdd args func).2.Represents (ring.push ⟨func, args⟩ room) := by
  unfold threadPoolAdd
  by_cases full : pool.count = pool.queueSize
  · rw [if_pos full]
    exact .inl ⟨.inl full, Int.negSucc_ne_zero _, rfl⟩
  · by_cases shut : pool.shutdown ≠ 0
    · rw [if_neg full, if_pos shut]
      exact .inl ⟨.inr shut, Int.negSucc_ne_zero _, rfl⟩
    · have room : ring.count < ring.slots.length := by
        have count := represents.count
        have queueSize := represents.queueSize
        have count_le := ring.count_le
        omega
      rw [if_neg full, if_neg shut]
      refine .inr ⟨room, by simpa using shut, rfl, ?_, ?_, represents.head, ?_, ?_⟩
      · simp only [represents.queue, represents.tail, Int.toNat_natCast, RingBuffer.push]
      · simp only [represents.queueSize, RingBuffer.push, List.length_set]
      · simp only [represents.tail, represents.queueSize, RingBuffer.tail_push]
        rw [Int.tmod_eq_emod_of_nonneg (by omega)]
        push_cast
        rfl
      · simp only [represents.count, RingBuffer.push]
        omega

/-- **A taken task is popped.** -/
theorem takeTask_represents (represents : pool.Represents ring) (nonempty : 0 < ring.count) :
    pool.takeTask.1 = ring.front ∧ pool.takeTask.2.Represents (ring.pop .empty) := by
  have head := represents.head
  have queueSize := represents.queueSize
  have count := represents.count
  refine ⟨?_, ?_, ?_, ?_, ?_, ?_⟩
  · simp only [takeTask, represents.queue, head, Int.toNat_natCast]
    rw [List.getD_eq_getElem _ _ ring.head_lt]
    rfl
  · simp only [takeTask, represents.queue, head, Int.toNat_natCast, RingBuffer.pop]
  · simp only [takeTask, queueSize, RingBuffer.pop, List.length_set]
  · simp only [takeTask, head, queueSize, RingBuffer.pop, RingBuffer.index]
    rw [Int.tmod_eq_emod_of_nonneg (by omega)]
    push_cast
    rfl
  · rw [RingBuffer.tail_pop nonempty]
    exact represents.tail
  · simp only [takeTask, count, RingBuffer.pop]
    omega

end ThreadPool

end FastWebServer
