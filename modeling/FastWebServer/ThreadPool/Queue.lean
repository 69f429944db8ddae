import FastWebServer.ThreadPool.Workers

/-!
# The queue under all interleavings

Whatever the threads of the pool and its callers do, the members of the queue
represent a ring buffer, and the tasks taken so far followed by the content of the
buffer are the tasks accepted so far, in order (`queued`). Only two steps touch
the queue: an accepting call of `thread_pool_add` and a worker that takes a task
(`Step.queue_effect`).

`taskQueue_correct` says what this means for the members themselves.
-/

set_option autoImplicit false

namespace FastWebServer

namespace ThreadPool

variable {Func Args : Type}

/-! ## What a step does to the queue -/

/-- The two pools have the same queue. -/
structure SameQueue (pool pool' : ThreadPool Func Args) : Prop where
  queue : pool'.queue = pool.queue
  queueSize : pool'.queueSize = pool.queueSize
  head : pool'.head = pool.head
  tail : pool'.tail = pool.tail
  count : pool'.count = pool.count

theorem SameQueue.refl (pool : ThreadPool Func Args) : SameQueue pool pool :=
  ⟨rfl, rfl, rfl, rfl, rfl⟩

theorem SameQueue.represents {pool pool' : ThreadPool Func Args}
    {ring : RingBuffer (ThreadPoolTask Func Args)} (same : SameQueue pool pool')
    (represents : pool.Represents ring) : pool'.Represents ring :=
  ⟨same.queue.trans represents.queue, same.queueSize.trans represents.queueSize,
    same.head.trans represents.head, same.tail.trans represents.tail,
    same.count.trans represents.count⟩

theorem threadPoolAdd_rejects {pool : ThreadPool Func Args} {args : Option Args}
    {func : Option Func} (rejects : (pool.threadPoolAdd args func).1 ≠ 0) :
    (pool.threadPoolAdd args func).2 = pool := by
  unfold threadPoolAdd at rejects ⊢
  split
  · rfl
  · split
    · rfl
    · rename_i full shut
      rw [if_neg full, if_neg shut] at rejects
      exact absurd rfl rejects

theorem threadPoolDestory_sameQueue (pool : ThreadPool Func Args) (option : ShutdownOption) :
    SameQueue pool (pool.threadPoolDestory option).2 := by
  unfold threadPoolDestory
  split
  · exact .refl pool
  · exact ⟨rfl, rfl, rfl, rfl, rfl⟩

/-- **A step accepts one task, takes one task, or leaves the queue as it is.** -/
theorem Step.queue_effect {system next : System Func Args} (step : Step system next) :
    (SameQueue system.pool next.pool ∧ next.accepted = system.accepted ∧
        next.dequeued = system.dequeued) ∨
      (∃ args func, (system.pool.threadPoolAdd args func).1 = 0 ∧
        next.pool = (system.pool.threadPoolAdd args func).2 ∧
        next.accepted = system.accepted ++ [⟨func, args⟩] ∧ next.dequeued = system.dequeued) ∨
      (system.pool.mustWait = false ∧ system.pool.mustLeave = false ∧
        next.pool = system.pool.takeTask.2 ∧ next.accepted = system.accepted ∧
        next.dequeued = system.dequeued ++ [system.pool.takeTask.1]) := by
  cases step with
  | spawn | exit => exact .inl ⟨⟨rfl, rfl, rfl, rfl, rfl⟩, rfl, rfl⟩
  | lock | park | leave | execute | wake | signal | broadcast | free =>
      exact .inl ⟨.refl system.pool, rfl, rfl⟩
  | reject args func created free rejects =>
      refine .inl ⟨?_, rfl, rfl⟩
      rw [threadPoolAdd_rejects rejects]
      exact .refl system.pool
  | destroy option => exact .inl ⟨threadPoolDestory_sameQueue system.pool option, rfl, rfl⟩
  | add args func created free accepts => exact .inr (.inl ⟨args, func, accepts, rfl, rfl, rfl⟩)
  | take stands owns goesOn stays => exact .inr (.inr ⟨goesOn, stays, rfl, rfl, rfl⟩)

/-! ## The shutdown flag -/

/-- The flag is unset or an enumerator. -/
def FlagValid (pool : ThreadPool Func Args) : Prop :=
  pool.shutdown = 0 ∨ ∃ option : ShutdownOption, pool.shutdown = option.value

/-- **The flag is set once**, by a call of `thread_pool_destory` that finds it
unset. -/
theorem Step.shutdown_effect {system next : System Func Args} (step : Step system next) :
    next.pool.shutdown = system.pool.shutdown ∨
      system.pool.shutdown = 0 ∧ system.toCreate = 0 ∧
        ∃ option : ShutdownOption, next.pool.shutdown = option.value := by
  cases step with
  | destroy option created =>
      by_cases shut : system.pool.shutdown ≠ 0
      · exact .inl (by simp only [threadPoolDestory, if_pos shut])
      · refine .inr ⟨by simpa using shut, created, option, ?_⟩
        simp only [threadPoolDestory, if_neg shut]
  | add args func | reject args func =>
      exact .inl (system.pool.threadPoolAdd_frame args func).1
  | spawn | lock | park | leave | take | execute | exit | wake | signal | broadcast | free =>
      exact .inl rfl

theorem flagValid {system : System Func Args} (reachable : (machine Func Args).Reachable system) :
    FlagValid system.pool := by
  refine reachable.induction (fun system => FlagValid system.pool) ?_ ?_
  · rintro _ ⟨pool, numThreads, queueSize, rfl⟩
    exact .inl rfl
  · intro system next _ valid step
    rcases step.shutdown_effect with same | ⟨-, -, option, set⟩
    · rwa [FlagValid, same]
    · exact .inr ⟨option, set⟩

/-- A worker that neither waits nor leaves finds a task. -/
theorem count_ne_zero_of_goesOn {pool : ThreadPool Func Args} (valid : FlagValid pool)
    (goesOn : pool.mustWait = false) (stays : pool.mustLeave = false) : pool.count ≠ 0 := by
  intro empty
  simp only [mustWait, empty, true_and, decide_eq_false_iff_not] at goesOn
  simp only [mustLeave, empty, and_true, decide_eq_false_iff_not, not_or] at stays
  rcases valid with unset | ⟨option, set⟩
  · exact goesOn unset
  · cases option with
    | immediateShutdown => exact stays.1 set
    | gracefulShutdown => exact stays.2 set

/-! ## The queue -/

/-- The members represent a ring buffer, whose content are the accepted tasks that
were not taken. -/
def Queued (system : System Func Args) : Prop :=
  ∃ ring, system.pool.Represents ring ∧ system.accepted = system.dequeued ++ ring.toList

/-- **The queue of every reachable state** holds the accepted tasks that were not
taken, in order. -/
theorem queued {system : System Func Args} (reachable : (machine Func Args).Reachable system) :
    Queued system := by
  refine reachable.induction Queued ?_ ?_
  · rintro _ ⟨pool, numThreads, queueSize, rfl⟩
    obtain ⟨ring, represents, empty⟩ := threadPoolCreate_represents pool numThreads queueSize
    refine ⟨ring, represents, ?_⟩
    simp [System.create, RingBuffer.toList, empty]
  · rintro system next earlier ⟨ring, represents, order⟩ step
    rcases step.queue_effect with ⟨same, accepted, dequeued⟩ |
      ⟨args, func, accepts, moved, accepted, dequeued⟩ |
      ⟨goesOn, stays, moved, accepted, dequeued⟩
    · exact ⟨ring, same.represents represents, by rw [accepted, dequeued, order]⟩
    · rcases threadPoolAdd_represents represents args func with ⟨-, rejected, -⟩ |
        ⟨room, -, -, pushed⟩
      · exact absurd accepts rejected
      · refine ⟨_, moved ▸ pushed, ?_⟩
        rw [accepted, dequeued, order, RingBuffer.toList_push, List.append_assoc]
    · have nonempty : 0 < ring.count := by
        have found := count_ne_zero_of_goesOn (flagValid earlier) goesOn stays
        have count := represents.count
        omega
      obtain ⟨front, popped⟩ := takeTask_represents represents nonempty
      refine ⟨_, moved ▸ popped, ?_⟩
      rw [accepted, dequeued, order, front, RingBuffer.toList_pop nonempty, List.append_assoc]
      rfl

/-- The answer of `thread_pool_add` is the queue's: a full queue and a pool in
shutdown reject the task and stay as they are; any other accepts it, behind the
tasks that are there and in a slot that none of them is in. -/
def AddsBehind (pool : ThreadPool Func Args) (args : Option Args) (func : Option Func) : Prop :=
  (pool.count = pool.queueSize ∨ pool.shutdown ≠ 0 →
    (pool.threadPoolAdd args func).1 ≠ 0 ∧ (pool.threadPoolAdd args func).2 = pool) ∧
  (pool.count ≠ pool.queueSize → pool.shutdown = 0 →
    (pool.threadPoolAdd args func).1 = 0 ∧
    (pool.threadPoolAdd args func).2.tasks = pool.tasks ++ [⟨func, args⟩] ∧
    ∀ k : ℕ, k < pool.count → (pool.head + k) % pool.queueSize ≠ pool.tail)

theorem addsBehind {pool : ThreadPool Func Args} {ring : RingBuffer (ThreadPoolTask Func Args)}
    (represents : pool.Represents ring) (args : Option Args) (func : Option Func) :
    AddsBehind pool args func := by
  rcases threadPoolAdd_represents represents args func with ⟨refused, rejected, same⟩ |
    ⟨room, unset, accepted, pushed⟩
  · refine ⟨fun _ => ⟨rejected, same⟩, fun free unset => ?_⟩
    rcases refused with full | shut
    · exact absurd full free
    · exact absurd unset shut
  · have count := represents.count
    have queueSize := represents.queueSize
    refine ⟨?_, fun _ _ => ⟨accepted, ?_, fun k used => ?_⟩⟩
    · rintro (full | shut)
      · omega
      · exact absurd unset shut
    · rw [pushed.tasks, represents.tasks, RingBuffer.toList_push]
    · have free := RingBuffer.tail_free room (show k < ring.count by omega)
      rw [represents.head, queueSize, represents.tail]
      rw [RingBuffer.index] at free
      exact_mod_cast free

/-- **The task queue is a bounded first-in first-out queue** in every reachable
state. -/
theorem taskQueue_correct {system : System Func Args}
    (reachable : (machine Func Args).Reachable system) :
    (0 ≤ system.pool.count ∧ system.pool.count ≤ system.pool.queueSize) ∧
      (0 ≤ system.pool.head ∧ system.pool.head < system.pool.queueSize) ∧
      (0 ≤ system.pool.tail ∧ system.pool.tail < system.pool.queueSize) ∧
      system.pool.tail = (system.pool.head + system.pool.count) % system.pool.queueSize ∧
      system.dequeued ++ system.pool.tasks = system.accepted ∧
      ∀ args func, AddsBehind system.pool args func := by
  obtain ⟨ring, represents, order⟩ := queued reachable
  have count_le := ring.count_le
  have head_lt := ring.head_lt
  have tail_lt : ring.tail < ring.slots.length := ring.index_lt _
  have tail : (ring.tail : ℤ) = (ring.head + ring.count) % ring.slots.length := by
    rw [RingBuffer.tail, RingBuffer.index]
    push_cast
    rfl
  rw [represents.count, represents.queueSize, represents.head, represents.tail, represents.tasks]
  exact ⟨by omega, by omega, by omega, tail, order.symm, addsBehind represents⟩

/-- The one task is in the queue, which is full. -/
theorem oneTask_queue :
    oneTask.dequeued ++ oneTask.pool.tasks = oneTask.accepted ∧
      (oneTask.pool.threadPoolAdd (some 4) (some 8)).1 ≠ 0 := by
  have correct := taskQueue_correct oneTask_reachable
  exact ⟨correct.2.2.2.2.1, ((correct.2.2.2.2.2 (some 4) (some 8)).1 (.inl rfl)).1⟩

end ThreadPool

end FastWebServer
