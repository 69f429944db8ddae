import FastWebServer.ThreadPool.Shutdown

/-!
# Who holds the mutex of the pool

The calls of `thread_pool_add` and `thread_pool_destory`, statement by statement, next to the
threads of the pool. `At` says where in a call a thread stands, and `holder` which of the calling
threads holds `mutex_lock_`.

A thread keeps the discipline when it does not hold the mutex where it locks it, nor outside of a
call (`Disciplined`). A call of `thread_pool_add` keeps it on all its ways out. A call of
`thread_pool_destory` loses it in two places, and a run keeps it exactly as long as no call gets
through one of them (`mutexDiscipline_iff`): the test that finds `shutdown_` set, and the first
lock of `thread_pool_free`. A call that gets past its joins gets to the latter, because no
thread is left to count as started (`free_locks`).
-/

set_option autoImplicit false

namespace FastWebServer

namespace ThreadPool

variable {Func Args : Type}

/-! ## Calls -/

/-- The entry `THREADPOOL_LOCK_FAILURE` of `THREAD_STATE`. -/
def threadpoolLockFailure : ℤ := -2

/-- The statement of a call that a thread is about to run. -/
inductive At (Func Args : Type) where
  /-- Outside of the pool, with the code of its last call. -/
  | outside (returned : Option ℤ)
  | addLock (args : Option Args) (func : Option Func)
  /-- The loop body of `thread_pool_add`. -/
  | addTest (args : Option Args) (func : Option Func)
  | addSignal
  | addUnlock (error : ℤ)
  | destroyLock (option : ShutdownOption)
  /-- `if (shutdown_)` in `thread_pool_destory`. -/
  | destroyTest (option : ShutdownOption)
  | destroyBroadcast
  | destroyUnlock
  | join
  /-- `if (started_ > 0)` in `thread_pool_free`. -/
  | freeTest
  | freeLock
  | freeLockAgain

/-- Whether a thread is about to lock the mutex. -/
def At.locks : At Func Args → Bool
  | .addLock _ _ | .destroyLock _ | .freeLock | .freeLockAgain => true
  | _ => false

/-- Whether a thread is outside of a call. -/
def At.isOutside : At Func Args → Bool
  | .outside _ => true
  | _ => false

/-- Whether a thread stands between a lock and its unlock. -/
def At.inside : At Func Args → Bool
  | .addTest _ _ | .addSignal | .addUnlock _ | .destroyTest _ | .destroyBroadcast
  | .destroyUnlock => true
  | _ => false

/-- What a statement does to the mutex. -/
inductive Effect where
  | keep
  | acquire
  | release

/-- The holder after a statement of the thread. -/
def Effect.holder (effect : Effect) (thread : ℕ) (before : Option ℕ) : Option ℕ :=
  match effect with
  | keep => before
  | acquire => some thread
  | release => none

/-- One statement of a call. The locks, unlocks, broadcasts and joins succeed; a signal may fail. -/
inductive CallStep :
    System Func Args → At Func Args → Effect → System Func Args → At Func Args → Prop where
  | callAdd {system : System Func Args} {returned : Option ℤ} (args : Option Args)
      (func : Option Func) (created : system.toCreate = 0) :
      CallStep system (.outside returned) .keep system (.addLock args func)
  | callDestroy {system : System Func Args} {returned : Option ℤ} (option : ShutdownOption)
      (created : system.toCreate = 0) :
      CallStep system (.outside returned) .keep system (.destroyLock option)
  | addLock {system : System Func Args} {args : Option Args} {func : Option Func}
      (free : system.mutex = none) :
      CallStep system (.addLock args func) .acquire { system with mutex := some .adder }
        (.addTest args func)
  | accept {system : System Func Args} {args : Option Args} {func : Option Func}
      (accepts : (system.pool.threadPoolAdd args func).1 = 0) :
      CallStep system (.addTest args func) .keep { system with
        pool := (system.pool.threadPoolAdd args func).2
        accepted := system.accepted ++ [⟨func, args⟩] } .addSignal
  | reject {system : System Func Args} {args : Option Args} {func : Option Func}
      (rejects : (system.pool.threadPoolAdd args func).1 ≠ 0) :
      CallStep system (.addTest args func) .keep
        { system with pool := (system.pool.threadPoolAdd args func).2 }
        (.addUnlock (system.pool.threadPoolAdd args func).1)
  | signal {system : System Func Args} {workers : List (Worker Func Args)}
      (signals : Signals system.workers workers) :
      CallStep system .addSignal .keep { system with workers := workers } (.addUnlock 0)
  | signalFails {system : System Func Args} :
      CallStep system .addSignal .keep system (.addUnlock threadpoolLockFailure)
  | addUnlock {system : System Func Args} {error : ℤ} :
      CallStep system (.addUnlock error) .release { system with mutex := none }
        (.outside (some error))
  | destroyLock {system : System Func Args} {option : ShutdownOption}
      (free : system.mutex = none) :
      CallStep system (.destroyLock option) .acquire { system with mutex := some .destroyer }
        (.destroyTest option)
  | shutDown {system : System Func Args} {option : ShutdownOption}
      (goesOn : (system.pool.threadPoolDestory option).1 = true) :
      CallStep system (.destroyTest option) .keep
        { system with pool := (system.pool.threadPoolDestory option).2 } .destroyBroadcast
  /-- `break` out of the loop, past the unlock. -/
  | refuse {system : System Func Args} {option : ShutdownOption}
      (stops : (system.pool.threadPoolDestory option).1 = false) :
      CallStep system (.destroyTest option) .keep system (.outside (some threadpoolShutdown))
  | destroyBroadcast {system : System Func Args} :
      CallStep system .destroyBroadcast .keep { system with
        workers := system.workers.map Worker.wake
        broadcasted := true } .destroyUnlock
  | destroyUnlock {system : System Func Args} :
      CallStep system .destroyUnlock .release { system with mutex := none } .join
  | join {system : System Func Args} (joined : ∀ worker ∈ system.workers, worker = .left) :
      CallStep system .join .keep system .freeTest
  /-- `thread_pool_free` returns -1, which nothing looks at. -/
  | startedLeft {system : System Func Args} (running : 0 < system.pool.started) :
      CallStep system .freeTest .keep system (.outside (some 0))
  | noneLeft {system : System Func Args} (finished : system.pool.started ≤ 0) :
      CallStep system .freeTest .keep system .freeLock
  /-- The second lock waits for the thread itself, and has no step. -/
  | freeLock {system : System Func Args} (free : system.mutex = none) :
      CallStep system .freeLock .acquire { system with mutex := some .destroyer } .freeLockAgain

/-! ## Calls and workers -/

/-- A pool with its threads, and the threads that call it. -/
structure Callers (Func Args : Type) where
  system : System Func Args
  callers : ℕ → At Func Args
  holder : Option ℕ

/-- No calling thread holds the mutex. -/
def WithoutCaller : Option Owner → Prop
  | none | some (.worker _) => True
  | _ => False

/-- A step of the pool's own threads: it leaves the mutex alone or only workers take it. -/
def Inner (system system' : System Func Args) : Prop :=
  Step system system' ∧
    (system'.mutex = system.mutex ∨ WithoutCaller system.mutex ∧ WithoutCaller system'.mutex)

/-- One step of one thread. -/
inductive CallersStep : Callers Func Args → Callers Func Args → Prop where
  | inner {state : Callers Func Args} {system : System Func Args}
      (step : Inner state.system system) : CallersStep state { state with system := system }
  | call {state : Callers Func Args} {system : System Func Args} {there : At Func Args}
      {effect : Effect} (thread : ℕ)
      (step : CallStep state.system (state.callers thread) effect system there) :
      CallersStep state
        { system := system
          callers := Function.update state.callers thread there
          holder := effect.holder thread state.holder }

/-- A pool from its creation on, before any call. -/
def callersMachine (Func Args : Type) : Runs.Machine (Callers Func Args) where
  start state := (machine Func Args).start state.system ∧
    (∀ thread, state.callers thread = .outside none) ∧ state.holder = none
  step := CallersStep

/-! ## Behind the joins -/

/-- No worker is left. -/
def AllLeft (system : System Func Args) : Prop := ∀ worker ∈ system.workers, worker = .left

/-- Whether a call of `thread_pool_destory` has joined the workers. -/
def At.joined : At Func Args → Bool
  | .freeTest | .freeLock | .freeLockAgain => true
  | _ => false

/-- No wake-up brings a worker back. -/
theorem left_of_wakes {workers workers' : List (Worker Func Args)}
    (wakes : List.Forall₂ Wakes workers workers') (left : ∀ worker ∈ workers, worker = .left) :
    ∀ worker ∈ workers', worker = .left := by
  induction wakes with
  | nil => exact left
  | cons first later ih =>
      obtain ⟨here, others⟩ := List.forall_mem_cons.mp left
      refine List.forall_mem_cons.mpr ⟨?_, ih others⟩
      subst here
      cases first
      rfl

/-- Workers that have left do nothing any more. -/
theorem allLeft_step {system next : System Func Args} (created : system.toCreate = 0)
    (left : AllLeft system) (step : Step system next) :
    AllLeft next ∧ next.toCreate = 0 := by
  have noOther : ∀ {before after : List (Worker Func Args)} {worker : Worker Func Args},
      system.workers = before ++ worker :: after → worker = .left := by
    intro before after worker stands
    exact left worker (stands ▸ List.mem_append_right _ List.mem_cons_self)
  cases step with
  | spawn creating => exact absurd (created.symm.trans creating) (by simp)
  | lock stands waits => rcases waits with rfl | rfl <;> cases noOther stands
  | park stands | leave stands | take stands | execute stands | exit stands | wake stands =>
      cases noOther stands
  | add | reject | destroy | free => exact ⟨left, created⟩
  | signal owns signals =>
      exact ⟨left_of_wakes signals.1 left, created⟩
  | broadcast =>
      exact ⟨left_of_wakes (forall₂_wake _) left, created⟩

/-- What a statement leaves as it is. -/
theorem callStep_frame {system system' : System Func Args} {there there' : At Func Args}
    {effect : Effect} (step : CallStep system there effect system' there') :
    system'.toCreate = system.toCreate ∧ system'.pool.started = system.pool.started ∧
      List.Forall₂ Wakes system.workers system'.workers := by
  have same : List.Forall₂ Wakes system.workers system.workers :=
    List.forall₂_same.mpr fun worker _ => .same worker
  cases step with
  | accept | reject => exact ⟨rfl, (system.pool.threadPoolAdd_frame _ _).2, same⟩
  | signal signals => exact ⟨rfl, rfl, signals.1⟩
  | shutDown => exact ⟨rfl, system.pool.threadPoolDestory_started _, same⟩
  | destroyBroadcast => exact ⟨rfl, rfl, forall₂_wake _⟩
  | callAdd | callDestroy | addLock | signalFails | addUnlock | destroyLock | refuse
  | destroyUnlock | join | startedLeft | noneLeft | freeLock => exact ⟨rfl, rfl, same⟩

/-- What is known of a pool with calls: its threads have been created before the first call, and a
call gets past its joins when they have left. -/
structure Joins (state : Callers Func Args) : Prop where
  counted : state.system.pool.started = state.system.workers.countP Worker.counts
  created : ∀ thread, (state.callers thread).isOutside = false → state.system.toCreate = 0
  joined : ∀ thread, (state.callers thread).joined = true → AllLeft state.system

/-- A statement that gets into a call finds the threads created, and one that gets past the joins
finds that they have left. -/
theorem callStep_joins {system system' : System Func Args} {there there' : At Func Args}
    {effect : Effect} (step : CallStep system there effect system' there') :
    (there.isOutside = true → system.toCreate = 0) ∧
      (there'.joined = true → there.joined = true ∨ AllLeft system) := by
  cases step with
  | callAdd _ _ created | callDestroy _ created => exact ⟨fun _ => created, by simp [At.joined]⟩
  | join joined => exact ⟨by simp [At.isOutside], fun _ => .inr joined⟩
  | noneLeft | freeLock => exact ⟨by simp [At.isOutside], fun _ => .inl rfl⟩
  | accept | reject | signal | shutDown | destroyBroadcast | addLock | signalFails | addUnlock
  | destroyLock | refuse | destroyUnlock | startedLeft =>
      exact ⟨by simp [At.isOutside], by simp [At.joined]⟩

theorem joins_step {state next : Callers Func Args} (joins : Joins state)
    (step : CallersStep state next) : Joins next := by
  cases step with
  | @inner system inner =>
      refine ⟨started_step joins.counted inner.1, fun thread away => ?_, fun thread behind => ?_⟩
      · have created := joins.created thread away
        cases inner.1 with
        | spawn creating => exact absurd (created.symm.trans creating) (by simp)
        | lock | park | leave | take | execute | exit | wake | add | reject | signal | destroy
        | broadcast | free => exact created
      · have away : (state.callers thread).isOutside = false := by
          change (state.callers thread).joined = true at behind
          cases there : state.callers thread <;> simp_all [At.joined, At.isOutside]
        exact (allLeft_step (joins.created thread away) (joins.joined thread behind) inner.1).1
  | @call system there effect thread statement =>
      obtain ⟨toCreate, started, wakes⟩ := callStep_frame statement
      obtain ⟨enters, passes⟩ := callStep_joins statement
      have created : state.system.toCreate = 0 := by
        cases place : (state.callers thread).isOutside with
        | true => exact enters place
        | false => exact joins.created thread place
      refine ⟨?_, fun _ _ => toCreate.trans created, fun thread' behind => ?_⟩
      · change system.pool.started = _
        rw [started, joins.counted, counts_of_wakes wakes]
      · by_cases mine : thread' = thread
        · subst mine
          simp only [Function.update_self] at behind
          rcases passes behind with earlier | left
          · exact left_of_wakes wakes (joins.joined thread' earlier)
          · exact left_of_wakes wakes left
        · simp only [Function.update_of_ne mine] at behind
          exact left_of_wakes wakes (joins.joined thread' behind)

/-- **A call that gets past its joins locks the mutex in `thread_pool_free`**: no thread counts as
started any more. -/
theorem free_locks {state : Callers Func Args}
    (reachable : (callersMachine Func Args).Reachable state)
    {thread : ℕ} (stands : state.callers thread = .freeTest) {system : System Func Args}
    {there : At Func Args} {effect : Effect}
    (step : CallStep state.system (state.callers thread) effect system there) :
    there = .freeLock := by
  have joins : Joins state := by
    refine reachable.induction Joins ?_ fun _ _ _ joins step => joins_step joins step
    rintro first ⟨⟨pool, numThreads, queueSize, created⟩, outside, -⟩
    refine ⟨by rw [created]; rfl, ?_, ?_⟩
    · intro thread away
      rw [outside thread] at away
      cases away
    · intro thread behind
      rw [outside thread] at behind
      cases behind
  have left := joins.joined thread (by rw [stands]; rfl)
  have none : state.system.pool.started = 0 := by
    rw [joins.counted, Int.natCast_eq_zero, List.countP_eq_zero]
    intro worker member
    rw [left worker member]
    simp [Worker.counts]
  rw [stands] at step
  cases step with
  | startedLeft running => omega
  | noneLeft => rfl

/-! ## The discipline -/

/-- No thread holds the mutex where it locks it, or outside of a call. -/
def Disciplined (state : Callers Func Args) : Prop :=
  ∀ thread, (state.callers thread).locks = true ∨ (state.callers thread).isOutside = true →
    state.holder ≠ some thread

/-- The holder is the thread that stands between a lock and its unlock. -/
def HolderInside (state : Callers Func Args) : Prop :=
  ∀ thread, state.holder = some thread ↔ (state.callers thread).inside = true

/-- No thread gets past the test of `thread_pool_destory` where it finds `shutdown_` set, and none
past the first lock of `thread_pool_free`. -/
def Careful (state next : Callers Func Args) : Prop :=
  ∀ thread, next.callers thread ≠ state.callers thread →
    (∀ option, state.callers thread = .destroyTest option → state.system.pool.shutdown = 0) ∧
      state.callers thread ≠ .freeLock

theorem disciplined_of_holderInside {state : Callers Func Args} (inside : HolderInside state) :
    Disciplined state := by
  intro thread place holds
  have between := (inside thread).mp holds
  cases there : state.callers thread <;> simp_all [At.inside, At.locks, At.isOutside]

/-- What a call keeps of the mutex. -/
structure Held (state : Callers Func Args) : Prop where
  inside : HolderInside state
  taken : state.holder ≠ none → ¬ WithoutCaller state.system.mutex

theorem threadPoolDestory_refuses {pool : ThreadPool Func Args} {option : ShutdownOption} :
    (pool.threadPoolDestory option).1 = false ↔ pool.shutdown ≠ 0 := by
  unfold threadPoolDestory
  split
  · rename_i set
    exact iff_of_true rfl set
  · rename_i unset
    exact iff_of_false (by simp) unset

section Statements

variable {system system' : System Func Args} {there there' : At Func Args}

/-- A statement that leaves the mutex alone stays on its side of the lock, unless it is the way out
of `thread_pool_destory` with the lock. -/
theorem keep_inside (step : CallStep system there .keep system' there') :
    system'.mutex = system.mutex ∧ there ≠ .freeLock ∧
      (there'.inside = there.inside ∨
        ∃ option, there = .destroyTest option ∧ system.pool.shutdown ≠ 0 ∧
          there' = .outside (some threadpoolShutdown)) := by
  cases step with
  | refuse stops =>
      exact ⟨rfl, by simp, .inr ⟨_, rfl, threadPoolDestory_refuses.mp stops, rfl⟩⟩
  | callAdd | callDestroy | accept | reject | signal | signalFails | shutDown | destroyBroadcast
  | join | startedLeft | noneLeft => exact ⟨rfl, by simp, .inl rfl⟩

/-- A lock is taken from outside, and free. -/
theorem acquire_inside (step : CallStep system there .acquire system' there') :
    system.mutex = none ∧ ¬ WithoutCaller system'.mutex ∧ there.inside = false ∧
      (there ≠ .freeLock ∧ there'.inside = true ∨ there = .freeLock ∧ there' = .freeLockAgain) := by
  cases step with
  | addLock free | destroyLock free => exact ⟨free, id, rfl, .inl ⟨by simp, rfl⟩⟩
  | freeLock free => exact ⟨free, id, rfl, .inr ⟨rfl, rfl⟩⟩

/-- An unlock is done from inside. -/
theorem release_inside (step : CallStep system there .release system' there') :
    there.inside = true ∧ there'.inside = false ∧ there ≠ .freeLock := by
  cases step with
  | addUnlock | destroyUnlock => exact ⟨rfl, rfl, by simp⟩

/-- Every statement goes on to another one. -/
theorem callStep_moves {effect : Effect} (step : CallStep system there effect system' there') :
    there' ≠ there := by
  cases step <;> simp

/-- The test that finds the flag set has one way out. -/
theorem callStep_refuses {effect : Effect} {option : ShutdownOption}
    (step : CallStep system (.destroyTest option) effect system' there')
    (set : system.pool.shutdown ≠ 0) :
    effect = .keep ∧ there' = .outside (some threadpoolShutdown) := by
  cases step with
  | shutDown goesOn =>
      rw [threadPoolDestory_refuses.mpr set] at goesOn
      cases goesOn
  | refuse => exact ⟨rfl, rfl⟩

end Statements

/-- The machine starts with nobody inside. -/
theorem held_start {state : Callers Func Args} (starts : (callersMachine Func Args).start state) :
    Held state := by
  obtain ⟨-, outside, free⟩ := starts
  refine ⟨fun thread => ?_, fun some => absurd free some⟩
  rw [free, outside thread]
  exact iff_of_false (by simp) (by simp [At.inside])

/-- The holder after a statement, thread by thread. -/
theorem holderInside_update {state : Callers Func Args} {system : System Func Args} {thread : ℕ}
    {there : At Func Args} {holder : Option ℕ}
    (own : holder = some thread ↔ there.inside = true)
    (others : ∀ thread', thread' ≠ thread →
      (holder = some thread' ↔ (state.callers thread').inside = true)) :
    HolderInside ⟨system, Function.update state.callers thread there, holder⟩ := by
  intro thread'
  by_cases mine : thread' = thread
  · subst mine
    simpa only [Function.update_self] using own
  · simpa only [Function.update_of_ne mine] using others thread' mine

/-- **A careful step keeps the holder inside.** -/
theorem held_step {state next : Callers Func Args} (held : Held state)
    (step : CallersStep state next) (careful : Careful state next) : Held next := by
  cases step with
  | @inner system inner =>
      refine ⟨held.inside, fun some => ?_⟩
      rcases inner.2 with same | ⟨without, -⟩
      · rw [show ({ state with system := system } : Callers Func Args).system.mutex =
          state.system.mutex from same]
        exact held.taken some
      · exact absurd without (held.taken some)
  | @call system there effect thread statement =>
      have own := held.inside thread
      obtain ⟨flag, lock⟩ := careful thread (by
        simpa only [Function.update_self] using callStep_moves statement)
      cases effect with
      | keep =>
          obtain ⟨mutex, -, same | ⟨option, stands, set, -⟩⟩ := keep_inside statement
          · refine ⟨holderInside_update (same ▸ own) fun thread' _ => held.inside thread', ?_⟩
            intro some
            rw [show (Callers.mk system _ _).system.mutex = state.system.mutex from mutex]
            exact held.taken some
          · exact absurd (flag option stands) set
      | acquire =>
          obtain ⟨free, taken, -, ⟨-, inside⟩ | ⟨stands, -⟩⟩ := acquire_inside statement
          · have nobody : state.holder = none := by
              by_contra some
              exact held.taken some (free ▸ trivial)
            refine ⟨holderInside_update ⟨fun _ => inside, fun _ => rfl⟩ ?_, fun _ => taken⟩
            intro thread' another
            rw [← held.inside thread', nobody]
            exact iff_of_false (fun same => another (Option.some.inj same).symm) (by simp)
          · exact absurd stands lock
      | release =>
          obtain ⟨inside, outside, -⟩ := release_inside statement
          have holds := own.mpr inside
          refine ⟨holderInside_update ?_ ?_, fun some => absurd rfl some⟩
          · rw [outside]
            exact iff_of_false (by simp [Effect.holder]) (by simp)
          · intro thread' another
            rw [← held.inside thread', holds]
            exact iff_of_false (by simp [Effect.holder])
              (fun same => another (Option.some.inj same).symm)

/-- **A step that is not careful ends the discipline.** -/
theorem not_disciplined_step {state next : Callers Func Args} (held : Held state)
    (step : CallersStep state next) (careless : ¬ Careful state next) : ¬ Disciplined next := by
  unfold Careful at careless
  push Not at careless
  obtain ⟨thread, moved, place⟩ := careless
  cases step with
  | inner => exact absurd rfl moved
  | @call system there effect thread' statement =>
      by_cases mine : thread = thread'
      · subst mine
        intro disciplined
        have kept := disciplined thread
        simp only [Function.update_self] at kept
        by_cases flag : ∀ option, state.callers thread = .destroyTest option →
            state.system.pool.shutdown = 0
        · have stands := place flag
          rw [stands] at statement
          cases statement with
          | freeLock free => exact kept (.inl rfl) rfl
        · push Not at flag
          obtain ⟨option, stands, set⟩ := flag
          have holds := (held.inside thread).mpr (by rw [stands]; rfl)
          rw [stands] at statement
          obtain ⟨rfl, rfl⟩ := callStep_refuses statement set
          exact kept (.inr rfl) holds
      · exact absurd (Function.update_of_ne mine ..) moved

/-- **The discipline of the mutex.** In every run, all states keep the discipline exactly if no
call of `thread_pool_destory` finds `shutdown_` set, and none gets past the first lock of
`thread_pool_free`. -/
theorem mutexDiscipline_iff {run : List (Callers Func Args)}
    (isRun : (callersMachine Func Args).IsRun run) :
    (∀ state ∈ run, Disciplined state) ↔ run.IsChain Careful :=
  isRun.holds_iff (fun _ => held_start) (fun _ held => disciplined_of_holderInside held.inside)
    (fun _ _ => held_step) (fun _ _ => not_disciplined_step)

/-! ## Runs of one pool -/

/-- A pool of one thread and one slot that is being created. -/
def beingCreated : Callers ℕ ℕ := ⟨.create initial 1 1, fun _ => .outside none, none⟩

/-- The pool with its thread. -/
def withThread : Callers ℕ ℕ :=
  { beingCreated with
    system := { beingCreated.system with
      pool := beingCreated.system.pool.countThread
      toCreate := 0
      workers := [.locking] } }

theorem beingCreated_starts : (callersMachine ℕ ℕ).start beingCreated :=
  ⟨⟨initial, 1, 1, rfl⟩, fun _ => rfl, rfl⟩

theorem withThread_step : CallersStep beingCreated withThread :=
  .inner ⟨@Step.spawn _ _ _ 0 rfl, .inl rfl⟩

/-- A call of `thread_pool_add` that locks the mutex, adds its task and unlocks. -/
theorem added_disciplined :
    ∃ state : Callers ℕ ℕ, state.callers 0 = .outside (some 0) ∧ state.holder = none ∧
      state.system.accepted = [⟨some 7, some 3⟩] ∧ Disciplined state := by
  have adds : ∀ {state : Callers ℕ ℕ} {system : System ℕ ℕ} {there : At ℕ ℕ} {holder : Option ℕ},
      (∀ option, state.callers 0 ≠ .destroyTest option) → state.callers 0 ≠ .freeLock →
        Careful state ⟨system, Function.update state.callers 0 there, holder⟩ := by
    intro state system there holder untested unfreed thread moved
    obtain rfl : thread = 0 := by
      by_contra other
      exact moved (Function.update_of_ne other ..)
    exact ⟨fun option stands => absurd stands (untested option), unfreed⟩
  have created : (callersMachine ℕ ℕ).ComesTo Careful withThread :=
    (Runs.Machine.ComesTo.start beingCreated_starts).step withThread_step
      fun thread moved => absurd rfl moved
  have called := created.step (.call 0 (CallStep.callAdd (some 3) (some 7) rfl))
    (adds nofun nofun)
  have locked := called.step (.call 0 (CallStep.addLock rfl)) (adds nofun nofun)
  have accepted := locked.step (.call 0 (CallStep.accept rfl)) (adds nofun nofun)
  have unheard : Signals withThread.system.workers withThread.system.workers :=
    ⟨List.forall₂_same.mpr fun worker _ => .same worker, by simp [withThread]⟩
  have signalled := accepted.step (.call 0 (CallStep.signal unheard)) (adds nofun nofun)
  obtain ⟨earlier, isRun, careful⟩ :=
    signalled.step (.call 0 CallStep.addUnlock) (adds nofun nofun)
  exact ⟨_, rfl, rfl, rfl, (mutexDiscipline_iff isRun).mpr careful _
    (List.mem_append_right _ (List.mem_singleton_self _))⟩

/-- **A call of `thread_pool_destory` locks the mutex twice, and a second one returns with it.** -/
theorem destroy_keepsMutex :
    (∃ state, (callersMachine ℕ ℕ).Reachable state ∧ state.callers 0 = .freeLockAgain ∧
      state.holder = some 0 ∧ ¬ Disciplined state) ∧
    ∃ state, (callersMachine ℕ ℕ).Reachable state ∧
      state.callers 1 = .outside (some threadpoolShutdown) ∧ state.holder = some 1 ∧
      ¬ Disciplined state := by
  have created := (Runs.Machine.Reachable.start beingCreated_starts).step withThread_step
  have called := created.step (.call 0 (CallStep.callDestroy .gracefulShutdown rfl))
  have locked := called.step (.call 0 (CallStep.destroyLock rfl))
  have flagged := locked.step (.call 0 (CallStep.shutDown rfl))
  have woken := flagged.step (.call 0 CallStep.destroyBroadcast)
  have unlocked := woken.step (.call 0 CallStep.destroyUnlock)
  constructor
  · have taken := unlocked.step (.inner
      ⟨@Step.lock _ _ _ [] [] .locking rfl (.inl rfl) rfl, .inr ⟨trivial, trivial⟩⟩)
    have leaving := taken.step (.inner ⟨@Step.leave _ _ _ [] [] rfl rfl rfl rfl, .inl rfl⟩)
    have left := leaving.step (.inner
      ⟨@Step.exit _ _ _ [] [] rfl rfl, .inr ⟨trivial, trivial⟩⟩)
    have joined := left.step (.call 0 (CallStep.join (by simp)))
    have tested := joined.step (.call 0 (CallStep.noneLeft (by decide)))
    have again := tested.step (.call 0 (CallStep.freeLock rfl))
    exact ⟨_, again, rfl, rfl, fun disciplined => disciplined 0 (.inl rfl) rfl⟩
  · have called' := unlocked.step (.call 1 (CallStep.callDestroy .gracefulShutdown rfl))
    have locked' := called'.step (.call 1 (CallStep.destroyLock rfl))
    have refused := locked'.step (.call 1 (CallStep.refuse rfl))
    exact ⟨_, refused, rfl, rfl, fun disciplined => disciplined 1 (.inr rfl) rfl⟩

end ThreadPool

end FastWebServer
