import FastWebServer.ThreadPool.Shutdown

/-!
# Wake-ups

A worker parks only at an empty queue, and whoever accepts a task signals before
the lock is released. So a task in the queue finds, whenever the lock is free, a
worker that is not parked: one that never parked, that is at work and will test the
queue again, or that has been woken (`awake`). Once the broadcast of a shutdown
has been done, nobody is parked (`unparked`).
-/

set_option autoImplicit false

namespace FastWebServer

namespace ThreadPool

variable {Func Args : Type}

/-! ## Tasks in the queue -/

/-- Unless a task is being added, a queue with tasks has a worker that is not
parked. -/
def Awake (system : System Func Args) : Prop :=
  system.mutex ≠ some .adder → system.pool.count ≠ 0 → ∃ worker ∈ system.workers, worker ≠ .parked

/-- Workers that are all parked after wake-ups were not woken. -/
theorem eq_of_wakes_parked {workers workers' : List (Worker Func Args)}
    (wakes : List.Forall₂ Wakes workers workers') (all : ∀ worker ∈ workers', worker = .parked) :
    workers' = workers := by
  induction wakes with
  | nil => rfl
  | @cons worker worker' _ _ first _ ih =>
      have parked : worker' = .parked := all worker' (List.mem_cons_self ..)
      subst parked
      cases first
      rw [ih fun worker member => all worker (List.mem_cons_of_mem _ member)]

/-- **A signal leaves some worker that is not parked.** -/
theorem Signals.awake {workers workers' : List (Worker Func Args)}
    (signals : Signals workers workers') (nonempty : workers ≠ []) :
    ∃ worker ∈ workers', worker ≠ .parked := by
  by_contra all
  push Not at all
  have same := eq_of_wakes_parked signals.1 all
  rw [same] at all
  obtain ⟨worker, member⟩ := List.exists_mem_of_ne_nil _ nonempty
  exact signals.2 (all worker member ▸ member) same

/-- **A queue with tasks has a worker that is not parked.** -/
theorem awake {system : System Func Args} (reachable : (machine Func Args).Reachable system) :
    Awake system := by
  refine reachable.induction Awake ?_ ?_
  · rintro _ ⟨pool, numThreads, queueSize, rfl⟩ - tasks
    exact absurd rfl tasks
  · intro system next earlier awake step notAdding tasks
    cases step with
    | spawn => exact ⟨.locking, by simp, by simp⟩
    | lock => exact ⟨.testing, by simp, by simp⟩
    | park stands owns waits =>
        -- a worker parks only at an empty queue
        simp only [mustWait, decide_eq_true_eq] at waits
        exact absurd waits.1 tasks
    | leave => exact ⟨.leaving, by simp, by simp⟩
    | take => exact ⟨.running system.pool.takeTask.1, by simp, by simp⟩
    | execute => exact ⟨.locking, by simp, by simp⟩
    | exit => exact ⟨.left, by simp, by simp⟩
    | wake => exact ⟨.woken, by simp, by simp⟩
    | add => exact absurd rfl notAdding
    | reject args func created free rejects =>
        rw [threadPoolAdd_rejects rejects] at tasks
        exact awake (by simp [free]) tasks
    | signal owns signals =>
        obtain ⟨staffed, unused⟩ := manned earlier
        exact signals.awake (staffed.resolve_right fun creating => (unused creating).2.1 owns)
    | destroy option created free =>
        rw [(threadPoolDestory_sameQueue system.pool option).count] at tasks
        exact awake (by simp [free]) tasks
    | broadcast owns =>
        obtain ⟨worker, member, notParked⟩ := awake (by simp [owns]) tasks
        refine ⟨worker.wake, List.mem_map_of_mem member, ?_⟩
        cases worker <;> first | exact absurd rfl notParked | simp [Worker.wake]
    | free _ _ free => exact awake (by simp [free]) tasks

/-! ## After the broadcast -/

/-- The flag is set while it is being broadcast, and after the broadcast nobody is
parked. -/
structure Unparked (system : System Func Args) : Prop where
  broadcasting : system.mutex = some .destroyer → system.pool.shutdown ≠ 0
  flagged : system.broadcasted = true → system.pool.shutdown ≠ 0
  unparked : system.broadcasted = true → ∀ worker ∈ system.workers, worker ≠ .parked

/-- Wake-ups park nobody. -/
theorem unparked_of_wakes {workers workers' : List (Worker Func Args)}
    (wakes : List.Forall₂ Wakes workers workers')
    (unparked : ∀ worker ∈ workers, worker ≠ .parked) : ∀ worker ∈ workers', worker ≠ .parked := by
  induction wakes with
  | nil => exact unparked
  | cons first _ ih =>
      rw [List.forall_mem_cons] at unparked ⊢
      refine ⟨?_, ih unparked.2⟩
      cases first with
      | same => exact unparked.1
      | woken => simp

/-- What holds of all workers holds of them after one is replaced by another it
holds of. -/
theorem forall_replace {holds : Worker Func Args → Prop} {before after : List (Worker Func Args)}
    {worker worker' : Worker Func Args} (all : ∀ other ∈ before ++ worker :: after, holds other)
    (replaced : holds worker') : ∀ other ∈ before ++ worker' :: after, holds other := by
  simp only [List.mem_append, List.mem_cons] at all ⊢
  rintro other (member | rfl | member)
  · exact all other (.inl member)
  · exact replaced
  · exact all other (.inr (.inr member))

/-- **After the broadcast nobody is parked.** -/
theorem unparked {system : System Func Args} (reachable : (machine Func Args).Reachable system) :
    Unparked system := by
  refine reachable.induction Unparked ?_ ?_
  · rintro _ ⟨pool, numThreads, queueSize, rfl⟩
    exact ⟨by simp [System.create], by simp [System.create], by simp [System.create]⟩
  · rintro system next earlier ⟨broadcasting, flagged, unparked⟩ step
    cases step with
    | spawn creating =>
        refine ⟨broadcasting, flagged, fun done => ?_⟩
        exact absurd ((manned earlier).unused (by omega)).1 (flagged done)
    | lock stands | take stands | exit stands =>
        exact ⟨by simp, flagged, fun done => forall_replace (stands ▸ unparked done) (by simp)⟩
    | leave stands | execute stands | wake stands =>
        exact ⟨broadcasting, flagged, fun done => forall_replace (stands ▸ unparked done) (by simp)⟩
    | park stands owns waits =>
        -- no worker parks once the flag is set
        simp only [mustWait, decide_eq_true_eq] at waits
        exact ⟨by simp, flagged, fun done => absurd waits.2 (flagged done)⟩
    | add args func created free =>
        have flag := (system.pool.threadPoolAdd_frame args func).1
        exact ⟨by simp, fun done => flag ▸ flagged done, unparked⟩
    | reject args func created free =>
        have flag := (system.pool.threadPoolAdd_frame args func).1
        exact ⟨fun owns => flag ▸ broadcasting owns, fun done => flag ▸ flagged done, unparked⟩
    | signal owns signals =>
        exact ⟨by simp, flagged, fun done => unparked_of_wakes signals.1 (unparked done)⟩
    | destroy option =>
        have set : (system.pool.threadPoolDestory option).2.shutdown ≠ 0 := by
          unfold threadPoolDestory
          split
          · assumption
          · exact option.value_ne_zero
        exact ⟨fun _ => set, fun _ => set, unparked⟩
    | broadcast owns =>
        refine ⟨by simp, fun _ => broadcasting owns, fun _ worker' member => ?_⟩
        obtain ⟨worker, -, rfl⟩ := List.mem_map.1 member
        cases worker <;> simp [Worker.wake]
    | free => exact ⟨by simp, flagged, unparked⟩

/-- **No worker is stuck.** In a pool that has been created, whenever the lock is
free, the queue has tasks and the pool is not shut down, some worker is in its loop
and not parked; and once a shutdown has been broadcast, nobody is parked. -/
theorem noStuckWorker {system : System Func Args}
    (reachable : (machine Func Args).Reachable system) :
    (system.mutex = none → 0 < system.pool.count → system.pool.shutdown = 0 →
      ∃ worker ∈ system.workers, worker ≠ .parked ∧ worker.departed = false) ∧
      (system.pool.shutdown ≠ 0 → system.broadcasted = true →
        ∀ worker ∈ system.workers, worker ≠ .parked) := by
  constructor
  · intro free tasks unset
    obtain ⟨worker, member, notParked⟩ := awake reachable (by simp [free]) tasks.ne'
    refine ⟨worker, member, notParked, ?_⟩
    rw [Bool.eq_false_iff]
    intro departed
    have leaves := departs reachable (List.any_eq_true.2 ⟨worker, member, departed⟩)
    exact shutdown_of_mustLeave leaves unset
  · exact fun _ done => (unparked reachable).unparked done

/-- The one task finds its worker awake. -/
theorem oneTask_awake :
    ∃ worker ∈ oneTask.workers, worker ≠ .parked ∧ worker.departed = false :=
  (noStuckWorker oneTask_reachable).1 rfl (by decide) rfl

end ThreadPool

end FastWebServer
