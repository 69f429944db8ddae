import Mathlib.Data.List.Forall2
import FastWebServer.ThreadPool.Queue

/-!
# Shutting the pool down

A worker leaves its loop only once the shutdown flag is set, and in a graceful
shutdown only once the queue is empty (`departs`). The tasks taken from the queue
are those executed and those that a running worker holds (`performed`), and
`started_` counts the workers that have not left (`startedCounts`).

So a graceful shutdown drains the queue: when the last worker has left, every
accepted task has been executed, exactly once. After an immediate shutdown no
task is taken any more, and after either no task is accepted (`shutdown_drains`).
-/

set_option autoImplicit false

namespace FastWebServer

namespace ThreadPool

variable {Func Args : Type}

/-! ## Workers -/

namespace Worker

/-- The task that a worker holds. -/
def held : Worker Func Args → Option (ThreadPoolTask Func Args)
  | .running task => some task
  | _ => none

/-- Whether a worker is out of its loop. -/
def departed : Worker Func Args → Bool
  | .leaving | .left => true
  | _ => false

/-- Whether a worker still counts as started. -/
def counts : Worker Func Args → Bool
  | .left => false
  | _ => true

end Worker

/-- What a wake-up leaves as it is. -/
theorem Wakes.same_view {worker worker' : Worker Func Args} (wakes : Wakes worker worker') :
    worker'.held = worker.held ∧ worker'.departed = worker.departed ∧
      worker'.counts = worker.counts := by
  cases wakes <;> exact ⟨rfl, rfl, rfl⟩

theorem wakes_wake (worker : Worker Func Args) : Wakes worker worker.wake := by
  cases worker with
  | parked => exact .woken
  | locking | testing | woken | running | leaving | left => exact .same _

/-- A broadcast wakes as every wake-up does. -/
theorem forall₂_wake (workers : List (Worker Func Args)) :
    List.Forall₂ Wakes workers (workers.map Worker.wake) := by
  rw [List.forall₂_map_right_iff, List.forall₂_same]
  exact fun worker _ => wakes_wake worker

section Wakeups

variable {workers workers' : List (Worker Func Args)}

theorem held_of_wakes (wakes : List.Forall₂ Wakes workers workers') :
    workers'.filterMap Worker.held = workers.filterMap Worker.held := by
  induction wakes with
  | nil => rfl
  | cons first _ ih => rw [List.filterMap_cons, List.filterMap_cons, first.same_view.1, ih]

theorem counts_of_wakes (wakes : List.Forall₂ Wakes workers workers') :
    workers'.countP Worker.counts = workers.countP Worker.counts := by
  induction wakes with
  | nil => rfl
  | cons first _ ih => rw [List.countP_cons, List.countP_cons, first.same_view.2.2, ih]

theorem departed_of_wakes (wakes : List.Forall₂ Wakes workers workers') :
    workers'.any Worker.departed = workers.any Worker.departed := by
  induction wakes with
  | nil => rfl
  | cons first _ ih => rw [List.any_cons, List.any_cons, first.same_view.2.1, ih]

end Wakeups

/-! ## Tasks in progress -/

/-- The tasks taken are the tasks executed and the tasks held. -/
def Performed (system : System Func Args) : Prop :=
  (system.executed ++ system.workers.filterMap Worker.held).Perm system.dequeued

/-- **No task is lost between the queue and its execution.** -/
theorem performed {system : System Func Args} (reachable : (machine Func Args).Reachable system) :
    Performed system := by
  refine reachable.induction Performed ?_ ?_
  · rintro _ ⟨pool, numThreads, queueSize, rfl⟩
    exact .nil
  · intro system next _ performed step
    unfold Performed at performed ⊢
    cases step with
    | spawn => simpa [List.filterMap_cons, Worker.held] using performed
    | lock stands waits =>
        rcases waits with rfl | rfl <;>
          simpa [stands, List.filterMap_cons, Worker.held] using performed
    | park stands | leave stands | exit stands | wake stands =>
        simpa [stands, List.filterMap_cons, Worker.held] using performed
    | take stands =>
        simp only [stands, List.filterMap_append, List.filterMap_cons, Worker.held] at performed ⊢
        rw [← List.append_assoc] at performed ⊢
        exact List.perm_middle.trans ((performed.cons _).trans (List.perm_append_singleton _ _).symm)
    | execute stands =>
        simp only [stands, List.filterMap_append, List.filterMap_cons, Worker.held] at performed ⊢
        rw [List.append_assoc, List.singleton_append]
        exact .trans (.append_left _ List.perm_middle.symm) performed
    | signal owns signals =>
        rw [held_of_wakes signals.1]
        exact performed
    | broadcast =>
        rw [held_of_wakes (forall₂_wake _)]
        exact performed
    | add | reject | destroy | free => exact performed

/-! ## Threads that have left -/

/-- A step keeps `started_` the number of workers that have not left. -/
theorem started_step {system next : System Func Args}
    (counted : system.pool.started = system.workers.countP Worker.counts)
    (step : Step system next) : next.pool.started = next.workers.countP Worker.counts := by
  cases step with
  | spawn => simp [ThreadPool.countThread, List.countP_cons, Worker.counts, counted]
  | lock stands waits =>
      rcases waits with rfl | rfl <;> simpa [stands, List.countP_cons, Worker.counts] using counted
  | park stands | leave stands | execute stands | wake stands =>
      simpa [stands, List.countP_cons, Worker.counts] using counted
  | take stands => simpa [stands, List.countP_cons, Worker.counts, takeTask] using counted
  | exit stands =>
      simp [stands, List.countP_cons, Worker.counts, uncountThread] at counted ⊢
      omega
  | signal owns signals =>
      rw [counts_of_wakes signals.1]
      exact counted
  | broadcast =>
      rw [counts_of_wakes (forall₂_wake _)]
      exact counted
  | add args func | reject args func =>
      rw [← counted]
      exact (system.pool.threadPoolAdd_frame args func).2
  | destroy option =>
      rw [← counted]
      exact system.pool.threadPoolDestory_started option
  | free => exact counted

/-- `started_` is the number of workers that have not left. -/
theorem startedCounts {system : System Func Args}
    (reachable : (machine Func Args).Reachable system) :
    system.pool.started = system.workers.countP Worker.counts := by
  refine reachable.induction
    (fun system => system.pool.started = system.workers.countP Worker.counts) ?_ ?_
  · rintro _ ⟨pool, numThreads, queueSize, rfl⟩
    rfl
  · intro system next _ counted step
    exact started_step counted step

/-- What workers that are out of their loop left for still holds. -/
def Departs (system : System Func Args) : Prop :=
  system.workers.any Worker.departed = true → system.pool.mustLeave = true

theorem shutdown_of_mustLeave {pool : ThreadPool Func Args} (leaves : pool.mustLeave = true) :
    pool.shutdown ≠ 0 := by
  simp only [mustLeave, decide_eq_true_eq] at leaves
  rcases leaves with immediate | ⟨graceful, -⟩
  · exact immediate ▸ ShutdownOption.value_ne_zero _
  · exact graceful ▸ ShutdownOption.value_ne_zero _

theorem shutdown_of_accepts {pool : ThreadPool Func Args} {args : Option Args}
    {func : Option Func} (accepts : (pool.threadPoolAdd args func).1 = 0) : pool.shutdown = 0 := by
  unfold threadPoolAdd at accepts
  split at accepts
  · cases accepts
  · split at accepts
    · cases accepts
    · rename_i shut
      simpa using shut

/-- **No worker leaves without a reason**, and the reason does not go away. -/
theorem departs {system : System Func Args} (reachable : (machine Func Args).Reachable system) :
    Departs system := by
  refine reachable.induction Departs ?_ ?_
  · rintro _ ⟨pool, numThreads, queueSize, rfl⟩
    exact fun none => by cases none
  · intro system next _ departs step
    unfold Departs at departs ⊢
    cases step with
    | spawn => simpa [Worker.departed] using departs
    | lock stands waits =>
        rcases waits with rfl | rfl <;> simpa [stands, Worker.departed] using departs
    | park stands | execute stands | exit stands | wake stands =>
        simpa [stands, Worker.departed] using departs
    | leave stands owns goesOn leaves => exact fun _ => leaves
    | take stands owns goesOn stays =>
        intro departed
        simp only [stands, List.any_append, List.any_cons, Worker.departed, Bool.false_or]
          at departs departed
        rw [departs departed] at stays
        cases stays
    | add args func created free accepts =>
        intro departed
        exact absurd (shutdown_of_accepts accepts) (shutdown_of_mustLeave (departs departed))
    | reject args func created free rejects =>
        rw [threadPoolAdd_rejects rejects]
        exact departs
    | signal owns signals =>
        rw [departed_of_wakes signals.1]
        exact departs
    | destroy option =>
        intro departed
        have shut := shutdown_of_mustLeave (departs departed)
        simp only [threadPoolDestory, if_pos shut]
        exact departs departed
    | broadcast =>
        rw [departed_of_wakes (forall₂_wake _)]
        exact departs
    | free => exact departs

/-! ## Creation -/

/-- The pool has workers, or is still being created and not in use. -/
structure Manned (system : System Func Args) : Prop where
  manned : system.workers ≠ [] ∨ system.toCreate ≠ 0
  unused : system.toCreate ≠ 0 →
    system.pool.shutdown = 0 ∧ system.mutex ≠ some .adder ∧ system.accepted = []

theorem manned {system : System Func Args} (reachable : (machine Func Args).Reachable system) :
    Manned system := by
  refine reachable.induction Manned ?_ ?_
  · rintro _ ⟨pool, numThreads, queueSize, rfl⟩
    refine ⟨.inr ?_, fun _ => ⟨rfl, nofun, rfl⟩⟩
    show (checkedSizes numThreads queueSize).1.toNat ≠ 0
    unfold checkedSizes
    split
    · decide
    · rename_i inside
      simp only [not_or, not_le] at inside
      omega
  · rintro system next _ ⟨manned, unused⟩ step
    cases step with
    | spawn creating =>
        exact ⟨.inl (by simp), fun _ => unused (by omega)⟩
    | lock | take | park | exit =>
        exact ⟨.inl (by simp), fun creating => ⟨(unused creating).1, nofun, (unused creating).2.2⟩⟩
    | leave | execute | wake => exact ⟨.inl (by simp), unused⟩
    | add args func created | destroy option created =>
        exact ⟨manned, fun creating => absurd created creating⟩
    | reject args func created => exact ⟨manned, fun creating => absurd created creating⟩
    | @signal workers owns signals =>
        refine ⟨manned.imp_left ?_, fun creating =>
          ⟨(unused creating).1, nofun, (unused creating).2.2⟩⟩
        rintro some (rfl : workers = [])
        exact some (List.forall₂_nil_right_iff.1 signals.1)
    | broadcast =>
        exact ⟨manned.imp_left (by simp), fun creating =>
          ⟨(unused creating).1, nofun, (unused creating).2.2⟩⟩
    | free =>
        exact ⟨manned, fun creating => ⟨(unused creating).1, nofun, (unused creating).2.2⟩⟩

/-! ## Runs after the flag is set -/

/-- **Once the flag is set it stays, and no task is accepted.** After an immediate
shutdown no task is taken either. -/
theorem shutdown_run {system later : System Func Args}
    (run : Relation.ReflTransGen Step system later) (shut : system.pool.shutdown ≠ 0) :
    later.pool.shutdown = system.pool.shutdown ∧ later.accepted = system.accepted ∧
      (system.pool.shutdown = ShutdownOption.immediateShutdown.value →
        later.dequeued = system.dequeued) := by
  induction run with
  | refl => exact ⟨rfl, rfl, fun _ => rfl⟩
  | @tail middle last _ step ih =>
      obtain ⟨flag, accepted, dequeued⟩ := ih
      have flag' : last.pool.shutdown = middle.pool.shutdown := by
        rcases step.shutdown_effect with same | ⟨unset, -⟩
        · exact same
        · exact absurd (flag.symm.trans unset) shut
      rcases step.queue_effect with ⟨-, accepted', dequeued'⟩ | ⟨args, func, accepts, -⟩ |
        ⟨-, stays, -, accepted', -⟩
      · exact ⟨flag'.trans flag, accepted'.trans accepted,
          fun immediate => dequeued'.trans (dequeued immediate)⟩
      · exact absurd (flag.symm.trans (shutdown_of_accepts accepts)) shut
      · refine ⟨flag'.trans flag, accepted'.trans accepted, fun immediate => ?_⟩
        simp only [mustLeave, decide_eq_false_iff_not, not_or] at stays
        exact absurd (flag.trans immediate) stays.1

/-- **A graceful shutdown drains the queue.** When no worker counts as started any
more, all have left, the queue is empty, and every accepted task was executed
exactly once. From the time the flag is set no task is accepted, and after an
immediate shutdown none is taken. -/
theorem shutdown_drains {system : System Func Args}
    (reachable : (machine Func Args).Reachable system) :
    (system.pool.shutdown = ShutdownOption.gracefulShutdown.value → system.pool.started = 0 →
      (∀ worker ∈ system.workers, worker = .left) ∧ system.pool.count = 0 ∧
        system.executed.Perm system.accepted) ∧
      ∀ later, Relation.ReflTransGen Step system later →
        (system.pool.shutdown ≠ 0 → later.accepted = system.accepted) ∧
        (system.pool.shutdown = ShutdownOption.immediateShutdown.value →
          later.dequeued = system.dequeued) := by
  constructor
  · intro graceful finished
    have none : ∀ worker ∈ system.workers, worker = .left := by
      have counted := startedCounts reachable
      rw [finished, eq_comm, Int.natCast_eq_zero, List.countP_eq_zero] at counted
      intro worker member
      have gone := counted worker member
      cases worker with
      | left => rfl
      | locking | testing | parked | woken | running | leaving => exact absurd rfl gone
    obtain ⟨staffed, unused⟩ := manned reachable
    have nonempty : system.workers ≠ [] := by
      refine staffed.resolve_right fun creating => ?_
      rw [(unused creating).1] at graceful
      cases graceful
    obtain ⟨worker, member⟩ := List.exists_mem_of_ne_nil _ nonempty
    have leaves := departs reachable
      (List.any_eq_true.2 ⟨worker, member, by rw [none worker member]; rfl⟩)
    have empty : system.pool.count = 0 := by
      simp only [mustLeave, graceful, decide_eq_true_eq] at leaves
      exact (leaves.resolve_left (by decide)).2
    obtain ⟨ring, represents, order⟩ := queued reachable
    have drained : system.accepted = system.dequeued := by
      rw [order, ← represents.tasks, tasks, empty]
      simp
    have held : system.workers.filterMap Worker.held = [] :=
      List.filterMap_eq_nil_iff.2 fun worker member => by rw [none worker member]; rfl
    have performed := performed reachable
    rw [Performed, held, List.append_nil, ← drained] at performed
    exact ⟨none, empty, performed⟩
  · intro later run
    refine ⟨fun shut => (shutdown_run run shut).2.1, fun immediate => ?_⟩
    exact (shutdown_run run (immediate ▸ ShutdownOption.value_ne_zero _)).2.2 immediate

/-- The one task was executed before the worker left. -/
theorem oneTask_drains :
    (∀ worker ∈ oneTaskDrained.workers, worker = .left) ∧ oneTaskDrained.pool.count = 0 ∧
      oneTaskDrained.executed.Perm oneTaskDrained.accepted :=
  (shutdown_drains oneTaskDrained_reachable).1 rfl rfl

end ThreadPool

end FastWebServer
