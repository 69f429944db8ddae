import FastWebServer.ThreadPool.Wakeups

/-!
# The joins of a shutdown

After its broadcast `thread_pool_destory` joins every worker, so it returns only if
all of them leave. The lock is held by a worker exactly while that worker stands
between its lock and its unlock (`seated`), a caller that accepts a task no longer
comes in, and every other step brings some worker closer to its end
(`System.rank_lt`).

So the workers stop only when all have left: after an immediate shutdown the tasks
that were taken have been executed and the others stay in the queue, after a
graceful one every task has been executed (`joins_return`). The exception is a
second call of `thread_pool_destory`: it returns with the lock, and from then on no
worker that is still there leaves.
-/

set_option autoImplicit false

namespace FastWebServer

namespace ThreadPool

variable {Func Args : Type}

/-! ## Who holds the lock -/

/-- Whether a worker stands between its lock and its unlock. -/
def Worker.locked : Worker Func Args → Bool
  | .testing | .leaving => true
  | _ => false

/-- The worker that holds the lock is the one that stands behind its lock. -/
def Seated (system : System Func Args) : Prop :=
  ∀ position, (system.workers.map Worker.locked)[position]? = some true ↔
    system.mutex = some (.worker position)

theorem locked_of_wakes {workers workers' : List (Worker Func Args)}
    (wakes : List.Forall₂ Wakes workers workers') :
    workers'.map Worker.locked = workers.map Worker.locked := by
  induction wakes with
  | nil => rfl
  | cons first _ ih =>
      rw [List.map_cons, List.map_cons, ih]
      cases first <;> rfl

/-- Where a worker stands changes nothing for the others. -/
theorem locked_replace {before after : List (Worker Func Args)} (worker worker' : Worker Func Args)
    (position : ℕ) :
    ((before ++ worker' :: after).map Worker.locked)[position]? = some true ↔
      (position = before.length ∧ worker'.locked = true) ∨
        (position ≠ before.length ∧
          ((before ++ worker :: after).map Worker.locked)[position]? = some true) := by
  by_cases own : position = before.length
  · subst own
    simp
  · have replaced : before ++ worker' :: after =
        (before ++ worker :: after).set before.length worker' := by simp
    rw [replaced, List.getElem?_map, List.getElem?_map, List.getElem?_set_ne (Ne.symm own)]
    simp [own]

variable {system next : System Func Args}

/-- A worker takes the free lock. -/
theorem Seated.lock (seated : Seated system) {before after : List (Worker Func Args)}
    {worker worker' : Worker Func Args} (stands : system.workers = before ++ worker :: after)
    (free : system.mutex = none) (locks : worker'.locked = true)
    (workers : next.workers = before ++ worker' :: after)
    (mutex : next.mutex = some (.worker before.length)) : Seated next := by
  intro position
  have earlier := seated position
  rw [stands, free] at earlier
  rw [workers, mutex, locked_replace worker, earlier]
  simp [locks, eq_comm]

/-- The worker that holds the lock gives it back. -/
theorem Seated.unlock (seated : Seated system) {before after : List (Worker Func Args)}
    {worker worker' : Worker Func Args} (stands : system.workers = before ++ worker :: after)
    (owns : system.mutex = some (.worker before.length)) (unlocks : worker'.locked = false)
    (workers : next.workers = before ++ worker' :: after) (mutex : next.mutex = none) :
    Seated next := by
  intro position
  have earlier := seated position
  rw [stands, owns] at earlier
  rw [workers, mutex, locked_replace worker, earlier]
  simp [unlocks, eq_comm]

/-- A worker that stays on its side of the lock. -/
theorem Seated.stay (seated : Seated system)
    (workers : next.workers.map Worker.locked = system.workers.map Worker.locked)
    (mutex : ∀ position, next.mutex = some (.worker position) ↔
      system.mutex = some (.worker position)) : Seated next := by
  intro position
  rw [workers, mutex]
  exact seated position

/-- **The lock is held by the worker behind its lock.** -/
theorem seated (reachable : (machine Func Args).Reachable system) : Seated system := by
  refine reachable.induction Seated ?_ ?_
  · rintro _ ⟨pool, numThreads, queueSize, rfl⟩ position
    simp [System.create]
  · intro system next _ seated step
    cases step with
    | spawn =>
        intro position
        rw [← seated position, List.map_append, List.getElem?_append]
        split
        · rfl
        · rename_i outside
          rw [List.getElem?_eq_none (Nat.le_of_not_lt outside)]
          cases position - (system.workers.map Worker.locked).length <;> simp [Worker.locked]
    | lock stands waits free => exact seated.lock stands free rfl rfl rfl
    | park stands owns => exact seated.unlock stands owns rfl rfl rfl
    | take stands owns => exact seated.unlock stands owns rfl rfl rfl
    | exit stands owns => exact seated.unlock stands owns rfl rfl rfl
    | leave stands => exact seated.stay (by simp [stands, Worker.locked]) fun _ => Iff.rfl
    | execute stands => exact seated.stay (by simp [stands, Worker.locked]) fun _ => Iff.rfl
    | wake stands => exact seated.stay (by simp [stands, Worker.locked]) fun _ => Iff.rfl
    | add args func created free => exact seated.stay rfl (by simp [free])
    | reject => exact seated
    | signal owns signals => exact seated.stay (locked_of_wakes signals.1) (by simp [owns])
    | destroy option created free =>
        refine seated.stay rfl fun position => ?_
        rw [free]
        split <;> simp
    | broadcast owns => exact seated.stay (locked_of_wakes (forall₂_wake _)) (by simp [owns])
    | free _ _ free => exact seated.stay rfl (by simp [free])

/-! ## After the broadcast -/

/-- **After the broadcast no caller is about to wake a worker**, and the pool is complete. -/
theorem settled (reachable : (machine Func Args).Reachable system)
    (broadcasted : system.broadcasted = true) :
    system.toCreate = 0 ∧ system.mutex ≠ some .adder ∧ system.mutex ≠ some .destroyer := by
  refine ⟨?_, ?_⟩
  · by_contra creating
    exact (unparked reachable).flagged broadcasted ((manned reachable).unused creating).1
  · revert broadcasted
    refine reachable.induction (fun system => system.broadcasted = true →
      system.mutex ≠ some .adder ∧ system.mutex ≠ some .destroyer) ?_ ?_
    · rintro _ ⟨pool, numThreads, queueSize, rfl⟩ broadcasted
      cases broadcasted
    · intro system next earlier settled step broadcasted
      cases step with
      | spawn | leave | execute | wake | reject => exact settled broadcasted
      | lock | park | take | exit | signal | broadcast | free => exact ⟨nofun, nofun⟩
      | add args func created free accepts =>
          exact absurd (shutdown_of_accepts accepts) ((unparked earlier).flagged broadcasted)
      | destroy option =>
          have refused : (system.pool.threadPoolDestory option).1 = false := by
            rw [threadPoolDestory, if_pos ((unparked earlier).flagged broadcasted)]
          simp [refused]

/-- How far a worker is from its end, between two tasks. -/
def Worker.rank : Worker Func Args → ℕ
  | .left => 0
  | .leaving => 1
  | .testing => 2
  | .locking | .woken => 3
  | .parked | .running _ => 4

/-- How many steps the workers can still take, at most. -/
def System.rank (system : System Func Args) : ℕ :=
  (system.workers.map Worker.rank).sum + 3 * system.pool.count.toNat

/-- A step that changes something, and does not leave the lock to nobody. -/
def Goes (system next : System Func Args) : Prop :=
  Step system next ∧ next ≠ system ∧ next.mutex ≠ some .nobody

theorem broadcasted_step (step : Step system next) (broadcasted : system.broadcasted = true) :
    next.broadcasted = true := by
  cases step with
  | broadcast => rfl
  | spawn | lock | park | leave | take | execute | exit | wake | add | reject | signal | destroy
  | free => exact broadcasted

/-- **After the broadcast every step brings the workers closer to their end.** -/
theorem Goes.rank_lt (reachable : (machine Func Args).Reachable system)
    (broadcasted : system.broadcasted = true) (goes : Goes system next) :
    next.rank < system.rank := by
  obtain ⟨step, changes, lockable⟩ := goes
  obtain ⟨created, notAdding, notFlagging⟩ := settled reachable broadcasted
  have shut := (unparked reachable).flagged broadcasted
  cases step with
  | spawn creating => omega
  | lock stands waits =>
      rcases waits with rfl | rfl <;> simp [System.rank, stands, Worker.rank]
  | park stands owns waits =>
      simp only [mustWait, decide_eq_true_eq] at waits
      exact absurd waits.2 shut
  | leave stands | exit stands =>
      simp [System.rank, stands, Worker.rank, uncountThread]
  | take stands owns goesOn stays =>
      obtain ⟨ring, represents, -⟩ := queued reachable
      have found := count_ne_zero_of_goesOn (flagValid reachable) goesOn stays
      have count := represents.count
      simp only [System.rank, stands, Worker.rank, takeTask, List.map_append, List.map_cons,
        List.sum_append, List.sum_cons]
      omega
  | execute stands => simp [System.rank, stands, Worker.rank]
  | wake stands => simp [System.rank, stands, Worker.rank]
  | add args func created free accepts => exact absurd (shutdown_of_accepts accepts) shut
  | reject args func created free rejects =>
      rw [threadPoolAdd_rejects rejects] at changes
      exact absurd rfl changes
  | signal owns => exact absurd owns notAdding
  | destroy option =>
      rw [threadPoolDestory, if_pos shut] at lockable
      exact absurd rfl lockable
  | broadcast owns => exact absurd owns notFlagging
  | free => exact absurd rfl lockable

/-- Where one worker stands elsewhere, something has changed. -/
theorem ne_of_replaced {before after : List (Worker Func Args)} {worker worker' : Worker Func Args}
    (stands : system.workers = before ++ worker :: after)
    (workers : next.workers = before ++ worker' :: after) (moves : worker' ≠ worker) :
    next ≠ system := by
  intro same
  rw [same, stands] at workers
  simp only [List.append_cancel_left_eq, List.cons.injEq, and_true] at workers
  exact moves workers.symm

/-- A worker that stands behind its lock. -/
theorem Seated.holder (seated : Seated system) {position : ℕ}
    (owns : system.mutex = some (.worker position)) :
    ∃ before worker after, system.workers = before ++ worker :: after ∧
      position = before.length ∧ worker.locked = true := by
  have there := (seated position).mpr owns
  rw [List.getElem?_map, Option.map_eq_some_iff] at there
  obtain ⟨worker, found, locks⟩ := there
  obtain ⟨inside, rfl⟩ := List.getElem?_eq_some_iff.mp found
  refine ⟨system.workers.take position, _, system.workers.drop (position + 1), ?_, ?_, locks⟩
  · rw [← List.drop_eq_getElem_cons, List.take_append_drop]
  · rw [List.length_take, min_eq_left inside.le]

/-- **The workers stop only when all have left.** -/
theorem goes (reachable : (machine Func Args).Reachable system)
    (broadcasted : system.broadcasted = true) (lockable : system.mutex ≠ some .nobody)
    {worker : Worker Func Args} (member : worker ∈ system.workers) (stays : worker ≠ .left) :
    ∃ next, Goes system next := by
  have seated := seated reachable
  obtain ⟨-, notAdding, notFlagging⟩ := settled reachable broadcasted
  have shut := (unparked reachable).flagged broadcasted
  have goesOn : system.pool.mustWait = false := by
    simp only [mustWait, decide_eq_false_iff_not, not_and]
    exact fun _ => shut
  cases owner : system.mutex with
  | none =>
      obtain ⟨before, after, stands⟩ := List.append_of_mem member
      have notLocked : worker.locked ≠ true := by
        intro locks
        have owns := (seated before.length).mp (by simp [stands, locks])
        rw [owner] at owns
        cases owns
      cases worker with
      | left => exact absurd rfl stays
      | testing | leaving => exact absurd rfl notLocked
      | parked => exact absurd rfl ((unparked reachable).unparked broadcasted _ member)
      | locking | woken =>
          exact ⟨_, .lock stands (by simp) owner, ne_of_replaced stands rfl (by simp), by simp⟩
      | running task =>
          exact ⟨_, .execute stands, ne_of_replaced stands rfl (by simp), by simp [owner]⟩
  | some holder =>
      cases holder with
      | adder => exact absurd owner notAdding
      | destroyer => exact absurd owner notFlagging
      | nobody => exact absurd owner lockable
      | worker position =>
          obtain ⟨before, worker, after, stands, rfl, locks⟩ := seated.holder owner
          cases worker with
          | testing =>
              cases leaves : system.pool.mustLeave with
              | true =>
                  exact ⟨_, .leave stands owner goesOn leaves, ne_of_replaced stands rfl (by simp),
                    by simp [owner]⟩
              | false =>
                  exact ⟨_, .take stands owner goesOn leaves, ne_of_replaced stands rfl (by simp),
                    by simp⟩
          | leaving =>
              exact ⟨_, .exit stands owner, ne_of_replaced stands rfl (by simp), by simp⟩
          | locking | parked | woken | running | left => cases locks

/-! ## Runs -/

theorem Goes.run {later : System Func Args} (run : Relation.ReflTransGen Goes system later) :
    Relation.ReflTransGen Step system later :=
  Relation.ReflTransGen.mono (fun _ _ (goes : Goes _ _) => goes.1) _ _ run

theorem broadcasted_run {later : System Func Args} (run : Relation.ReflTransGen Step system later)
    (broadcasted : system.broadcasted = true) : later.broadcasted = true := by
  induction run with
  | refl => exact broadcasted
  | tail _ step ih => exact broadcasted_step step ih

/-- No step leaves the lock to nobody but one that cannot go on. -/
theorem lockable_run {later : System Func Args} (run : Relation.ReflTransGen Goes system later)
    (lockable : system.mutex ≠ some .nobody) : later.mutex ≠ some .nobody := by
  cases run with
  | refl => exact lockable
  | tail _ goes => exact goes.2.2

/-- A lock that nobody gives back keeps the members as they are. -/
theorem blocked_run {later : System Func Args} (run : Relation.ReflTransGen Step system later)
    (created : system.toCreate = 0) (blocked : system.mutex = some .nobody) :
    later.toCreate = 0 ∧ later.mutex = some .nobody ∧ later.pool = system.pool := by
  induction run with
  | refl => exact ⟨created, blocked, rfl⟩
  | tail _ step ih =>
      obtain ⟨created, blocked, same⟩ := ih
      cases step with
      | spawn creating => rw [created] at creating; cases creating
      | execute | wake => exact ⟨created, blocked, same⟩
      | lock _ _ free | add _ _ _ free | reject _ _ _ free | destroy _ _ free
      | free _ _ free => rw [blocked] at free; cases free
      | park _ owns | leave _ owns | take _ owns | exit _ owns | signal owns | broadcast owns =>
          rw [blocked] at owns; cases owns

/-- Workers that count as started no more have left. -/
theorem left_iff (reachable : (machine Func Args).Reachable system) :
    (∀ worker ∈ system.workers, worker = .left) ↔ system.pool.started = 0 := by
  rw [startedCounts reachable, Int.natCast_eq_zero, List.countP_eq_zero]
  refine forall₂_congr fun worker _ => ?_
  cases worker <;> simp [Worker.counts]

/-- The tasks that were taken are the ones executed when all workers have left. -/
theorem executed_of_left (reachable : (machine Func Args).Reachable system)
    (gone : ∀ worker ∈ system.workers, worker = .left) : system.executed.Perm system.dequeued := by
  have held : system.workers.filterMap Worker.held = [] :=
    List.filterMap_eq_nil_iff.2 fun worker member => by rw [gone worker member]; rfl
  have performed := performed reachable
  rwa [Performed, held, List.append_nil] at performed

/-- All workers of a graceful shutdown have left an empty queue. -/
theorem tasks_of_left (reachable : (machine Func Args).Reachable system)
    (graceful : system.pool.shutdown = ShutdownOption.gracefulShutdown.value)
    (created : system.toCreate = 0) (gone : ∀ worker ∈ system.workers, worker = .left) :
    system.pool.tasks = [] := by
  obtain ⟨worker, member⟩ := List.exists_mem_of_ne_nil _
    ((manned reachable).manned.resolve_right (not_not_intro created))
  have leaves := departs reachable
    (List.any_eq_true.2 ⟨worker, member, by rw [gone worker member]; rfl⟩)
  simp only [mustLeave, graceful, decide_eq_true_eq] at leaves
  have empty := (leaves.resolve_left (by decide)).2
  simp [tasks, empty]

/-- After the broadcast a run of the workers is bounded by their rank. -/
theorem goes_bounded (reachable : (machine Func Args).Reachable system)
    (broadcasted : system.broadcasted = true) {run : List (System Func Args)}
    (steps : (system :: run).IsChain Goes) : run.length ≤ system.rank := by
  let Ready (system : System Func Args) : Prop :=
    (machine Func Args).Reachable system ∧ system.broadcasted = true
  have kept : ∀ state next, Ready state → Goes state next → Ready next :=
    fun state next ready goes => ⟨ready.1.step goes.1, broadcasted_step goes.1 ready.2⟩
  have lowers : ∀ state next, Ready state → Goes state next → next.rank < state.rank :=
    fun state next ready goes => goes.rank_lt ready.1 ready.2
  exact Runs.Machine.length_le_rank kept lowers ⟨reachable, broadcasted⟩ steps

/-- **A shutdown ends.** After the broadcast of `thread_pool_destory` the workers take a bounded
number of steps, however they and the calls that are refused take turns, and they stop only when
all have left, so the joins return. By then every task that was taken has been executed: those
taken before an immediate shutdown, all of them in a graceful one. If a second call has returned
with the lock, nothing of this holds: the members stay as they are, and the workers that are still
there stay. -/
theorem joins_return (reachable : (machine Func Args).Reachable system)
    (broadcasted : system.broadcasted = true) :
    (system.mutex ≠ some .nobody →
      (∀ run, (system :: run).IsChain Goes → run.length ≤ system.rank) ∧
        ∀ later, Relation.ReflTransGen Goes system later → (∀ next, ¬ Goes later next) →
          (∀ worker ∈ later.workers, worker = .left) ∧
            later.dequeued ++ later.pool.tasks = system.accepted ∧
            (system.pool.shutdown = ShutdownOption.immediateShutdown.value →
              later.executed.Perm system.dequeued) ∧
            (system.pool.shutdown = ShutdownOption.gracefulShutdown.value →
              later.executed.Perm system.accepted)) ∧
      (system.mutex = some .nobody → ∀ later, Relation.ReflTransGen Step system later →
        later.pool = system.pool ∧
          ((∀ worker ∈ later.workers, worker = .left) →
            ∀ worker ∈ system.workers, worker = .left)) := by
  obtain ⟨created, -⟩ := settled reachable broadcasted
  refine ⟨fun lockable => ⟨fun run steps => goes_bounded reachable broadcasted steps,
    fun later run stuck => ?_⟩, fun blocked later run => ?_⟩
  · have reached := reachable.run (Goes.run run)
    have flagged := broadcasted_run (Goes.run run) broadcasted
    obtain ⟨flag, accepted, dequeued⟩ :=
      shutdown_run (Goes.run run) ((unparked reachable).flagged broadcasted)
    have gone : ∀ worker ∈ later.workers, worker = .left := by
      intro worker member
      by_contra stays
      obtain ⟨next, goes⟩ := goes reached flagged (lockable_run run lockable) member stays
      exact stuck next goes
    have executed := executed_of_left reached gone
    obtain ⟨ring, represents, order⟩ := queued reached
    rw [← represents.tasks, accepted] at order
    refine ⟨gone, order.symm, fun immediate => dequeued immediate ▸ executed, fun graceful => ?_⟩
    have drained := tasks_of_left reached (flag.trans graceful) (settled reached flagged).1 gone
    rw [order, drained, List.append_nil]
    exact executed
  · have same := (blocked_run run created blocked).2.2
    refine ⟨same, fun gone => ?_⟩
    rw [left_iff (reachable.run run), same] at gone
    exact (left_iff reachable).mpr gone

/-- The pool of one thread whose immediate shutdown has found one task in the queue. -/
def oneTaskLeft : System ℕ ℕ :=
  { oneTask with
    pool := { oneTask.pool with shutdown := 1 }
    broadcasted := true }

/-- Its worker leaves after at most six steps, and the task stays in the queue. -/
theorem oneTaskLeft_returns :
    (∀ run, (oneTaskLeft :: run).IsChain Goes → run.length ≤ 6) ∧
      ∀ later, Relation.ReflTransGen Goes oneTaskLeft later → (∀ next, ¬ Goes later next) →
        later.dequeued ++ later.pool.tasks = [⟨some 7, some 3⟩] ∧ later.executed.Perm [] := by
  have reachable : (machine ℕ ℕ).Reachable oneTaskLeft :=
    (oneTask_reachable.step (.destroy .immediateShutdown rfl rfl)).step (.broadcast rfl)
  obtain ⟨bounded, ends⟩ := (joins_return reachable rfl).1 nofun
  refine ⟨bounded, fun later run stuck => ?_⟩
  obtain ⟨-, order, executed, -⟩ := ends later run stuck
  exact ⟨order, executed rfl⟩

end ThreadPool

end FastWebServer
