import Mathlib.Data.List.Chain
import Mathlib.Logic.Relation

/-!
# Runs of a state machine

A machine is a set of start states and a step relation. A state is reachable
when some run leads to it from a start state, and an invariant is established
at the start and kept by every step from a reachable state
(`Machine.Reachable.induction`).

A run can also be given by the states it goes through. Where an invariant is kept by
every step that meets a condition, and lost for good by the others, a run keeps it
exactly when all its steps meet the condition (`Machine.IsRun.holds_iff`); such a run is
built step by step with `Machine.ComesTo`. Where every step lowers a rank, no run is
longer than the rank of its first state (`length_le_rank`).

A concrete machine refines an abstract one along a map of states when starts go
to starts and every step goes to a step or to nothing at all. The image of a
reachable state is then reachable (`Refines.reachable`), so what holds of every
run of the abstract machine is known of every run of the concrete one.

Where no map will do, a relation simulates when every step of the concrete machine is
matched by a run of the abstract one, and every reachable state is then related to a
reachable state (`Simulates.reachable`).
-/

set_option autoImplicit false

namespace Runs

universe u v

/-- A state machine. -/
structure Machine (State : Type u) where
  start : State → Prop
  step : State → State → Prop

namespace Machine

variable {State : Type u} (machine : Machine State)

/-- The states some run leads to. -/
def Reachable (state : State) : Prop :=
  ∃ first, machine.start first ∧ Relation.ReflTransGen machine.step first state

variable {machine}

theorem Reachable.start {state : State} (starts : machine.start state) :
    machine.Reachable state :=
  ⟨state, starts, .refl⟩

theorem Reachable.step {state next : State} (reachable : machine.Reachable state)
    (step : machine.step state next) : machine.Reachable next := by
  obtain ⟨first, starts, run⟩ := reachable
  exact ⟨first, starts, run.tail step⟩

/-- What a run leads to from a reachable state is reachable. -/
theorem Reachable.run {state later : State} (reachable : machine.Reachable state)
    (run : Relation.ReflTransGen machine.step state later) : machine.Reachable later := by
  obtain ⟨first, starts, earlier⟩ := reachable
  exact ⟨first, starts, earlier.trans run⟩

/-- **The invariant rule.** What holds at the start and is kept by every step
from a reachable state holds of every reachable state. -/
theorem Reachable.induction (holds : State → Prop)
    (atStart : ∀ state, machine.start state → holds state)
    (kept : ∀ state next, machine.Reachable state → holds state →
      machine.step state next → holds next)
    {state : State} (reachable : machine.Reachable state) : holds state := by
  obtain ⟨first, starts, run⟩ := reachable
  induction run with
  | refl => exact atStart first starts
  | tail earlier step ih => exact kept _ _ ⟨first, starts, earlier⟩ ih step

/-! ## Runs as lists of states -/

/-- The states of a run: a start state, and then one step after the other. -/
structure IsRun (machine : Machine State) (run : List State) : Prop where
  starts : ∀ first ∈ run.head?, machine.start first
  steps : run.IsChain machine.step

theorem holds_iff_of_invariant {holds invariant : State → Prop} {meets : State → State → Prop}
    (sound : ∀ state, invariant state → holds state)
    (kept : ∀ state next, invariant state → machine.step state next → meets state next →
      invariant next)
    (lost : ∀ state next, invariant state → machine.step state next → ¬ meets state next →
      ¬ holds next)
    {first : State} {rest : List State} (initial : invariant first)
    (steps : (first :: rest).IsChain machine.step) :
    (∀ state ∈ first :: rest, holds state) ↔ (first :: rest).IsChain meets := by
  induction rest generalizing first with
  | nil => simpa using sound first initial
  | cons next rest ih =>
      obtain ⟨step, later⟩ := List.isChain_cons_cons.mp steps
      rw [List.forall_mem_cons, List.isChain_cons_cons]
      by_cases met : meets first next
      · rw [ih (kept first next initial step met) later]
        exact and_congr (iff_of_true (sound first initial) met) Iff.rfl
      · exact iff_of_false
          (fun all => lost first next initial step met (all.2 next (List.mem_cons_self ..)))
          (fun all => met all.1)

/-- **The rule of the last good step.** An invariant that gives what should hold is
kept by the steps that meet a condition, and any other step ends in a state where it
does not hold. Then a run goes through good states only, exactly when each of its
steps meets the condition. -/
theorem IsRun.holds_iff {holds invariant : State → Prop} {meets : State → State → Prop}
    {run : List State} (isRun : machine.IsRun run)
    (atStart : ∀ state, machine.start state → invariant state)
    (sound : ∀ state, invariant state → holds state)
    (kept : ∀ state next, invariant state → machine.step state next → meets state next →
      invariant next)
    (lost : ∀ state next, invariant state → machine.step state next → ¬ meets state next →
      ¬ holds next) :
    (∀ state ∈ run, holds state) ↔ run.IsChain meets := by
  cases run with
  | nil => simp
  | cons first rest =>
      exact holds_iff_of_invariant sound kept lost (atStart first (isRun.starts first rfl))
        isRun.steps

/-- Some run leads to the state, and all its steps meet a condition. -/
def ComesTo (machine : Machine State) (meets : State → State → Prop) (last : State) : Prop :=
  ∃ earlier, machine.IsRun (earlier ++ [last]) ∧ (earlier ++ [last]).IsChain meets

theorem ComesTo.start {meets : State → State → Prop} {first : State}
    (starts : machine.start first) : machine.ComesTo meets first := by
  refine ⟨[], ⟨?_, .singleton _⟩, .singleton _⟩
  rintro _ ⟨⟩
  exact starts

theorem ComesTo.step {meets : State → State → Prop} {last next : State}
    (comes : machine.ComesTo meets last) (step : machine.step last next)
    (meet : meets last next) : machine.ComesTo meets next := by
  obtain ⟨earlier, isRun, chain⟩ := comes
  refine ⟨earlier ++ [last], ⟨fun first head => isRun.starts first ?_, ?_⟩, ?_⟩
  · rw [List.head?_append_of_ne_nil _ (by simp)] at head
    exact head
  · refine List.isChain_append.mpr ⟨isRun.steps, .singleton _, ?_⟩
    simpa using step
  · refine List.isChain_append.mpr ⟨chain, .singleton _, ?_⟩
    simpa using meet

/-- **The rank rule.** From a state with an invariant, steps that keep it and lower a
rank make a run no longer than the rank. -/
theorem length_le_rank {step : State → State → Prop} {invariant : State → Prop}
    {rank : State → ℕ}
    (kept : ∀ state next, invariant state → step state next → invariant next)
    (lowers : ∀ state next, invariant state → step state next → rank next < rank state)
    {first : State} {rest : List State} (initial : invariant first)
    (steps : (first :: rest).IsChain step) : rest.length ≤ rank first := by
  induction rest generalizing first with
  | nil => exact Nat.zero_le _
  | cons next rest ih =>
      obtain ⟨moved, later⟩ := List.isChain_cons_cons.mp steps
      have fewer := lowers first next initial moved
      have bounded := ih (kept first next initial moved) later
      rw [List.length_cons]
      omega

end Machine

/-- The concrete machine refines the abstract one along `view`. -/
structure Refines {Concrete : Type u} {Abstract : Type v} (concrete : Machine Concrete)
    (abstract : Machine Abstract) (view : Concrete → Abstract) : Prop where
  start : ∀ state, concrete.start state → abstract.start (view state)
  step : ∀ state next, concrete.Reachable state → concrete.step state next →
    view next = view state ∨ abstract.step (view state) (view next)

/-- **A refinement maps reachable states to reachable states.** -/
theorem Refines.reachable {Concrete : Type u} {Abstract : Type v} {concrete : Machine Concrete}
    {abstract : Machine Abstract} {view : Concrete → Abstract}
    (refines : Refines concrete abstract view) {state : Concrete}
    (reachable : concrete.Reachable state) : abstract.Reachable (view state) := by
  refine reachable.induction (fun state => abstract.Reachable (view state))
    (fun first starts => .start (refines.start first starts)) ?_
  intro state next earlier viewed step
  rcases refines.step state next earlier step with same | moved
  · rwa [same]
  · exact viewed.step moved

/-- The abstract machine follows the concrete one along a relation. -/
structure Simulates {Concrete : Type u} {Abstract : Type v} (concrete : Machine Concrete)
    (abstract : Machine Abstract) (related : Concrete → Abstract → Prop) : Prop where
  start : ∀ state, concrete.start state → ∃ image, abstract.start image ∧ related state image
  step : ∀ state next image, concrete.Reachable state → abstract.Reachable image →
    related state image → concrete.step state next →
      ∃ later, Relation.ReflTransGen abstract.step image later ∧ related next later

/-- **A simulation relates reachable states to reachable states.** -/
theorem Simulates.reachable {Concrete : Type u} {Abstract : Type v} {concrete : Machine Concrete}
    {abstract : Machine Abstract} {related : Concrete → Abstract → Prop}
    (simulates : Simulates concrete abstract related) {state : Concrete}
    (reachable : concrete.Reachable state) :
    ∃ image, abstract.Reachable image ∧ related state image := by
  refine reachable.induction
    (fun state => ∃ image, abstract.Reachable image ∧ related state image) ?_ ?_
  · intro first starts
    obtain ⟨image, begins, relates⟩ := simulates.start first starts
    exact ⟨image, .start begins, relates⟩
  · rintro state next earlier ⟨image, reached, relates⟩ step
    obtain ⟨later, run, follows⟩ := simulates.step state next image earlier reached relates step
    exact ⟨later, reached.run run, follows⟩

end Runs
