import Mathlib.Data.List.Infix

/-!
# Sequences of operations

A component with operations that always answer. `after` is the state behind a sequence of them.

Where an invariant is kept by the operations that meet a condition, and lost for good by the others,
it holds behind every beginning of a sequence exactly when each of its operations meets the
condition (`holds_iff`).
-/

set_option autoImplicit false

namespace Operations

universe u v

variable {State : Type u} {Operation : Type v}

/-- The state behind a sequence of operations. -/
def after (apply : Operation → State → State) : List Operation → State → State
  | [], state => state
  | operation :: operations, state => after apply operations (apply operation state)

variable {apply : Operation → State → State}

/-- Every operation of a sequence meets a condition on the state it is applied to. -/
def Each (apply : Operation → State → State) (meets : Operation → State → Prop) :
    List Operation → State → Prop
  | [], _ => True
  | operation :: operations, state =>
      meets operation state ∧ Each apply meets operations (apply operation state)

/-- **The rule of the last good operation.** -/
theorem holds_iff {holds invariant : State → Prop} {meets : Operation → State → Prop}
    (sound : ∀ state, invariant state → holds state)
    (kept : ∀ operation state, invariant state → meets operation state →
      invariant (apply operation state))
    (lost : ∀ operation state, invariant state → ¬ meets operation state →
      ¬ holds (apply operation state))
    (operations : List Operation) {state : State} (initial : invariant state) :
    (∀ earlier, earlier <+: operations → holds (after apply earlier state)) ↔
      Each apply meets operations state := by
  induction operations generalizing state with
  | nil =>
      refine iff_of_true (fun earlier front => ?_) trivial
      rw [List.prefix_nil.mp front]
      exact sound state initial
  | cons operation operations ih =>
      by_cases met : meets operation state
      · rw [Each, ← ih (kept operation state initial met)]
        constructor
        · intro all
          exact ⟨met, fun earlier front =>
            all (operation :: earlier) (List.cons_prefix_cons.mpr ⟨rfl, front⟩)⟩
        · rintro ⟨-, all⟩ earlier front
          cases earlier with
          | nil => exact sound state initial
          | cons first earlier =>
              obtain ⟨rfl, later⟩ := List.cons_prefix_cons.mp front
              exact all earlier later
      · refine iff_of_false (fun all => ?_) (fun each => met each.1)
        exact lost operation state initial met (all [operation] (List.prefix_append [operation] _))

end Operations
