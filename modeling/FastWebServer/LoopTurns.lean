import Mathlib.Data.Int.CardIntervalMod
import FastWebServer.Server

/-!
# The turns of the loops

`get_next_loop` hands out the loops of the pool in turn. From any state of the pool, and after any
number of calls, no loop has been handed out for more than one connection above another: of `calls`
calls each loop gets `calls / num_threads_`, rounded down or up (`nextLoops_fair`).
-/

set_option autoImplicit false

namespace FastWebServer.EventLoopThreadPool

variable {LoopPtr : Type}

/-! ## Remainders -/

/-- Of `calls` numbers in a row, as many have a given remainder as the quotient says, or one
more. -/
theorem count_remainder {size turn start calls : ℕ} (inside : turn < size) :
    calls / size ≤ Nat.count (fun call => (start + call) % size = turn) calls ∧
      Nat.count (fun call => (start + call) % size = turn) calls ≤ (calls + size - 1) / size := by
  have positive : 0 < size := Nat.zero_lt_of_lt inside
  -- the first number that could have the remainder
  let first := turn + (size - start % size)
  have aligned : start + first ≡ turn [MOD size] := by
    have below := Nat.mod_lt start positive
    have split := Nat.div_add_mod start size
    have same : start + first = turn + size * (start / size + 1) := by
      rw [Nat.mul_succ]
      omega
    rw [same]
    exact Nat.add_mul_mod_self_left ..
  have shifts : ∀ call, (start + call) % size = turn ↔ call ≡ first [MOD size] := by
    intro call
    constructor
    · intro remains
      have congruent : start + call ≡ turn [MOD size] :=
        remains.trans (Nat.mod_eq_of_lt inside).symm
      exact Nat.ModEq.add_left_cancel' start (congruent.trans aligned.symm)
    · intro congruent
      have whole : start + call ≡ turn [MOD size] :=
        (Nat.ModEq.add_left start congruent).trans aligned
      exact Eq.trans whole (Nat.mod_eq_of_lt inside)
  have counted : Nat.count (fun call => (start + call) % size = turn) calls =
      calls / size + if first % size < calls % size then 1 else 0 := by
    rw [← Nat.count_modEq_card calls positive first]
    simp only [shifts]
  rw [counted]
  refine ⟨Nat.le_add_right .., ?_⟩
  split
  · rename_i left
    have whole := Nat.div_add_mod calls size
    have enough : size * (calls / size + 1) ≤ calls + size - 1 := by
      rw [Nat.mul_succ]
      omega
    exact (Nat.le_div_iff_mul_le positive).mpr (by rwa [Nat.mul_comm] at enough)
  · exact Nat.div_le_div_right (by omega)

/-! ## The calls -/

theorem length_nextLoops (pool : EventLoopThreadPool LoopPtr) (started : pool.started = true)
    (calls : ℕ) : (pool.nextLoops calls).length = calls := by
  induction calls generalizing pool with
  | zero => rfl
  | succ calls ih =>
      obtain ⟨⟨loop, later⟩, answers⟩ :=
        Option.isSome_iff_exists.mp (pool.getNextLoop_isSome started)
      rw [nextLoops, answers]
      exact congrArg (· + 1) (ih later (pool.started_getNextLoop answers))

variable [DecidableEq LoopPtr]

/-- The calls in which a loop is handed out are those whose number has the remainder of the loop's
place. -/
theorem count_nextLoops {pool : EventLoopThreadPool LoopPtr} (started : pool.started = true)
    (distinct : pool.loops.Nodup) {turn : ℕ} (inside : turn < pool.loops.length) (calls : ℕ) :
    (pool.nextLoops calls).count (pool.loops.get ⟨turn, inside⟩) =
      Nat.count (fun call => (pool.next + call) % pool.loops.length = turn) calls := by
  have positive : 0 < pool.loops.length := Nat.zero_lt_of_lt inside
  have nonempty : pool.loops ≠ [] := List.ne_nil_of_length_pos positive
  have listed : pool.nextLoops calls = (List.range calls).map fun call =>
      pool.loops.get ⟨(pool.next + call) % pool.loops.length, Nat.mod_lt _ positive⟩ := by
    refine List.ext_getElem? fun call => ?_
    by_cases called : call < calls
    · rw [pool.getElem?_nextLoops started nonempty called, List.getElem?_map,
        List.getElem?_range called, List.getElem?_eq_getElem (Nat.mod_lt _ positive)]
      rfl
    · have length := pool.length_nextLoops started calls
      rw [List.getElem?_eq_none (by omega), List.getElem?_eq_none (by simpa using called)]
  rw [listed, List.count, List.countP_map, Nat.count]
  refine List.countP_congr fun call _ => ?_
  simp only [Function.comp_apply, beq_iff_eq, decide_eq_true_eq, List.get_eq_getElem]
  exact distinct.getElem_inj_iff

/-- **Connections are spread evenly.** A started pool whose loops are distinct hands out each of
them in `calls / num_threads_` of any number of calls, rounded down or up, whatever calls came
before. -/
theorem nextLoops_fair {pool : EventLoopThreadPool LoopPtr} (started : pool.started = true)
    (distinct : pool.loops.Nodup) {loop : LoopPtr} (member : loop ∈ pool.loops) (calls : ℕ) :
    calls / pool.loops.length ≤ (pool.nextLoops calls).count loop ∧
      (pool.nextLoops calls).count loop ≤
        (calls + pool.loops.length - 1) / pool.loops.length := by
  obtain ⟨⟨turn, inside⟩, rfl⟩ := List.get_of_mem member
  rw [count_nextLoops started distinct inside]
  exact count_remainder inside

/-- Of five calls two loops get two or three each. -/
theorem twoLoops_fair :
    2 ≤ ((threadPoolCreate 0 [1, 2] Nat.two_pos).nextLoops 5).count 2 ∧
      ((threadPoolCreate 0 [1, 2] Nat.two_pos).nextLoops 5).count 2 ≤ 3 :=
  @nextLoops_fair ℕ _ (threadPoolCreate 0 [1, 2] Nat.two_pos) rfl (by decide) 2 (by decide) 5

end FastWebServer.EventLoopThreadPool
