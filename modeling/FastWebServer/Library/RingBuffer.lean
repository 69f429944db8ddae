import Mathlib.Data.List.Basic
import Mathlib.Data.Nat.ModEq

/-!
# Ring buffers

A ring buffer is a list of slots with the position of its oldest element and the
number of its elements, which a structure keeps in bounds. Its content is a list
(`RingBuffer.toList`). A push appends to the content (`toList_push`) and a pop takes the
first element off (`toList_pop`), whatever is left in the slot that becomes free.

The slot behind the content is none of those the content is in while the buffer
is not full (`tail_free`), although the two positions are the same when it is
full, as they are when it is empty.
-/

set_option autoImplicit false

universe u

/-- A ring buffer. -/
structure RingBuffer (α : Type u) where
  slots : List α
  head : ℕ
  count : ℕ
  head_lt : head < slots.length
  count_le : count ≤ slots.length

namespace RingBuffer

variable {α : Type u} (ring : RingBuffer α)

/-- The position of the `k`-th slot from the head on. -/
def index (k : ℕ) : ℕ := (ring.head + k) % ring.slots.length

theorem index_lt (k : ℕ) : ring.index k < ring.slots.length :=
  Nat.mod_lt _ (Nat.zero_lt_of_lt ring.head_lt)

/-- The position behind the content. -/
def tail : ℕ := ring.index ring.count

/-- The content, oldest element first. -/
def toList : List α :=
  (List.range ring.count).map fun k => ring.slots.get ⟨ring.index k, ring.index_lt k⟩

variable {ring}

theorem index_zero : ring.index 0 = ring.head := Nat.mod_eq_of_lt ring.head_lt

theorem index_succ (k : ℕ) : ring.index (k + 1) = (ring.index k + 1) % ring.slots.length := by
  rw [index, index, Nat.mod_add_mod, Nat.add_assoc]

/-- Slots within one turn have different positions. -/
theorem index_injective {k l : ℕ} (small : k < ring.slots.length) (small' : l < ring.slots.length)
    (same : ring.index k = ring.index l) : k = l := by
  have congruent : k ≡ l [MOD ring.slots.length] := Nat.ModEq.add_left_cancel' ring.head same
  exact Nat.ModEq.eq_of_lt_of_lt congruent small small'

/-- **The slot behind the content is free** while the buffer is not full. -/
theorem tail_free (room : ring.count < ring.slots.length) {k : ℕ} (used : k < ring.count) :
    ring.index k ≠ ring.tail := fun same => by
  have equal := index_injective (used.trans room) room same
  omega

/-! ## Push -/

/-- The buffer with an element behind its content. -/
def push (ring : RingBuffer α) (x : α) (room : ring.count < ring.slots.length) : RingBuffer α where
  slots := ring.slots.set ring.tail x
  head := ring.head
  count := ring.count + 1
  head_lt := by simpa using ring.head_lt
  count_le := by
    rw [List.length_set]
    exact room

theorem index_push {x : α} (room : ring.count < ring.slots.length) (k : ℕ) :
    (ring.push x room).index k = ring.index k := by
  simp [index, push]

theorem tail_push {x : α} (room : ring.count < ring.slots.length) :
    (ring.push x room).tail = (ring.tail + 1) % ring.slots.length := by
  rw [tail, index_push room]
  exact index_succ ring.count

/-- **A push appends.** -/
theorem toList_push {x : α} (room : ring.count < ring.slots.length) :
    (ring.push x room).toList = ring.toList ++ [x] := by
  rw [toList, show (ring.push x room).count = ring.count + 1 from rfl, List.range_succ,
    List.map_append]
  congr 1
  · refine List.map_congr_left fun k used => ?_
    have other := tail_free room (List.mem_range.1 used)
    simp only [index_push room]
    simp [push, List.getElem_set_of_ne other.symm]
  · simp only [List.map_singleton, index_push room]
    simp [push, tail]

/-! ## Pop -/

/-- The oldest element. -/
def front (ring : RingBuffer α) : α := ring.slots.get ⟨ring.head, ring.head_lt⟩

/-- The buffer without its oldest element, in whose slot `blank` is left. -/
def pop (ring : RingBuffer α) (blank : α) : RingBuffer α where
  slots := ring.slots.set ring.head blank
  head := ring.index 1
  count := ring.count - 1
  head_lt := by simpa using ring.index_lt 1
  count_le := by
    have count_le := ring.count_le
    simp only [List.length_set]
    omega

theorem index_pop {blank : α} (k : ℕ) : (ring.pop blank).index k = ring.index (k + 1) := by
  simp only [index, pop, List.length_set, Nat.mod_add_mod, Nat.add_assoc, Nat.add_comm 1]

theorem tail_pop {blank : α} (nonempty : 0 < ring.count) : (ring.pop blank).tail = ring.tail := by
  rw [tail, index_pop, tail]
  exact congrArg ring.index (Nat.sub_add_cancel nonempty)

/-- **A pop takes the first element off.** -/
theorem toList_pop {blank : α} (nonempty : 0 < ring.count) :
    ring.toList = ring.front :: (ring.pop blank).toList := by
  obtain ⟨count, counted⟩ : ∃ count, ring.count = count + 1 :=
    ⟨_, (Nat.sub_add_cancel nonempty).symm⟩
  have count_le := ring.count_le
  have rest : (ring.pop blank).count = count := by simp [pop, counted]
  rw [toList, counted, List.range_succ_eq_map, List.map_cons, List.map_map, toList, rest]
  congr 1
  · simp [front, index_zero]
  · refine List.map_congr_left fun k used => ?_
    rw [List.mem_range] at used
    have other : ring.head ≠ ring.index (k + 1) := fun same => by
      rw [← index_zero] at same
      have equal := index_injective (by omega) (by omega) same
      omega
    simp only [Function.comp_apply, index_pop]
    simp [pop, List.getElem_set_of_ne other]

end RingBuffer
