import FastWebServer.Library.CxxString

/-!
# Arrays of a fixed size

An array has as many elements as its type says. A copy into it is defined where it stays inside, and
then the elements before it are kept and the copied ones stand behind them (`copy_inside`).
-/

set_option autoImplicit false

namespace Cxx

universe u

/-- An array of `size` elements. -/
structure FixedArray (Element : Type u) (size : ℕ) where
  elements : List Element
  sized : elements.length = size

namespace FixedArray

variable {Element : Type u} {size : ℕ}

/-- An array with one value in all places. -/
def filled (size : ℕ) (value : Element) : FixedArray Element size :=
  ⟨List.replicate size value, List.length_replicate⟩

/-- The array with `source` copied to its elements from `start` on. -/
def copy (array : FixedArray Element size) (start : ℕ) (source : List Element) :
    Except Fault (FixedArray Element size) :=
  if inside : start + source.length ≤ size then
    .ok {
      elements := array.elements.take start ++ source ++ array.elements.drop (start + source.length)
      sized := by
        rw [List.length_append, List.length_append, List.length_take, List.length_drop, array.sized]
        omega }
  else .error .undefinedBehaviour

/-- **A copy that stays inside** is behind the elements before it. -/
theorem copy_inside (array : FixedArray Element size) {start : ℕ} {source : List Element}
    (inside : start + source.length ≤ size) :
    ∃ copied, array.copy start source = .ok copied ∧
      ∀ count ≤ source.length, copied.elements.take (start + count) =
        array.elements.take start ++ source.take count := by
  refine ⟨_, dif_pos inside, ?_⟩
  intro count short
  have front : (array.elements.take start).length = start := by
    rw [List.length_take, array.sized]
    omega
  have whole : (array.elements.take start ++ source).length = start + source.length := by
    rw [List.length_append, front]
  show (array.elements.take start ++ source ++ _).take (start + count) = _
  rw [List.take_append_of_le_length (by omega), List.take_append, front,
    List.take_of_length_le (by omega), Nat.add_sub_cancel_left]

end FixedArray

end Cxx
