import Mathlib.Data.Nat.Notation

/-!
# Buffers that drop what does not fit

A buffer of a fixed size is given one piece after the other. A piece asks for some room, more than
it fills, and is kept whole if there is that much room, and otherwise dropped. At any moment the
buffer can be emptied.

`kept` are the pieces in the buffer. However they come, they never fill it (`length_step_lt`).
-/

set_option autoImplicit false

namespace BoundedBuffer

universe u

variable {Letter : Type u}

/-- A text, with the room that it asks for. -/
structure Piece (Letter : Type u) where
  text : List Letter
  room : ℕ
  short : text.length < room

/-- What can be done to a buffer. -/
inductive Operation (Letter : Type u) where
  | put (piece : Piece Letter)
  | clear

/-- The text of some pieces. -/
def text (pieces : List (Piece Letter)) : List Letter := pieces.flatMap Piece.text

theorem text_concat (pieces : List (Piece Letter)) (piece : Piece Letter) :
    text (pieces ++ [piece]) = text pieces ++ piece.text := by
  unfold text
  rw [List.flatMap_append, List.flatMap_singleton]

/-- The pieces in the buffer after an operation. -/
def step (size : ℕ) (pieces : List (Piece Letter)) : Operation Letter → List (Piece Letter)
  | .put piece =>
      if (text pieces).length + piece.room ≤ size then pieces ++ [piece] else pieces
  | .clear => []

/-- The pieces that are kept of a sequence of operations. -/
def kept (size : ℕ) (operations : List (Operation Letter)) : List (Piece Letter) :=
  operations.foldl (step size) []

variable {size : ℕ}

/-- The text behind a piece that is put. -/
theorem text_step_put (pieces : List (Piece Letter)) (piece : Piece Letter) :
    text (step size pieces (.put piece)) =
      if (text pieces).length + piece.room ≤ size then text pieces ++ piece.text
      else text pieces := by
  simp only [step]
  split
  · exact text_concat pieces piece
  · rfl

/-- **A buffer is never full**: an operation leaves room. -/
theorem length_step_lt (positive : 0 < size) {pieces : List (Piece Letter)}
    (room : (text pieces).length < size) (operation : Operation Letter) :
    (text (step size pieces operation)).length < size := by
  cases operation with
  | clear => exact positive
  | put piece =>
      have short := piece.short
      rw [text_step_put]
      split
      · rw [List.length_append]
        omega
      · exact room

end BoundedBuffer
