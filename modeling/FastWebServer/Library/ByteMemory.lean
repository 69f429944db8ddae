import Mathlib.Algebra.Order.Ring.Nat
import Mathlib.Data.Nat.ModEq
import Mathlib.Tactic.Ring

/-!
# Numbers in a byte memory

A memory is a byte for every address. A number is stored as a count of bytes,
least significant first, and loaded from a count of bytes. The two counts need
not be the same: what is loaded from the beginning of a stored number is the
number modulo the power of `256` that the load can hold (`load_store`).

A store changes only the bytes it covers (`store_outside`), and a load sees only
the bytes it covers (`load_congr`), so stores that overlap what is loaded only
behind it do not matter to it.
-/

set_option autoImplicit false

namespace Bytes

/-- The byte at every address. -/
abbrev Memory := ℕ → UInt8

/-- The memory after the first `count` bytes of `n` are copied to `address`. -/
def store (memory : Memory) (address count n : ℕ) : Memory := fun a =>
  if address ≤ a ∧ a < address + count then UInt8.ofNat (n / 256 ^ (a - address)) else memory a

/-- The number that the `count` bytes from `address` on spell. -/
def load (memory : Memory) (address : ℕ) : ℕ → ℕ
  | 0 => 0
  | count + 1 => (memory address).toNat + 256 * load memory (address + 1) count

/-! ## What a load sees -/

theorem load_congr {memory memory' : Memory} {address count : ℕ}
    (same : ∀ a, address ≤ a → a < address + count → memory a = memory' a) :
    load memory address count = load memory' address count := by
  induction count generalizing address with
  | zero => rfl
  | succ count ih =>
      have first : memory address = memory' address := same address (by omega) (by omega)
      have rest := @ih (address + 1) fun a lower upper => same a (by omega) (by omega)
      rw [load, load, first, rest]

theorem load_lt (memory : Memory) (address count : ℕ) :
    load memory address count < 256 ^ count := by
  induction count generalizing address with
  | zero => simp [load]
  | succ count ih =>
      have byte := (memory address).toNat_lt
      have rest := ih (address + 1)
      rw [load, pow_succ]
      omega

/-- A load of two parts: the second one is the higher. -/
theorem load_add (memory : Memory) (address count more : ℕ) :
    load memory address (count + more) =
      load memory address count + 256 ^ count * load memory (address + count) more := by
  induction count generalizing address with
  | zero => simp [load]
  | succ count ih =>
      rw [Nat.succ_add, load, load, ih, Nat.add_right_comm address, pow_succ',
        Nat.add_assoc address]
      ring

/-! ## What a store changes -/

theorem store_outside {memory : Memory} {address count n a : ℕ}
    (outside : a < address ∨ address + count ≤ a) : store memory address count n a = memory a :=
  if_neg fun inside => by omega

/-- A load inside a stored number takes its digits from there on. -/
theorem load_store_from {memory : Memory} {address count n : ℕ} (skip width : ℕ)
    (inside : skip + width ≤ count) :
    load (store memory address count n) (address + skip) width = n / 256 ^ skip % 256 ^ width := by
  induction width generalizing skip with
  | zero => simp [load, Nat.mod_one]
  | succ width ih =>
      have byte : (store memory address count n (address + skip)).toNat =
          n / 256 ^ skip % 256 := by
        rw [store, if_pos (by omega), Nat.add_sub_cancel_left]
        simp
      have rest := ih (skip + 1) (by omega)
      rw [← Nat.add_assoc] at rest
      rw [load, byte, rest, pow_succ' 256 width, Nat.mod_mul, Nat.div_div_eq_div_mul,
        pow_succ 256 skip]

/-- **What is loaded from the beginning of a stored number** is the number, as far
as the load can hold it. -/
theorem load_store {memory : Memory} {address count n width : ℕ} (inside : width ≤ count) :
    load (store memory address count n) address width = n % 256 ^ width := by
  simpa using load_store_from 0 width (by omega)

end Bytes
