import Mathlib.Logic.Function.Basic

/-!
# Byte memory

Memory as seen from a pointer: the byte at each offset.  `fill` overwrites a
range of it; ranges written one after the other make one range.
-/

namespace SecondScreen.Machine

/-- Memory seen from a pointer. -/
abbrev Bytes := Nat → UInt8

namespace Bytes

/-- The same memory, seen from a pointer that is `k` bytes further on. -/
def advance (m : Bytes) (k : Nat) : Bytes := fun n ↦ m (k + n)

/-- Overwrite `n` bytes from offset `base` with the first `n` bytes of `f`. -/
def fill (m : Bytes) (base n : Nat) (f : Bytes) : Bytes := fun k ↦
  if base ≤ k ∧ k < base + n then f (k - base) else m k

variable {m f g : Bytes} {base n k : Nat}

@[simp] theorem fill_zero (m : Bytes) (base : Nat) (f : Bytes) : m.fill base 0 f = m := by
  funext k
  exact if_neg fun h ↦ by omega

/-- Only the bytes that are written matter. -/
theorem fill_congr (h : ∀ k < n, f k = g k) : m.fill base n f = m.fill base n g := by
  funext k
  simp only [fill]
  split
  · next hk => exact h _ (by omega)
  · rfl

/-- Two adjacent ranges make one. -/
theorem fill_fill (h : ∀ j < k, g j = f (n + j)) :
    (m.fill base n f).fill (base + n) k g = m.fill base (n + k) f := by
  funext j
  simp only [fill]
  by_cases hj : base + n ≤ j ∧ j < base + n + k
  · rw [if_pos hj, if_pos ⟨by omega, by omega⟩, h _ (by omega)]
    congr 1
    omega
  · rw [if_neg hj]
    by_cases hj' : base ≤ j ∧ j < base + n
    · rw [if_pos hj', if_pos ⟨hj'.1, by omega⟩]
    · rw [if_neg hj', if_neg fun h ↦ by omega]

end Bytes

end SecondScreen.Machine
