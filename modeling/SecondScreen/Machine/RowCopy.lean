import Mathlib.Data.List.Basic

/-!
# Copying row by row

A `memcpy` between two buffers that fails outside them, and the loop that copies the rows
of a plane from one pitch to another.
-/

namespace SecondScreen.Machine

variable {α : Type}

/-- Copy `n` elements of `src` from index `start` on to index `base` of `dst`; `none` if
one of them is outside its buffer. -/
def memcpy (dst : List α) (base : Nat) (src : List α) (start n : Nat) : Option (List α) :=
  if base + n ≤ dst.length ∧ start + n ≤ src.length then
    some (dst.take base ++ (src.drop start).take n ++ dst.drop (base + n))
  else none

/-- Copy a plane: each of its rows has `width` elements, and they are `pitch` apart in `dst`
and `stride` apart in `src`. -/
def copyRows (dst : List α) (base pitch : Nat) (src : List α) (start stride width rows : Nat) :
    Option (List α) :=
  (List.range rows).foldlM
    (fun dst row ↦ memcpy dst (base + row * pitch) src (start + row * stride) width) dst

/-- The buffer after the copy of a plane. -/
structure RowsCopied (dst dst' : List α) (base pitch : Nat) (src : List α)
    (start stride width rows : Nat) : Prop where
  length : dst'.length = dst.length
  copied : ∀ row < rows, ∀ x < width,
    dst'[base + row * pitch + x]? = src[start + row * stride + x]?
  frame : ∀ k, k < base ∨ base + rows * pitch ≤ k → dst'[k]? = dst[k]?

variable {dst dst' src : List α} {base pitch start stride width rows n k : Nat}

theorem length_memcpy (h : memcpy dst base src start n = some dst') :
    dst'.length = dst.length := by
  unfold memcpy at h
  split_ifs at h with hin
  cases h
  simp only [List.length_append, List.length_take, List.length_drop]
  omega

/-- What was copied is there, and all else is as before. -/
theorem getElem?_memcpy (h : memcpy dst base src start n = some dst') (k : Nat) :
    dst'[k]? = if base ≤ k ∧ k < base + n then src[start + (k - base)]? else dst[k]? := by
  unfold memcpy at h
  split_ifs at h with hin
  cases h
  have htake : (dst.take base).length = base := by
    rw [List.length_take]
    omega
  have hmiddle : (dst.take base ++ (src.drop start).take n).length = base + n := by
    rw [List.length_append, htake, List.length_take, List.length_drop]
    omega
  rcases Nat.lt_or_ge k base with hlt | hge
  · rw [if_neg (by omega), List.append_assoc, List.getElem?_append_left (by omega),
      List.getElem?_take_of_lt hlt]
  · rcases Nat.lt_or_ge k (base + n) with hlt' | hge'
    · rw [if_pos ⟨hge, hlt'⟩, List.getElem?_append_left (by omega),
        List.getElem?_append_right (by omega), htake, List.getElem?_take_of_lt (by omega),
        List.getElem?_drop]
    · rw [if_neg (by omega), List.getElem?_append_right (by omega), hmiddle, List.getElem?_drop]
      congr 1
      omega

/-- **The copy of a plane** stays within both buffers if the plane does. -/
theorem copyRows_spec (hpitch : width ≤ pitch) (hstride : width ≤ stride)
    (hdst : base + rows * pitch ≤ dst.length) (hsrc : start + rows * stride ≤ src.length) :
    ∃ dst', copyRows dst base pitch src start stride width rows = some dst' ∧
      RowsCopied dst dst' base pitch src start stride width rows := by
  induction rows with
  | zero =>
      refine ⟨dst, rfl, rfl, fun row hrow ↦ absurd hrow (Nat.not_lt_zero row), fun k _ ↦ rfl⟩
  | succ rows ih =>
      have hd : (rows + 1) * pitch = rows * pitch + pitch := Nat.succ_mul rows pitch
      have hs : (rows + 1) * stride = rows * stride + stride := Nat.succ_mul rows stride
      obtain ⟨dst₁, hrows, hcopied⟩ := ih (by omega) (by omega)
      have hlength := hcopied.length
      obtain ⟨dst₂, hrow⟩ : ∃ dst₂, memcpy dst₁ (base + rows * pitch) src (start + rows * stride)
          width = some dst₂ := ⟨_, if_pos ⟨by omega, by omega⟩⟩
      refine ⟨dst₂, ?_, (length_memcpy hrow).trans hlength, fun row hlt x hx ↦ ?_, fun k hk ↦ ?_⟩
      · unfold copyRows at hrows ⊢
        rw [List.range_succ, List.foldlM_append, hrows]
        simpa using hrow
      · rw [getElem?_memcpy hrow]
        rcases Nat.eq_or_lt_of_le (Nat.le_of_lt_succ hlt) with rfl | hlt'
        · rw [if_pos (by omega)]
          congr 1
          omega
        · have hbefore : (row + 1) * pitch ≤ rows * pitch := Nat.mul_le_mul_right pitch hlt'
          rw [Nat.succ_mul] at hbefore
          rw [if_neg (by omega)]
          exact hcopied.copied row hlt' x hx
      · rw [getElem?_memcpy hrow, if_neg (by omega)]
        exact hcopied.frame k (by omega)

end SecondScreen.Machine
