import Mathlib.Algebra.Group.Nat.Defs
import Mathlib.Tactic.Ring
import SecondScreen.Machine.Memory

/-!
# Loops with a 32-bit counter

`for (; cond(x); x += inc) body(x)` with an unsigned 32-bit counter.  Such a loop
need not end, since the counter wraps; `forLoop` takes fuel and fails when it
runs out, and a statement about the loop says what enough fuel gives, or that no
fuel is enough.
-/

namespace SecondScreen.Machine

variable {σ : Type}

/-- Run the loop from counter `x` and state `s`, to the counter and the state in
which it ends. -/
def forLoop (cond : Nat → Bool) (inc : Nat) (body : Nat → σ → Option σ) :
    (fuel x : Nat) → σ → Option (Nat × σ)
  | 0, _, _ => none
  | fuel + 1, x, s =>
      if cond x then (body x s).bind (forLoop cond inc body fuel ((x + inc) % 2 ^ 32))
      else some (x, s)

variable {cond : Nat → Bool} {inc : Nat} {body : Nat → σ → Option σ}

/-- A loop that makes `n` rounds without its counter wrapping ends, given more
than `n` units of fuel, in a state that satisfies the invariant. -/
theorem forLoop_eq {n : Nat} (I : Nat → σ) {x fuel : Nat} (hwrap : x + n * inc < 2 ^ 32)
    (hcond : ∀ k < n, cond (x + k * inc) = true) (hstop : cond (x + n * inc) = false)
    (hbody : ∀ k < n, body (x + k * inc) (I k) = some (I (k + 1))) (hfuel : n < fuel) :
    forLoop cond inc body fuel x (I 0) = some (x + n * inc, I n) := by
  induction n generalizing I x fuel with
  | zero =>
      obtain ⟨fuel, rfl⟩ := Nat.exists_eq_add_of_lt hfuel
      rw [Nat.zero_mul, Nat.add_zero] at hstop ⊢
      simp [forLoop, hstop]
  | succ n ih =>
      obtain ⟨fuel, rfl⟩ : ∃ m, fuel = m + 1 := ⟨fuel - 1, by omega⟩
      have hx : x + inc + n * inc = x + (n + 1) * inc := by ring
      have hk (k : Nat) : x + inc + k * inc = x + (k + 1) * inc := by ring
      have h0 : cond x = true := by simpa using hcond 0 (Nat.succ_pos n)
      have hb : body x (I 0) = some (I 1) := by simpa using hbody 0 (Nat.succ_pos n)
      have hmod : (x + inc) % 2 ^ 32 = x + inc := Nat.mod_eq_of_lt (by omega)
      rw [forLoop, if_pos h0, hb, Option.bind_some, hmod, ← hx]
      refine ih (fun k ↦ I (k + 1)) (hx ▸ hwrap) (fun k hkn ↦ ?_) (hx ▸ hstop) (fun k hkn ↦ ?_)
        (by omega)
      · rw [hk]
        exact hcond (k + 1) (by omega)
      · rw [hk]
        exact hbody (k + 1) (by omega)

/-- A loop whose rounds write adjacent blocks, from `x` up to `last`, writes one
range. -/
theorem forLoop_fill {body : Nat → Bytes → Option Bytes} {x last fuel base : Nat} {m f : Bytes}
    (hinc : 0 < inc) (hx : inc ∣ x) (hlast : inc ∣ last) (hle : x ≤ last) (hwrap : last < 2 ^ 32)
    (hcond : ∀ y, y + inc ≤ last → cond y = true) (hstop : cond last = false)
    (hbody : ∀ y m, inc ∣ y → y + inc ≤ last →
      body y m = some (m.fill (base + y) inc fun j ↦ f (y + j)))
    (hfuel : last < fuel) :
    forLoop cond inc body fuel x (m.fill base x f) = some (last, m.fill base last f) := by
  obtain ⟨n, hn⟩ : inc ∣ last - x := Nat.dvd_sub hlast hx
  rw [Nat.mul_comm] at hn
  have hend : x + n * inc = last := by omega
  have hround : ∀ k < n, x + k * inc + inc ≤ last := by
    intro k hk
    have h := Nat.mul_le_mul_right inc (Nat.succ_le_of_lt hk)
    rw [Nat.succ_mul] at h
    omega
  have hwrite : ∀ k < n, body (x + k * inc) (m.fill base (x + k * inc) f) =
      some (m.fill base (x + (k + 1) * inc) f) := by
    intro k hk
    have hsucc : x + (k + 1) * inc = x + k * inc + inc := by ring
    rw [hbody _ _ (Nat.dvd_add hx (Nat.dvd_mul_left inc k)) (hround k hk), hsucc,
      Bytes.fill_fill fun j hj ↦ rfl]
  have hn' : n ≤ last := by
    have := Nat.le_mul_of_pos_right n hinc
    omega
  have hfuel' : n < fuel := by omega
  have h := forLoop_eq (fun k ↦ m.fill base (x + k * inc) f) (by rwa [hend])
    (fun k hk ↦ hcond _ (hround k hk)) (by rwa [hend]) hwrite hfuel'
  rw [hend] at h
  simpa using h

/-- A loop whose condition never fails does not end. -/
theorem forLoop_eq_none (J : Nat → Prop) (hcond : ∀ x, J x → cond x = true)
    (hstep : ∀ x, J x → J ((x + inc) % 2 ^ 32)) {x : Nat} (hx : J x) (fuel : Nat) (s : σ) :
    forLoop cond inc body fuel x s = none := by
  induction fuel generalizing x s with
  | zero => rfl
  | succ fuel ih =>
      rw [forLoop, if_pos (hcond x hx)]
      cases body x s with
      | none => rfl
      | some s' => exact ih (hstep x hx) s'

end SecondScreen.Machine
