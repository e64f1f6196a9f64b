import Mathlib.Order.Basic
import Mathlib.Algebra.Order.Ring.Nat

/-!
# Converting a counter in machine words

A counter that advances `rate` times a second is converted to a unit of which a
second has `scale`.  The product of the count and the scale need not fit in a word,
so the seconds and the remainder are scaled apart, and seconds that are too many give
the largest word, `limit`.

The seconds alone do not tell whether the result fits: at the largest number of them
it depends on the remainder.
-/

namespace SecondScreen.Machine

variable {limit scale rate count : Nat}

/-- The count in the unit, in words that are at most `limit`. -/
def scaleSplit (limit scale rate count : Nat) : Nat :=
  if limit / scale < count / rate then limit
  else (count / rate * scale + count % rate * scale / rate) % (limit + 1)

/-- The largest number of seconds leaves room for the remainder. -/
def ScaleFits (limit scale rate count : Nat) : Prop :=
  count / rate = limit / scale → count % rate * scale / rate ≤ limit % scale

/-! ## The two parts -/

/-- Scaling the seconds and the remainder apart loses nothing. -/
theorem scale_split (hrate : 0 < rate) (scale count : Nat) :
    count * scale / rate = count / rate * scale + count % rate * scale / rate := by
  calc count * scale / rate
      = (count % rate * scale + rate * (count / rate * scale)) / rate := by
        rw [← Nat.mul_assoc, ← Nat.add_mul, Nat.mod_add_div]
    _ = count % rate * scale / rate + count / rate * scale := Nat.add_mul_div_left _ _ hrate
    _ = count / rate * scale + count % rate * scale / rate := Nat.add_comm _ _

/-- The remainder is less than a second. -/
theorem scaled_remainder_lt (hscale : 0 < scale) (hrate : 0 < rate) (count : Nat) :
    count % rate * scale / rate < scale := by
  rw [Nat.div_lt_iff_lt_mul hrate, Nat.mul_comm scale]
  exact Nat.mul_lt_mul_of_pos_right (Nat.mod_lt count hrate) hscale

/-- Seconds that are too many are too many in the unit. -/
theorem limit_lt_scaled (hscale : 0 < scale) (hrate : 0 < rate)
    (h : limit / scale < count / rate) : limit < count * scale / rate := by
  calc limit < scale * (limit / scale + 1) := Nat.lt_mul_div_succ limit hscale
    _ = (limit / scale + 1) * scale := Nat.mul_comm _ _
    _ ≤ count / rate * scale := Nat.mul_le_mul_right scale h
    _ ≤ count * scale / rate := by
        rw [scale_split hrate]
        exact Nat.le_add_right _ _

/-- The result fits just if the seconds are not too many and leave room for the
remainder. -/
theorem scaled_le_limit_iff (hscale : 0 < scale) (hrate : 0 < rate)
    (h : count / rate ≤ limit / scale) :
    count * scale / rate ≤ limit ↔ ScaleFits limit scale rate count := by
  have hrem := scaled_remainder_lt hscale hrate count
  have hlimit := Nat.div_add_mod' limit scale
  rw [scale_split hrate]
  rcases Nat.lt_or_eq_of_le h with hlt | heq
  · -- a whole second is left
    have hroom : (count / rate + 1) * scale ≤ limit / scale * scale :=
      Nat.mul_le_mul_right scale hlt
    rw [Nat.add_mul, Nat.one_mul] at hroom
    refine iff_of_true (by omega) fun heq ↦ ?_
    exact absurd heq (Nat.ne_of_lt hlt)
  · rw [heq]
    refine ⟨fun hle _ ↦ by omega, fun hfits ↦ ?_⟩
    have := hfits heq
    omega

/-! ## The result -/

theorem scaleSplit_le_limit (limit scale rate count : Nat) :
    scaleSplit limit scale rate count ≤ limit := by
  unfold scaleSplit
  split_ifs
  · exact Nat.le_refl limit
  · exact Nat.le_of_lt_succ (Nat.mod_lt _ (Nat.succ_pos limit))

/-- Where the sum of the parts fits, the conversion saturates. -/
theorem scaleSplit_eq_min (hscale : 0 < scale) (hrate : 0 < rate)
    (h : ScaleFits limit scale rate count) :
    scaleSplit limit scale rate count = min (count * scale / rate) limit := by
  unfold scaleSplit
  split_ifs with hlt
  · exact (Nat.min_eq_right (limit_lt_scaled hscale hrate hlt).le).symm
  · have hle := (scaled_le_limit_iff hscale hrate (Nat.le_of_not_lt hlt)).mpr h
    rw [← scale_split hrate, Nat.mod_eq_of_lt (Nat.lt_succ_of_le hle), Nat.min_eq_left hle]

/-- Where it does not fit, the result is what exceeds a word. -/
theorem scaleSplit_wraps (hscale : 0 < scale) (hrate : 0 < rate) (hle : scale ≤ limit)
    (h : ¬ScaleFits limit scale rate count) :
    limit < count * scale / rate ∧
      scaleSplit limit scale rate count + (limit + 1) = count * scale / rate := by
  obtain ⟨heq, hrem⟩ := Classical.not_imp.mp h
  have hsum := mt (scaled_le_limit_iff hscale hrate (Nat.le_of_eq heq)).mp h
  have hlimit := Nat.div_add_mod' limit scale
  have hlt := scaled_remainder_lt hscale hrate count
  refine ⟨Nat.lt_of_not_le hsum, ?_⟩
  rw [scale_split hrate, heq] at hsum ⊢
  rw [scaleSplit, if_neg (by omega), heq, Nat.mod_eq_sub_mod (by omega),
    Nat.mod_eq_of_lt (by omega)]
  omega

/-- Where it does not fit, the result is less than a second. -/
theorem scaleSplit_lt_scale (hscale : 0 < scale) (hrate : 0 < rate) (hle : scale ≤ limit)
    (h : ¬ScaleFits limit scale rate count) : scaleSplit limit scale rate count < scale := by
  have hwraps := (scaleSplit_wraps hscale hrate hle h).2
  have hlimit := Nat.div_add_mod' limit scale
  have hlt := scaled_remainder_lt hscale hrate count
  rw [scale_split hrate, (Classical.not_imp.mp h).1] at hwraps
  omega

/-- The conversion saturates just where the sum of the parts fits. -/
theorem scaleSplit_eq_min_iff (hscale : 0 < scale) (hrate : 0 < rate) (hle : scale ≤ limit) :
    scaleSplit limit scale rate count = min (count * scale / rate) limit ↔
      ScaleFits limit scale rate count := by
  refine ⟨fun heq ↦ ?_, scaleSplit_eq_min hscale hrate⟩
  by_contra hfits
  have hlt := scaleSplit_lt_scale hscale hrate hle hfits
  have hsum := (scaleSplit_wraps hscale hrate hle hfits).1
  omega

/-- The order of two counts is kept unless the sum fits for the first of them only, and
what it exceeds a word by for the second is less than the first. -/
theorem scaleSplit_le_scaleSplit_iff (hscale : 0 < scale) (hrate : 0 < rate)
    (hle : scale ≤ limit) {a b : Nat} (h : a ≤ b) :
    scaleSplit limit scale rate a ≤ scaleSplit limit scale rate b ↔
      ScaleFits limit scale rate b ∨ ¬ScaleFits limit scale rate a ∨
        a * scale / rate + (limit + 1) ≤ b * scale / rate := by
  have hmono : a * scale / rate ≤ b * scale / rate :=
    Nat.div_le_div_right (Nat.mul_le_mul_right scale h)
  by_cases hb : ScaleFits limit scale rate b
  · refine iff_of_true ?_ (.inl hb)
    rw [scaleSplit_eq_min hscale hrate hb]
    by_cases ha : ScaleFits limit scale rate a
    · rw [scaleSplit_eq_min hscale hrate ha]
      exact min_le_min_right limit hmono
    · have hwraps := scaleSplit_wraps hscale hrate hle ha
      have hlt := scaleSplit_lt_scale hscale hrate hle ha
      omega
  · have hbwraps := scaleSplit_wraps hscale hrate hle hb
    by_cases ha : ScaleFits limit scale rate a
    · rw [or_iff_right hb, or_iff_right (not_not.mpr ha)]
      have hseconds : a / rate ≤ limit / scale :=
        (Nat.div_le_div_right h).trans (Nat.le_of_eq (Classical.not_imp.mp hb).1)
      have hale := (scaled_le_limit_iff hscale hrate hseconds).mpr ha
      rw [scaleSplit_eq_min hscale hrate ha, Nat.min_eq_left hale]
      omega
    · have hawraps := scaleSplit_wraps hscale hrate hle ha
      refine iff_of_true ?_ (.inr (.inl ha))
      omega

/-- The count of the largest number of whole seconds fits. -/
theorem scaleFits_seconds : ScaleFits limit scale rate (limit / scale * rate) := by
  intro _
  rw [Nat.mul_mod_left, Nat.zero_mul, Nat.zero_div]
  exact Nat.zero_le _

/-- The conversion is monotone just if the sum of the parts always fits: where it does
not, the result is less than that of the whole seconds alone. -/
theorem scaleSplit_monotone_iff (hscale : 0 < scale) (hrate : 0 < rate) (hle : scale ≤ limit) :
    (∀ a b, a ≤ b → b ≤ limit →
        scaleSplit limit scale rate a ≤ scaleSplit limit scale rate b) ↔
      ∀ count ≤ limit, ScaleFits limit scale rate count := by
  constructor
  · intro hmono count hcount
    by_contra hfits
    obtain ⟨hseconds, -⟩ := Classical.not_imp.mp hfits
    have hbefore : limit / scale * rate ≤ count := by
      rw [← hseconds]
      exact Nat.div_mul_le_self count rate
    have hlt := scaleSplit_lt_scale hscale hrate hle hfits
    have hwhole : scale ≤ limit / scale * scale := by
      calc scale = 1 * scale := (Nat.one_mul scale).symm
        _ ≤ limit / scale * scale :=
          Nat.mul_le_mul_right scale ((Nat.one_le_div_iff hscale).mpr hle)
    have hvalue : scaleSplit limit scale rate (limit / scale * rate) = limit / scale * scale := by
      rw [scaleSplit_eq_min hscale hrate scaleFits_seconds, Nat.mul_right_comm,
        Nat.mul_div_cancel _ hrate, Nat.min_eq_left (Nat.div_mul_le_self limit scale)]
    have := hmono _ _ hbefore hcount
    omega
  · intro hfits a b hab hb
    exact (scaleSplit_le_scaleSplit_iff hscale hrate hle hab).mpr (.inl (hfits b hb))

/-- A counter that is at least as fine as the unit never exceeds a word. -/
theorem scaleFits_of_scale_le (hscale : 0 < scale) (hle : scale ≤ rate) (hcount : count ≤ limit) :
    ScaleFits limit scale rate count := by
  have hrate := hscale.trans_le hle
  intro heq
  refine (scaled_le_limit_iff hscale hrate (Nat.le_of_eq heq)).mp ?_ heq
  calc count * scale / rate ≤ count * rate / rate :=
        Nat.div_le_div_right (Nat.mul_le_mul_left count hle)
    _ = count := Nat.mul_div_cancel count hrate
    _ ≤ limit := hcount

/-- Which counters never exceed a word: those that are fine enough, and those whose
largest remainder fits. -/
theorem forall_scaleFits_iff (hscale : 0 < scale) (hrate : 0 < rate)
    (hword : scale ≤ limit / scale) :
    (∀ count ≤ limit, ScaleFits limit scale rate count) ↔
      scale ≤ rate ∨ (rate - 1) * scale / rate ≤ limit % scale := by
  constructor
  · intro hfits
    rcases Nat.lt_or_ge rate scale with hlt | hge
    · right
      -- the count with the largest number of seconds and the largest remainder
      have hcount : limit / scale * rate + (rate - 1) ≤ limit := by
        calc limit / scale * rate + (rate - 1)
            ≤ limit / scale * rate + limit / scale := by omega
          _ = limit / scale * (rate + 1) := (Nat.mul_succ _ _).symm
          _ ≤ limit / scale * scale := Nat.mul_le_mul_left _ hlt
          _ ≤ limit := Nat.div_mul_le_self limit scale
      have hlast : rate - 1 < rate := Nat.sub_one_lt_of_lt hrate
      have hseconds : (limit / scale * rate + (rate - 1)) / rate = limit / scale := by
        rw [Nat.add_comm, Nat.add_mul_div_right _ _ hrate, Nat.div_eq_of_lt hlast, Nat.zero_add]
      have hrem : (limit / scale * rate + (rate - 1)) % rate = rate - 1 := by
        rw [Nat.add_comm, Nat.add_mul_mod_self_right, Nat.mod_eq_of_lt hlast]
      have h := hfits _ hcount hseconds
      rwa [hrem] at h
    · exact .inl hge
  · rintro (hge | hlast) count hcount
    · exact scaleFits_of_scale_le hscale hge hcount
    · intro _
      calc count % rate * scale / rate ≤ (rate - 1) * scale / rate :=
            Nat.div_le_div_right (Nat.mul_le_mul_right scale
              (Nat.le_sub_one_of_lt (Nat.mod_lt count hrate)))
        _ ≤ limit % scale := hlast

end SecondScreen.Machine
