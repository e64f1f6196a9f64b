import SecondScreen.Machine.ScaledDivision
import SecondScreen.Ring.Driver

/-!
# Timestamps of the performance counter

`QpcToMicroseconds` is meant to saturate.  It does so when the seconds alone are too
many, but the largest number of seconds that passes, 18446744073709, leaves room for
551615 microseconds only, and the sum of the two is not checked.
-/

namespace SecondScreen.Ring

open SecondScreen.Machine

/-- No operation of `QpcToMicroseconds` exceeds 64 bits, once the seconds have been
checked. -/
def NoOverflow (ticksPerSecond qpc : Nat) : Prop :=
  qpc / ticksPerSecond ≤ uint64Max / 1000000 →
    qpc / ticksPerSecond * 1000000 < 2 ^ 64 ∧ qpc % ticksPerSecond * 1000000 < 2 ^ 64 ∧
      qpc / ticksPerSecond * 1000000 + qpc % ticksPerSecond * 1000000 / ticksPerSecond < 2 ^ 64

/-- A value of the counter is converted without an overflow, or to the largest word. -/
structure Saturates (ticksPerSecond qpc : Nat) : Prop where
  value : qpcToMicroseconds (some ticksPerSecond) qpc =
    min (qpc * 1000000 / ticksPerSecond) uint64Max
  noOverflow : NoOverflow ticksPerSecond qpc

/-- The subtraction of `QpcDeltaToMicroseconds`, where it is reached, does not underflow. -/
def NoUnderflow (ticksPerSecond start stop : Nat) : Prop :=
  0 < start → start < stop →
    qpcDeltaToMicroseconds (some ticksPerSecond) start stop +
      qpcToMicroseconds (some ticksPerSecond) start = qpcToMicroseconds (some ticksPerSecond) stop

/-- The microseconds of the remainder fit into what the largest number of seconds
leaves of a word. -/
def QpcFits (ticksPerSecond qpc : Nat) : Prop :=
  qpc / ticksPerSecond = 18446744073709 →
    qpc % ticksPerSecond * 1000000 / ticksPerSecond ≤ 551615

/-- Two values of the counter, of which the first is not the later one, are converted in
this order: the second fits, or neither does, or they are so far apart that the second
exceeds a word by no less than the first. -/
def OrderKept (ticksPerSecond a b : Nat) : Prop :=
  QpcFits ticksPerSecond b ∨ ¬QpcFits ticksPerSecond a ∨
    a * 1000000 / ticksPerSecond + 2 ^ 64 ≤ b * 1000000 / ticksPerSecond

section Frequency

variable {f : Nat}

theorem qpcFits_iff_scaleFits (qpc : Nat) :
    QpcFits f qpc ↔ ScaleFits uint64Max 1000000 f qpc := Iff.rfl

/-- The frequencies up to 10 THz are those for which a remainder can be scaled. -/
theorem remainder_mul_lt (hf : 1 ≤ f) (hle : f ≤ 10000000000000) (qpc : Nat) :
    qpc % f * 1000000 < 2 ^ 64 := by
  have := Nat.mod_lt qpc hf
  omega

theorem qpcToMicroseconds_eq_scaleSplit (hf : 1 ≤ f) (hle : f ≤ 10000000000000) (qpc : Nat) :
    qpcToMicroseconds (some f) qpc = scaleSplit uint64Max 1000000 f qpc := by
  have hpos : ¬(f : Int) ≤ 0 := by omega
  unfold qpcToMicroseconds scaleSplit
  simp only [Int.toNat_natCast, Nat.mod_eq_of_lt (remainder_mul_lt hf hle qpc)]
  by_cases hqpc : qpc = 0
  · simp [hqpc]
  · rw [if_neg (not_or.mpr ⟨hqpc, hpos⟩)]
    rfl

/-- No operation overflows just if the sum, which is the last of them, fits. -/
theorem noOverflow_iff (hf : 1 ≤ f) (hle : f ≤ 10000000000000) (qpc : Nat) :
    NoOverflow f qpc ↔ QpcFits f qpc := by
  have hword : uint64Max < 2 ^ 64 := by decide
  rw [qpcFits_iff_scaleFits]
  constructor
  · intro h heq
    obtain ⟨-, -, hsum⟩ := h heq.le
    refine (scaled_le_limit_iff (by decide) hf heq.le).mp ?_ heq
    rw [scale_split hf]
    exact Nat.le_pred_of_lt hsum
  · intro h hseconds
    have hsum := (scaled_le_limit_iff (by decide) hf hseconds).mpr h
    rw [scale_split hf] at hsum
    refine ⟨?_, remainder_mul_lt hf hle qpc, hsum.trans_lt hword⟩
    exact (Nat.le_add_right _ _).trans_lt (hsum.trans_lt hword)

/-- The value alone is that of a conversion that saturates just if the sum fits. -/
theorem qpcToMicroseconds_eq_min_iff (hf : 1 ≤ f) (hle : f ≤ 10000000000000) (qpc : Nat) :
    qpcToMicroseconds (some f) qpc = min (qpc * 1000000 / f) uint64Max ↔ QpcFits f qpc := by
  rw [qpcToMicroseconds_eq_scaleSplit hf hle]
  exact scaleSplit_eq_min_iff (by decide) hf (by decide)

theorem saturates_iff (hf : 1 ≤ f) (hle : f ≤ 10000000000000) (qpc : Nat) :
    Saturates f qpc ↔ QpcFits f qpc := by
  refine ⟨fun h ↦ (noOverflow_iff hf hle qpc).mp h.noOverflow, fun h ↦ ⟨?_, ?_⟩⟩
  · exact (qpcToMicroseconds_eq_min_iff hf hle qpc).mpr h
  · exact (noOverflow_iff hf hle qpc).mpr h

/-- Which frequencies have no value of the counter that exceeds a word. -/
theorem forall_qpcFits_iff (hf : 1 ≤ f) :
    (∀ qpc ≤ uint64Max, QpcFits f qpc) ↔ f ≤ 2 ∨ 1000000 ≤ f := by
  have hroom : uint64Max % 1000000 = 551615 := by decide
  simp only [qpcFits_iff_scaleFits]
  rw [forall_scaleFits_iff (by decide) hf (by decide), hroom, or_comm,
    Nat.div_le_iff_le_mul_add_pred hf]
  refine or_congr_left ⟨fun h ↦ ?_, fun h ↦ ?_⟩ <;> omega

theorem qpcToMicroseconds_le_iff (hf : 1 ≤ f) (hle : f ≤ 10000000000000) {a b : Nat}
    (h : a ≤ b) :
    qpcToMicroseconds (some f) a ≤ qpcToMicroseconds (some f) b ↔ OrderKept f a b := by
  rw [qpcToMicroseconds_eq_scaleSplit hf hle, qpcToMicroseconds_eq_scaleSplit hf hle]
  exact scaleSplit_le_scaleSplit_iff (by decide) hf (by decide) h

/-- The conversion is monotone just for the frequencies for which it never exceeds a
word. -/
theorem qpcToMicroseconds_monotone_iff (hf : 1 ≤ f) (hle : f ≤ 10000000000000) :
    (∀ a b, a ≤ b → b ≤ uint64Max →
        qpcToMicroseconds (some f) a ≤ qpcToMicroseconds (some f) b) ↔
      f ≤ 2 ∨ 1000000 ≤ f := by
  rw [← forall_qpcFits_iff hf]
  simp only [qpcToMicroseconds_eq_scaleSplit hf hle]
  exact scaleSplit_monotone_iff (by decide) hf (by decide)

theorem qpcToMicroseconds_le_uint64Max (hf : 1 ≤ f) (hle : f ≤ 10000000000000) (qpc : Nat) :
    qpcToMicroseconds (some f) qpc ≤ uint64Max := by
  rw [qpcToMicroseconds_eq_scaleSplit hf hle]
  exact scaleSplit_le_limit ..

/-- The delta is right just if the conversion keeps the order of its two ends. -/
theorem noUnderflow_iff (hf : 1 ≤ f) (hle : f ≤ 10000000000000) {start stop : Nat}
    (hstart : 0 < start) (hlt : start < stop) :
    NoUnderflow f start stop ↔
      qpcToMicroseconds (some f) start ≤ qpcToMicroseconds (some f) stop := by
  have hword : uint64Max < 2 ^ 64 := by decide
  have hbefore := qpcToMicroseconds_le_uint64Max hf hle start
  have hafter := qpcToMicroseconds_le_uint64Max hf hle stop
  have hdelta : qpcDeltaToMicroseconds (some f) start stop =
      (qpcToMicroseconds (some f) stop + 2 ^ 64 - qpcToMicroseconds (some f) start) % 2 ^ 64 := by
    rw [qpcDeltaToMicroseconds, if_neg (by omega)]
  constructor
  · intro h
    have := h hstart hlt
    omega
  · intro h _ _
    omega

/-- No delta underflows just if the conversion is monotone. -/
theorem forall_noUnderflow_iff (hf : 1 ≤ f) (hle : f ≤ 10000000000000) :
    (∀ start stop, stop ≤ uint64Max → NoUnderflow f start stop) ↔
      ∀ a b, a ≤ b → b ≤ uint64Max →
        qpcToMicroseconds (some f) a ≤ qpcToMicroseconds (some f) b := by
  constructor
  · intro h a b hab hb
    rcases Nat.eq_zero_or_pos a with rfl | hpos
    · exact Nat.zero_le _
    · rcases Nat.lt_or_eq_of_le hab with hlt | rfl
      · exact (noUnderflow_iff hf hle hpos hlt).mp (h a b hb)
      · exact Nat.le_refl _
  · intro h start stop hstop hpos hlt
    exact (noUnderflow_iff hf hle hpos hlt).mpr (h start stop hlt.le hstop) hpos hlt

end Frequency

/-- `QpcToMicroseconds` saturates just if the microseconds of the remainder fit into
what the largest number of seconds leaves, and otherwise the order of two values is
lost.  Of the frequencies up to 10 THz, those of at most 2 Hz and those of 1 MHz and more
have no value that does not fit; and with these alone the conversion is monotone and the
delta never underflows. -/
theorem qpcToMicroseconds_saturates_iff (f : Nat) (hf : 1 ≤ f) (hle : f ≤ 10000000000000) :
    (∀ qpc < 2 ^ 64, (Saturates f qpc ↔ QpcFits f qpc) ∧
      (qpcToMicroseconds (some f) qpc = min (qpc * 1000000 / f) uint64Max ↔ QpcFits f qpc)) ∧
    (∀ a b, a ≤ b → b < 2 ^ 64 →
      (qpcToMicroseconds (some f) a ≤ qpcToMicroseconds (some f) b ↔ OrderKept f a b)) ∧
    (∀ start stop, 0 < start → start < stop → stop < 2 ^ 64 →
      (NoUnderflow f start stop ↔ OrderKept f start stop)) ∧
    ((∀ qpc < 2 ^ 64, Saturates f qpc) ↔ f ≤ 2 ∨ 1000000 ≤ f) ∧
    ((∀ a b, a ≤ b → b < 2 ^ 64 →
      qpcToMicroseconds (some f) a ≤ qpcToMicroseconds (some f) b) ↔ f ≤ 2 ∨ 1000000 ≤ f) ∧
    ((∀ start stop, stop < 2 ^ 64 → NoUnderflow f start stop) ↔ f ≤ 2 ∨ 1000000 ≤ f) := by
  have hword : ∀ {qpc : Nat}, qpc < 2 ^ 64 ↔ qpc ≤ uint64Max := Nat.lt_iff_le_pred (by decide)
  have hmono := qpcToMicroseconds_monotone_iff hf hle
  refine ⟨?_, ?_, ?_, ?_, ?_, ?_⟩
  · intro qpc _
    exact ⟨saturates_iff hf hle qpc, qpcToMicroseconds_eq_min_iff hf hle qpc⟩
  · intro a b hab _
    exact qpcToMicroseconds_le_iff hf hle hab
  · intro start stop hpos hlt _
    rw [noUnderflow_iff hf hle hpos hlt]
    exact qpcToMicroseconds_le_iff hf hle hlt.le
  · simp only [hword, saturates_iff hf hle]
    exact forall_qpcFits_iff hf
  · simpa only [hword] using hmono
  · simp only [hword]
    exact (forall_noUnderflow_iff hf hle).trans hmono

/-- Every value of a counter of 10 MHz is converted as it should be. -/
theorem qpcToMicroseconds_saturates_tenMHz :
    (∀ qpc < 2 ^ 64, Saturates 10000000 qpc) ∧
      ∀ start stop, stop < 2 ^ 64 → NoUnderflow 10000000 start stop := by
  obtain ⟨-, -, -, hall, -, hdelta⟩ :=
    qpcToMicroseconds_saturates_iff 10000000 (by decide) (by decide)
  exact ⟨hall.mpr (.inr (by decide)), hdelta.mpr (.inr (by decide))⟩

/-- With a counter of 1 kHz a sum exceeds a word by 384 microseconds, and the delta to it
from the tick before underflows. -/
theorem qpcToMicroseconds_wraps_oneKHz :
    qpcToMicroseconds (some 1000) 18446744073709552 = 384 ∧
      min (18446744073709552 * 1000000 / 1000) uint64Max = 18446744073709551615 ∧
      ¬Saturates 1000 18446744073709552 ∧
      qpcToMicroseconds (some 1000) 18446744073709551 = 18446744073709551000 ∧
      ¬NoUnderflow 1000 18446744073709551 18446744073709552 := by
  have hwrapped : qpcToMicroseconds (some 1000) 18446744073709552 = 384 := by decide
  have hlargest : min (18446744073709552 * 1000000 / 1000) uint64Max = 18446744073709551615 := by
    decide
  have hbefore : qpcToMicroseconds (some 1000) 18446744073709551 = 18446744073709551000 := by
    decide
  refine ⟨hwrapped, hlargest, fun h ↦ ?_, hbefore, fun h ↦ ?_⟩
  · exact absurd (hwrapped.symm.trans (h.value.trans hlargest)) (by decide)
  · have hdelta := h (by decide) (by decide)
    rw [Nat.cast_ofNat, hbefore, hwrapped] at hdelta
    omega

end SecondScreen.Ring
