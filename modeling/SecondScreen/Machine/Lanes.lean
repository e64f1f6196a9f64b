import Mathlib.Tactic.Linarith
import Mathlib.Tactic.Positivity
import Mathlib.Tactic.Ring

/-!
# Lanes of a register

A vector register is a bit vector, and a lane of it a range of its bits.
`ofLanes` builds a register from its lanes; `lane_ofLanes` and `lane_lane` are
what is needed to compute with them.

The lanes that a vectorised computation runs through are best written as
`BitVec.ofInt w z` with the integer `z` that they stand for: addition and
multiplication then need no bounds, and the last section gives the operations
that do.
-/

namespace SecondScreen.Machine

variable {n w : Nat}

/-- The `i`-th lane of width `w`. -/
def lane (w i : Nat) (v : BitVec n) : BitVec w := v.extractLsb' (w * i) w

/-- The register with the given lanes, up to lane `m`. -/
def packLanes (n : Nat) (f : Nat → BitVec w) : Nat → BitVec n
  | 0 => 0#n
  | m + 1 => packLanes n f m ||| (f m).setWidth n <<< (w * m)

/-- The register with the given lanes. -/
def ofLanes (n : Nat) (f : Nat → BitVec w) : BitVec n := packLanes n f (n / w)

theorem getLsbD_packLanes (hw : 0 < w) (f : Nat → BitVec w) (m k : Nat) :
    (packLanes n f m).getLsbD k =
      (decide (k < n) && decide (k / w < m) && (f (k / w)).getLsbD (k % w)) := by
  induction m with
  | zero => simp [packLanes]
  | succ m ih =>
      rw [packLanes, BitVec.getLsbD_or, ih, BitVec.getLsbD_shiftLeft, BitVec.getLsbD_setWidth]
      have hdiv (j : Nat) : k / w < j ↔ k < w * j := by rw [Nat.div_lt_iff_lt_mul hw, Nat.mul_comm]
      have hsucc : w * (m + 1) = w * m + w := by ring
      by_cases hk : k < w * m
      · simp [hdiv, hk, show k < w * (m + 1) by omega]
      by_cases hk' : k < w * (m + 1)
      · have hm : k / w = m := by
          have h1 := (hdiv (m + 1)).2 hk'
          have h2 := mt (hdiv m).1 hk
          omega
        have hmod : k % w = k - w * m := by
          have h := Nat.div_add_mod k w
          rw [hm] at h
          omega
        simp only [hk, hm, hmod]
        by_cases hn : k < n <;> simp [hn]
        omega
      · have hge : w ≤ k - w * m := by omega
        simp [hdiv, hk, hk', BitVec.getLsbD_of_ge _ _ hge]

theorem getLsbD_ofLanes (f : Nat → BitVec w) {k : Nat} (hk : w * (k / w + 1) ≤ n) (hw : 0 < w) :
    (ofLanes n f).getLsbD k = (f (k / w)).getLsbD (k % w) := by
  have hlt : k < n := by
    have h1 := Nat.div_add_mod k w
    have h2 := Nat.mod_lt k hw
    have h3 : w * (k / w + 1) = w * (k / w) + w := by ring
    omega
  have hm : k / w < n / w := by
    rw [Nat.lt_iff_add_one_le, Nat.le_div_iff_mul_le hw, Nat.mul_comm]
    exact hk
  rw [ofLanes, getLsbD_packLanes hw]
  simp [hlt, hm]

/-- The lanes of a register that was built from lanes. -/
theorem lane_ofLanes (f : Nat → BitVec w) {i : Nat} (hi : w * (i + 1) ≤ n) :
    lane w i (ofLanes n f) = f i := by
  apply BitVec.eq_of_getLsbD_eq
  intro j hj
  have hw : 0 < w := by omega
  have hdiv : (w * i + j) / w = i := by
    rw [Nat.mul_add_div hw, Nat.div_eq_of_lt hj, Nat.add_zero]
  have hmod : (w * i + j) % w = j := by
    rw [Nat.mul_add_mod, Nat.mod_eq_of_lt hj]
  rw [lane, BitVec.getLsbD_extractLsb', getLsbD_ofLanes f (by rwa [hdiv]) hw, hdiv, hmod]
  simp [hj]

/-- A lane of a lane is a lane. -/
theorem lane_lane (v : BitVec n) {c i j : Nat} (hj : j < c) :
    lane w j (lane (w * c) i v) = lane w (c * i + j) v := by
  apply BitVec.eq_of_getLsbD_eq
  intro k hk
  have hlt : w * j + k < w * c := by
    have h1 : w * (j + 1) ≤ w * c := Nat.mul_le_mul_left w hj
    have h2 : w * (j + 1) = w * j + w := by ring
    omega
  have hadd : w * c * i + (w * j + k) = w * (c * i + j) + k := by ring
  simp [lane, hk, hlt, hadd]

/-! ## Lane by lane -/

/-- Apply a function to every lane. -/
def mapLanes (w : Nat) (f : BitVec w → BitVec w) (a : BitVec n) : BitVec n :=
  ofLanes n fun i ↦ f (lane w i a)

/-- Combine two registers lane by lane. -/
def zipLanes (w : Nat) (f : BitVec w → BitVec w → BitVec w) (a b : BitVec n) : BitVec n :=
  ofLanes n fun i ↦ f (lane w i a) (lane w i b)

theorem lane_mapLanes (f : BitVec w → BitVec w) (a : BitVec n) {i : Nat} (hi : w * (i + 1) ≤ n) :
    lane w i (mapLanes w f a) = f (lane w i a) :=
  lane_ofLanes _ hi

theorem lane_zipLanes (f : BitVec w → BitVec w → BitVec w) (a b : BitVec n) {i : Nat}
    (hi : w * (i + 1) ≤ n) : lane w i (zipLanes w f a b) = f (lane w i a) (lane w i b) :=
  lane_ofLanes _ hi

/-! ## Lanes as integers -/

section OfInt

variable {z : Int}

theorem toInt_ofInt (hw : 0 < w) (h₀ : -2 ^ (w - 1) ≤ z) (h₁ : z < 2 ^ (w - 1)) :
    (BitVec.ofInt w z).toInt = z :=
  BitVec.toInt_ofInt_eq_self hw h₀ h₁

/-- Shifting a non-negative integer right, logically. -/
theorem ushiftRight_ofInt (h₀ : 0 ≤ z) (h₁ : z < 2 ^ w) (k : Nat) :
    BitVec.ofInt w z >>> k = BitVec.ofInt w (z >>> k) := by
  obtain ⟨m, rfl⟩ := Int.eq_ofNat_of_zero_le h₀
  have hm : m < 2 ^ w := by exact_mod_cast h₁
  have hcast : ((m : Int) >>> k) = ((m >>> k : Nat) : Int) := rfl
  have hle : m >>> k < 2 ^ w := (Nat.shiftRight_le m k).trans_lt hm
  apply BitVec.eq_of_toNat_eq
  rw [hcast, BitVec.ofInt_natCast, BitVec.ofInt_natCast, BitVec.toNat_ushiftRight,
    BitVec.toNat_ofNat, BitVec.toNat_ofNat, Nat.mod_eq_of_lt hm, Nat.mod_eq_of_lt hle]

/-- Shifting a signed integer right, arithmetically. -/
theorem sshiftRight_ofInt (hw : 0 < w) (h₀ : -2 ^ (w - 1) ≤ z) (h₁ : z < 2 ^ (w - 1)) (k : Nat) :
    (BitVec.ofInt w z).sshiftRight k = BitVec.ofInt w (z >>> k) := by
  have hpow : (0 : Int) < 2 ^ k := by positivity
  have hone : (1 : Int) ≤ 2 ^ k := hpow
  have hM : (0 : Int) < 2 ^ (w - 1) := by positivity
  have hdiv : z >>> k = z / 2 ^ k := by
    rw [Int.shiftRight_eq_div_pow]
    norm_num
  have hlow : -2 ^ (w - 1) ≤ z / 2 ^ k := by
    rw [Int.le_ediv_iff_mul_le hpow]
    nlinarith
  have hhigh : z / 2 ^ k < 2 ^ (w - 1) := by
    rw [Int.ediv_lt_iff_lt_mul hpow]
    nlinarith
  apply BitVec.eq_of_toInt_eq
  rw [BitVec.toInt_sshiftRight, toInt_ofInt hw h₀ h₁, hdiv, toInt_ofInt hw hlow hhigh]

end OfInt

end SecondScreen.Machine
