import SecondScreen.Machine.Lanes
import SecondScreen.Machine.Memory

/-!
# Vector intrinsics

The SSE2 and AVX2 intrinsics that the converters use, by their documented lane
semantics.  Lanes are numbered from the low end, and byte lane `i` of a register
is at address `i` in memory.

An intrinsic that treats all lanes alike is `mapLanes` or `zipLanes`, for
registers of either width.  Below each of the others stand its lanes.
-/

namespace SecondScreen.Machine

abbrev M128i := BitVec 128
abbrev M256i := BitVec 256

variable {n : Nat}

/-! ## Loads, stores and constants -/

/-- `_mm_loadu_si128`, `_mm256_loadu_si256`. -/
def loadu (n : Nat) (m : Bytes) : BitVec n := ofLanes n fun i ↦ (m i).toBitVec

/-- The byte in lane `i`. -/
def byteLane (v : BitVec n) (i : Nat) : UInt8 := ⟨lane 8 i v⟩

/-- Store the low `k` bytes of a register at offset `base`: `_mm_storel_epi64` for
`k = 8`, and `memcpy` of `_mm_cvtsi128_si32` for `k = 4`. -/
def storeLow (k : Nat) (m : Bytes) (base : Nat) (v : BitVec n) : Bytes :=
  m.fill base k (byteLane v)

/-- `_mm_set1_epi16`, `_mm_set1_epi32`, `_mm256_set1_epi32`; and with the value
zero `_mm_setzero_si128`, `_mm256_setzero_si256`. -/
def set1 (n w : Nat) (value : Int) : BitVec n := ofLanes n fun _ ↦ BitVec.ofInt w value

theorem lane_set1 {w i : Nat} (hi : w * (i + 1) ≤ n) (value : Int) :
    lane w i (set1 n w value) = BitVec.ofInt w value :=
  lane_ofLanes _ hi

/-- `_mm_setzero_si128`, `_mm256_setzero_si256`. -/
def setzero (n : Nat) : BitVec n := 0#n

theorem lane_setzero (w i : Nat) : lane w i (setzero n) = BitVec.ofInt w 0 := by
  simp [lane, setzero]

/-- `_mm_and_si128`, `_mm256_and_si256`. -/
def andSi (a b : BitVec n) : BitVec n := a &&& b

/-- One byte of each 32-bit lane of what was loaded: lane `i` holds byte
`4 * i + c`. -/
theorem lane_byte (m : Bytes) {i c : Nat} (hi : 32 * (i + 1) ≤ n) (hc : c < 4) :
    lane 32 i (loadu n m) >>> (8 * c) &&& BitVec.ofInt 32 255 =
      BitVec.ofInt 32 (m (4 * i + c)).toNat := by
  have hbyte : BitVec.ofInt 32 ((m (4 * i + c)).toNat : Int) =
      (m (4 * i + c)).toBitVec.setWidth 32 := by
    apply BitVec.eq_of_toNat_eq
    simp
  rw [hbyte]
  apply BitVec.eq_of_getLsbD_eq
  intro j hj
  rw [BitVec.getLsbD_and, BitVec.getLsbD_ushiftRight, BitVec.getLsbD_setWidth, lane,
    BitVec.getLsbD_extractLsb']
  have hmask : ∀ j < 32, (BitVec.ofInt 32 255).getLsbD j = decide (j < 8) := by decide
  rw [hmask j hj]
  by_cases hj8 : j < 8
  · have hdiv : (32 * i + (8 * c + j)) / 8 = 4 * i + c := by omega
    have hmod : (32 * i + (8 * c + j)) % 8 = j := by omega
    rw [loadu, getLsbD_ofLanes _ (by omega) (by decide), hdiv, hmod]
    simp [hj, hj8, show 8 * c + j < 32 by omega]
  · rw [BitVec.getLsbD_of_ge _ _ (by omega : 8 ≤ j)]
    simp [hj8]

/-! ## Arithmetic on every lane -/

/-- `_mm_add_epi16`, `_mm_add_epi32`, `_mm256_add_epi32`. -/
def add (w : Nat) : BitVec n → BitVec n → BitVec n := zipLanes w (· + ·)

/-- `_mm_mullo_epi16`, `_mm256_mullo_epi32`. -/
def mullo (w : Nat) : BitVec n → BitVec n → BitVec n := zipLanes w (· * ·)

/-- `_mm_srli_epi16`, `_mm_srli_epi32`, `_mm256_srli_epi32`. -/
def srli (w : Nat) (a : BitVec n) (count : Nat) : BitVec n := mapLanes w (· >>> count) a

/-- `_mm_srai_epi16`, `_mm256_srai_epi32`. -/
def srai (w : Nat) (a : BitVec n) (count : Nat) : BitVec n :=
  mapLanes w (fun x ↦ x.sshiftRight count) a

/-- `_mm256_max_epi32`. -/
def maxS (w : Nat) : BitVec n → BitVec n → BitVec n :=
  zipLanes w fun x y ↦ if x.toInt < y.toInt then y else x

/-- `_mm256_min_epi32`. -/
def minS (w : Nat) : BitVec n → BitVec n → BitVec n :=
  zipLanes w fun x y ↦ if x.toInt < y.toInt then x else y

section Lanes

variable {w i : Nat} (hi : w * (i + 1) ≤ n) {a b : BitVec n} {x y : Int}

include hi

theorem lane_add (ha : lane w i a = BitVec.ofInt w x) (hb : lane w i b = BitVec.ofInt w y) :
    lane w i (add w a b) = BitVec.ofInt w (x + y) := by
  rw [add, lane_zipLanes _ _ _ hi, ha, hb, BitVec.ofInt_add]

theorem lane_mullo (ha : lane w i a = BitVec.ofInt w x) (hb : lane w i b = BitVec.ofInt w y) :
    lane w i (mullo w a b) = BitVec.ofInt w (x * y) := by
  rw [mullo, lane_zipLanes _ _ _ hi, ha, hb, BitVec.ofInt_mul]

theorem lane_srli (ha : lane w i a = BitVec.ofInt w x) (h₀ : 0 ≤ x) (h₁ : x < 2 ^ w)
    (count : Nat) : lane w i (srli w a count) = BitVec.ofInt w (x >>> count) := by
  rw [srli, lane_mapLanes _ _ hi, ha, ushiftRight_ofInt h₀ h₁]

theorem lane_srai (hw : 0 < w) (ha : lane w i a = BitVec.ofInt w x) (h₀ : -2 ^ (w - 1) ≤ x)
    (h₁ : x < 2 ^ (w - 1)) (count : Nat) :
    lane w i (srai w a count) = BitVec.ofInt w (x >>> count) := by
  rw [srai, lane_mapLanes _ _ hi, ha, sshiftRight_ofInt hw h₀ h₁]

/-- Clamping, on values of which a comparison makes sense. -/
theorem lane_clamp (hw : 0 < w) {low high : Int} {lo hi' : BitVec n}
    (ha : lane w i a = BitVec.ofInt w x) (hlo : lane w i lo = BitVec.ofInt w low)
    (hhi : lane w i hi' = BitVec.ofInt w high) (hlow : low ≤ x) (hhigh : x ≤ high)
    (h₀ : -2 ^ (w - 1) ≤ low) (h₁ : high < 2 ^ (w - 1)) :
    lane w i (minS w (maxS w a lo) hi') = BitVec.ofInt w x := by
  have hx := toInt_ofInt hw (h₀.trans hlow) (hhigh.trans_lt h₁)
  have hl := toInt_ofInt hw h₀ ((hlow.trans hhigh).trans_lt h₁)
  have hh := toInt_ofInt hw (h₀.trans (hlow.trans hhigh)) h₁
  have hmax : lane w i (maxS w a lo) = BitVec.ofInt w x := by
    rw [maxS, lane_zipLanes _ _ _ hi, ha, hlo, hx, hl, if_neg (not_lt.2 hlow)]
  rw [minS, lane_zipLanes _ _ _ hi, hmax, hhi, hx, hh]
  split
  · rfl
  · next hlt => rw [le_antisymm hhigh (not_lt.1 hlt)]

end Lanes

/-! ## Packing -/

/-- Signed saturation to 16 bits. -/
def saturateS16 (x : BitVec 32) : BitVec 16 :=
  BitVec.ofInt 16 (max (-32768) (min 32767 x.toInt))

/-- Saturation of a signed number to an unsigned byte. -/
def saturateU8 (x : BitVec 16) : BitVec 8 := BitVec.ofInt 8 (max 0 (min 255 x.toInt))

/-- `_mm_packs_epi32`. -/
def packsEpi32 (a b : M128i) : M128i :=
  ofLanes 128 fun i ↦ saturateS16 (if i < 4 then lane 32 i a else lane 32 (i - 4) b)

/-- `_mm_packus_epi16`. -/
def packusEpi16 (a b : M128i) : M128i :=
  ofLanes 128 fun i ↦ saturateU8 (if i < 8 then lane 16 i a else lane 16 (i - 8) b)

theorem saturateS16_ofInt {x : Int} (h₀ : -32768 ≤ x) (h₁ : x ≤ 32767) :
    saturateS16 (BitVec.ofInt 32 x) = BitVec.ofInt 16 x := by
  rw [saturateS16, toInt_ofInt (by decide) (by omega) (by omega), min_eq_right h₁, max_eq_right h₀]

theorem saturateU8_ofInt {x : Int} (h₀ : 0 ≤ x) (h₁ : x ≤ 255) :
    saturateU8 (BitVec.ofInt 16 x) = BitVec.ofInt 8 x := by
  rw [saturateU8, toInt_ofInt (by decide) (by omega) (by omega), min_eq_right h₁, max_eq_right h₀]

/-- A lane of the first operand, if its value fits. -/
theorem lane_packsEpi32 {a b : M128i} {i : Nat} {x : Int} (hi : i < 4)
    (ha : lane 32 i a = BitVec.ofInt 32 x) (h₀ : -32768 ≤ x) (h₁ : x ≤ 32767) :
    lane 16 i (packsEpi32 a b) = BitVec.ofInt 16 x := by
  rw [packsEpi32, lane_ofLanes _ (by omega), if_pos hi, ha, saturateS16_ofInt h₀ h₁]

/-- A lane of the second operand, if its value fits. -/
theorem lane_packsEpi32_high {a b : M128i} {i : Nat} {x : Int} (hi : 4 ≤ i) (hi' : i < 8)
    (hb : lane 32 (i - 4) b = BitVec.ofInt 32 x) (h₀ : -32768 ≤ x) (h₁ : x ≤ 32767) :
    lane 16 i (packsEpi32 a b) = BitVec.ofInt 16 x := by
  rw [packsEpi32, lane_ofLanes _ (by omega), if_neg (by omega), hb, saturateS16_ofInt h₀ h₁]

theorem lane_packusEpi16 {a b : M128i} {i : Nat} {x : Int} (hi : i < 8)
    (ha : lane 16 i a = BitVec.ofInt 16 x) (h₀ : 0 ≤ x) (h₁ : x ≤ 255) :
    lane 8 i (packusEpi16 a b) = BitVec.ofInt 8 x := by
  rw [packusEpi16, lane_ofLanes _ (by omega), if_pos hi, ha, saturateU8_ofInt h₀ h₁]

/-! ## Shuffling -/

/-- `_mm_unpacklo_epi8`, `_mm_unpacklo_epi16`, `_mm_unpacklo_epi64`: the low lanes
of the two operands in turn. -/
def unpacklo (w : Nat) (a b : M128i) : M128i :=
  ofLanes 128 fun i ↦ if i % 2 = 0 then lane w (i / 2) a else lane w (i / 2) b

theorem lane_unpacklo {w i : Nat} (hi : w * (i + 1) ≤ 128) (a b : M128i) :
    lane w i (unpacklo w a b) = if i % 2 = 0 then lane w (i / 2) a else lane w (i / 2) b :=
  lane_ofLanes _ hi

/-- Interleaving with zero extends the lanes of a register, if they are taken as
unsigned. -/
theorem lane_unpacklo_zero {a : M128i} {i : Nat} {x : Int} (hi : i < 4)
    (ha : lane 16 i a = BitVec.ofInt 16 x) (h₀ : 0 ≤ x) (h₁ : x < 65536) :
    lane 32 i (unpacklo 16 a (setzero 128)) = BitVec.ofInt 32 x := by
  obtain ⟨m, rfl⟩ := Int.eq_ofNat_of_zero_le h₀
  have hm : m < 2 ^ 16 := by omega
  apply BitVec.eq_of_getLsbD_eq
  intro j hj
  have hbit : (lane 32 i (unpacklo 16 a (setzero 128))).getLsbD j =
      (unpacklo 16 a (setzero 128)).getLsbD (32 * i + j) := by
    rw [lane, BitVec.getLsbD_extractLsb']
    simp [hj]
  rw [hbit, unpacklo, getLsbD_ofLanes _ (by omega) (by decide), BitVec.ofInt_natCast,
    BitVec.getLsbD_ofNat]
  by_cases hj' : j < 16
  · have hdiv : (32 * i + j) / 16 = 2 * i := by omega
    have hmod : (32 * i + j) % 16 = j := by omega
    rw [hdiv, hmod, if_pos (by omega), Nat.mul_div_cancel_left i two_pos, ha, BitVec.ofInt_natCast,
      BitVec.getLsbD_ofNat]
    simp [hj, hj']
  · have hdiv : (32 * i + j) / 16 = 2 * i + 1 := by omega
    have hlt : m < 2 ^ j := hm.trans_le (Nat.pow_le_pow_right two_pos (by omega))
    rw [hdiv, if_neg (by omega), lane_setzero, Nat.testBit_lt_two_pow hlt]
    simp

/-- `_mm256_castsi256_si128` for `half = 0`, `_mm256_extracti128_si256(v, 1)` for
`half = 1`. -/
def half128 (v : M256i) (half : Nat) : M128i := lane 128 half v

theorem lane_half128 (v : M256i) (half : Nat) {i : Nat} (hi : i < 4) :
    lane 32 i (half128 v half) = lane 32 (4 * half + i) v :=
  lane_lane v hi

/-- Packing the two halves of a register keeps its lanes in order. -/
theorem lane_packsEpi32_halves {v : M256i} {i : Nat} {x : Int} (hi : i < 8)
    (hv : lane 32 i v = BitVec.ofInt 32 x) (h₀ : -32768 ≤ x) (h₁ : x ≤ 32767) :
    lane 16 i (packsEpi32 (half128 v 0) (half128 v 1)) = BitVec.ofInt 16 x := by
  by_cases hlow : i < 4
  · apply lane_packsEpi32 hlow _ h₀ h₁
    rw [lane_half128 v 0 hlow, ← hv]
    congr 1
    omega
  · apply lane_packsEpi32_high (not_lt.1 hlow) hi _ h₀ h₁
    rw [lane_half128 v 1 (by omega), ← hv]
    congr 1
    omega

/-- `_mm_madd_epi16`: products of signed 16-bit lanes, added in pairs. -/
def maddEpi16 (a b : M128i) : M128i :=
  ofLanes 128 fun i ↦
    BitVec.ofInt 32 ((lane 16 (2 * i) a).toInt * (lane 16 (2 * i) b).toInt +
      (lane 16 (2 * i + 1) a).toInt * (lane 16 (2 * i + 1) b).toInt)

/-- A lane whose pairs have values that fit 16 bits. -/
theorem lane_maddEpi16 {a b : M128i} {i : Nat} {x x' y y' : Int} (hi : i < 4)
    (ha : lane 16 (2 * i) a = BitVec.ofInt 16 x) (ha' : lane 16 (2 * i + 1) a = BitVec.ofInt 16 x')
    (hb : lane 16 (2 * i) b = BitVec.ofInt 16 y) (hb' : lane 16 (2 * i + 1) b = BitVec.ofInt 16 y')
    (hx : -32768 ≤ x ∧ x ≤ 32767) (hx' : -32768 ≤ x' ∧ x' ≤ 32767)
    (hy : -32768 ≤ y ∧ y ≤ 32767) (hy' : -32768 ≤ y' ∧ y' ≤ 32767) :
    lane 32 i (maddEpi16 a b) = BitVec.ofInt 32 (x * y + x' * y') := by
  have h {z : Int} (hz : -32768 ≤ z ∧ z ≤ 32767) : (BitVec.ofInt 16 z).toInt = z :=
    toInt_ofInt (by decide) (by omega) (by omega)
  rw [maddEpi16, lane_ofLanes _ (by omega), ha, ha', hb, hb', h hx, h hx', h hy, h hy']

/-- `_mm256_hadd_epi32`: sums of adjacent lanes, within each half. -/
def haddEpi32 (a b : M256i) : M256i :=
  ofLanes 256 fun i ↦
    let v := if i % 4 < 2 then a else b
    lane 32 (4 * (i / 4) + 2 * (i % 2)) v + lane 32 (4 * (i / 4) + 2 * (i % 2) + 1) v

/-- A lane that comes from the first operand: the first two of each half. -/
theorem lane_haddEpi32 {a b : M256i} {k j : Nat} {x y : Int} (hk : k < 2) (hj : j < 2)
    (hx : lane 32 (4 * k + 2 * j) a = BitVec.ofInt 32 x)
    (hy : lane 32 (4 * k + 2 * j + 1) a = BitVec.ofInt 32 y) :
    lane 32 (4 * k + j) (haddEpi32 a b) = BitVec.ofInt 32 (x + y) := by
  have hdiv : (4 * k + j) / 4 = k := by omega
  have hmod : (4 * k + j) % 4 < 2 := by omega
  have hpar : (4 * k + j) % 2 = j := by omega
  rw [haddEpi32, lane_ofLanes _ (by omega)]
  simp only [hdiv, hmod, hpar, if_true]
  rw [hx, hy, BitVec.ofInt_add]

/-! ## Bytes -/

/-- The byte in a lane whose integer is known. -/
theorem byteLane_eq {v : BitVec n} {i : Nat} {x : Int} (h : lane 8 i v = BitVec.ofInt 8 x) :
    byteLane v i = UInt8.ofInt x := by
  rw [byteLane, h]
  apply UInt8.toNat_inj.1
  show (BitVec.ofInt 8 x).toNat = _
  rw [BitVec.toNat_ofInt, UInt8.ofInt, UInt8.toNat_ofNat']
  omega

end SecondScreen.Machine
