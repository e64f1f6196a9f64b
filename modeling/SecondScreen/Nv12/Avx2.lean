import SecondScreen.Machine.Intrinsics
import SecondScreen.Nv12.Planes

/-!
# The AVX2 converter

`Avx2Convert.cpp`: eight pixels at a time as long as eight are left, then one
luma byte, or one chroma pair, at a time.

The counters are unsigned 32-bit numbers, so that the guard `x + 8 <= width` of
the vector loops wraps for a width close to `2 ^ 32`, where they do not end.
-/

namespace SecondScreen.Nv12.Avx2

open SecondScreen.Machine

/-! ## The source -/

/-- `LoadBgraChannel`. -/
def loadBgraChannel (source : Bytes) (channelMask : M256i) (shift : Nat) : M256i :=
  andSi (srli 32 (loadu 256 source) shift) channelMask

/-- `AverageChromaChannel`. -/
def averageChromaChannel (row0 row1 zero : M256i) : M256i :=
  let rowSum := add 32 row0 row1
  srli 32 (haddEpi32 rowSum zero) 2

/-- `ConvertChroma`. -/
def convertChroma (red green blue : M256i) (redCoefficient greenCoefficient blueCoefficient : Int)
    (bias zero maxValue : M256i) : M256i :=
  let values := add 32
    (add 32
      (mullo 32 red (set1 256 32 redCoefficient))
      (mullo 32 green (set1 256 32 greenCoefficient)))
    (mullo 32 blue (set1 256 32 blueCoefficient))
  let values := add 32 (srai 32 (add 32 values bias) 8) bias
  minS 32 (maxS 32 values zero) maxValue

/-- `CompactFour`. -/
def compactFour (values : M256i) : M128i := unpacklo 64 (half128 values 0) (half128 values 1)

/-- What the vector loop of `ConvertYRow` computes from eight pixels. -/
def yBlock (pixels : Bytes) : M128i :=
  let channelMask := set1 256 32 0xff
  let yBias := set1 256 32 128
  let blue := loadBgraChannel pixels channelMask 0
  let green := loadBgraChannel pixels channelMask 8
  let red := loadBgraChannel pixels channelMask 16
  let values := add 32
    (add 32 (mullo 32 blue (set1 256 32 25)) (mullo 32 green (set1 256 32 129)))
    (mullo 32 red (set1 256 32 66))
  let values := add 32 (srli 32 (add 32 values yBias) 8) (set1 256 32 16)
  let y16 := packsEpi32 (half128 values 0) (half128 values 1)
  packusEpi16 y16 (setzero 128)

/-- What the vector loop of `ConvertUvRow` computes from eight columns of two
rows. -/
def uvBlock (pixels0 pixels1 : Bytes) : M128i :=
  let channelMask := set1 256 32 0xff
  let zero := setzero 256
  let bias := set1 256 32 128
  let maxValue := set1 256 32 255
  let blue0 := loadBgraChannel pixels0 channelMask 0
  let green0 := loadBgraChannel pixels0 channelMask 8
  let red0 := loadBgraChannel pixels0 channelMask 16
  let blue1 := loadBgraChannel pixels1 channelMask 0
  let green1 := loadBgraChannel pixels1 channelMask 8
  let red1 := loadBgraChannel pixels1 channelMask 16
  let blue := averageChromaChannel blue0 blue1 zero
  let green := averageChromaChannel green0 green1 zero
  let red := averageChromaChannel red0 red1 zero
  let u := convertChroma red green blue (-38) (-74) 112 bias zero maxValue
  let v := convertChroma red green blue 112 (-94) (-18) bias zero maxValue
  let u16 := packsEpi32 (compactFour u) (setzero 128)
  let v16 := packsEpi32 (compactFour v) (setzero 128)
  let u8 := packusEpi16 u16 (setzero 128)
  let v8 := packusEpi16 v16 (setzero 128)
  unpacklo 8 u8 v8

/-- `ConvertYRow`, into the row that starts at `destinationRow`. -/
def convertYRow (fuel : Nat) (sourceRow : Bytes) (width : Nat) (destination : Bytes)
    (destinationRow : Nat) : Option Bytes := do
  let (x, destination) ← forLoop (fun x ↦ (x + 8) % 2 ^ 32 ≤ width) 8
    (fun x m ↦ some (storeLow 8 m (destinationRow + x) (yBlock (sourceRow.advance (4 * x)))))
    fuel 0 destination
  let (_, destination) ← forLoop (fun x ↦ x < width) 1
    (fun x m ↦ some (scalarLuma sourceRow destinationRow x m))
    fuel x destination
  return destination

/-- `ConvertUvRow`, into the row that starts at `destinationRow`. -/
def convertUvRow (fuel : Nat) (row0 row1 : Bytes) (width : Nat) (destination : Bytes)
    (destinationRow : Nat) : Option Bytes := do
  let (x, destination) ← forLoop (fun x ↦ (x + 8) % 2 ^ 32 ≤ width) 8
    (fun x m ↦ some (storeLow 8 m (destinationRow + x)
      (uvBlock (row0.advance (4 * x)) (row1.advance (4 * x)))))
    fuel 0 destination
  let (_, destination) ← forLoop (fun x ↦ x < width) 2
    (fun x m ↦ some (scalarChroma row0 row1 destinationRow x m))
    fuel x destination
  return destination

/-- `ConvertBgraToNv12Avx2`, on pointers that are not null: what it returns, and
the destination after it. -/
def convertBgraToNv12Avx2 (fuel : Nat) (source : Bytes) (rowPitch width height : Nat)
    (destination : Bytes) : Option (Bool × Bytes) :=
  if width = 0 ∨ height = 0 ∨ width % 2 ≠ 0 ∨ height % 2 ≠ 0 ∨ rowPitch < width * 4 then
    some (false, destination)
  else do
    let yPlaneBytes := width * height
    let (_, destination) ← forLoop (fun y ↦ y < height) 1
      (fun y m ↦ convertYRow fuel (source.advance (y * rowPitch)) width m (y * width))
      fuel 0 destination
    let (_, destination) ← forLoop (fun y ↦ y < height) 2
      (fun y m ↦ convertUvRow fuel (source.advance (y * rowPitch))
        (source.advance ((y + 1) * rowPitch)) width m (yPlaneBytes + y / 2 * width))
      fuel 0 destination
    return (true, destination)

/-! ## The blocks -/

/-- One channel of the eight pixels of a block. -/
theorem lane_loadBgraChannel (pixels : Bytes) {c i : Nat} (hc : c < 4) (hi : i < 8) :
    lane 32 i (loadBgraChannel pixels (set1 256 32 0xff) (8 * c)) =
      BitVec.ofInt 32 (channel pixels c i) := by
  have hand (a b : M256i) : lane 32 i (andSi a b) = lane 32 i a &&& lane 32 i b :=
    BitVec.extractLsb'_and
  rw [loadBgraChannel, hand, lane_set1 (by omega), srli, lane_mapLanes _ _ (by omega),
    lane_byte _ (by omega) hc, channel]

/-- A linear combination of three lanes, as both of the block computations form it. -/
theorem lane_combine {a b c : M256i} {i : Nat} {x y z : Int} (hi : i < 8)
    (ha : lane 32 i a = BitVec.ofInt 32 x) (hb : lane 32 i b = BitVec.ofInt 32 y)
    (hc : lane 32 i c = BitVec.ofInt 32 z) (k l m : Int) :
    lane 32 i (add 32 (add 32 (mullo 32 a (set1 256 32 k)) (mullo 32 b (set1 256 32 l)))
      (mullo 32 c (set1 256 32 m))) = BitVec.ofInt 32 (x * k + y * l + z * m) := by
  have hi' : 32 * (i + 1) ≤ 256 := by omega
  apply lane_add hi'
  · apply lane_add hi'
    · exact lane_mullo hi' ha (lane_set1 hi' k)
    · exact lane_mullo hi' hb (lane_set1 hi' l)
  · exact lane_mullo hi' hc (lane_set1 hi' m)

/-- Eight pixels give their eight luma bytes. -/
theorem byteLane_yBlock (pixels : Bytes) {i : Nat} (hi : i < 8) :
    byteLane (yBlock pixels) i = yByte pixels i := by
  have hi' : 32 * (i + 1) ≤ 256 := by omega
  have hblue := lane_loadBgraChannel pixels (show kBlue < 4 by decide) hi
  have hgreen := lane_loadBgraChannel pixels (show kGreen < 4 by decide) hi
  have hred := lane_loadBgraChannel pixels (show kRed < 4 by decide) hi
  have hb := channel_le pixels kBlue i
  have hg := channel_le pixels kGreen i
  have hr := channel_le pixels kRed i
  have hsum := lane_add hi' (lane_combine hi hblue hgreen hred 25 129 66) (lane_set1 hi' 128)
  have hluma := lane_add hi' (lane_srli hi' hsum (by omega) (by omega) 8) (lane_set1 hi' 16)
  rw [lumaValue_eq] at hluma
  have hrange := lumaValue_channel pixels i
  apply byteLane_eq
  apply lane_packusEpi16 hi _ (by omega) (by omega)
  exact lane_packsEpi32_halves hi hluma (by omega) (by omega)

/-- A lane of the averages: the block of columns `2 * j` and `2 * j + 1`.  The
horizontal sums leave two of these in each half. -/
theorem lane_averageChromaChannel (pixels0 pixels1 : Bytes) {c j : Nat} (hc : c < 4) (hj : j < 4) :
    lane 32 (4 * (j / 2) + j % 2) (averageChromaChannel
      (loadBgraChannel pixels0 (set1 256 32 0xff) (8 * c))
      (loadBgraChannel pixels1 (set1 256 32 0xff) (8 * c)) (setzero 256)) =
        BitVec.ofInt 32 (blockAverage pixels0 pixels1 c (2 * j)) := by
  have hcolumn : 4 * (j / 2) + 2 * (j % 2) = 2 * j := by omega
  have hsum {i : Nat} (hi : i < 8) := lane_add (by omega : 32 * (i + 1) ≤ 256)
    (lane_loadBgraChannel pixels0 hc hi) (lane_loadBgraChannel pixels1 hc hi)
  have hleft := hsum (by omega : 4 * (j / 2) + 2 * (j % 2) < 8)
  have hright := hsum (by omega : 4 * (j / 2) + 2 * (j % 2) + 1 < 8)
  have hle := channel_le
  have h₁ := hle pixels0 c (4 * (j / 2) + 2 * (j % 2))
  have h₂ := hle pixels1 c (4 * (j / 2) + 2 * (j % 2))
  have h₃ := hle pixels0 c (4 * (j / 2) + 2 * (j % 2) + 1)
  have h₄ := hle pixels1 c (4 * (j / 2) + 2 * (j % 2) + 1)
  rw [averageChromaChannel, lane_srli (by omega)
    (lane_haddEpi32 (by omega) (by omega) hleft hright) (by omega) (by omega), hcolumn,
    Int.shiftRight_eq_div_pow, blockAverage]
  congr 1
  push_cast
  congr 1
  ring

/-- A lane of one of the two chroma components, if its value is in the byte
range. -/
theorem lane_convertChroma {red green blue : M256i} {i : Nat} {r g b : Int} (hi : i < 8)
    (hr : lane 32 i red = BitVec.ofInt 32 r) (hg : lane 32 i green = BitVec.ofInt 32 g)
    (hb : lane 32 i blue = BitVec.ofInt 32 b) (cr cg cb : Int)
    (h₀ : 0 ≤ ((r * cr + g * cg + b * cb + 128) >>> (8 : Nat)) + 128)
    (h₁ : ((r * cr + g * cg + b * cb + 128) >>> (8 : Nat)) + 128 ≤ 255) :
    lane 32 i (convertChroma red green blue cr cg cb (set1 256 32 128) (setzero 256)
      (set1 256 32 255)) =
        BitVec.ofInt 32 (((r * cr + g * cg + b * cb + 128) >>> (8 : Nat)) + 128) := by
  have hi' : 32 * (i + 1) ≤ 256 := by omega
  have hsum := lane_add hi' (lane_combine hi hr hg hb cr cg cb) (lane_set1 hi' 128)
  have hrange : -2 ^ 31 ≤ r * cr + g * cg + b * cb + 128 ∧
      r * cr + g * cg + b * cb + 128 < 2 ^ 31 := by
    rw [Int.shiftRight_eq_div_pow] at h₀ h₁
    omega
  have hvalue := lane_add hi' (lane_srai hi' (by decide) hsum hrange.1 hrange.2 8)
    (lane_set1 hi' 128)
  exact lane_clamp hi' (by decide) hvalue (lane_setzero 32 i) (lane_set1 hi' 255) h₀ h₁
    (by decide) (by decide)

/-- `CompactFour` undoes the spreading that the horizontal sums cause. -/
theorem lane_compactFour (values : M256i) {j : Nat} (hj : j < 4) :
    lane 32 j (compactFour values) = lane 32 (4 * (j / 2) + j % 2) values := by
  have hpart (v : M128i) (k : Nat) : lane 32 (j % 2) (lane 64 k v) = lane 32 (2 * k + j % 2) v :=
    lane_lane (w := 32) (c := 2) v (by omega)
  have hj' : j = 2 * (j / 2) + j % 2 := by omega
  calc lane 32 j (compactFour values)
    _ = lane 32 (j % 2) (lane 64 (j / 2) (compactFour values)) := by rw [hpart, ← hj']
    _ = lane 32 (j % 2) (half128 values (j / 2)) := by
      rw [compactFour, lane_unpacklo (by omega)]
      obtain h | h : j / 2 = 0 ∨ j / 2 = 1 := by omega
      · rw [h, if_pos (by decide), hpart, Nat.mul_zero, Nat.zero_add]
      · rw [h, if_neg (by decide), hpart, Nat.mul_zero, Nat.zero_add]
    _ = lane 32 (4 * (j / 2) + j % 2) values := lane_half128 _ _ (by omega)

/-- Eight columns of two rows give their four pairs of chroma bytes. -/
theorem byteLane_uvBlock (pixels0 pixels1 : Bytes) {i : Nat} (hi : i < 8) :
    byteLane (uvBlock pixels0 pixels1) i = uvByte pixels0 pixels1 i := by
  obtain ⟨j, hj⟩ : ∃ j, j = i / 2 := ⟨_, rfl⟩
  have hj4 : j < 4 := by omega
  have hcolumn : i - i % 2 = 2 * j := by omega
  have hspread : 4 * (j / 2) + j % 2 < 8 := by omega
  have hblue := lane_averageChromaChannel pixels0 pixels1 (show kBlue < 4 by decide) hj4
  have hgreen := lane_averageChromaChannel pixels0 pixels1 (show kGreen < 4 by decide) hj4
  have hred := lane_averageChromaChannel pixels0 pixels1 (show kRed < 4 by decide) hj4
  -- the narrowing that both components undergo before they are interleaved
  have hnarrow {values : M256i} {x : Int} (h₀ : 16 ≤ x) (h₁ : x ≤ 240)
      (hx : lane 32 (4 * (j / 2) + j % 2) values = BitVec.ofInt 32 x) :
      lane 8 j (packusEpi16 (packsEpi32 (compactFour values) (setzero 128)) (setzero 128)) =
        BitVec.ofInt 8 x := by
    apply lane_packusEpi16 (by omega) _ (by omega) (by omega)
    apply lane_packsEpi32 hj4 _ (by omega) (by omega)
    rw [lane_compactFour _ hj4, hx]
  have huRange := uValue_blockAverage pixels0 pixels1 (2 * j)
  have hvRange := vValue_blockAverage pixels0 pixels1 (2 * j)
  have hu := lane_convertChroma hspread hred hgreen hblue (-38) (-74) 112
  have hv := lane_convertChroma hspread hred hgreen hblue 112 (-94) (-18)
  rw [uValue_eq] at hu
  rw [vValue_eq] at hv
  by_cases hparity : i % 2 = 0
  · simp only [uvByte, if_pos hparity, hcolumn]
    apply byteLane_eq
    rw [uvBlock, lane_unpacklo (by omega), if_pos hparity, ← hj]
    exact hnarrow huRange.1 huRange.2 (hu (by omega) (by omega))
  · simp only [uvByte, if_neg hparity, hcolumn]
    apply byteLane_eq
    rw [uvBlock, lane_unpacklo (by omega), if_neg hparity, ← hj]
    exact hnarrow hvRange.1 hvRange.2 (hv (by omega) (by omega))

/-! ## The picture -/

section Picture

variable {fuel width : Nat} (hwrap : width + 8 < 2 ^ 32) (hfuel : width < fuel)

include hwrap hfuel

theorem convertYRow_eq (sourceRow destination : Bytes) (destinationRow : Nat) :
    convertYRow fuel sourceRow width destination destinationRow =
      some (destination.fill destinationRow width (yByte sourceRow)) := by
  apply row_loops (by decide) (by decide) (one_dvd 8) (one_dvd width) hwrap hfuel
  · intro x m hx hle
    congr 1
    apply Bytes.fill_congr
    intro j hj
    rw [byteLane_yBlock _ hj, yByte_advance]
  · intro x m hx hle
    rw [scalarLuma_eq]

theorem convertUvRow_eq (heven : width % 2 = 0) (row0 row1 destination : Bytes)
    (destinationRow : Nat) :
    convertUvRow fuel row0 row1 width destination destinationRow =
      some (destination.fill destinationRow width (uvByte row0 row1)) := by
  apply row_loops (by decide) (by decide) (by decide) (Nat.dvd_of_mod_eq_zero heven) hwrap hfuel
  · intro x m hx hle
    congr 1
    apply Bytes.fill_congr
    intro j hj
    rw [byteLane_uvBlock _ _ hj, uvByte_advance _ _ (by omega)]
  · intro x m hx hle
    rw [scalarChroma_eq _ _ _ hx]

/-- The AVX2 converter stores the picture. -/
theorem convertBgraToNv12Avx2_eq {rowPitch height : Nat} (source destination : Bytes)
    (hwidth : 0 < width) (heven : width % 2 = 0) (hheight : 0 < height)
    (hheven : height % 2 = 0) (hheight' : height < 2 ^ 32) (hpitch : width * 4 ≤ rowPitch)
    (hfuel' : height < fuel) :
    convertBgraToNv12Avx2 fuel source rowPitch width height destination =
      some (true, nv12 source rowPitch width height destination) := by
  rw [convertBgraToNv12Avx2, if_neg (by omega)]
  apply plane_loops destination (fun m ↦ some (true, m)) hheven hheight' hfuel'
  · intro y m hy
    exact convertYRow_eq hwrap hfuel _ m _
  · intro y m hy hlt
    exact convertUvRow_eq hwrap hfuel heven _ _ m _

end Picture

end SecondScreen.Nv12.Avx2
