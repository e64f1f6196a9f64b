import SecondScreen.Machine.Intrinsics
import SecondScreen.Nv12.Planes

/-!
# The SSE2 converter

`ConvertBgraToNv12` of `Driver.cpp`: four pixels at a time as long as four are
left, then one luma byte, or one chroma pair, at a time.

Chroma is computed in 16-bit lanes throughout.  The products wrap there, and the
sums of products wrap back.
-/

namespace SecondScreen.Nv12.Sse2

open SecondScreen.Machine

/-! ## The source -/

/-- `LoadBgraChannels16`: blue, green and red. -/
def loadBgraChannels16 (source : Bytes) (channelMask zero : M128i) : M128i × M128i × M128i :=
  let pixels := loadu 128 source
  (packsEpi32 (andSi pixels channelMask) zero,
    packsEpi32 (andSi (srli 32 pixels 8) channelMask) zero,
    packsEpi32 (andSi (srli 32 pixels 16) channelMask) zero)

/-- What the vector loop for luma computes from four pixels. -/
def yBlock (pixels : Bytes) : M128i :=
  let zero := setzero 128
  let channelMask := set1 128 32 0xff
  let (blue, green, red) := loadBgraChannels16 pixels channelMask zero
  let blueProduct := unpacklo 16 (mullo 16 blue (set1 128 16 25)) zero
  let greenProduct := unpacklo 16 (mullo 16 green (set1 128 16 129)) zero
  let redProduct := unpacklo 16 (mullo 16 red (set1 128 16 66)) zero
  let yValues := add 32 (add 32 blueProduct greenProduct) redProduct
  let yValues := srli 32 (add 32 yValues (set1 128 32 128)) 8
  let yValues := add 32 yValues (set1 128 32 16)
  packusEpi16 (packsEpi32 yValues zero) zero

/-- The average of a channel of two rows over adjacent columns. -/
def averageChannel (row0 row1 zero : M128i) : M128i :=
  srli 16 (packsEpi32 (maddEpi16 (add 16 row0 row1) (set1 128 16 1)) zero) 2

/-- One of the two chroma components. -/
def chromaValues (redAverage greenAverage blueAverage : M128i)
    (redCoefficient greenCoefficient blueCoefficient : Int) : M128i :=
  let bias128 := set1 128 16 128
  let values := add 16
    (add 16
      (mullo 16 redAverage (set1 128 16 redCoefficient))
      (mullo 16 greenAverage (set1 128 16 greenCoefficient)))
    (mullo 16 blueAverage (set1 128 16 blueCoefficient))
  add 16 (srai 16 (add 16 values bias128) 8) bias128

/-- What the vector loop for chroma computes from four columns of two rows. -/
def uvBlock (pixels0 pixels1 : Bytes) : M128i :=
  let zero := setzero 128
  let channelMask := set1 128 32 0xff
  let (blue0, green0, red0) := loadBgraChannels16 pixels0 channelMask zero
  let (blue1, green1, red1) := loadBgraChannels16 pixels1 channelMask zero
  let blueAverage := averageChannel blue0 blue1 zero
  let greenAverage := averageChannel green0 green1 zero
  let redAverage := averageChannel red0 red1 zero
  let uValues := chromaValues redAverage greenAverage blueAverage (-38) (-74) 112
  let vValues := chromaValues redAverage greenAverage blueAverage 112 (-94) (-18)
  packusEpi16 (unpacklo 16 uValues vValues) zero

/-- `ConvertBgraToNv12`, from the mapped picture to the payload of a slot. -/
def convertBgraToNv12 (fuel : Nat) (source : Bytes) (rowPitch width height : Nat)
    (payload : Bytes) : Option Bytes := do
  let yPlaneBytes := width * height
  let (_, payload) ← forLoop (fun y ↦ y < height) 1
    (fun y m ↦ do
      let sourceRow := source.advance (y * rowPitch)
      let destinationRow := y * width
      let (x, m) ← forLoop (fun x ↦ (x + 4) % 2 ^ 32 ≤ width) 4
        (fun x m ↦ some (storeLow 4 m (destinationRow + x) (yBlock (sourceRow.advance (4 * x)))))
        fuel 0 m
      let (_, m) ← forLoop (fun x ↦ x < width) 1
        (fun x m ↦ some (scalarLuma sourceRow destinationRow x m)) fuel x m
      return m)
    fuel 0 payload
  let (_, payload) ← forLoop (fun y ↦ y < height) 2
    (fun y m ↦ do
      let row0 := source.advance (y * rowPitch)
      let row1 := source.advance ((y + 1) * rowPitch)
      let destinationRow := yPlaneBytes + y / 2 * width
      let (x, m) ← forLoop (fun x ↦ (x + 4) % 2 ^ 32 ≤ width) 4
        (fun x m ↦ some (storeLow 4 m (destinationRow + x)
          (uvBlock (row0.advance (4 * x)) (row1.advance (4 * x)))))
        fuel 0 m
      let (_, m) ← forLoop (fun x ↦ x < width) 2
        (fun x m ↦ some (scalarChroma row0 row1 destinationRow x m)) fuel x m
      return m)
    fuel 0 payload
  return payload

/-! ## The blocks -/

/-- Masking and packing a channel. -/
theorem lane_packs_masked {v b : M128i} {i x : Nat} (hi : i < 4) (hx : x ≤ 255)
    (hv : lane 32 i v &&& BitVec.ofInt 32 255 = BitVec.ofInt 32 x) :
    lane 16 i (packsEpi32 (andSi v (set1 128 32 0xff)) b) = BitVec.ofInt 16 x := by
  have hand : lane 32 i (andSi v (set1 128 32 0xff)) =
      lane 32 i v &&& lane 32 i (set1 128 32 0xff) := BitVec.extractLsb'_and
  apply lane_packsEpi32 hi _ (by omega) (by omega)
  rw [hand, lane_set1 (by omega), hv]

/-- The channels of the four pixels of a block. -/
theorem lane_loadBgraChannels16 (pixels : Bytes) {i : Nat} (hi : i < 4) :
    let (blue, green, red) := loadBgraChannels16 pixels (set1 128 32 0xff) (setzero 128)
    lane 16 i blue = BitVec.ofInt 16 (channel pixels kBlue i) ∧
      lane 16 i green = BitVec.ofInt 16 (channel pixels kGreen i) ∧
      lane 16 i red = BitVec.ofInt 16 (channel pixels kRed i) := by
  have hi' : 32 * (i + 1) ≤ 128 := by omega
  refine ⟨?_, ?_, ?_⟩
  · apply lane_packs_masked hi (channel_le pixels kBlue i)
    have h := lane_byte pixels hi' (show kBlue < 4 by decide)
    rwa [kBlue, Nat.mul_zero, BitVec.ushiftRight_zero] at h
  · apply lane_packs_masked hi (channel_le pixels kGreen i)
    rw [srli, lane_mapLanes _ _ hi']
    exact lane_byte pixels hi' (show kGreen < 4 by decide)
  · apply lane_packs_masked hi (channel_le pixels kRed i)
    rw [srli, lane_mapLanes _ _ hi']
    exact lane_byte pixels hi' (show kRed < 4 by decide)

/-- A product of the luma formula: it may exceed the signed 16-bit range, and is
extended as an unsigned number. -/
theorem lane_product {a : M128i} {i : Nat} {x : Int} (k : Int) (hi : i < 4)
    (ha : lane 16 i a = BitVec.ofInt 16 x) (h₀ : 0 ≤ x * k) (h₁ : x * k < 65536) :
    lane 32 i (unpacklo 16 (mullo 16 a (set1 128 16 k)) (setzero 128)) =
      BitVec.ofInt 32 (x * k) :=
  lane_unpacklo_zero hi (lane_mullo (by omega) ha (lane_set1 (by omega) k)) h₀ h₁

/-- Four pixels give their four luma bytes. -/
theorem byteLane_yBlock (pixels : Bytes) {i : Nat} (hi : i < 4) :
    byteLane (yBlock pixels) i = yByte pixels i := by
  have hi' : 32 * (i + 1) ≤ 128 := by omega
  obtain ⟨hblue, hgreen, hred⟩ := lane_loadBgraChannels16 pixels hi
  have hb := channel_le pixels kBlue i
  have hg := channel_le pixels kGreen i
  have hr := channel_le pixels kRed i
  have hblueProduct := lane_product 25 hi hblue (by omega) (by omega)
  have hgreenProduct := lane_product 129 hi hgreen (by omega) (by omega)
  have hredProduct := lane_product 66 hi hred (by omega) (by omega)
  have hsum := lane_add hi' (lane_add hi' (lane_add hi' hblueProduct hgreenProduct) hredProduct)
    (lane_set1 hi' 128)
  have hluma := lane_add hi' (lane_srli hi' hsum (by omega) (by omega) 8) (lane_set1 hi' 16)
  rw [lumaValue_eq] at hluma
  have hrange := lumaValue_channel pixels i
  apply byteLane_eq
  apply lane_packusEpi16 (by omega) _ (by omega) (by omega)
  exact lane_packsEpi32 hi hluma (by omega) (by omega)

/-- A lane of the averages, of the block of columns `2 * i` and `2 * i + 1`. -/
theorem lane_averageChannel {row0 row1 : M128i} {pixels0 pixels1 : Bytes} {c i : Nat} (hi : i < 2)
    (h0 : ∀ j < 4, lane 16 j row0 = BitVec.ofInt 16 (channel pixels0 c j))
    (h1 : ∀ j < 4, lane 16 j row1 = BitVec.ofInt 16 (channel pixels1 c j)) :
    lane 16 i (averageChannel row0 row1 (setzero 128)) =
      BitVec.ofInt 16 (blockAverage pixels0 pixels1 c (2 * i)) := by
  have hsum (j : Nat) (hj : j < 4) := lane_add (by omega : 16 * (j + 1) ≤ 128) (h0 j hj) (h1 j hj)
  have hone (j : Nat) (hj : j < 4) : lane 16 j (set1 128 16 1) = BitVec.ofInt 16 1 :=
    lane_set1 (by omega) 1
  have hle := channel_le
  have h₁ := hle pixels0 c (2 * i)
  have h₂ := hle pixels1 c (2 * i)
  have h₃ := hle pixels0 c (2 * i + 1)
  have h₄ := hle pixels1 c (2 * i + 1)
  have hmadd := lane_maddEpi16 (by omega) (hsum (2 * i) (by omega)) (hsum (2 * i + 1) (by omega))
    (hone (2 * i) (by omega)) (hone (2 * i + 1) (by omega)) (by omega) (by omega) (by omega)
    (by omega)
  have hpacks : lane 16 i (packsEpi32 (maddEpi16 (add 16 row0 row1) (set1 128 16 1))
      (setzero 128)) = _ := lane_packsEpi32 (by omega) hmadd (by omega) (by omega)
  rw [averageChannel, lane_srli (by omega) hpacks (by omega) (by omega),
    Int.shiftRight_eq_div_pow, blockAverage]
  congr 1
  push_cast
  congr 1
  ring

/-- A lane of one of the two chroma components, if its value is in the byte
range: then nothing has wrapped in the end. -/
theorem lane_chromaValues {red green blue : M128i} {i : Nat} {r g b : Int} (hi : i < 8)
    (hr : lane 16 i red = BitVec.ofInt 16 r) (hg : lane 16 i green = BitVec.ofInt 16 g)
    (hb : lane 16 i blue = BitVec.ofInt 16 b) (cr cg cb : Int)
    (h₀ : 0 ≤ ((r * cr + g * cg + b * cb + 128) >>> (8 : Nat)) + 128)
    (h₁ : ((r * cr + g * cg + b * cb + 128) >>> (8 : Nat)) + 128 ≤ 255) :
    lane 16 i (chromaValues red green blue cr cg cb) =
      BitVec.ofInt 16 (((r * cr + g * cg + b * cb + 128) >>> (8 : Nat)) + 128) := by
  have hi' : 16 * (i + 1) ≤ 128 := by omega
  have hproducts := lane_add hi'
    (lane_add hi' (lane_mullo hi' hr (lane_set1 hi' cr)) (lane_mullo hi' hg (lane_set1 hi' cg)))
    (lane_mullo hi' hb (lane_set1 hi' cb))
  have hsum := lane_add hi' hproducts (lane_set1 hi' 128)
  have hrange : -2 ^ 15 ≤ r * cr + g * cg + b * cb + 128 ∧
      r * cr + g * cg + b * cb + 128 < 2 ^ 15 := by
    rw [Int.shiftRight_eq_div_pow] at h₀ h₁
    omega
  exact lane_add hi' (lane_srai hi' (by decide) hsum hrange.1 hrange.2 8) (lane_set1 hi' 128)

/-- Four columns of two rows give their two pairs of chroma bytes. -/
theorem byteLane_uvBlock (pixels0 pixels1 : Bytes) {i : Nat} (hi : i < 4) :
    byteLane (uvBlock pixels0 pixels1) i = uvByte pixels0 pixels1 i := by
  obtain ⟨j, hj⟩ : ∃ j, j = i / 2 := ⟨_, rfl⟩
  have hj2 : j < 2 := by omega
  have hcolumn : i - i % 2 = 2 * j := by omega
  have hblue := lane_averageChannel hj2
    (fun k hk ↦ (lane_loadBgraChannels16 pixels0 hk).1)
    (fun k hk ↦ (lane_loadBgraChannels16 pixels1 hk).1)
  have hgreen := lane_averageChannel hj2
    (fun k hk ↦ (lane_loadBgraChannels16 pixels0 hk).2.1)
    (fun k hk ↦ (lane_loadBgraChannels16 pixels1 hk).2.1)
  have hred := lane_averageChannel hj2
    (fun k hk ↦ (lane_loadBgraChannels16 pixels0 hk).2.2)
    (fun k hk ↦ (lane_loadBgraChannels16 pixels1 hk).2.2)
  have huRange := uValue_blockAverage pixels0 pixels1 (2 * j)
  have hvRange := vValue_blockAverage pixels0 pixels1 (2 * j)
  have hu := lane_chromaValues (by omega) hred hgreen hblue (-38) (-74) 112
  have hv := lane_chromaValues (by omega) hred hgreen hblue 112 (-94) (-18)
  rw [uValue_eq] at hu
  rw [vValue_eq] at hv
  by_cases hparity : i % 2 = 0
  · simp only [uvByte, if_pos hparity, hcolumn]
    apply byteLane_eq
    apply lane_packusEpi16 (by omega) _ (by omega) (by omega)
    rw [lane_unpacklo (by omega), if_pos hparity, ← hj]
    exact hu (by omega) (by omega)
  · simp only [uvByte, if_neg hparity, hcolumn]
    apply byteLane_eq
    apply lane_packusEpi16 (by omega) _ (by omega) (by omega)
    rw [lane_unpacklo (by omega), if_neg hparity, ← hj]
    exact hv (by omega) (by omega)

/-! ## The picture -/

/-- The SSE2 converter stores the picture. -/
theorem convertBgraToNv12_eq {fuel rowPitch width height : Nat} (source payload : Bytes)
    (hwrap : width + 4 < 2 ^ 32) (heven : width % 2 = 0) (hheven : height % 2 = 0)
    (hheight : height < 2 ^ 32) (hfuel : width < fuel) (hfuel' : height < fuel) :
    convertBgraToNv12 fuel source rowPitch width height payload =
      some (nv12 source rowPitch width height payload) := by
  apply plane_loops payload some hheven hheight hfuel'
  · intro y m hy
    apply row_loops (by decide) (by decide) (one_dvd 4) (one_dvd width) hwrap hfuel
    · intro x m hx hle
      congr 1
      apply Bytes.fill_congr
      intro j hj
      rw [byteLane_yBlock _ hj, yByte_advance]
      rfl
    · intro x m hx hle
      rw [scalarLuma_eq]
      rfl
  · intro y m hy hlt
    apply row_loops (by decide) (by decide) (by decide) (Nat.dvd_of_mod_eq_zero heven) hwrap hfuel
    · intro x m hx hle
      congr 1
      apply Bytes.fill_congr
      intro j hj
      rw [byteLane_uvBlock _ _ hj, uvByte_advance _ _ (by omega)]
      rfl
    · intro x m hx hle
      rw [scalarChroma_eq _ _ _ hx]
      rfl

end SecondScreen.Nv12.Sse2
