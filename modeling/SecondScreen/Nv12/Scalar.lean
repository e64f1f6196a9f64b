import Mathlib.Data.Int.Init
import Mathlib.Tactic.Linarith
import Mathlib.Tactic.Ring
import SecondScreen.Machine.Memory

/-!
# NV12 from BGRA, pixel by pixel

The picture that the driver's converters compute, as a function of the source
bytes: a luma plane of `width * height` bytes, and below it half as many bytes
of interleaved chroma, one `U V` pair for each 2×2 block.  The coefficients are
those of `Driver.cpp` and `Avx2Convert.cpp`.

Nothing here depends on how the bytes are computed or stored.  That the two
vectorised converters store exactly these bytes is `SecondScreen.Nv12.Convert`.
-/

namespace SecondScreen.Nv12

open SecondScreen.Machine

/-- Offset of the blue byte within a BGRA pixel. -/
def kBlue : Nat := 0

/-- Offset of the green byte within a BGRA pixel. -/
def kGreen : Nat := 1

/-- Offset of the red byte within a BGRA pixel. -/
def kRed : Nat := 2

/-- `ClampByte` of both converters. -/
def clampByte (value : Int) : UInt8 :=
  UInt8.ofInt (if value < 0 then 0 else if value > 255 then 255 else value)

/-- The luma formula. -/
def lumaValue (red green blue : Int) : Int :=
  ((66 * red + 129 * green + 25 * blue + 128) >>> (8 : Nat)) + 16

/-- The first chroma formula. -/
def uValue (red green blue : Int) : Int :=
  ((-38 * red - 74 * green + 112 * blue + 128) >>> (8 : Nat)) + 128

/-- The second chroma formula. -/
def vValue (red green blue : Int) : Int :=
  ((112 * red - 94 * green - 18 * blue + 128) >>> (8 : Nat)) + 128

/-- One channel of the pixel in column `x` of a row. -/
def channel (row : Bytes) (c x : Nat) : Nat := (row (4 * x + c)).toNat

/-- The truncated average of one channel over the 2×2 block whose left column is
`x`. -/
def blockAverage (row0 row1 : Bytes) (c x : Nat) : Nat :=
  (channel row0 c x + channel row0 c (x + 1) + channel row1 c x + channel row1 c (x + 1)) / 4

/-- The luma byte of column `x` of a row. -/
def yByte (row : Bytes) (x : Nat) : UInt8 :=
  UInt8.ofInt (lumaValue (channel row kRed x) (channel row kGreen x) (channel row kBlue x))

/-- The chroma byte in column `x` of the chroma row under two source rows: `U`
in the even columns, `V` in the odd ones. -/
def uvByte (row0 row1 : Bytes) (x : Nat) : UInt8 :=
  let average c := (blockAverage row0 row1 c (x - x % 2) : Int)
  if x % 2 = 0 then UInt8.ofInt (uValue (average kRed) (average kGreen) (average kBlue))
  else UInt8.ofInt (vValue (average kRed) (average kGreen) (average kBlue))

/-- The source row `y`. -/
def row (source : Bytes) (rowPitch y : Nat) : Bytes := fun k ↦ source (y * rowPitch + k)

/-- Byte `k` of the NV12 picture. -/
def nv12Byte (source : Bytes) (rowPitch width height k : Nat) : UInt8 :=
  if k < width * height then yByte (row source rowPitch (k / width)) (k % width)
  else
    let j := k - width * height
    uvByte (row source rowPitch (2 * (j / width))) (row source rowPitch (2 * (j / width) + 1))
      (j % width)

/-- A destination that holds the picture in its first `3wh/2` bytes and is
otherwise as it was. -/
def nv12 (source : Bytes) (rowPitch width height : Nat) (destination : Bytes) : Bytes := fun k ↦
  if k < width * height + width * (height / 2) then nv12Byte source rowPitch width height k
  else destination k

/-! ## The formulas in the order in which the vector code computes them -/

theorem lumaValue_eq (red green blue : Int) :
    ((blue * 25 + green * 129 + red * 66 + 128) >>> (8 : Nat)) + 16 = lumaValue red green blue := by
  unfold lumaValue
  congr 2
  ring

theorem uValue_eq (red green blue : Int) :
    ((red * -38 + green * -74 + blue * 112 + 128) >>> (8 : Nat)) + 128 =
      uValue red green blue := by
  unfold uValue
  congr 2
  ring

theorem vValue_eq (red green blue : Int) :
    ((red * 112 + green * -94 + blue * -18 + 128) >>> (8 : Nat)) + 128 =
      vValue red green blue := by
  unfold vValue
  congr 2
  ring

/-! ## Ranges

No formula leaves the byte range, so neither saturation nor wrapping matters at
the end of any of the computations. -/

theorem channel_le (row : Bytes) (c x : Nat) : channel row c x ≤ 255 := by
  have h := (row (4 * x + c)).toNat_lt
  unfold channel
  omega

theorem blockAverage_le (row0 row1 : Bytes) (c x : Nat) : blockAverage row0 row1 c x ≤ 255 := by
  have h₁ := channel_le row0 c x
  have h₂ := channel_le row0 c (x + 1)
  have h₃ := channel_le row1 c x
  have h₄ := channel_le row1 c (x + 1)
  unfold blockAverage
  omega

section Range

variable {red green blue : Int}
variable (hr : 0 ≤ red ∧ red ≤ 255) (hg : 0 ≤ green ∧ green ≤ 255) (hb : 0 ≤ blue ∧ blue ≤ 255)

include hr hg hb

theorem lumaValue_range : 16 ≤ lumaValue red green blue ∧ lumaValue red green blue ≤ 235 := by
  simp only [lumaValue, Int.shiftRight_eq_div_pow]
  omega

theorem uValue_range : 16 ≤ uValue red green blue ∧ uValue red green blue ≤ 240 := by
  simp only [uValue, Int.shiftRight_eq_div_pow]
  omega

theorem vValue_range : 16 ≤ vValue red green blue ∧ vValue red green blue ≤ 240 := by
  simp only [vValue, Int.shiftRight_eq_div_pow]
  omega

end Range

theorem lumaValue_channel (row : Bytes) (x : Nat) :
    let y := lumaValue (channel row kRed x) (channel row kGreen x) (channel row kBlue x)
    16 ≤ y ∧ y ≤ 235 := by
  have hr := channel_le row kRed x
  have hg := channel_le row kGreen x
  have hb := channel_le row kBlue x
  exact lumaValue_range (by omega) (by omega) (by omega)

theorem uValue_blockAverage (row0 row1 : Bytes) (x : Nat) :
    let u := uValue (blockAverage row0 row1 kRed x) (blockAverage row0 row1 kGreen x)
      (blockAverage row0 row1 kBlue x)
    16 ≤ u ∧ u ≤ 240 := by
  have hr := blockAverage_le row0 row1 kRed x
  have hg := blockAverage_le row0 row1 kGreen x
  have hb := blockAverage_le row0 row1 kBlue x
  exact uValue_range (by omega) (by omega) (by omega)

theorem vValue_blockAverage (row0 row1 : Bytes) (x : Nat) :
    let v := vValue (blockAverage row0 row1 kRed x) (blockAverage row0 row1 kGreen x)
      (blockAverage row0 row1 kBlue x)
    16 ≤ v ∧ v ≤ 240 := by
  have hr := blockAverage_le row0 row1 kRed x
  have hg := blockAverage_le row0 row1 kGreen x
  have hb := blockAverage_le row0 row1 kBlue x
  exact vValue_range (by omega) (by omega) (by omega)

/-- Clamping does nothing to a value in the byte range. -/
theorem clampByte_of_range {value : Int} (h₀ : 0 ≤ value) (h₁ : value ≤ 255) :
    clampByte value = UInt8.ofInt value := by
  simp [clampByte, not_lt.2 h₀, not_lt.2 h₁]

end SecondScreen.Nv12
