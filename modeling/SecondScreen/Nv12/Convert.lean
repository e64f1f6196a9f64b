import SecondScreen.Nv12.Avx2
import SecondScreen.Nv12.Sse2

/-!
# The two converters agree

Both store the picture of `SecondScreen.Nv12.Scalar`, whatever the instruction
set, and nothing else.  The only widths that the AVX2 converter cannot handle are
those next to `2 ^ 32`, where its loop over blocks does not end; the driver takes
no picture that wide.
-/

namespace SecondScreen.Nv12

open SecondScreen.Machine Avx2 Sse2

variable {source destination : Bytes} {rowPitch width height : Nat}

/-! ## The picture by coordinates -/

/-- The formulas at each pixel and at each 2×2 block; below the picture nothing
has changed. -/
structure IsNv12 (source : Bytes) (rowPitch width height : Nat) (before after : Bytes) :
    Prop where
  luma : ∀ x < width, ∀ y < height,
    let c (i : Nat) := channel (row source rowPitch y) i x
    after (y * width + x) = UInt8.ofInt (lumaValue (c kRed) (c kGreen) (c kBlue))
  chroma : ∀ x < width, x % 2 = 0 → ∀ y < height, y % 2 = 0 →
    let c (i : Nat) := blockAverage (row source rowPitch y) (row source rowPitch (y + 1)) i x
    let offset := width * height + y / 2 * width + x
    after offset = UInt8.ofInt (uValue (c kRed) (c kGreen) (c kBlue)) ∧
      after (offset + 1) = UInt8.ofInt (vValue (c kRed) (c kGreen) (c kBlue))
  beyond : ∀ k, 3 * (width * height) / 2 ≤ k → after k = before k

/-- The size of the picture, by its two planes. -/
theorem picture_size (hheven : height % 2 = 0) :
    3 * (width * height) / 2 = width * height + width * (height / 2) := by
  obtain ⟨n, rfl⟩ : ∃ n, height = 2 * n := ⟨height / 2, by omega⟩
  rw [Nat.mul_div_cancel_left n two_pos, Nat.mul_left_comm width 2 n]
  omega

/-- A byte of a plane with `n` rows. -/
theorem offset_lt {x y n : Nat} (hx : x < width) (hy : y < n) : y * width + x < width * n := by
  have h := Nat.mul_le_mul_right width (Nat.succ_le_of_lt hy)
  rw [Nat.succ_mul, Nat.mul_comm n] at h
  omega

theorem nv12_isNv12 (heven : width % 2 = 0) (hheven : height % 2 = 0) :
    IsNv12 source rowPitch width height destination
      (nv12 source rowPitch width height destination) where
  luma := by
    intro x hx y hy
    have hlt := offset_lt hx hy
    rw [nv12, if_pos (by omega), nv12Byte_luma hx hy]
    rfl
  chroma := by
    intro x hx hxeven y hy hyeven c offset
    have hx' : x + 1 < width := by omega
    have hrow : 2 * (y / 2) = y := by omega
    have hrows : y / 2 < height / 2 := by omega
    have hbyte (j : Nat) (hj : j < width) :
        nv12 source rowPitch width height destination (width * height + (y / 2 * width + j)) =
          uvByte (row source rowPitch y) (row source rowPitch (y + 1)) j := by
      have hlt := offset_lt hj hrows
      rw [nv12, if_pos (by omega), nv12Byte_chroma hj, hrow]
    have hodd : (x + 1) % 2 = 1 := by omega
    constructor
    · have h := hbyte x hx
      rw [← Nat.add_assoc] at h
      rw [h]
      simp [uvByte, hxeven, c]
    · have h := hbyte (x + 1) hx'
      rw [← Nat.add_assoc, ← Nat.add_assoc] at h
      rw [h]
      simp [uvByte, hodd, c]
  beyond := by
    intro k hk
    rw [picture_size hheven] at hk
    rw [nv12, if_neg (by omega)]

/-! ## Widths next to the wrap -/

/-- No fuel is enough for a row of the AVX2 converter if the counter wraps before
the guard of its vector loop fails. -/
theorem convertYRow_eq_none (hwidth : 2 ^ 32 - 8 ≤ width) (fuel : Nat) (sourceRow m : Bytes)
    (destinationRow : Nat) : convertYRow fuel sourceRow width m destinationRow = none := by
  have hloop : forLoop (fun x ↦ (x + 8) % 2 ^ 32 ≤ width) 8
      (fun x m ↦ some (storeLow 8 m (destinationRow + x)
        (Avx2.yBlock (sourceRow.advance (4 * x))))) fuel 0 m = none := by
    apply forLoop_eq_none fun x ↦ x % 8 = 0
    · intro x hx
      exact decide_eq_true (by omega)
    · intro x hx
      omega
    · rfl
  rw [convertYRow, hloop]
  rfl

/-- For such a width the AVX2 converter does not return. -/
theorem convertBgraToNv12Avx2_eq_none (hwidth : 2 ^ 32 - 8 ≤ width) (heven : width % 2 = 0)
    (hheight : 0 < height) (hheven : height % 2 = 0) (hpitch : width * 4 ≤ rowPitch) (fuel : Nat) :
    convertBgraToNv12Avx2 fuel source rowPitch width height destination = none := by
  have hloop : forLoop (fun y ↦ y < height) 1
      (fun y m ↦ convertYRow fuel (source.advance (y * rowPitch)) width m (y * width))
      fuel 0 destination = none := by
    cases fuel with
    | zero => rfl
    | succ fuel =>
      rw [forLoop, if_pos (decide_eq_true hheight), convertYRow_eq_none hwidth]
      rfl
  rw [convertBgraToNv12Avx2, if_neg (by omega)]
  show Option.bind (forLoop _ _ _ _ _ _) _ = _
  rw [hloop]
  rfl

/-! ## The result -/

/-- For every even width and height and every source, both converters end and
store the picture: the AVX2 converter for every row pitch that holds a row, the
SSE2 converter for rows without padding, whose pitch is a `UINT`. -/
theorem converters_store_nv12 (hwidth : 2 ≤ width) (heven : width % 2 = 0)
    (hwrap : width + 8 < 2 ^ 32) (hheight : 2 ≤ height) (hheven : height % 2 = 0)
    (hheight' : height < 2 ^ 32) :
    ∃ enough, ∀ fuel ≥ enough, ∀ source destination : Bytes,
      (∀ rowPitch ≥ 4 * width,
        convertBgraToNv12Avx2 fuel source rowPitch width height destination =
          some (true, nv12 source rowPitch width height destination) ∧
        IsNv12 source rowPitch width height destination
          (nv12 source rowPitch width height destination)) ∧
      (4 * width < 2 ^ 32 →
        convertBgraToNv12 fuel source (4 * width) width height destination =
          some (nv12 source (4 * width) width height destination)) := by
  refine ⟨width + height + 1, fun fuel hfuel source destination ↦ ⟨fun rowPitch hpitch ↦ ?_, ?_⟩⟩
  · constructor
    · exact convertBgraToNv12Avx2_eq hwrap (by omega) source destination (by omega) heven
        (by omega) hheven hheight' (by omega) (by omega)
    · exact nv12_isNv12 heven hheven
  · intro hpitch
    exact convertBgraToNv12_eq source destination (by omega) heven hheven hheight' (by omega)
      (by omega)

/-- Rows of ten pixels: vector blocks and a rest that is converted pixel by pixel. -/
theorem converters_store_nv12_ten_by_four :
    ∃ enough, ∀ fuel ≥ enough, ∀ source destination : Bytes,
      (∀ rowPitch ≥ 4 * 10,
        convertBgraToNv12Avx2 fuel source rowPitch 10 4 destination =
          some (true, nv12 source rowPitch 10 4 destination) ∧
        IsNv12 source rowPitch 10 4 destination (nv12 source rowPitch 10 4 destination)) ∧
      (4 * 10 < 2 ^ 32 →
        convertBgraToNv12 fuel source (4 * 10) 10 4 destination =
          some (nv12 source (4 * 10) 10 4 destination)) :=
  converters_store_nv12 (by decide) (by decide) (by decide) (by decide) (by decide) (by decide)

/-- With the largest even width the vector loop of the AVX2 converter does not
end: however long it runs, it does not return, and the picture is not stored. -/
theorem avx2_never_returns :
    ¬ ∃ fuel result, convertBgraToNv12Avx2 fuel (fun _ ↦ 0) (4 * (2 ^ 32 - 2)) (2 ^ 32 - 2) 2
      (fun _ ↦ 0) = some result := by
  rintro ⟨fuel, result, h⟩
  rw [convertBgraToNv12Avx2_eq_none (by decide) (by decide) (by decide) (by decide)
    (by decide)] at h
  cases h

end SecondScreen.Nv12
