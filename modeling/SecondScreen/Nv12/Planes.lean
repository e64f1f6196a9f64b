import Mathlib.Data.Nat.ModEq
import SecondScreen.Machine.Loop
import SecondScreen.Nv12.Scalar

/-!
# Rows and planes

What the two converters share: a row is a loop over blocks of pixels and then a
loop over what is left of it, and a picture is a loop over luma rows and then a
loop over chroma rows.  A converter whose blocks are right stores the picture.
-/

namespace SecondScreen.Nv12

open SecondScreen.Machine

/-! ## Blocks -/

theorem channel_advance (row : Bytes) (c x i : Nat) :
    channel (row.advance (4 * x)) c i = channel row c (x + i) := by
  have h : 4 * x + (4 * i + c) = 4 * (x + i) + c := by ring
  rw [channel, Bytes.advance, h, channel]

theorem yByte_advance (row : Bytes) (x i : Nat) :
    yByte (row.advance (4 * x)) i = yByte row (x + i) := by
  simp only [yByte, channel_advance]

theorem blockAverage_advance (row0 row1 : Bytes) (c x i : Nat) :
    blockAverage (row0.advance (4 * x)) (row1.advance (4 * x)) c i =
      blockAverage row0 row1 c (x + i) := by
  simp only [blockAverage, channel_advance, Nat.add_assoc]

/-- A block that starts in an even column keeps the parities. -/
theorem uvByte_advance (row0 row1 : Bytes) {x : Nat} (hx : x % 2 = 0) (i : Nat) :
    uvByte (row0.advance (4 * x)) (row1.advance (4 * x)) i = uvByte row0 row1 (x + i) := by
  have hparity : (x + i) % 2 = i % 2 := by omega
  have hcolumn : x + i - i % 2 = x + (i - i % 2) := by omega
  simp only [uvByte, blockAverage_advance, hparity, hcolumn]

/-! ## A row -/

/-- A round of the scalar loop for luma, the same in both converters. -/
def scalarLuma (sourceRow : Bytes) (destinationRow x : Nat) (m : Bytes) : Bytes :=
  let blue := channel sourceRow kBlue x
  let green := channel sourceRow kGreen x
  let red := channel sourceRow kRed x
  m.fill (destinationRow + x) 1 fun _ ↦ clampByte (lumaValue red green blue)

/-- A round of the scalar loop for chroma, the same in both converters. -/
def scalarChroma (row0 row1 : Bytes) (destinationRow x : Nat) (m : Bytes) : Bytes :=
  let blue := blockAverage row0 row1 kBlue x
  let green := blockAverage row0 row1 kGreen x
  let red := blockAverage row0 row1 kRed x
  let m := m.fill (destinationRow + x) 1 fun _ ↦ clampByte (uValue red green blue)
  m.fill (destinationRow + x + 1) 1 fun _ ↦ clampByte (vValue red green blue)

theorem scalarLuma_eq (sourceRow : Bytes) (destinationRow x : Nat) (m : Bytes) :
    scalarLuma sourceRow destinationRow x m =
      m.fill (destinationRow + x) 1 fun j ↦ yByte sourceRow (x + j) := by
  obtain ⟨hlow, hhigh⟩ := lumaValue_channel sourceRow x
  dsimp only [scalarLuma]
  rw [clampByte_of_range (le_trans (by decide) hlow) (hhigh.trans (by decide))]
  apply Bytes.fill_congr
  intro j hj
  obtain rfl : j = 0 := by omega
  rfl

theorem scalarChroma_eq (row0 row1 : Bytes) (destinationRow : Nat) {x : Nat} (hx : 2 ∣ x)
    (m : Bytes) :
    scalarChroma row0 row1 destinationRow x m =
      m.fill (destinationRow + x) 2 fun j ↦ uvByte row0 row1 (x + j) := by
  obtain ⟨hulow, huhigh⟩ := uValue_blockAverage row0 row1 x
  obtain ⟨hvlow, hvhigh⟩ := vValue_blockAverage row0 row1 x
  have hu : uvByte row0 row1 x = UInt8.ofInt (uValue (blockAverage row0 row1 kRed x)
      (blockAverage row0 row1 kGreen x) (blockAverage row0 row1 kBlue x)) := by
    simp [uvByte, Nat.mod_eq_zero_of_dvd hx]
  have hv : uvByte row0 row1 (x + 1) = UInt8.ofInt (vValue (blockAverage row0 row1 kRed x)
      (blockAverage row0 row1 kGreen x) (blockAverage row0 row1 kBlue x)) := by
    have hodd : (x + 1) % 2 = 1 := by omega
    simp [uvByte, hodd]
  have hfirst : (m.fill (destinationRow + x) 1 fun _ ↦ uvByte row0 row1 x) =
      m.fill (destinationRow + x) 1 fun j ↦ uvByte row0 row1 (x + j) := by
    apply Bytes.fill_congr
    intro j hj
    obtain rfl : j = 0 := by omega
    rfl
  dsimp only [scalarChroma]
  rw [clampByte_of_range (le_trans (by decide) hulow) (huhigh.trans (by decide)),
    clampByte_of_range (le_trans (by decide) hvlow) (hvhigh.trans (by decide)), ← hu, ← hv, hfirst]
  apply Bytes.fill_fill
  intro j hj
  obtain rfl : j = 0 := by omega
  rfl

/-- A row of which blocks of `step` bytes are written as long as one is left, and
then `tail` bytes at a time. -/
theorem row_loops {step tail width fuel base : Nat} {vec scalar : Nat → Bytes → Option Bytes}
    {m f : Bytes} (hstep : 0 < step) (htail : 0 < tail) (hdvd : tail ∣ step)
    (hwidth : tail ∣ width) (hwrap : width + step < 2 ^ 32) (hfuel : width < fuel)
    (hvec : ∀ x m, step ∣ x → x + step ≤ width →
      vec x m = some (m.fill (base + x) step fun j ↦ f (x + j)))
    (hscalar : ∀ x m, tail ∣ x → x + tail ≤ width →
      scalar x m = some (m.fill (base + x) tail fun j ↦ f (x + j))) :
    (do
      let (x, m) ← forLoop (fun x ↦ (x + step) % 2 ^ 32 ≤ width) step vec fuel 0 m
      let (_, m) ← forLoop (fun x ↦ x < width) tail scalar fuel x m
      return m) = some (m.fill base width f) := by
  -- the multiple of `step` up to which there are whole blocks
  obtain ⟨x, hx⟩ : ∃ x, x = width / step * step := ⟨_, rfl⟩
  have hle : x ≤ width := hx ▸ Nat.div_mul_le_self width step
  have hlt : width < x + step := by
    have h := Nat.lt_mul_div_succ width hstep
    rw [Nat.mul_comm, Nat.succ_mul, ← hx] at h
    exact h
  have hdvd' : step ∣ x := hx ▸ Nat.dvd_mul_left step _
  have hblocks : forLoop (fun x ↦ (x + step) % 2 ^ 32 ≤ width) step vec fuel 0 m =
      some (x, m.fill base x f) := by
    have h : forLoop (fun x ↦ (x + step) % 2 ^ 32 ≤ width) step vec fuel 0 (m.fill base 0 f) =
        some (x, m.fill base x f) := by
      apply forLoop_fill hstep (Nat.dvd_zero step) hdvd' (Nat.zero_le x) (by omega) _ _ _ (by omega)
      · intro y hy
        rw [Nat.mod_eq_of_lt (by omega)]
        exact decide_eq_true (hy.trans hle)
      · rw [Nat.mod_eq_of_lt (by omega)]
        exact decide_eq_false (by omega)
      · exact fun y m hy hyx ↦ hvec y m hy (hyx.trans hle)
    rwa [Bytes.fill_zero] at h
  have hrest : forLoop (fun x ↦ x < width) tail scalar fuel x (m.fill base x f) =
      some (width, m.fill base width f) := by
    apply forLoop_fill htail (hdvd.trans hdvd') hwidth hle (by omega) _ _ hscalar hfuel
    · exact fun y hy ↦ decide_eq_true (by omega)
    · exact decide_eq_false (lt_irrefl width)
  rw [hblocks]
  show (forLoop (fun x ↦ x < width) tail scalar fuel x (m.fill base x f)).bind _ = _
  rw [hrest]
  rfl

/-! ## A picture -/

section Planes

variable {source : Bytes} {rowPitch width height : Nat}

/-- The luma bytes of a picture, row by row. -/
theorem nv12Byte_luma {x y : Nat} (hx : x < width) (hy : y < height) :
    nv12Byte source rowPitch width height (y * width + x) = yByte (row source rowPitch y) x := by
  have hwidth : 0 < width := by omega
  have hlt : y * width + x < width * height := by
    have h := Nat.mul_le_mul_right width (Nat.succ_le_of_lt hy)
    rw [Nat.succ_mul] at h
    rw [Nat.mul_comm width]
    omega
  have hdiv : (y * width + x) / width = y := by
    rw [Nat.mul_comm, Nat.mul_add_div hwidth, Nat.div_eq_of_lt hx, Nat.add_zero]
  have hmod : (y * width + x) % width = x := by
    rw [Nat.mul_comm, Nat.mul_add_mod, Nat.mod_eq_of_lt hx]
  rw [nv12Byte, if_pos hlt, hdiv, hmod]

/-- The chroma bytes of a picture, row by row. -/
theorem nv12Byte_chroma {x : Nat} (hx : x < width) (y : Nat) :
    nv12Byte source rowPitch width height (width * height + (y * width + x)) =
      uvByte (row source rowPitch (2 * y)) (row source rowPitch (2 * y + 1)) x := by
  have hwidth : 0 < width := by omega
  have hdiv : (y * width + x) / width = y := by
    rw [Nat.mul_comm, Nat.mul_add_div hwidth, Nat.div_eq_of_lt hx, Nat.add_zero]
  have hmod : (y * width + x) % width = x := by
    rw [Nat.mul_comm, Nat.mul_add_mod, Nat.mod_eq_of_lt hx]
  rw [nv12Byte, if_neg (by omega), Nat.add_sub_cancel_left]
  simp only [hdiv, hmod]

/-- Rows that are written one after the other make one range. -/
theorem row_loop {inc n base fuel : Nat} {writeRow : Nat → Bytes → Option Bytes} {f : Bytes}
    {rowBytes : Nat → Bytes} (m : Bytes) (hinc : 0 < inc) (hheight : n * inc < 2 ^ 32)
    (hfuel : n < fuel)
    (hrow : ∀ k < n, ∀ m, writeRow (k * inc) m =
      some (m.fill (base + k * width) width (rowBytes k)))
    (hbytes : ∀ k < n, ∀ j < width, rowBytes k j = f (k * width + j)) :
    forLoop (fun y ↦ y < n * inc) inc writeRow fuel 0 m =
      some (n * inc, m.fill base (n * width) f) := by
  have hround : ∀ k < n, writeRow (0 + k * inc) (m.fill base (k * width) f) =
      some (m.fill base ((k + 1) * width) f) := by
    intro k hk
    rw [Nat.zero_add, hrow k hk, Bytes.fill_fill (hbytes k hk), Nat.succ_mul]
  have h : forLoop (fun y ↦ y < n * inc) inc writeRow fuel 0 (m.fill base (0 * width) f) =
      some (0 + n * inc, m.fill base (n * width) f) := by
    apply forLoop_eq (fun k ↦ m.fill base (k * width) f) (by omega) _ _ hround hfuel
    · intro k hk
      have hlt := Nat.mul_lt_mul_of_pos_right hk hinc
      exact decide_eq_true (by omega)
    · exact decide_eq_false (by omega)
  simpa using h

/-- A converter whose rows are right stores the picture; `k` is what it does
after that. -/
theorem plane_loops {α : Type} {fuel : Nat} {yRow uvRow : Nat → Bytes → Option Bytes}
    (m : Bytes) (k : Bytes → Option α) (heven : height % 2 = 0) (hheight : height < 2 ^ 32)
    (hfuel : height < fuel)
    (hyRow : ∀ y m, y < height →
      yRow y m = some (m.fill (y * width) width (yByte (row source rowPitch y))))
    (huvRow : ∀ y m, y % 2 = 0 → y < height → uvRow y m =
      some (m.fill (width * height + y / 2 * width) width
        (uvByte (row source rowPitch y) (row source rowPitch (y + 1))))) :
    (do
      let (_, m) ← forLoop (fun y ↦ y < height) 1 yRow fuel 0 m
      let (_, m) ← forLoop (fun y ↦ y < height) 2 uvRow fuel 0 m
      k m) = k (nv12 source rowPitch width height m) := by
  obtain ⟨n, rfl⟩ : ∃ n, height = n * 2 := ⟨height / 2, by omega⟩
  obtain ⟨f, hf⟩ : ∃ f, f = nv12Byte source rowPitch width (n * 2) := ⟨_, rfl⟩
  have hluma : forLoop (fun y ↦ y < n * 2) 1 yRow fuel 0 m =
      some (n * 2, m.fill 0 (n * 2 * width) f) := by
    have h : forLoop (fun y ↦ y < n * 2 * 1) 1 yRow fuel 0 m =
        some (n * 2 * 1, m.fill 0 (n * 2 * width) f) := by
      apply row_loop m one_pos (by omega) (by omega)
      · intro y hy m
        rw [Nat.mul_one, Nat.zero_add, hyRow y m hy]
      · intro y hy j hj
        rw [hf, nv12Byte_luma hj hy]
    rwa [Nat.mul_one] at h
  have hchroma : forLoop (fun y ↦ y < n * 2) 2 uvRow fuel 0 (m.fill 0 (n * 2 * width) f) =
      some (n * 2, m.fill 0 (n * 2 * width + n * width) f) := by
    have hplane : n * 2 * width = width * (n * 2) := Nat.mul_comm _ _
    have h : forLoop (fun y ↦ y < n * 2) 2 uvRow fuel 0 (m.fill 0 (n * 2 * width) f) =
        some (n * 2, (m.fill 0 (n * 2 * width) f).fill (n * 2 * width) (n * width)
          fun j ↦ f (n * 2 * width + j)) := by
      apply row_loop _ two_pos hheight (by omega)
      · intro y hy m
        rw [huvRow (y * 2) m (by omega) (by omega), Nat.mul_div_cancel y two_pos, hplane,
          Nat.mul_comm y 2]
      · intro y hy j hj
        rw [hf, hplane, nv12Byte_chroma hj y]
    have hfill : (m.fill 0 (n * 2 * width) f).fill (0 + n * 2 * width) (n * width)
        (fun j ↦ f (n * 2 * width + j)) = m.fill 0 (n * 2 * width + n * width) f :=
      Bytes.fill_fill fun j hj ↦ rfl
    rw [h, ← hfill, Nat.zero_add]
  have hpicture :
      m.fill 0 (n * 2 * width + n * width) f = nv12 source rowPitch width (n * 2) m := by
    funext k
    have hbytes : width * (n * 2) + width * (n * 2 / 2) = n * 2 * width + n * width := by
      rw [Nat.mul_div_cancel n two_pos, Nat.mul_comm width, Nat.mul_comm width]
    simp only [Bytes.fill, nv12, hf, hbytes, Nat.zero_le, true_and, Nat.zero_add, Nat.sub_zero]
  rw [hluma]
  show (forLoop (fun y ↦ y < n * 2) 2 uvRow fuel 0 (m.fill 0 (n * 2 * width) f)).bind _ = _
  rw [hchroma, ← hpicture]
  rfl

end Planes

end SecondScreen.Nv12
