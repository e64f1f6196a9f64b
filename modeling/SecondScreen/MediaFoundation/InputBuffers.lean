import Mathlib.Tactic.Ring
import SecondScreen.Machine.RowCopy
import SecondScreen.MediaFoundation.Encoder

/-!
# The two input buffers

A frame reaches the encoder through the input buffer of NVENC, whose pitch NVENC chooses,
or through a sample in memory, which is packed.  Both hold the same picture
(`inputs_agree`).
-/

namespace SecondScreen.MediaFoundation

open SecondScreen.Machine SecondScreen.Ring

/-! ## The copies -/

/-- The row copies of `NvencH264Encoder::EncodeFrame`, into what `lockInput` has mapped. -/
def nvencInputBuffer (frame : CapturedFrame) (pitch : Nat) (bufferData : Option (List UInt8)) :
    Except String (Option (List UInt8)) :=
  match bufferData with
  | none => .error "NvEncLockInputBuffer returned invalid pitch"
  | some destination =>
      if pitch < frame.width then .error "NvEncLockInputBuffer returned invalid pitch"
      else
        .ok <|
          (copyRows destination 0 pitch frame.nv12 0 frame.stride frame.width
            frame.height).bind fun destination ↦
          copyRows destination (pitch * frame.height) pitch frame.nv12
            (frame.stride * frame.height) frame.stride frame.width (frame.height / 2)

/-- `CreateMemoryInputSample`, with the buffer that `MFCreateMemoryBuffer` has made. -/
def createMemoryInputSample (frame : CapturedFrame) (frameBytes sourceYBytes : Nat)
    (destination : List UInt8) : Except String (Option (List UInt8)) :=
  if destination.length < frameBytes then
    .error "H.264 encoder input buffer is smaller than configured NV12 frame"
  else
    .ok <|
      (copyRows destination 0 frame.width frame.nv12 0 frame.stride frame.width
        frame.height).bind fun destination ↦
      copyRows destination (frame.width * frame.height) frame.width frame.nv12 sourceYBytes
        frame.stride frame.width (frame.height / 2)

/-! ## What the buffers hold -/

/-- A buffer holds the picture of a frame, its rows `pitch` apart. -/
structure HoldsPicture (frame : CapturedFrame) (pitch : Nat) (buffer : List UInt8) : Prop where
  luma : ∀ x < frame.width, ∀ y < frame.height,
    buffer[y * pitch + x]? = frame.nv12[y * frame.stride + x]?
  chroma : ∀ x < frame.width, ∀ y < frame.height,
    buffer[pitch * frame.height + y / 2 * pitch + x]? =
      frame.nv12[frame.stride * frame.height + y / 2 * frame.stride + x]?

/-- A frame whose planes are where the strides say. -/
structure WellFormed (frame : CapturedFrame) : Prop where
  stride : frame.width ≤ frame.stride
  height : frame.height % 2 = 0
  length : frame.nv12.length =
    frame.stride * frame.height + frame.stride * (frame.height / 2)

variable {c : Config} {frame : CapturedFrame} {pitch : Nat} {buffer : List UInt8}

/-- What `EncodeFrameOnce` accepts. -/
theorem wellFormed_of_checkFrame (h : checkFrame c frame = .ok ()) :
    WellFormed frame ∧ frame.width = c.width ∧ frame.height = c.height := by
  unfold checkFrame at h
  split at h
  · cases h
  · next hgeometry =>
    simp only [not_or, not_lt, ne_eq, not_not] at hgeometry
    obtain ⟨-, hwidth, hheight, hstride, -, heven⟩ := hgeometry
    dsimp only at h
    split at h
    · cases h
    · next hlength => exact ⟨⟨hstride, heven, not_not.1 hlength⟩, hwidth, hheight⟩

theorem WellFormed.luma_lt (h : WellFormed frame) {x y : Nat} (hx : x < frame.width)
    (hy : y < frame.height) : y * frame.stride + x < frame.nv12.length := by
  have hrow : (y + 1) * frame.stride ≤ frame.height * frame.stride :=
    Nat.mul_le_mul_right frame.stride hy
  have hstride := h.stride
  rw [Nat.succ_mul] at hrow
  rw [h.length, Nat.mul_comm frame.stride]
  omega

theorem WellFormed.chroma_lt (h : WellFormed frame) {x y : Nat} (hx : x < frame.width)
    (hy : y < frame.height) :
    frame.stride * frame.height + y / 2 * frame.stride + x < frame.nv12.length := by
  have heven := h.height
  have hrow : (y / 2 + 1) * frame.stride ≤ frame.height / 2 * frame.stride :=
    Nat.mul_le_mul_right frame.stride (by omega)
  have hstride := h.stride
  rw [Nat.succ_mul] at hrow
  rw [h.length, Nat.mul_comm frame.stride (frame.height / 2)]
  omega

/-- The size of both planes. -/
theorem planes_size (h : frame.height % 2 = 0) (pitch : Nat) :
    pitch * frame.height * 3 / 2 = frame.height * pitch + frame.height / 2 * pitch := by
  obtain ⟨m, hm⟩ : 2 ∣ frame.height := Nat.dvd_of_mod_eq_zero h
  rw [hm, Nat.mul_div_cancel_left m (by decide)]
  have htriple : pitch * (2 * m) * 3 = 2 * (3 * (m * pitch)) := by ring
  have hsum : 2 * m * pitch + m * pitch = 3 * (m * pitch) := by ring
  rw [htriple, Nat.mul_div_cancel_left _ (by decide), hsum]

/-- The two loops put the picture into a buffer that is large enough, and write no further. -/
theorem copyPicture (h : WellFormed frame) (hpitch : frame.width ≤ pitch)
    (hbuffer : pitch * frame.height * 3 / 2 ≤ buffer.length) :
    ∃ filled, ((copyRows buffer 0 pitch frame.nv12 0 frame.stride frame.width
        frame.height).bind fun destination ↦
      copyRows destination (pitch * frame.height) pitch frame.nv12
        (frame.stride * frame.height) frame.stride frame.width (frame.height / 2)) =
        some filled ∧ filled.length = buffer.length ∧ HoldsPicture frame pitch filled ∧
      ∀ k, pitch * frame.height * 3 / 2 ≤ k → filled[k]? = buffer[k]? := by
  rw [planes_size h.height] at hbuffer ⊢
  have hsource := h.length
  rw [Nat.mul_comm frame.stride (frame.height / 2), Nat.mul_comm frame.stride] at hsource
  have hplane : pitch * frame.height = frame.height * pitch := Nat.mul_comm _ _
  obtain ⟨luma, hluma, hfirst⟩ : ∃ luma, copyRows buffer 0 pitch frame.nv12 0 frame.stride
      frame.width frame.height = some luma ∧ RowsCopied buffer luma 0 pitch frame.nv12 0
        frame.stride frame.width frame.height :=
    copyRows_spec hpitch h.stride (by omega) (by omega)
  have hlength := hfirst.length
  obtain ⟨filled, hfilled, hsecond⟩ : ∃ filled, copyRows luma (pitch * frame.height) pitch
      frame.nv12 (frame.stride * frame.height) frame.stride frame.width (frame.height / 2) =
        some filled ∧ RowsCopied luma filled (pitch * frame.height) pitch frame.nv12
          (frame.stride * frame.height) frame.stride frame.width (frame.height / 2) :=
    copyRows_spec hpitch h.stride (by omega)
      (by rw [Nat.mul_comm frame.stride]; omega)
  refine ⟨filled, ?_, hsecond.length.trans hlength, ⟨fun x hx y hy ↦ ?_, fun x hx y hy ↦ ?_⟩,
    fun k hk ↦ ?_⟩
  · rw [hluma]
    exact hfilled
  · -- the chroma rows come after all luma rows
    have hrow : (y + 1) * pitch ≤ frame.height * pitch := Nat.mul_le_mul_right pitch hy
    rw [Nat.succ_mul] at hrow
    have hrest := hfirst.copied y hy x hx
    rw [Nat.zero_add, Nat.zero_add] at hrest
    rw [hsecond.frame _ (by omega), hrest]
  · exact hsecond.copied (y / 2) (by have := h.height; omega) x hx
  · rw [hsecond.frame k (by omega), hfirst.frame k (by omega)]

/-! ## The result -/

/-- **Both input paths deliver the same picture.**  For a frame that `EncodeFrameOnce` accepts,
the copies read no byte outside the frame and write none beyond the planes, and each sample of
the picture is at its place in both buffers. -/
theorem inputs_agree (haccepted : checkFrame c frame = .ok ()) (hpitch : frame.width ≤ pitch)
    {inputBuffer memoryBuffer : List UInt8}
    (hinput : pitch * frame.height * 3 / 2 ≤ inputBuffer.length)
    (hmemory : frame.width * frame.height * 3 / 2 ≤ memoryBuffer.length) :
    ∃ input memory : List UInt8,
      nvencInputBuffer frame pitch (some inputBuffer) = .ok (some input) ∧
      createMemoryInputSample frame (c.width * c.height * 3 / 2) (frame.stride * frame.height)
        memoryBuffer = .ok (some memory) ∧
      (∀ x < frame.width, ∀ y < frame.height, ∃ sample,
        frame.nv12[y * frame.stride + x]? = some sample ∧
          input[y * pitch + x]? = some sample ∧ memory[y * frame.width + x]? = some sample) ∧
      (∀ x < frame.width, ∀ y < frame.height, ∃ sample,
        frame.nv12[frame.stride * frame.height + y / 2 * frame.stride + x]? = some sample ∧
          input[pitch * frame.height + y / 2 * pitch + x]? = some sample ∧
          memory[frame.width * frame.height + y / 2 * frame.width + x]? = some sample) ∧
      (∀ k, pitch * frame.height * 3 / 2 ≤ k → input[k]? = inputBuffer[k]?) ∧
      ∀ k, frame.width * frame.height * 3 / 2 ≤ k → memory[k]? = memoryBuffer[k]? := by
  obtain ⟨hframe, hwidth, hheight⟩ := wellFormed_of_checkFrame haccepted
  obtain ⟨input, hnvenc, -, hinputs, hinputTail⟩ := copyPicture hframe hpitch hinput
  obtain ⟨memory, hsample, -, hholds, hmemoryTail⟩ := copyPicture hframe le_rfl hmemory
  refine ⟨input, memory, ?_, ?_, fun x hx y hy ↦ ?_, fun x hx y hy ↦ ?_, hinputTail, hmemoryTail⟩
  · rw [nvencInputBuffer, if_neg (not_lt.2 hpitch), hnvenc]
  · rw [createMemoryInputSample, ← hwidth, ← hheight, if_neg (not_lt.2 hmemory), hsample]
  · refine ⟨_, List.getElem?_eq_getElem (hframe.luma_lt hx hy), ?_, ?_⟩
    · rw [hinputs.luma x hx y hy, List.getElem?_eq_getElem]
    · rw [hholds.luma x hx y hy, List.getElem?_eq_getElem]
  · refine ⟨_, List.getElem?_eq_getElem (hframe.chroma_lt hx hy), ?_, ?_⟩
    · rw [hinputs.chroma x hx y hy, List.getElem?_eq_getElem]
    · rw [hholds.chroma x hx y hy, List.getElem?_eq_getElem]

/-- A frame of two rows with two bytes of padding, and a pitch of three. -/
def padded : CapturedFrame :=
  { nv12 := [1, 2, 9, 9, 3, 4, 9, 9, 5, 6, 9, 9], width := 2, height := 2, stride := 4 }

theorem inputs_agree_padded : ∃ input memory : List UInt8,
    nvencInputBuffer padded 3 (some (List.replicate 9 7)) = .ok (some input) ∧
      createMemoryInputSample padded 6 8 (List.replicate 6 0) = .ok (some memory) ∧
      ∃ sample, padded.nv12[9]? = some sample ∧ input[7]? = some sample ∧
        memory[5]? = some sample := by
  obtain ⟨input, memory, hinput, hmemory, -, hchroma, -, -⟩ :=
    @inputs_agree { width := 2, height := 2, fps := 30, async := false } padded 3 rfl (by decide)
      (List.replicate 9 7) (List.replicate 6 0) (by decide) (by decide)
  exact ⟨input, memory, hinput, hmemory, hchroma 1 (by decide) 1 (by decide)⟩

end SecondScreen.MediaFoundation
