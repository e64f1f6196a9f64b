import SecondScreen.Nv12.Convert
import SecondScreen.Ring.Driver
import SecondScreen.Ring.KnownSlot

/-!
# The size of a payload

Driver and host work out the size of a payload separately: the driver stores
`width * height * 3 / 2`, cut to 32 bits, and the host expects
`stride * height + stride * (height / 2)`.  For every picture that is let
through, both are the number of bytes that the converters store
(`Geometry.sizesAgree`), and what the driver writes into a slot is valid to the
host (`SlotLayout.validLength`).
-/

namespace SecondScreen.Ring

open SecondScreen.Conc SecondScreen.Machine SecondScreen.Nv12
open SecondScreen.Nv12.Avx2 (convertBgraToNv12Avx2)
open SecondScreen.Nv12.Sse2 (convertBgraToNv12)

/-! ## Machine numbers -/

/-- The width in bits of a field of `FrameSlot`. -/
def SlotField.bits : SlotField → Nat
  | .sequence | .frameId | .captureTimestampUs => 64
  | .width | .height | .stride | .payloadLength => 32

/-- `slot->payloadLength` as `PublishBgraFrame` computes it. -/
def storedPayloadLength (width height : UInt32) : UInt32 :=
  (width.toUInt64 * height.toUInt64 * 3 / 2).toUInt32

/-- `expected` as `IsValidSlot` computes it. -/
def expectedPayloadLength (height stride : UInt32) : UInt64 :=
  let yBytes := stride.toUInt64 * height.toUInt64
  let uvBytes := stride.toUInt64 * (height / 2).toUInt64
  yBytes + uvBytes

/-- The payload of a picture has `n` bytes, to the driver, to the host and to
both converters. -/
structure SizesAgree (width height n : Nat) : Prop where
  stored : (storedPayloadLength (.ofNat width) (.ofNat height)).toNat = n
  expected : (expectedPayloadLength (.ofNat height) (.ofNat width)).toNat = n
  le_max : n ≤ kMaxPayloadBytes
  rowPitch_lt : 4 * width < 2 ^ 32
  converted : ∃ enough, ∀ fuel ≥ enough, ∀ source destination : Bytes,
    let after := destination.fill 0 n (nv12Byte source (4 * width) width height)
    convertBgraToNv12Avx2 fuel source (4 * width) width height destination = some (true, after) ∧
      convertBgraToNv12 fuel source (4 * width) width height destination = some after

namespace Geometry

variable {width height : Nat}

theorem expectedBytes_eq (h : Geometry width height) :
    expectedBytes height width = width * height * 3 / 2 := by
  obtain ⟨k, rfl⟩ : ∃ k, height = 2 * k := ⟨height / 2, by have := h.height_even; omega⟩
  have hhalf : width * (2 * k) * 3 = 2 * (width * (3 * k)) := by ring
  rw [expectedBytes, hhalf, Nat.mul_div_cancel_left _ two_pos, Nat.mul_div_cancel_left _ two_pos]
  ring

theorem area_le (h : Geometry width height) : width * height ≤ kMaxWidth * kMaxHeight :=
  Nat.mul_le_mul h.width_le h.height_le

theorem payload_le (h : Geometry width height) : width * height * 3 / 2 ≤ kMaxPayloadBytes :=
  Nat.div_le_div_right (Nat.mul_le_mul_right 3 h.area_le)

theorem validSize (h : Geometry width height) : validSize width height width = true := by
  obtain ⟨hw, hh, hw2, hh2, hwle, hhle⟩ := h
  simp [Ring.validSize, kMaxStride, hw.ne', hh.ne', hw2, hh2, hwle, hhle]

theorem stored_toNat (h : Geometry width height) :
    (storedPayloadLength (.ofNat width) (.ofNat height)).toNat = width * height * 3 / 2 := by
  have hw : width < 2 ^ 32 := h.width_le.trans_lt (by decide)
  have hh : height < 2 ^ 32 := h.height_le.trans_lt (by decide)
  have harea : width * height ≤ 2560 * 1600 := h.area_le
  simp only [storedPayloadLength, UInt64.toNat_toUInt32, UInt64.toNat_div, UInt64.toNat_mul,
    UInt32.toNat_toUInt64, UInt32.toNat_ofNat', UInt64.reduceToNat, Nat.mod_eq_of_lt hw,
    Nat.mod_eq_of_lt hh]
  rw [Nat.mod_eq_of_lt (by omega : width * height < 2 ^ 64),
    Nat.mod_eq_of_lt (by omega : width * height * 3 < 2 ^ 64), Nat.mod_eq_of_lt (by omega)]

theorem expected_toNat (h : Geometry width height) :
    (expectedPayloadLength (.ofNat height) (.ofNat width)).toNat = expectedBytes height width := by
  have hw : width < 2 ^ 32 := h.width_le.trans_lt (by decide)
  have hh : height < 2 ^ 32 := h.height_le.trans_lt (by decide)
  have hy : width * height ≤ 2560 * 1600 := h.area_le
  have huv : width * (height / 2) ≤ width * height := Nat.mul_le_mul_left _ (Nat.div_le_self _ _)
  simp only [expectedPayloadLength, UInt64.toNat_add, UInt64.toNat_mul, UInt32.toNat_toUInt64,
    UInt32.toNat_div, UInt32.toNat_ofNat', UInt32.reduceToNat, Nat.mod_eq_of_lt hw,
    Nat.mod_eq_of_lt hh, expectedBytes]
  omega

/-- What both converters store, as one range. -/
theorem nv12_eq_fill (h : Geometry width height) (source destination : Bytes) :
    nv12 source (4 * width) width height destination =
      destination.fill 0 (width * height * 3 / 2) (nv12Byte source (4 * width) width height) := by
  have hsize : width * height + width * (height / 2) = width * height * 3 / 2 :=
    h.expectedBytes_eq
  funext k
  simp [nv12, Bytes.fill, hsize]

/-- **Driver, host and converters agree** on the size of every picture that is let
through, and no 32-bit number is cut. -/
theorem sizesAgree (h : Geometry width height) :
    SizesAgree width height (width * height * 3 / 2) where
  stored := h.stored_toNat
  expected := h.expected_toNat.trans h.expectedBytes_eq
  le_max := h.payload_le
  rowPitch_lt := by
    have hle : width ≤ 2560 := h.width_le
    omega
  converted := by
    have hw := h.width_pos
    have hh := h.height_pos
    have hw2 := h.width_even
    have hh2 := h.height_even
    have hwle : width ≤ 2560 := h.width_le
    have hhle : height ≤ 1600 := h.height_le
    obtain ⟨enough, henough⟩ := converters_store_nv12 (by omega : 2 ≤ width) hw2 (by omega)
      (by omega : 2 ≤ height) hh2 (by omega)
    refine ⟨enough, fun fuel hfuel source destination ↦ ?_⟩
    obtain ⟨havx2, hsse2⟩ := henough fuel hfuel source destination
    rw [← h.nv12_eq_fill]
    exact ⟨(havx2 _ le_rfl).1, hsse2 (by omega)⟩

end Geometry

/-! ## Valid slots -/

/-- `IsValidSlot`, run on its own. -/
theorem eval_isValidSlot (ring : FrameRing) (i : Slot) :
    (isValidSlot i).eval RingOp.exec ring = ((ring.slots i).validLength, ring) := by
  have hread (f : SlotField) {α : Type} (k : Nat → RingProg α) :
      (readField i f >>= k).eval RingOp.exec ring =
        (k ((ring.slots i).field f)).eval RingOp.exec ring := rfl
  have hite {α : Type} {p : Prop} [Decidable p] (x y : RingProg α) :
      (if p then x else y).eval RingOp.exec ring =
        if p then x.eval RingOp.exec ring else y.eval RingOp.exec ring := by
    split <;> rfl
  simp only [isValidSlot, hread, hite, Prog.pure_eq, Prog.eval_ret, FrameSlot.validLength]
  split_ifs <;> rfl

/-- What the plain fields of a published slot satisfy. -/
structure SlotLayout (value : SlotField → Nat) : Prop where
  geometry : Geometry (value .width) (value .height)
  stride : value .stride = value .width
  payloadLength : value .payloadLength = value .width * value .height * 3 / 2
  sequence : value .sequence ≠ 0
  frameId : value .frameId ≠ 0
  captureTimestampUs : value .captureTimestampUs ≠ 0
  timestamp_lt : value .captureTimestampUs < 2 ^ 64

namespace SlotLayout

variable {value : SlotField → Nat}

/-- To the host such a slot is valid. -/
theorem validLength {c : FrameSlot} (h : SlotLayout c.field) :
    c.validLength = some (c.field .payloadLength) := by
  have hexpected := h.geometry.expectedBytes_eq
  have hmax := h.geometry.payload_le
  simp [FrameSlot.validLength, h.sequence, h.frameId, h.captureTimestampUs, h.stride,
    h.geometry.validSize, hexpected, h.payloadLength, hmax]

/-- No field is cut when it is stored, as long as the counters are not. -/
theorem field_lt (h : SlotLayout value) (hseq : value .sequence < 2 ^ 64)
    (hid : value .frameId < 2 ^ 64) (f : SlotField) : value f < 2 ^ f.bits := by
  have hw : value .width ≤ 2560 := h.geometry.width_le
  have hh : value .height ≤ 1600 := h.geometry.height_le
  have hn : value .payloadLength ≤ 6144000 := h.payloadLength ▸ h.geometry.payload_le
  have hs := h.stride
  have hts := h.timestamp_lt
  cases f <;> simp only [SlotField.bits] <;> omega

end SlotLayout

theorem qpcToMicroseconds_lt (frequency : Option Int) (qpc : Nat) :
    qpcToMicroseconds frequency qpc < 2 ^ 64 := by
  unfold qpcToMicroseconds
  split
  · exact Nat.two_pow_pos 64
  · dsimp only
    split_ifs
    · exact Nat.two_pow_pos 64
    · decide
    · exact Nat.mod_lt _ (Nat.two_pow_pos 64)

theorem PublishEnv.timestampUs_lt (env : PublishEnv) (frame : PendingBgraFrame) :
    env.timestampUs frame < 2 ^ 64 := by
  unfold timestampUs
  dsimp only
  split
  · split
    · exact qpcToMicroseconds_lt _ _
    · exact Nat.two_pow_pos 64
  · exact qpcToMicroseconds_lt _ _

/-- What a processor writes into a slot that it makes ready. -/
theorem slotLayout_slotFields (m : SwapChainProcessor) (frame : PendingBgraFrame)
    (env : PublishEnv) (hseq : m.nextSequence ≠ 0) (hid : m.nextFrameId ≠ 0)
    (hts : env.timestampUs frame ≠ 0) :
    SlotLayout (slotFields m frame (env.timestampUs frame)) where
  geometry := frame.geometry
  stride := rfl
  payloadLength := rfl
  sequence := hseq
  frameId := hid
  captureTimestampUs := hts
  timestamp_lt := env.timestampUs_lt frame

end SecondScreen.Ring
