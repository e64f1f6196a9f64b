import SecondScreen.Ring.Sharing

/-!
# Reading a slot whose contents are known

Once the host has selected a slot, what remains of `TryReadLatest` depends only
on the contents of that slot.  This file computes it, as functions of the
contents: `FrameSlot.validLength` for `IsValidSlot`, and
`FrameRingReader.consume` for the end of a successful call.

The rules hold for every environment that leaves the slot alone, so that they
serve for a host that runs against a driver as for one that runs on its own.
-/

namespace SecondScreen.Ring

open SecondScreen.Conc

/-- The payload length of a valid slot, from its contents. -/
def FrameSlot.validLength (c : FrameSlot) : Option Nat :=
  if c.field .sequence = 0 then none
  else if c.field .frameId = 0 then none
  else if c.field .captureTimestampUs = 0 then none
  else if validSize (c.field .width) (c.field .height) (c.field .stride) = false then none
  else if expectedBytes (c.field .height) (c.field .stride) > kMaxPayloadBytes then none
  else if c.field .payloadLength ≠ expectedBytes (c.field .height) (c.field .stride) then none
  else some (expectedBytes (c.field .height) (c.field .stride))

/-- A valid slot names its payload length, and has a frame id. -/
theorem FrameSlot.of_validLength {c : FrameSlot} {n : Nat} (h : c.validLength = some n) :
    n = c.field .payloadLength ∧ c.field .frameId ≠ 0 := by
  unfold validLength at h
  split_ifs at h with hseq hid hts hsize hmax hlen
  exact ⟨(Option.some.inj h).symm.trans (not_not.1 hlen).symm, hid⟩

namespace FrameRingReader

/-- What a frame adds to the count of skipped frames. -/
def skips (r : FrameRingReader) (frameId : Nat) : Nat :=
  if r.lastConsumedFrameId = 0 then 0
  else if frameId > r.lastConsumedFrameId + 1 then frameId - r.lastConsumedFrameId - 1
  else 0

/-- What consuming a slot with contents `c` makes of the reader. -/
def consume (r : FrameRingReader) (c : FrameSlot) : FrameRingReader :=
  { r with
    payload := (List.range (c.field .payloadLength)).map c.payload
    cachedWidth := c.field .width
    cachedHeight := c.field .height
    cachedStride := c.field .stride
    cachedFrameId := c.field .frameId
    cachedCaptureTimestampUs := c.field .captureTimestampUs
    hasCachedFrame := true
    framesSkipped := r.framesSkipped + r.skips (c.field .frameId)
    lastConsumedFrameId := c.field .frameId
    framesRead := r.framesRead + 1 }

end FrameRingReader

/-- The frame made from a slot shows the publication that filled it. -/
theorem Publication.Fills.shows {p : Publication} {c : FrameSlot} (h : p.Fills c)
    (r : FrameRingReader) : p.Shows (r.consume c).cachedFrame := by
  refine ⟨congrFun h.1 _, congrFun h.1 _, congrFun h.1 _, congrFun h.1 _, congrFun h.1 _, ?_⟩
  simp only [FrameRingReader.cachedFrame, FrameRingReader.consume, h.1]
  exact List.map_congr_left fun n hn ↦ h.2 n (List.mem_range.1 hn)

/-- A read of the host changes neither ring nor record. -/
theorem hostExec_read {β : Type} {o : RingOp β} (ho : RingOp.IsRead β o) (w : Unit) (s : Shared)
    (x : β) (u : Shared) (h : hostExec β w o s = some (x, u)) : u = s := by
  cases o <;> first | exact ho.elim | (cases h; rfl)

/-- An assertion under which slot `i` has contents `c`, and that a host may keep
while it reads. -/
structure Knows (rg : RG Shared) (A : Shared → Prop) (i : Slot) (c : FrameSlot) : Prop where
  stable : rg.Stable A
  guar_refl : ∀ s, rg.rely s s → rg.guar s s
  slot : ∀ s, A s → s.ring.slots i = c

namespace Knows

variable {rg : RG Shared} {A : Shared → Prop} {i : Slot} {c : FrameSlot} {α : Type}
  {Q : α → Shared → Prop}

theorem readField (h : Knows rg A i c) (f : SlotField) {k : Nat → RingProg α}
    (hk : Triple hostExec rg A (k (c.field f)) Q) :
    Triple hostExec rg A (.act (.readField i f) k) Q := by
  refine Triple.read h.stable h.guar_refl (fun v ↦ v = c.field f) ?_ ?_
  · intro s hs w v u hu
    cases hu
    exact ⟨rfl, by simp [RingOp.exec, h.slot s hs]⟩
  · rintro _ rfl
    exact hk

theorem isValidSlot (h : Knows rg A i c) {k : Option Nat → RingProg α}
    (hk : Triple hostExec rg A (k c.validLength) Q) :
    Triple hostExec rg A ((isValidSlot i).bind k) Q := by
  unfold FrameSlot.validLength at hk
  refine h.readField .width <| h.readField .height <| h.readField .stride <|
    h.readField .sequence ?_
  simp only [Prog.ret_bind]
  split at hk
  · next hseq => rwa [if_pos hseq]
  next hseq =>
  rw [if_neg hseq]
  refine h.readField .frameId ?_
  simp only [Prog.ret_bind]
  split at hk
  · next hid => rwa [if_pos hid]
  next hid =>
  rw [if_neg hid]
  refine h.readField .captureTimestampUs ?_
  simp only [Prog.ret_bind]
  split at hk
  · next hts => rwa [if_pos hts]
  next hts =>
  rw [if_neg hts]
  split at hk
  · next hsize => rwa [if_pos hsize]
  next hsize =>
  rw [if_neg hsize]
  split at hk
  · next hmax => rwa [if_pos hmax]
  next hmax =>
  rw [if_neg hmax]
  refine h.readField .payloadLength ?_
  simp only [Prog.ret_bind]
  split at hk
  · next hlen => rwa [if_pos hlen]
  · next hlen => rwa [if_neg hlen]

theorem readPayload (h : Knows rg A i c) (count n : Nat) {k : List UInt8 → RingProg α}
    (hk : Triple hostExec rg A (k ((List.range' n count).map c.payload)) Q) :
    Triple hostExec rg A ((readPayload i count n).bind k) Q := by
  induction count generalizing n k with
  | zero => exact hk
  | succ count ih =>
      refine Triple.read h.stable h.guar_refl (fun b ↦ b = c.payload n) ?_ ?_
      · intro s hs w b u hu
        cases hu
        exact ⟨rfl, by simp [RingOp.exec, h.slot s hs]⟩
      · rintro _ rfl
        simp only [Prog.ret_bind, Prog.bind_eq, Prog.bind_assoc]
        exact ih (n + 1) (by simpa [List.range'_succ] using hk)

theorem skippedBefore (h : Knows rg A i c) (r : FrameRingReader) {k : Nat → RingProg α}
    (hk : Triple hostExec rg A (k (r.skips (c.field .frameId))) Q) :
    Triple hostExec rg A ((skippedBefore r.lastConsumedFrameId i).bind k) Q := by
  unfold FrameRingReader.skips at hk
  unfold Ring.skippedBefore
  split at hk
  · next hlast => rwa [if_pos hlast]
  · next hlast =>
    rw [if_neg hlast]
    refine h.readField .frameId ?_
    simp only [Prog.ret_bind]
    split at hk
    · next hlt =>
      rw [if_pos hlt]
      exact h.readField .frameId hk
    · next hlt => rwa [if_neg hlt]

theorem consumeSlot (h : Knows rg A i c) (r : FrameRingReader)
    {Q : Outcome × FrameRingReader → Shared → Prop}
    (hk : Triple hostExec rg A
      ((freeSlot i).bind fun _ ↦ .ret (.frame (r.consume c).cachedFrame, r.consume c)) Q) :
    Triple hostExec rg A (consumeSlot r i (c.field .payloadLength)) Q := by
  refine h.readPayload _ 0 <| h.readField .width <| h.readField .height <|
    h.readField .stride <| h.readField .frameId <| h.readField .captureTimestampUs <|
      h.skippedBefore r <| h.readField .frameId ?_
  rw [← List.range_eq_range']
  exact hk

end Knows

end SecondScreen.Ring
