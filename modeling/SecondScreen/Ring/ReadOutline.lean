import SecondScreen.Ring.HostOps

/-!
# Proof outlines of a read

`ReadOutline` lists what has to be shown of each operation of `TryReadLatest`: the
assertion while no slot is claimed, and the one while a slot is.
`ReadOutline.triple` puts the operations together.  It is to the host what
`PublishOutline` is to the driver.
-/

namespace SecondScreen.Ring

open SecondScreen.Conc

variable {ω σ : Type} {exec : Exec RingOp ω σ} {rg : RG σ}

/-- A proof about each operation of `TryReadLatest`. -/
structure ReadOutline (exec : Exec RingOp ω σ) (rg : RG σ) where
  /-- No slot is claimed. -/
  idle : σ → Prop
  /-- The slot is claimed. -/
  selected : Slot → σ → Prop
  stable : rg.Stable idle
  stable_selected : ∀ i, rg.Stable (selected i)
  read : ∀ {β : Type} {o : RingOp β}, RingOp.IsRead β o → OpTriple exec rg idle o fun _ ↦ idle
  cleansUp : ∀ i {β : Type} {o : RingOp β}, CleansUp i β o →
    OpTriple exec rg (selected i) o fun _ ↦ selected i
  claim : ∀ i, OpTriple exec rg idle (.compareExchange i .reading .ready) fun old s ↦
    if old = .ready then selected i s else idle s
  free : ∀ i, OpTriple exec rg (selected i) (.exchange i .free) fun _ ↦ idle

namespace ReadOutline

variable (O : ReadOutline exec rg) {α : Type} {p : RingProg α} {i : Slot}

/-- Reads keep what holds while no slot is claimed. -/
theorem reads (hp : p.Uses RingOp.IsRead) : Triple exec rg O.idle p fun _ ↦ O.idle :=
  Triple.of_preserves hp O.stable fun _ _ ho w s r u hs hA hu ↦ O.read ho s hs hA w r u hu

/-- The clean-up keeps what holds of the claimed slot. -/
theorem cleaning (hp : p.Uses (CleansUp i)) :
    Triple exec rg (O.selected i) p fun _ ↦ O.selected i :=
  Triple.of_preserves hp (O.stable_selected i) fun _ _ ho w s r u hs hA hu ↦
    O.cleansUp i ho s hs hA w r u hu

/-- Reading is part of the clean-up. -/
theorem selectedReads (hp : p.Uses RingOp.IsRead) :
    Triple exec rg (O.selected i) p fun _ ↦ O.selected i :=
  O.cleaning (hp.mono fun _ _ ↦ RingOp.IsRead.cleansUp)

/-- Giving the slot back and returning. -/
theorem freeSlot (a : α) :
    Triple exec rg (O.selected i) ((Ring.freeSlot i).bind fun _ ↦ .ret a) fun _ ↦ O.idle :=
  Triple.act (O.stable_selected i) _ (O.free i) fun _ ↦ Triple.ret O.stable fun _ h ↦ h

theorem consumeSlot (r : FrameRingReader) (n : Nat) :
    Triple exec rg (O.selected i) (consumeSlot r i n) fun _ ↦ O.idle := by
  have hfield (f : SlotField) : (readField i f).Uses RingOp.IsRead := ⟨trivial, fun _ ↦ trivial⟩
  refine Triple.bind _ (O.selectedReads (readPayload_uses i n 0)) fun payload ↦ ?_
  refine Triple.bind _ (O.selectedReads (hfield .width)) fun width ↦ ?_
  refine Triple.bind _ (O.selectedReads (hfield .height)) fun height ↦ ?_
  refine Triple.bind _ (O.selectedReads (hfield .stride)) fun stride ↦ ?_
  refine Triple.bind _ (O.selectedReads (hfield .frameId)) fun frameId ↦ ?_
  refine Triple.bind _ (O.selectedReads (hfield .captureTimestampUs)) fun timestamp ↦ ?_
  refine Triple.bind _ (O.selectedReads (skippedBefore_uses _ i)) fun skipped ↦ ?_
  refine Triple.bind _ (O.selectedReads (hfield .frameId)) fun last ↦ ?_
  exact O.freeSlot _

theorem readSelected (r : FrameRingReader) (i : Slot) :
    Triple exec rg (O.selected i) (readSelected r i) fun _ ↦ O.idle := by
  refine Triple.bind _ (O.cleaning (purgeOlder_uses i slotIndices)) fun _ ↦ ?_
  refine Triple.bind _ (O.selectedReads (isValidSlot_uses i)) fun length ↦ ?_
  cases length with
  | none => exact O.freeSlot _
  | some n => exact O.consumeSlot r n

theorem readAttempts (r : FrameRingReader) (n : Nat) :
    Triple exec rg O.idle (readAttempts r n) fun _ ↦ O.idle := by
  induction n with
  | zero => exact Triple.ret O.stable fun _ h ↦ h
  | succ n ih =>
      refine Triple.bind _ (O.reads (scanNewest_uses slotIndices none)) fun newest ↦ ?_
      cases newest with
      | none => exact Triple.ret O.stable fun _ h ↦ h
      | some best =>
          refine Triple.act O.stable _ (O.claim best.1) fun old ↦ ?_
          by_cases hold : old = .ready
          · simp only [Prog.pure_eq, Prog.ret_bind, hold, if_true, decide_true]
            refine Triple.bind _ (O.selectedReads (newerReadySlot_uses best.1 slotIndices))
              fun newer ↦ ?_
            cases newer with
            | true => exact Triple.act (O.stable_selected _) _ (O.free best.1) fun _ ↦ ih
            | false => exact O.readSelected r best.1
          · simp only [Prog.pure_eq, Prog.ret_bind, hold, if_false, decide_false]
            exact ih

/-- **One proof for each operation makes a proof of the read.** -/
theorem triple (r : FrameRingReader) : Triple exec rg O.idle (tryReadLatest r) fun _ ↦ O.idle := by
  refine Triple.bind _ (O.reads (isValidFrameRingHeader_uses headerOrder)) fun valid ↦ ?_
  cases valid with
  | true => exact O.readAttempts r _
  | false => exact Triple.ret O.stable fun _ h ↦ h

end ReadOutline

end SecondScreen.Ring
