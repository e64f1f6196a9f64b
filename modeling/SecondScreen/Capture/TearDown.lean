import SecondScreen.Capture.Threads

/-!
# Closing the ring under the converter

`EnsureFrameRing` closes the ring as soon as it finds that the header is not valid, which
a restart of the host makes it for a while.  Everywhere else the swap-chain thread waits
for the conversion thread before it takes something away from it.

The view that the conversion thread has found in `m_FrameRing` stays mapped while it is
used, if the ring is closed only when nothing is queued or being converted.
-/

namespace SecondScreen.Capture

open SecondScreen.Conc

/-! ## The view of the conversion thread -/

/-- While the conversion thread uses a view of the ring, `m_FrameRing` points to it, it is
mapped, and the event is open. -/
def ViewKept (s : Shared) : Prop :=
  ∀ v, s.log.view .conversion = some v →
    s.processor.frameRing = some v ∧ s.processor.mapped = some v ∧
      s.processor.frameReadyEvent = true ∧ s.processor.eventOpen = true

/-- Every frame that was queued has been published, or the conversion thread has ended. -/
def Quiet (s : Shared) : Prop :=
  s.processor.ended = true ∨ s.processor.bgraQueueCount = 0 ∧ s.log.converting = none

instance (s : Shared) : Decidable (Quiet s) := inferInstanceAs (Decidable (_ ∨ _))

/-- When `EnsureFrameRing` finds that the header of the open ring is not valid, the
conversion thread has nothing to do. -/
def closesQuietly : Steps
  | .swapChain, _, .validateFrameRing, _, s =>
      s.processor.frameRing ≠ none → s.processor.headerValid = false → Quiet s
  | _, _, _, _, _ => True

/-- The swap-chain thread looks at the header. -/
def validates : Worker → (β : Type) → CaptureOp β → Bool
  | .swapChain, _, .validateFrameRing => true
  | _, _, _ => false

theorem closesQuietly_iff {i : Worker} {β : Type} {o : CaptureOp β} {w : Answer} {s : Shared} :
    (validates i β o = true → s.processor.frameRing ≠ none → s.processor.headerValid = false →
      Quiet s) ↔ closesQuietly i β o w s := by
  cases i <;> cases o <;> simp [validates, closesQuietly]

instance : closesQuietly.Decides := fun _ _ _ _ _ ↦ decidable_of_iff _ closesQuietly_iff

/-! ## Operations that leave the ring alone -/

/-- The operations of the swap-chain thread that have nothing to do with the view. -/
def KeepsView : (β : Type) → CaptureOp β → Prop
  | _, .validateFrameRing | _, .mapViewOfFile | _, .unmapViewOfFile | _, .writeFrameRing _
  | _, .openEvent | _, .closeEvent | _, .writeFrameReadyEvent _ | _, .writeFrameMapping _
  | _, .startThread | _, .endThread | _, .join | _, .dequeueBgraFrame | _, .setBgraFailed
  | _, .writeHeader _ => False
  | _, _ => True

theorem PlainOperation.keepsView {β : Type} {o : CaptureOp β} (ho : PlainOperation β o) :
    KeepsView β o := by
  cases o <;> first | exact ho.elim | trivial

theorem publishBgraFrame_keepsView (frame : PendingBgraFrame) :
    (publishBgraFrame frame).Uses KeepsView :=
  (publishBgraFrame_plain frame).mono fun _ _ ho ↦ ho.keepsView

theorem ensureStagingTextures_keepsView (m : Staging) (width height : Nat) :
    (ensureStagingTextures m width height).Uses KeepsView :=
  (ensureStagingTextures_plain m width height).mono fun _ _ ho ↦ ho.keepsView

theorem bgraBuffersReady_keepsView (l : List Nat) : (bgraBuffersReady l).Uses KeepsView :=
  (bgraBuffersReady_plain l).mono fun _ _ ho ↦ ho.keepsView

theorem resetBgraBuffers_keepsView (l : List Nat) : (resetBgraBuffers l).Uses KeepsView := by
  induction l with
  | nil => trivial
  | cons i l ih => exact ⟨trivial, fun _ ↦ ih⟩

theorem newBgraBuffers_keepsView (l : List Nat) : (newBgraBuffers l).Uses KeepsView := by
  induction l with
  | nil => trivial
  | cons i l ih =>
      refine ⟨trivial, fun _ ↦ Prog.Uses.ite ?_ ih⟩
      exact (resetBgraBuffers_keepsView _).bind fun _ ↦ trivial

theorem ensureBgraBuffers_keepsView (m : Staging) (width height : Nat) :
    (ensureBgraBuffers m width height).Uses KeepsView := by
  unfold ensureBgraBuffers
  apply Prog.Uses.ite
  · trivial
  refine (bgraBuffersReady_keepsView _).bind fun _ ↦ Prog.Uses.ite trivial ⟨trivial, fun _ ↦ ?_⟩
  refine (resetBgraBuffers_keepsView _).bind fun _ ↦
    ⟨trivial, fun _ ↦ ⟨trivial, fun _ ↦ ⟨trivial, fun _ ↦ ?_⟩⟩⟩
  exact (newBgraBuffers_keepsView _).bind fun _ ↦ Prog.Uses.ite trivial trivial

theorem copyMapped_keepsView (bufferIndex : Nat) (mapped : MappedSubresource)
    (rowBytes height : Nat) : (copyMapped bufferIndex mapped rowBytes height).Uses KeepsView :=
  (copyMapped_plain bufferIndex mapped rowBytes height).mono fun _ _ ho ↦ ho.keepsView

theorem mapAndQueueStagingFrame_keepsView (m : Staging) (frame : PendingStagingFrame) :
    (mapAndQueueStagingFrame m frame).Uses KeepsView := by
  unfold mapAndQueueStagingFrame
  apply Prog.Uses.ite
  · trivial
  refine ⟨trivial, fun _ ↦ Prog.Uses.ite trivial ?_⟩
  refine (ensureBgraBuffers_keepsView _ _ _).bind fun r ↦ Prog.Uses.ite trivial ?_
  refine ⟨trivial, fun buffer ↦ ?_⟩
  cases buffer with
  | none => trivial
  | some bufferIndex =>
      refine ⟨trivial, fun mapped ↦ ?_⟩
      cases mapped with
      | none => exact ⟨trivial, fun _ ↦ trivial⟩
      | some mapped =>
          refine (copyMapped_keepsView _ _ _ _).bind fun _ ↦ Prog.Uses.ite ?_ ?_
          · refine (publishBgraFrame_keepsView _).bind fun _ ↦ ⟨trivial, fun _ ↦ trivial⟩
          · exact ⟨trivial, fun _ ↦ Prog.Uses.ite ⟨trivial, fun _ ↦ trivial⟩ trivial⟩

theorem failFrame_keepsView (m : Staging) : (failFrame m).Uses KeepsView :=
  (failFrame_plain m).mono fun _ _ ho ↦ ho.keepsView

theorem flushResized_keepsView (m : Staging) (surface : Surface) :
    (flushResized m surface).Uses KeepsView := by
  refine Prog.Uses.ite ?_ trivial
  exact (mapAndQueueStagingFrame_keepsView _ _).bind fun _ ↦ Prog.Uses.ite trivial trivial

theorem queueCaptured_keepsView (m : Staging) (currentFrame : PendingStagingFrame) :
    (queueCaptured m currentFrame).Uses KeepsView := by
  apply Prog.Uses.ite
  · exact (mapAndQueueStagingFrame_keepsView _ _).bind fun _ ↦ Prog.Uses.ite trivial trivial
  apply Prog.Uses.ite
  · exact (mapAndQueueStagingFrame_keepsView _ _).bind fun _ ↦ Prog.Uses.ite trivial trivial
  · simp only [Prog.pure_eq, Prog.bind_eq, Prog.ret_bind]
    exact Prog.Uses.ite trivial trivial

/-- The part of `CaptureAndPublish` after `EnsureFrameRing`. -/
theorem captureAndPublish_keepsView (m : Staging) (surface : Surface)
    (presentDisplayQpcTime : Nat) :
    ∃ rest : Bool → CaptureProg (Bool × Staging),
      captureAndPublish m surface presentDisplayQpcTime = ensureFrameRing.bind rest ∧
        ∀ ok, (rest ok).Uses KeepsView := by
  refine ⟨_, rfl, fun ok ↦ ?_⟩
  have hfail (m : Staging) : ((failFrame m).bind fun r ↦ pure r).Uses KeepsView :=
    (failFrame_keepsView m).bind fun _ ↦ trivial
  apply Prog.Uses.ite (hfail m)
  refine ⟨trivial, fun _ ↦ Prog.Uses.ite (hfail m) (Prog.Uses.ite (hfail m) ?_)⟩
  refine (flushResized_keepsView _ _).bind fun _ ↦ Prog.Uses.ite (hfail _) ?_
  refine (ensureStagingTextures_keepsView _ _ _).bind fun _ ↦ Prog.Uses.ite (hfail _) ?_
  refine (ensureBgraBuffers_keepsView _ _ _).bind fun _ ↦ Prog.Uses.ite (hfail _) ?_
  exact ⟨trivial, fun _ ↦ ⟨trivial, fun _ ↦ Prog.Uses.ite trivial (queueCaptured_keepsView _ _)⟩⟩

/-! ## The contracts -/

/-- Once `m_FrameRing` points to a view, the view is mapped and the rest is there. -/
def RingOpen (p : Processor) : Prop :=
  ∀ v, p.frameRing = some v →
    p.mapped = some v ∧ p.frameReadyEvent = true ∧ p.frameMapping = true ∧ p.eventOpen = true

/-- The conversion thread has a frame to publish. -/
def Converting (s : Shared) : Prop := s.log.converting ≠ none ∧ s.processor.ended = false

theorem Converting.not_quiet {s : Shared} (h : Converting s) : ¬ Quiet s := by
  rintro (hended | ⟨-, hnone⟩)
  · rw [h.2] at hended
    cases hended
  · exact h.1 hnone

/-- The invariant of the view. -/
structure ViewInv (s : Shared) : Prop where
  kept : ViewKept s
  converting : s.log.view .conversion ≠ none → Converting s
  ringOpen : Quiet s ∨ RingOpen s.processor

/-- What the conversion thread can do, as the swap-chain thread sees it. -/
structure ConversionMoves (s t : Shared) : Prop where
  frameRing : t.processor.frameRing = s.processor.frameRing
  frameReadyEvent : t.processor.frameReadyEvent = s.processor.frameReadyEvent
  frameMapping : t.processor.frameMapping = s.processor.frameMapping
  mapped : t.processor.mapped = s.processor.mapped
  eventOpen : t.processor.eventOpen = s.processor.eventOpen
  joinable : t.processor.joinable = s.processor.joinable
  ended : s.processor.ended = true → t.processor.ended = true
  quiet : Quiet s → Quiet t

/-- What the swap-chain thread can do, as the conversion thread sees it. -/
structure SwapChainMoves (s t : Shared) : Prop where
  view : t.log.view .conversion = s.log.view .conversion
  converting : t.log.converting = s.log.converting
  ended : t.processor.ended = s.processor.ended

theorem ConversionMoves.refl (s : Shared) : ConversionMoves s s :=
  ⟨rfl, rfl, rfl, rfl, rfl, rfl, id, id⟩

theorem ConversionMoves.trans {s t u : Shared} (h : ConversionMoves s t)
    (h' : ConversionMoves t u) : ConversionMoves s u where
  frameRing := h'.frameRing.trans h.frameRing
  frameReadyEvent := h'.frameReadyEvent.trans h.frameReadyEvent
  frameMapping := h'.frameMapping.trans h.frameMapping
  mapped := h'.mapped.trans h.mapped
  eventOpen := h'.eventOpen.trans h.eventOpen
  joinable := h'.joinable.trans h.joinable
  ended hs := h'.ended (h.ended hs)
  quiet hs := h'.quiet (h.quiet hs)

theorem SwapChainMoves.refl (s : Shared) : SwapChainMoves s s := ⟨rfl, rfl, rfl⟩

theorem SwapChainMoves.trans {s t u : Shared} (h : SwapChainMoves s t)
    (h' : SwapChainMoves t u) : SwapChainMoves s u :=
  ⟨h'.view.trans h.view, h'.converting.trans h.converting, h'.ended.trans h.ended⟩

/-- The contracts of the threads.  The host changes nothing but the header. -/
def viewRG : Worker → RG Shared
  | .swapChain =>
      { rely := fun s t ↦ ConversionMoves s t ∧ ViewInv t
        guar := fun s t ↦ SwapChainMoves s t ∧ ViewInv t
        rely_trans := fun h h' ↦ ⟨h.1.trans h'.1, h'.2⟩
        rely_refl := fun h ↦ ⟨.refl _, h.2⟩ }
  | .conversion =>
      { rely := fun s t ↦ SwapChainMoves s t ∧ ViewInv t
        guar := fun s t ↦ ConversionMoves s t ∧ ViewInv t
        rely_trans := fun h h' ↦ ⟨h.1.trans h'.1, h'.2⟩
        rely_refl := fun h ↦ ⟨.refl _, h.2⟩ }
  | .host =>
      { rely := fun _ t ↦ ViewInv t
        guar := fun s t ↦ SwapChainMoves s t ∧ ConversionMoves s t ∧ ViewInv t
        rely_trans := fun _ h ↦ h
        rely_refl := fun h ↦ h }

/-! ## The swap-chain thread -/

variable {allow : Steps} [allow.Decides] {i : Worker} {s t u : Shared} {β : Type} {w : Answer}
  {o : CaptureOp β} {r : β}

/-- What the swap-chain thread knows of the ring stays true. -/
structure SameRing (p q : Processor) : Prop where
  frameRing : q.frameRing = p.frameRing
  frameReadyEvent : q.frameReadyEvent = p.frameReadyEvent
  frameMapping : q.frameMapping = p.frameMapping
  mapped : q.mapped = p.mapped
  eventOpen : q.eventOpen = p.eventOpen
  joinable : q.joinable = p.joinable

theorem ConversionMoves.sameRing (h : ConversionMoves s t) : SameRing s.processor t.processor :=
  ⟨h.frameRing, h.frameReadyEvent, h.frameMapping, h.mapped, h.eventOpen, h.joinable⟩

theorem RingOpen.congr {p q : Processor} (h : RingOpen p) (hsame : SameRing p q) :
    RingOpen q := by
  intro v hv
  rw [hsame.frameRing] at hv
  rw [hsame.mapped, hsame.frameReadyEvent, hsame.frameMapping, hsame.eventOpen]
  exact h v hv

theorem ViewKept.congr (h : ViewKept s) (hsame : SameRing s.processor t.processor)
    (hview : t.log.view .conversion = s.log.view .conversion) : ViewKept t := by
  intro v hv
  rw [hview] at hv
  rw [hsame.frameRing, hsame.mapped, hsame.frameReadyEvent, hsame.eventOpen]
  exact h v hv

/-- An assertion of the swap-chain thread that says nothing but what it knows of the ring
is stable. -/
theorem stable_ring {A : Processor → Prop} (hA : ∀ p q, SameRing p q → A p → A q) :
    (viewRG .swapChain).Stable fun s ↦ A s.processor :=
  fun _ _ h hs ↦ hA _ _ h.1.sameRing hs

theorem KeepsView.processor {p q : Processor} (ho : KeepsView β o)
    (h : CaptureOp.exec β w o p = some (r, q)) : SameRing p q ∧ q.ended = p.ended := by
  cases o <;> first
    | exact ho.elim
    | simp only [CaptureOp.exec] at h
      repeat' split at h
      all_goals cases h <;> exact ⟨⟨rfl, rfl, rfl, rfl, rfl, rfl⟩, rfl⟩

/-- The swap-chain thread leaves the record of the conversion thread alone. -/
theorem KeepsView.log (ho : KeepsView β o) (log : Log) (p : Processor) :
    (log.step .swapChain β o r p).view .conversion = log.view .conversion ∧
      (log.step .swapChain β o r p).converting = log.converting := by
  cases o with
  | acquireBgraBuffer | enqueueBgraFrame => cases r <;> exact ⟨rfl, rfl⟩
  | dequeueBgraFrame => exact ho.elim
  | checkFrameRing | claimFrameSlot | setEvent =>
      simp only [Log.step]
      split <;> exact ⟨rfl, rfl⟩
  | _ => exact ⟨rfl, rfl⟩

/-- What the swap-chain thread knows between two uses of the ring. -/
def Established (p : Processor) : Prop := RingOpen p ∧ p.joinable = true

theorem Established.congr {p q : Processor} (hsame : SameRing p q) (h : Established p) :
    Established q :=
  ⟨h.1.congr hsame, hsame.joinable.trans h.2⟩

theorem established_stable : (viewRG .swapChain).Stable fun s ↦ Established s.processor :=
  stable_ring fun _ _ ↦ Established.congr

/-- Operations that have nothing to do with the view. -/
theorem keepsView_triple {α : Type} {p : CaptureProg α} (hp : p.Uses KeepsView) :
    Triple (captureExec allow .swapChain) (viewRG .swapChain) (fun s ↦ Established s.processor) p
      fun _ s ↦ Established s.processor := by
  refine Triple.of_preserves hp established_stable fun β o ho w s r u hs hA hu ↦ ?_
  obtain ⟨-, q, hexec, rfl⟩ := captureExec_some hu
  obtain ⟨hsame, hended⟩ := ho.processor hexec
  obtain ⟨hview, hconverting⟩ := ho.log s.log s.processor
  have hinv := hs.2
  refine ⟨⟨⟨hview, hconverting, hended⟩, hinv.kept.congr hsame hview, fun h ↦ ?_,
    .inr (hA.congr hsame).1⟩, hA.congr hsame⟩
  obtain ⟨hne, hrunning⟩ := hinv.converting (hview ▸ h)
  exact ⟨fun hnone ↦ hne (hconverting.symm.trans hnone), hended.trans hrunning⟩

theorem RingOperation.processor {p q : Processor} (ho : RingOperation β o)
    (h : CaptureOp.exec β w o p = some (r, q)) :
    q.ended = p.ended ∧ q.bgraQueueCount = p.bgraQueueCount ∧ q.joinable = p.joinable := by
  cases o <;> first
    | exact ho.elim
    | simp only [CaptureOp.exec] at h
      repeat' split at h
      all_goals
        cases h
        exact ⟨rfl, rfl, rfl⟩

/-- While the conversion thread has nothing to do, the ring may be closed. -/
theorem RingOperation.of_quiet (ho : RingOperation β o) (hs : ViewInv s) (hquiet : Quiet s)
    (hu : captureExec allow .swapChain β w o s = some (r, u)) :
    (viewRG .swapChain).guar s u ∧ Quiet u ∧ u.processor.joinable = s.processor.joinable := by
  obtain ⟨-, q, hexec, rfl⟩ := captureExec_some hu
  rw [ho.log]
  obtain ⟨hended, hcount, hjoinable⟩ := ho.processor hexec
  have hview : s.log.view .conversion = none := by
    by_contra hne
    exact (hs.converting hne).not_quiet hquiet
  have hquiet' : Quiet ⟨q, s.log⟩ := by
    unfold Quiet
    rw [hended, hcount]
    exact hquiet
  refine ⟨⟨⟨rfl, rfl, hended⟩, ⟨fun v hv ↦ ?_, fun hne ↦ absurd hview hne, .inl hquiet'⟩⟩,
    hquiet', hjoinable⟩
  rw [hview] at hv
  cases hv

/-- As long as `m_FrameRing` is null, the conversion thread uses no view. -/
theorem RingOperation.of_null (ho : RingOperation β o) (hs : ViewInv s)
    (hnull : s.processor.frameRing = none) (hopen : RingOpen u.processor)
    (hu : captureExec allow .swapChain β w o s = some (r, u)) :
    (viewRG .swapChain).guar s u ∧ u.processor.joinable = s.processor.joinable := by
  obtain ⟨-, q, hexec, rfl⟩ := captureExec_some hu
  rw [ho.log]
  obtain ⟨hended, -, hjoinable⟩ := ho.processor hexec
  have hview : s.log.view .conversion = none := by
    cases hv : s.log.view .conversion with
    | none => rfl
    | some v =>
        have hring := (hs.kept v hv).1
        rw [hnull] at hring
        cases hring
  refine ⟨⟨⟨rfl, rfl, hended⟩, ⟨fun v hv ↦ ?_, fun hne ↦ absurd hview hne, .inr hopen⟩⟩, hjoinable⟩
  rw [hview] at hv
  cases hv

theorem ringOpen_of_null {p : Processor} (h : p.frameRing = none) : RingOpen p := by
  intro v hv
  rw [h] at hv
  cases hv

/-- The swap-chain thread closes the ring; `joinable` says whether it has joined the
conversion thread. -/
def Closing (joinable : Bool) (s : Shared) : Prop :=
  Quiet s ∧ s.processor.joinable = joinable

/-- It has closed the ring. -/
def Closed (joinable : Bool) (s : Shared) : Prop :=
  Quiet s ∧ s.processor.joinable = joinable ∧ s.processor.frameRing = none

theorem closing_stable (joinable : Bool) : (viewRG .swapChain).Stable (Closing joinable) :=
  fun _ _ h hs ↦ ⟨h.1.quiet hs.1, h.1.joinable.trans hs.2⟩

theorem closed_stable (joinable : Bool) : (viewRG .swapChain).Stable (Closed joinable) :=
  fun _ _ h hs ↦ ⟨h.1.quiet hs.1, h.1.joinable.trans hs.2.1, h.1.frameRing.trans hs.2.2⟩

theorem closeView_triple (joinable : Bool) :
    Triple (captureExec allow .swapChain) (viewRG .swapChain) (Closing joinable) closeView
      fun _ s ↦ Closed joinable s := by
  have hstable (ok : Bool) :
      (viewRG .swapChain).Stable fun s ↦ Closing joinable s ∧ ok = s.processor.frameRing.isSome :=
    (closing_stable joinable).and fun _ _ h hs ↦ by rw [h.1.frameRing]; exact hs
  refine Triple.act (closing_stable joinable)
    (fun ok s ↦ Closing joinable s ∧ ok = s.processor.frameRing.isSome) ?_ fun ok ↦ ?_
  · intro s hs hA w r u hu
    obtain ⟨hguar, hquiet, hjoinable⟩ :=
      RingOperation.of_quiet (o := .readFrameRing) trivial hs.2 hA.1 hu
    obtain ⟨-, q, hexec, rfl⟩ := captureExec_some hu
    cases hexec
    exact ⟨hguar, ⟨hquiet, hA.2⟩, rfl⟩
  · simp only [Prog.ret_bind]
    split
    · refine Triple.act (hstable ok) (fun _ ↦ Closing joinable) ?_ fun _ ↦
        Triple.act (closing_stable joinable) (fun _ ↦ Closed joinable) ?_ fun _ ↦
          Triple.ret (closed_stable joinable) fun _ h ↦ h
      · intro s hs hA w r u hu
        obtain ⟨hguar, hquiet, hjoinable⟩ :=
          RingOperation.of_quiet (o := .unmapViewOfFile) trivial hs.2 hA.1.1 hu
        exact ⟨hguar, hquiet, hjoinable.trans hA.1.2⟩
      · intro s hs hA w r u hu
        obtain ⟨hguar, hquiet, hjoinable⟩ :=
          RingOperation.of_quiet (o := .writeFrameRing none) trivial hs.2 hA.1 hu
        obtain ⟨-, q, hexec, rfl⟩ := captureExec_some hu
        cases hexec
        exact ⟨hguar, hquiet, hA.2, rfl⟩
    · next hok =>
      refine Triple.ret (hstable ok) fun s hs ↦ ⟨hs.1.1, hs.1.2, ?_⟩
      rw [hs.2] at hok
      simpa using hok

theorem closeFrameRing_triple (joinable : Bool) :
    Triple (captureExec allow .swapChain) (viewRG .swapChain) (Closing joinable) closeFrameRing
      fun _ s ↦ Closed joinable s := by
  refine Triple.bind (fun _ ↦ Closed joinable) (closeView_triple joinable) fun _ ↦ ?_
  refine Triple.of_preserves closeHandles_uses (closed_stable joinable)
    fun β o ho w s r u hs hA hu ↦ ?_
  obtain ⟨hguar, hquiet, hjoinable⟩ := ho.ring.of_quiet hs.2 hA.1 hu
  obtain ⟨-, q, hexec, rfl⟩ := captureExec_some hu
  refine ⟨hguar, hquiet, hjoinable.trans hA.2.1, ?_⟩
  cases o <;> first
    | exact ho.elim
    | cases hexec
      exact hA.2.2

/-- The ring is being opened: `m_FrameRing` is still null. -/
def Opening (P : Processor → Prop) (p : Processor) : Prop :=
  p.frameRing = none ∧ p.joinable = true ∧ P p

theorem opening_stable {P : Processor → Prop} (hP : ∀ p q, SameRing p q → P p → P q) :
    (viewRG .swapChain).Stable fun s ↦ Opening P s.processor :=
  stable_ring fun p q hsame h ↦
    ⟨hsame.frameRing.trans h.1, hsame.joinable.trans h.2.1, hP p q hsame h.2.2⟩

/-- An operation that leaves `m_FrameRing` null. -/
theorem opening_act {α : Type} {P : Processor → Prop} {Q : β → Processor → Prop}
    {k : β → CaptureProg α} {R : α → Shared → Prop} (ho : RingOperation β o)
    (hP : ∀ p q, SameRing p q → P p → P q)
    (hexec : ∀ w p r q, CaptureOp.exec β w o p = some (r, q) → P p →
      q.frameRing = p.frameRing ∧ Q r q)
    (hk : ∀ r, Triple (captureExec allow .swapChain) (viewRG .swapChain)
      (fun s ↦ Opening (Q r) s.processor) (k r) R) :
    Triple (captureExec allow .swapChain) (viewRG .swapChain)
      (fun s ↦ Opening P s.processor) (.act o k) R := by
  refine Triple.act (opening_stable hP) (fun r s ↦ Opening (Q r) s.processor) ?_ hk
  intro s hs hA w r u hu
  obtain ⟨-, q, hq, hu'⟩ := captureExec_some hu
  obtain ⟨hring, hQ⟩ := hexec w _ r q hq hA.2.2
  have hnull : u.processor.frameRing = none := by
    rw [hu']
    exact hring.trans hA.1
  obtain ⟨hguar, hjoinable⟩ := ho.of_null hs.2 hA.1 (ringOpen_of_null hnull) hu
  refine ⟨hguar, hnull, hjoinable.trans hA.2.1, ?_⟩
  rw [hu']
  exact hQ

theorem opening_ret {P : Processor → Prop} (hP : ∀ p q, SameRing p q → P p → P q) (ok : Bool) :
    Triple (captureExec allow .swapChain) (viewRG .swapChain)
      (fun s ↦ Opening P s.processor) (.ret ok) fun _ s ↦ Established s.processor :=
  Triple.ret (opening_stable hP) fun _ h ↦ ⟨ringOpen_of_null h.1, h.2.1⟩

/-- A view is mapped and the event is open. -/
def Mapped (v : Nat) (p : Processor) : Prop := p.eventOpen = true ∧ p.mapped = some v

theorem Mapped.congr {v : Nat} (p q : Processor) (hsame : SameRing p q) (h : Mapped v p) :
    Mapped v q :=
  ⟨hsame.eventOpen.trans h.1, hsame.mapped.trans h.2⟩

/-- The last part of `EnsureFrameRing`. -/
theorem setFrameRing_triple (v : Nat) :
    Triple (captureExec allow .swapChain) (viewRG .swapChain)
      (fun s ↦ Opening (Mapped v) s.processor)
      (do
        perform (.writeFrameMapping true)
        perform (.writeFrameReadyEvent true)
        perform (.writeFrameRing (some v))
        return true)
      fun _ s ↦ Established s.processor := by
  have hstable₁ (p q : Processor) (hsame : SameRing p q)
      (h : Mapped v p ∧ p.frameMapping = true) : Mapped v q ∧ q.frameMapping = true :=
    ⟨h.1.congr p q hsame, hsame.frameMapping.trans h.2⟩
  have hstable₂ (p q : Processor) (hsame : SameRing p q)
      (h : (Mapped v p ∧ p.frameMapping = true) ∧ p.frameReadyEvent = true) :
      (Mapped v q ∧ q.frameMapping = true) ∧ q.frameReadyEvent = true :=
    ⟨hstable₁ p q hsame h.1, hsame.frameReadyEvent.trans h.2⟩
  refine opening_act (Q := fun _ p ↦ Mapped v p ∧ p.frameMapping = true) trivial Mapped.congr ?_
    fun _ ↦ ?_
  · intro w p r q hq h
    cases hq
    exact ⟨rfl, h, rfl⟩
  refine opening_act
    (Q := fun _ p ↦ (Mapped v p ∧ p.frameMapping = true) ∧ p.frameReadyEvent = true) trivial
    hstable₁ ?_ fun _ ↦ ?_
  · intro w p r q hq h
    cases hq
    exact ⟨rfl, h, rfl⟩
  refine Triple.act (opening_stable hstable₂) (fun _ s ↦ Established s.processor) ?_
    fun _ ↦ Triple.ret established_stable fun _ h ↦ h
  intro s hs hA w r u hu
  have hopen : RingOpen u.processor := by
    obtain ⟨-, q, hq, rfl⟩ := captureExec_some hu
    cases hq
    intro v' hv'
    cases hv'
    obtain ⟨⟨⟨hevent, hmapped⟩, hmapping⟩, hready⟩ := hA.2.2
    exact ⟨hmapped, hready, hmapping, hevent⟩
  obtain ⟨hguar, hjoinable⟩ :=
    RingOperation.of_null (o := .writeFrameRing (some v)) trivial hs.2 hA.1 hopen hu
  exact ⟨hguar, hopen, hjoinable.trans hA.2.1⟩

theorem openFrameRing_triple :
    Triple (captureExec allow .swapChain) (viewRG .swapChain)
      (fun s ↦ Opening (fun _ ↦ True) s.processor) openFrameRing
      fun _ s ↦ Established s.processor := by
  have htrue : ∀ p q : Processor, SameRing p q → True → True := fun _ _ _ h ↦ h
  -- giving up
  have hclose {P : Processor → Prop} (hP : ∀ p q, SameRing p q → P p → P q) :
      Triple (captureExec allow .swapChain) (viewRG .swapChain)
        (fun s ↦ Opening P s.processor) (do perform .closeEvent; return false)
        fun _ s ↦ Established s.processor := by
    refine opening_act (Q := fun _ _ ↦ True) trivial hP ?_ fun _ ↦ opening_ret htrue false
    intro w p r q hq _
    cases hq
    exact ⟨rfl, trivial⟩
  unfold openFrameRing
  refine opening_act (Q := fun _ _ ↦ True) trivial htrue ?_ fun ok ↦ ?_
  · intro w p r q hq _
    cases hq
    exact ⟨rfl, trivial⟩
  simp only [Prog.pure_eq, Prog.bind_eq, Prog.ret_bind]
  split
  · exact opening_ret htrue false
  have hevent (ok : Bool) (p q : Processor) (hsame : SameRing p q)
      (h : ok = true → p.eventOpen = true) (hok : ok = true) : q.eventOpen = true :=
    hsame.eventOpen.trans (h hok)
  refine opening_act (Q := fun ok p ↦ ok = true → p.eventOpen = true) trivial htrue ?_ fun ok ↦ ?_
  · intro w p r q hq _
    simp only [CaptureOp.exec] at hq
    split at hq <;> cases hq
    · exact ⟨rfl, fun _ ↦ rfl⟩
    · exact ⟨rfl, nofun⟩
  simp only [Prog.ret_bind]
  split
  · exact opening_ret (hevent ok) false
  next hok =>
  have hok : ok = true := by simpa using hok
  have hview (view : Option Nat) (p q : Processor) (hsame : SameRing p q)
      (h : p.eventOpen = true ∧ ∀ v, view = some v → p.mapped = some v) :
      q.eventOpen = true ∧ ∀ v, view = some v → q.mapped = some v :=
    ⟨hsame.eventOpen.trans h.1, fun v hv ↦ hsame.mapped.trans (h.2 v hv)⟩
  refine opening_act
    (Q := fun view p ↦ p.eventOpen = true ∧ ∀ v, view = some v → p.mapped = some v) trivial
    (hevent ok) ?_ fun view ↦ ?_
  · intro w p r q hq h
    simp only [CaptureOp.exec] at hq
    split at hq <;> cases hq
    · exact ⟨rfl, h hok, fun v hv ↦ hv⟩
    · exact ⟨rfl, h hok, nofun⟩
  cases view with
  | none => exact hclose (hview none)
  | some v =>
      refine opening_act (Q := fun _ ↦ Mapped v) trivial (hview (some v)) ?_ fun valid ↦ ?_
      · intro w p r q hq h
        cases hq
        exact ⟨rfl, h.1, h.2 v rfl⟩
      simp only [Prog.ret_bind]
      split
      · refine opening_act (Q := fun _ _ ↦ True) trivial Mapped.congr ?_ fun _ ↦ hclose htrue
        intro w p r q hq _
        cases hq
        exact ⟨rfl, trivial⟩
      · exact setFrameRing_triple v

/-- An operation that only reads. -/
theorem read_act {α : Type} {A : Processor → Prop} {B : β → Processor → Prop}
    {k : β → CaptureProg α} {R : α → Shared → Prop} (ho : RingOperation β o)
    (hA : ∀ p q, SameRing p q → A p → A q)
    (hexec : ∀ w p r q, CaptureOp.exec β w o p = some (r, q) → A p → q = p ∧ B r p)
    (hk : ∀ r, Triple (captureExec allow .swapChain) (viewRG .swapChain)
      (fun s ↦ B r s.processor) (k r) R) :
    Triple (captureExec allow .swapChain) (viewRG .swapChain)
      (fun s ↦ A s.processor) (.act o k) R := by
  refine Triple.act (stable_ring hA) (fun r s ↦ B r s.processor) ?_ hk
  intro s hs hAs w r u hu
  obtain ⟨-, q, hq, rfl⟩ := captureExec_some hu
  obtain ⟨rfl, hB⟩ := hexec w _ r q hq hAs
  rw [ho.log]
  exact ⟨⟨.refl s, hs.2⟩, hB⟩

/-- Whether the ring is open. -/
theorem frameRingOpen_triple :
    Triple (captureExec allow .swapChain) (viewRG .swapChain) (fun s ↦ Established s.processor)
      frameRingOpen fun ok s ↦ Established s.processor ∧ ok = s.processor.frameRing.isSome := by
  have hstable (ok : Bool) (p q : Processor) (hsame : SameRing p q)
      (h : Established p ∧ ok = p.frameRing.isSome) : Established q ∧ ok = q.frameRing.isSome :=
    ⟨h.1.congr hsame, by rw [hsame.frameRing]; exact h.2⟩
  -- all three members are null or none is
  have hall {p : Processor} (h : Established p) (hsome : p.frameRing.isSome = true) :
      p.frameReadyEvent = true ∧ p.frameMapping = true := by
    obtain ⟨v, hv⟩ := Option.isSome_iff_exists.1 hsome
    obtain ⟨-, hready, hmapping, -⟩ := h.1 v hv
    exact ⟨hready, hmapping⟩
  unfold frameRingOpen
  refine read_act (B := fun ok p ↦ Established p ∧ ok = p.frameRing.isSome) trivial
    (fun _ _ ↦ Established.congr) ?_ fun ok ↦ ?_
  · intro w p r q hq h
    cases hq
    exact ⟨rfl, h, rfl⟩
  simp only [Prog.pure_eq, Prog.ret_bind]
  split
  · next hok =>
    refine Triple.ret (stable_ring (hstable ok)) fun s hs ↦ ⟨hs.1, ?_⟩
    rw [← hs.2]
    simpa using hok.symm
  next hok =>
  have hok : ok = true := by simpa using hok
  refine read_act (o := .readFrameMapping)
    (B := fun ok p ↦ Established p ∧ ok = p.frameRing.isSome) trivial (hstable ok) ?_
    fun mapping ↦ ?_
  · intro w p r q hq h
    cases hq
    obtain ⟨-, hmapping⟩ := hall h.1 (h.2.symm.trans hok)
    exact ⟨rfl, h.1, by rw [hmapping, ← h.2, hok]⟩
  simp only [Prog.ret_bind]
  split
  · next hno =>
    refine Triple.ret (stable_ring (hstable mapping)) fun s hs ↦ ⟨hs.1, ?_⟩
    rw [← hs.2]
    simpa using hno.symm
  next hmapping =>
  have hmapping : mapping = true := by simpa using hmapping
  refine read_act (o := .readFrameReadyEvent)
    (B := fun ok p ↦ Established p ∧ ok = p.frameRing.isSome) trivial (hstable mapping) ?_
    fun ready ↦ Triple.ret (stable_ring (hstable ready)) fun _ h ↦ h
  intro w p r q hq h
  cases hq
  obtain ⟨hready, -⟩ := hall h.1 (h.2.symm.trans hmapping)
  exact ⟨rfl, h.1, by rw [hready, ← h.2, hmapping]⟩

/-- `EnsureFrameRing` closes the ring only while the conversion thread has nothing to
do. -/
theorem ensureFrameRing_triple :
    Triple (captureExec closesQuietly .swapChain) (viewRG .swapChain)
      (fun s ↦ Established s.processor) ensureFrameRing fun _ s ↦ Established s.processor := by
  have hstable (ok : Bool) : (viewRG .swapChain).Stable fun s ↦
      Established s.processor ∧ ok = s.processor.frameRing.isSome :=
    stable_ring (A := fun p ↦ Established p ∧ ok = p.frameRing.isSome) fun p q hsame h ↦
      ⟨h.1.congr hsame, by rw [hsame.frameRing]; exact h.2⟩
  refine Triple.bind _ frameRingOpen_triple fun ok ↦ ?_
  split
  · next hok =>
    refine Triple.act (hstable ok) (fun valid s ↦
      Established s.processor ∧ (valid = true ∨ Quiet s)) ?_ fun valid ↦ ?_
    · intro s hs hA w r u hu
      obtain ⟨hallow, q, hq, rfl⟩ := captureExec_some hu
      cases hq
      refine ⟨⟨.refl s, hs.2⟩, hA.1, ?_⟩
      cases hvalid : s.processor.headerValid with
      | true => exact .inl rfl
      | false =>
          right
          apply hallow _ hvalid
          intro hnull
          rw [hnull, hok] at hA
          cases hA.2
    · have hstable' : (viewRG .swapChain).Stable fun s ↦
          Established s.processor ∧ (valid = true ∨ Quiet s) :=
        established_stable.and fun _ _ h hs ↦ hs.imp_right h.1.quiet
      simp only [Prog.ret_bind]
      split
      · exact Triple.ret hstable' fun _ h ↦ h.1
      · next hvalid =>
        refine Triple.bind (fun _ ↦ Closed true) ((closeFrameRing_triple true).conseq
          (fun s hs ↦ ⟨hs.2.resolve_left hvalid, hs.1.2⟩) fun _ _ h ↦ h) fun _ ↦ ?_
        exact openFrameRing_triple.conseq (fun s hs ↦ ⟨hs.2.2, hs.2.1, trivial⟩) fun _ _ h ↦ h
  · next hok =>
    refine openFrameRing_triple.conseq (fun s hs ↦ ⟨?_, hs.1.2, trivial⟩) fun _ _ h ↦ h
    rw [hs.2] at hok
    simpa using hok

theorem captureAndPublish_triple (m : Staging) (surface : Surface)
    (presentDisplayQpcTime : Nat) :
    Triple (captureExec closesQuietly .swapChain) (viewRG .swapChain)
      (fun s ↦ Established s.processor) (captureAndPublish m surface presentDisplayQpcTime)
      fun _ s ↦ Established s.processor := by
  obtain ⟨rest, heq, huses⟩ := captureAndPublish_keepsView m surface presentDisplayQpcTime
  rw [heq]
  exact Triple.bind _ ensureFrameRing_triple fun ok ↦ keepsView_triple (huses ok)

theorem captureLoop_triple (m : Staging) (surfaces : List (Surface × Nat)) :
    Triple (captureExec closesQuietly .swapChain) (viewRG .swapChain)
      (fun s ↦ Established s.processor) (captureLoop m surfaces)
      fun _ s ↦ Established s.processor := by
  induction surfaces generalizing m with
  | nil => exact Triple.ret established_stable fun _ h ↦ h
  | cons surface surfaces ih =>
      refine Triple.bind _ (captureAndPublish_triple m surface.1 surface.2) fun r ↦ ?_
      split
      · exact Triple.ret established_stable fun _ h ↦ h
      · exact ih r.2

/-- When the conversion thread has been joined, it has ended. -/
theorem stopConversionThread_triple :
    Triple (captureExec allow .swapChain) (viewRG .swapChain) (fun s ↦ Established s.processor)
      stopConversionThread fun _ s ↦ Closing false s := by
  refine Triple.bind (p := perform .setBgraStop) _
    (keepsView_triple ⟨trivial, fun _ ↦ trivial⟩) fun _ ↦ ?_
  refine Triple.act established_stable (fun _ ↦ Closing false) ?_
    fun _ ↦ Triple.ret (closing_stable false) fun _ h ↦ h
  intro s hs hA w r u hu
  obtain ⟨-, q, hq, rfl⟩ := captureExec_some hu
  have hended : s.processor.ended = true := by
    by_contra hrunning
    simp [CaptureOp.exec, hA.2, hrunning] at hq
  simp only [CaptureOp.exec] at hq
  split at hq <;> cases hq
  have hinv := hs.2
  refine ⟨⟨⟨rfl, rfl, rfl⟩, hinv.kept, hinv.converting, .inl (.inl hended)⟩, .inl hended, rfl⟩

/-- `RunCore` from the start. -/
theorem runCore_triple (surfaces : List (Surface × Nat)) :
    Triple (captureExec closesQuietly .swapChain) (viewRG .swapChain)
      (fun s ↦ s.processor.frameRing = none) (runCore surfaces) fun _ _ ↦ True := by
  have hstable : (viewRG .swapChain).Stable fun s ↦ s.processor.frameRing = none :=
    fun _ _ h hs ↦ h.1.frameRing.trans hs
  unfold runCore
  refine Triple.act hstable
    (fun ok s ↦ RingOpen s.processor ∧ (ok = true → s.processor.joinable = true)) ?_ fun ok ↦ ?_
  · intro s hs hA w r u hu
    obtain ⟨-, q, hq, rfl⟩ := captureExec_some hu
    have hinv := hs.2
    have hopen := ringOpen_of_null hA
    simp only [CaptureOp.exec] at hq
    split at hq <;> cases hq
    · exact ⟨⟨⟨rfl, rfl, rfl⟩, hinv.kept, hinv.converting, .inr hopen⟩, hopen, fun _ ↦ rfl⟩
    · exact ⟨⟨.refl s, hinv⟩, hopen, nofun⟩
  simp only [Prog.pure_eq, Prog.bind_eq, Prog.ret_bind]
  split
  · exact Triple.ret (stable_ring (A := fun p ↦ RingOpen p ∧ (ok = true → p.joinable = true))
      fun p q hsame h ↦ ⟨h.1.congr hsame, fun hok ↦ hsame.joinable.trans (h.2 hok)⟩)
      fun _ _ ↦ trivial
  next hok =>
  have hok : ok = true := by simpa using hok
  refine Triple.bind _ ((captureLoop_triple {} surfaces).conseq (fun s hs ↦ ⟨hs.1, hs.2 hok⟩)
    fun _ _ h ↦ h) fun m ↦ ?_
  have hstop : Triple (captureExec closesQuietly .swapChain) (viewRG .swapChain)
      (fun s ↦ Established s.processor) (stopConversionThread.bind fun _ ↦ closeFrameRing)
      fun _ _ ↦ True :=
    Triple.bind _ stopConversionThread_triple fun _ ↦
      (closeFrameRing_triple false).conseq (fun _ h ↦ h) fun _ _ _ ↦ trivial
  split
  · exact Triple.bind _ (keepsView_triple (mapAndQueueStagingFrame_keepsView _ _)) fun _ ↦ hstop
  · exact hstop

/-! ## The conversion thread -/

/-- The operations of `PublishBgraFrame`. -/
def PublishOperation : (β : Type) → CaptureOp β → Prop
  | _, .checkBgraBuffer _ | _, .checkFrameRing | _, .claimFrameSlot | _, .call _
  | _, .readNextSequence | _, .writeNextSequence _ | _, .readNextFrameId | _, .writeNextFrameId _
  | _, .readPixel _ _ | _, .writeSlot _ | _, .makeReady | _, .makeFree | _, .setEvent => True
  | _, _ => False

theorem PublishOperation.keepsView (ho : PublishOperation β o) : KeepsView β o := by
  cases o <;> first | exact ho.elim | trivial

/-- What a publish of the conversion thread adds to the record. -/
theorem PublishOperation.log (ho : PublishOperation β o) (log : Log) (p : Processor) :
    (log.step .conversion β o r p).view .conversion = none ∨
      ((log.step .conversion β o r p).view .conversion = log.view .conversion ∨
        (log.step .conversion β o r p).view .conversion = p.frameRing) ∧
      (log.step .conversion β o r p).converting = log.converting := by
  cases o with
  | checkFrameRing =>
      simp only [Log.step]
      split
      · exact .inr ⟨.inr rfl, rfl⟩
      · exact .inl rfl
  | claimFrameSlot | setEvent =>
      simp only [Log.step]
      split
      all_goals first
        | exact .inl rfl
        | exact .inr ⟨.inl rfl, rfl⟩
  | makeFree => exact .inl rfl
  | _ => first
    | exact ho.elim
    | exact .inr ⟨.inl rfl, rfl⟩

/-- An operation of a publish keeps the view that is used. -/
theorem PublishOperation.guar (ho : PublishOperation β o) (hs : ViewInv s) (hc : Converting s)
    (hu : captureExec allow .conversion β w o s = some (r, u)) :
    (viewRG .conversion).guar s u ∧ u.processor.ended = false := by
  obtain ⟨-, q, hexec, rfl⟩ := captureExec_some hu
  obtain ⟨hsame, hended⟩ := ho.keepsView.processor hexec
  have hopen : RingOpen s.processor := hs.ringOpen.resolve_left hc.not_quiet
  refine ⟨⟨⟨hsame.frameRing, hsame.frameReadyEvent, hsame.frameMapping, hsame.mapped,
    hsame.eventOpen, hsame.joinable, fun h ↦ hended.trans h,
    fun hquiet ↦ absurd hquiet hc.not_quiet⟩, ?_⟩, hended.trans hc.2⟩
  rcases ho.log s.log s.processor with hnone | ⟨hview, hconverting⟩
  · refine ⟨fun v hv ↦ ?_, fun hne ↦ absurd hnone hne, .inr (hopen.congr hsame)⟩
    rw [hnone] at hv
    cases hv
  · refine ⟨fun v hv ↦ ?_, fun _ ↦ ⟨fun hnone ↦ hc.1 (hconverting.symm.trans hnone),
      hended.trans hc.2⟩, .inr (hopen.congr hsame)⟩
    rcases hview with hview | hview
    · exact (hs.kept.congr (t := ⟨q, s.log.step .conversion β o r s.processor⟩) hsame hview) v hv
    · have hring : s.processor.frameRing = some v := hview.symm.trans hv
      obtain ⟨hmapped, hready, -, hevent⟩ := hopen v hring
      exact ⟨hsame.frameRing.trans hring, hsame.mapped.trans hmapped,
        hsame.frameReadyEvent.trans hready, hsame.eventOpen.trans hevent⟩

/-- The conversion thread has not ended and uses no view. -/
def Released (s : Shared) : Prop :=
  s.processor.ended = false ∧ s.log.view .conversion = none

theorem converting_stable : (viewRG .conversion).Stable Converting :=
  fun _ _ h hs ↦ ⟨h.1.converting ▸ hs.1, h.1.ended.trans hs.2⟩

theorem released_stable : (viewRG .conversion).Stable Released :=
  fun _ _ h hs ↦ ⟨h.1.ended.trans hs.1, h.1.view.trans hs.2⟩

/-- An operation of a publish before its last one. -/
theorem publish_act {α : Type} {A : Shared → Prop} {B : β → Shared → Prop} {k : β → CaptureProg α}
    {R : α → Shared → Prop} (ho : PublishOperation β o) (hA : (viewRG .conversion).Stable A)
    (hc : ∀ s, A s → Converting s)
    (hB : ∀ r s q, A s →
      q.ended = false → B r ⟨q, s.log.step .conversion β o r s.processor⟩)
    (hk : ∀ r, Triple (captureExec allow .conversion) (viewRG .conversion) (B r) (k r) R) :
    Triple (captureExec allow .conversion) (viewRG .conversion) A (.act o k) R := by
  refine Triple.act hA B ?_ hk
  intro s hs hAs w r u hu
  obtain ⟨hguar, hended⟩ := ho.guar hs.2 (hc s hAs) hu
  obtain ⟨-, q, -, rfl⟩ := captureExec_some hu
  exact ⟨hguar, hB r s q hAs hended⟩

/-- The conversion thread has a frame to publish, and uses a view only if `holds`. -/
def Holding (holds : Bool) (s : Shared) : Prop :=
  Converting s ∧ (holds = false → s.log.view .conversion = none)

theorem holding_stable (holds : Bool) : (viewRG .conversion).Stable (Holding holds) :=
  converting_stable.and fun _ _ h hs hno ↦ h.1.view.trans (hs hno)

theorem Holding.released (h : Holding false s) : Released s := ⟨h.1.2, h.2 rfl⟩

theorem holding_ret {α : Type} (a : α) :
    Triple (captureExec allow .conversion) (viewRG .conversion) (Holding false) (.ret a)
      fun _ s ↦ Released s :=
  Triple.ret (holding_stable false) fun _ h ↦ h.released

/-- `makeFree` is the last access of a publish that gives up. -/
theorem makeFree_triple :
    Triple (captureExec allow .conversion) (viewRG .conversion) (Holding true)
      (do perform .makeFree; return false) fun _ s ↦ Released s := by
  refine publish_act (B := fun _ ↦ Holding false) trivial (holding_stable true) (fun _ h ↦ h.1) ?_
    fun _ ↦ holding_ret false
  intro _ s q hA hended
  exact ⟨⟨hA.1.1, hended⟩, fun _ ↦ rfl⟩

/-- An operation in the middle of a publish. -/
theorem holding_act {α : Type} {k : β → CaptureProg α} {R : α → Shared → Prop}
    (ho : PublishOperation β o)
    (hlog : ∀ r (log : Log) p, (log.step .conversion β o r p).converting = log.converting)
    (hk : ∀ r, Triple (captureExec allow .conversion) (viewRG .conversion) (Holding true) (k r) R) :
    Triple (captureExec allow .conversion) (viewRG .conversion) (Holding true) (.act o k) R := by
  refine publish_act (B := fun _ ↦ Holding true) ho (holding_stable true) (fun _ h ↦ h.1) ?_ hk
  intro r s q hA hended
  exact ⟨⟨fun hnone ↦ hA.1.1 ((hlog r _ _).symm.trans hnone), hended⟩, nofun⟩

theorem readPixels_triple {α : Type} {R : α → Shared → Prop} (bufferIndex count n : Nat)
    {k : List UInt8 → CaptureProg α}
    (hk : ∀ pixels, Triple (captureExec allow .conversion) (viewRG .conversion) (Holding true)
      (k pixels) R) :
    Triple (captureExec allow .conversion) (viewRG .conversion) (Holding true)
      ((readPixels bufferIndex count n).bind k) R := by
  induction count generalizing n k with
  | zero => exact hk []
  | succ count ih =>
      refine holding_act trivial (fun _ _ _ ↦ rfl) fun byte ↦ ?_
      simp only [Prog.ret_bind, Prog.bind_eq, Prog.bind_assoc]
      exact ih (n + 1) fun pixels ↦ hk (byte :: pixels)

/-- A publish that has found the ring uses its view to the end, and not longer. -/
theorem publishBgraFrame_triple (frame : PendingBgraFrame) :
    Triple (captureExec allow .conversion) (viewRG .conversion) (Holding false)
      (publishBgraFrame frame) fun _ s ↦ Released s := by
  unfold publishBgraFrame
  split
  · exact holding_ret false
  refine publish_act (B := fun _ ↦ Holding false) trivial (holding_stable false) (fun _ h ↦ h.1)
    (fun _ s q hA hended ↦ ⟨⟨hA.1.1, hended⟩, hA.2⟩) fun ok ↦ ?_
  simp only [Prog.pure_eq, Prog.bind_eq, Prog.ret_bind]
  split
  · exact holding_ret false
  refine publish_act (B := Holding) trivial (holding_stable false) (fun _ h ↦ h.1) ?_ fun ok ↦ ?_
  · intro ok s q hA hended
    cases ok with
    | false => exact ⟨⟨hA.1.1, hended⟩, fun _ ↦ rfl⟩
    | true => exact ⟨⟨hA.1.1, hended⟩, nofun⟩
  cases ok with
  | false => exact holding_ret false
  | true =>
  refine publish_act (B := Holding) trivial (holding_stable true) (fun _ h ↦ h.1) ?_ fun ok ↦ ?_
  · intro ok s q hA hended
    cases ok with
    | false => exact ⟨⟨hA.1.1, hended⟩, fun _ ↦ rfl⟩
    | true => exact ⟨⟨hA.1.1, hended⟩, nofun⟩
  cases ok with
  | false => exact holding_ret false
  | true =>
  refine holding_act trivial (fun _ _ _ ↦ rfl) fun ok ↦ ?_
  simp only [Prog.ret_bind]
  split
  · exact makeFree_triple
  refine holding_act trivial (fun _ _ _ ↦ rfl) fun sequence ↦ ?_
  refine holding_act trivial (fun _ _ _ ↦ rfl) fun _ ↦ ?_
  refine holding_act trivial (fun _ _ _ ↦ rfl) fun frameId ↦ ?_
  refine holding_act trivial (fun _ _ _ ↦ rfl) fun _ ↦ readPixels_triple _ _ _ fun pixels ↦ ?_
  refine holding_act trivial (fun _ _ _ ↦ rfl) fun _ ↦ ?_
  refine holding_act trivial (fun _ _ _ ↦ rfl) fun _ ↦ ?_
  refine publish_act (B := fun ok s ↦ if ok then Released s else Holding true s) trivial
    (holding_stable true) (fun _ h ↦ h.1) ?_ fun ok ↦ ?_
  · intro ok s q hA hended
    cases ok with
    | false => exact ⟨⟨hA.1.1, hended⟩, nofun⟩
    | true => exact ⟨hended, rfl⟩
  cases ok with
  | false => exact makeFree_triple
  | true => exact Triple.ret released_stable fun _ h ↦ h

/-- What the conversion thread knows between two passes: it has ended, or it has nothing
taken. -/
def Passed (ended : Bool) (s : Shared) : Prop :=
  s.log.view .conversion = none ∧
    if ended then s.processor.ended = true
    else s.processor.ended = false ∧ s.log.converting = none

theorem passed_stable (ended : Bool) : (viewRG .conversion).Stable (Passed ended) := by
  intro s t h hs
  refine ⟨h.1.view.trans hs.1, ?_⟩
  have hs := hs.2
  rw [← h.1.ended, ← h.1.converting] at hs
  exact hs

/-- An operation of the conversion thread outside of a publish. -/
theorem ViewInv.of_conversion (hs : ViewInv s) (hview : t.log.view .conversion = none)
    (hsame : SameRing s.processor t.processor)
    (hended : s.processor.ended = true → t.processor.ended = true) (hquiet : Quiet s → Quiet t) :
    (viewRG .conversion).guar s t := by
  refine ⟨⟨hsame.frameRing, hsame.frameReadyEvent, hsame.frameMapping, hsame.mapped,
    hsame.eventOpen, hsame.joinable, hended, hquiet⟩, fun v hv ↦ ?_, fun hne ↦ absurd hview hne,
    hs.ringOpen.imp hquiet fun h ↦ h.congr hsame⟩
  rw [hview] at hv
  cases hv

/-- A publish may have left a frame that was not published. -/
theorem releaseBgraBuffer_act {α : Type} (bufferIndex : Nat) {k : Unit → CaptureProg α}
    {R : α → Shared → Prop}
    (hk : Triple (captureExec allow .conversion) (viewRG .conversion) (Passed false) (k ()) R) :
    Triple (captureExec allow .conversion) (viewRG .conversion) Released
      (.act (.releaseBgraBuffer bufferIndex) k) R := by
  refine Triple.act released_stable (fun _ ↦ Passed false) ?_ fun _ ↦ hk
  intro s hs hA w r u hu
  obtain ⟨-, q, hq, rfl⟩ := captureExec_some hu
  cases hq
  refine ⟨hs.2.of_conversion hA.2 ⟨rfl, rfl, rfl, rfl, rfl, rfl⟩ id ?_, hA.2, hA.1, rfl⟩
  exact fun hquiet ↦ hquiet.imp_right fun h ↦ ⟨h.1, rfl⟩

theorem endThread_triple (ended : Bool) :
    Triple (captureExec allow .conversion) (viewRG .conversion) (Passed ended)
      (do perform .endThread; return false) fun again s ↦ Passed (!again) s := by
  refine Triple.act (passed_stable ended) (fun _ ↦ Passed true) ?_
    fun _ ↦ Triple.ret (passed_stable true) fun _ h ↦ h
  intro s hs hA w r u hu
  obtain ⟨-, q, hq, rfl⟩ := captureExec_some hu
  cases hq
  refine ⟨hs.2.of_conversion hA.1 ⟨rfl, rfl, rfl, rfl, rfl, rfl⟩ (fun _ ↦ rfl) ?_, hA.1, rfl⟩
  exact fun _ ↦ .inl rfl

/-- A frame is taken only where one is queued, so the conversion thread had something to do
already. -/
theorem dequeueBgraFrame_guar {frame : Option PendingBgraFrame} (hs : ViewInv s)
    (hA : Passed false s)
    (hu : captureExec allow .conversion _ w .dequeueBgraFrame s = some (frame, u)) :
    (viewRG .conversion).guar s u ∧
      if frame.isSome then Holding false u else Passed false u := by
  obtain ⟨-, q, hq, rfl⟩ := captureExec_some hu
  simp only [CaptureOp.exec] at hq
  split at hq
  · next hready =>
    split at hq <;> cases hq
    · exact ⟨hs.of_conversion hA.1 ⟨rfl, rfl, rfl, rfl, rfl, rfl⟩ id id, hA⟩
    · next hstay =>
      have hcount : s.processor.bgraQueueCount ≠ 0 := by
        intro hzero
        apply hstay
        have hwake := (Bool.and_eq_true_iff.1 hready).2
        rw [decide_eq_false (not_not.2 hzero), Bool.or_false] at hwake
        rwa [decide_eq_true hzero, Bool.and_true, Bool.or_comm]
      refine ⟨hs.of_conversion hA.1 ⟨rfl, rfl, rfl, rfl, rfl, rfl⟩ id fun hquiet ↦ ?_,
        ⟨nofun, hA.2.1⟩, fun _ ↦ hA.1⟩
      rcases hquiet with hended | ⟨hzero, -⟩
      · rw [hA.2.1] at hended
        cases hended
      · exact absurd hzero hcount
  · cases hq

theorem conversionPass_triple :
    Triple (captureExec allow .conversion) (viewRG .conversion) (Passed false) conversionPass
      fun again s ↦ Passed (!again) s := by
  unfold conversionPass
  refine Triple.act (passed_stable false)
    (fun frame s ↦ if frame.isSome then Holding false s else Passed false s) ?_ fun frame ↦ ?_
  · exact fun s hs hA w r u hu ↦ dequeueBgraFrame_guar hs.2 hA hu
  cases frame with
  | none => exact endThread_triple false
  | some frame =>
      rw [Prog.ret_bind]
      refine Triple.bind _ (publishBgraFrame_triple frame) fun ok ↦ ?_
      split
      · refine Triple.act released_stable (fun _ ↦ Released) ?_ fun _ ↦
          releaseBgraBuffer_act _ ?_
        · intro s hs hA w r u hu
          obtain ⟨-, q, hq, rfl⟩ := captureExec_some hu
          cases hq
          exact ⟨hs.2.of_conversion hA.2 ⟨rfl, rfl, rfl, rfl, rfl, rfl⟩ id id, hA⟩
        · exact endThread_triple false
      · exact releaseBgraBuffer_act _ (Triple.ret (passed_stable false) fun _ h ↦ h)

/-! ## All of them -/

/-- What holds of a thread that is not inside of a call. -/
def ViewIdle : (i : Worker) → (captureSystem allow).Local i → Shared → Prop
  | .swapChain, ended, s => ended = false → s.processor.frameRing = none
  | .conversion, ended, s => Passed ended s
  | .host, _, _ => True

theorem restartHost_triple :
    Triple (captureExec allow .host) (viewRG .host) (fun _ ↦ True) restartHost
      fun _ _ ↦ True := by
  have hact (valid : Bool) (s : Shared) (hs : (viewRG .host).rely s s) (w : Answer) (r : Unit)
      (u : Shared) (hu : captureExec allow .host _ w (.writeHeader valid) s = some (r, u)) :
      (viewRG .host).guar s u ∧ True := by
    obtain ⟨-, q, hq, rfl⟩ := captureExec_some hu
    cases hq
    have hsame : SameRing s.processor { s.processor with headerValid := valid } :=
      ⟨rfl, rfl, rfl, rfl, rfl, rfl⟩
    have hs : ViewInv s := hs
    exact ⟨⟨⟨rfl, rfl, rfl⟩, ⟨rfl, rfl, rfl, rfl, rfl, rfl, id, id⟩,
      hs.kept.congr hsame rfl, hs.converting, hs.ringOpen.imp_right fun h ↦ h.congr hsame⟩, trivial⟩
  have htrue : (viewRG .host).Stable fun _ ↦ True := fun _ _ _ h ↦ h
  exact Triple.act htrue (fun _ _ ↦ True) (fun s hs _ ↦ hact false s hs) fun _ ↦
    Triple.act htrue (fun _ _ ↦ True) (fun s hs _ ↦ hact true s hs) fun _ ↦
      Triple.ret htrue fun _ h ↦ h

/-- Every contract allows standing still. -/
theorem viewRG_refl (i : Worker) (hs : ViewInv s) : (viewRG i).guar s s ∧ (viewRG i).rely s s := by
  cases i with
  | swapChain => exact ⟨⟨.refl s, hs⟩, .refl s, hs⟩
  | conversion => exact ⟨⟨.refl s, hs⟩, .refl s, hs⟩
  | host => exact ⟨⟨.refl s, .refl s, hs⟩, hs⟩

theorem viewRG_inv {i : Worker} (h : (viewRG i).guar s t) : ViewInv t := by
  cases i with
  | swapChain | conversion => exact h.2
  | host => exact h.2.2

theorem viewRG_inv' {i : Worker} (h : (viewRG i).rely s t) : ViewInv t := by
  cases i with
  | swapChain | conversion => exact h.2
  | host => exact h

theorem body_triple (i : Worker) (call : (captureSystem closesQuietly).Call i)
    (l : (captureSystem closesQuietly).Local i) :
    Triple (captureExec closesQuietly i) (viewRG i) (ViewIdle i l)
      ((captureSystem closesQuietly).body i call l) fun r s ↦ ViewIdle i r.2 s := by
  cases i with
  | swapChain =>
      cases l with
      | true => exact Triple.ret (fun _ _ _ _ ↦ nofun) fun _ h ↦ h
      | false =>
          exact Triple.bind _ ((runCore_triple call).conseq (fun _ h ↦ h rfl) fun _ _ h ↦ h)
            fun _ ↦ Triple.ret (fun _ _ _ h ↦ h) fun _ _ ↦ nofun
  | conversion =>
      cases l with
      | true => exact Triple.ret (passed_stable true) fun _ h ↦ h
      | false =>
          exact Triple.bind _ conversionPass_triple fun again ↦
            Triple.ret (passed_stable (!again)) fun _ h ↦ h
  | host => exact Triple.bind _ restartHost_triple fun _ ↦ Triple.ret (fun _ _ _ h ↦ h) fun _ h ↦ h

/-- The outline of the threads and the host. -/
def viewOutline : System.Outline (captureSystem closesQuietly) fun _ _ _ _ ↦ True where
  inv := ViewInv
  rg := viewRG
  idle := ViewIdle
  inv_next _ _ h := viewRG_inv h
  rely_refl i _ h := (viewRG_refl i h).2
  compat {i j s t} hij _ _ h := by
    cases i <;> cases j <;> first
      | exact absurd rfl hij
      | exact h
      | exact h.2
      | exact ⟨h.1, h.2.2⟩
  idle_stable i l := by
    cases i with
    | swapChain => exact fun s t h hs hl ↦ h.1.frameRing.trans (hs hl)
    | conversion => exact passed_stable l
    | host => exact fun _ _ _ h ↦ h
  enter_ok {c i call c' l} hinv _ hidle := by
    have hsafe (s : Shared) (hs : ViewIdle i l s) :=
      ((body_triple i call l s hs).and_rely).mono fun r t ht ↦
        (⟨(viewRG_refl i (viewRG_inv' ht.2)).1, ht.1⟩ :
          (viewRG i).guar t t ∧ @ViewIdle closesQuietly _ i r.2 t)
    have hinv : ViewInv c.shared := hinv
    cases i with
    | swapChain =>
        cases l with
        | true => exact ⟨(viewRG_refl .swapChain hinv).1, hsafe _ hidle⟩
        | false =>
            refine ⟨⟨⟨rfl, rfl, rfl⟩, ?_⟩, hsafe _ hidle⟩
            exact { hinv with kept := hinv.kept }
    | conversion => exact ⟨(viewRG_refl .conversion hinv).1, hsafe _ hidle⟩
    | host => exact ⟨(viewRG_refl .host hinv).1, hsafe _ hidle⟩

theorem viewOutline_initial : viewOutline.Ok (CaptureConfig.initial closesQuietly) where
  inv :=
    { kept := nofun
      converting := fun h ↦ absurd rfl h
      ringOpen := .inl (.inr ⟨rfl, rfl⟩) }
  status i := by
    cases i with
    | swapChain => exact fun _ ↦ rfl
    | conversion => exact ⟨rfl, rfl, rfl⟩
    | host => trivial

/-- **The ring is not taken away from the conversion thread**, as long as it has nothing to
do whenever `EnsureFrameRing` finds that the header of the open ring is not valid. -/
theorem viewKept_run {c : CaptureConfig closesQuietly}
    (h : CaptureRun closesQuietly (.initial closesQuietly) c) : ViewKept c.shared :=
  (viewOutline.ok_run viewOutline_initial h).inv.kept

/-- The host restarts before anything is queued: the next surface closes the ring and opens it
again, and the conversion thread finds the second view. -/
def restartsQuietly : (captureSystem closesQuietly).Schedule :=
  ⟨.swapChain, .enter (List.replicate 4 (smallSurface, 0))⟩ ::
    operations closesQuietly .swapChain 90 ++ ⟨.host, .enter ()⟩ ::
    operations closesQuietly .host 1 ++ operations closesQuietly .swapChain 14 ++
    operations closesQuietly .host 1 ++ operations closesQuietly .swapChain 44 ++
    ⟨.conversion, .enter ()⟩ :: operations closesQuietly .conversion 3

theorem viewKept_run_reopened : ∃ c : CaptureConfig closesQuietly,
    CaptureRun closesQuietly (.initial closesQuietly) c ∧
      c.shared.log.view .conversion = some 1 ∧ ViewKept c.shared := by
  have hfollow : ((CaptureConfig.initial closesQuietly).follow (fun _ _ _ _ ↦ True)
      restartsQuietly).map (fun c ↦ c.shared.log.view .conversion) = some (some 1) := by
    decide +kernel
  obtain ⟨c, hc, hview⟩ := Option.map_eq_some_iff.1 hfollow
  have hrun := System.Config.run_of_follow hc
  exact ⟨c, hrun, hview, viewKept_run hrun⟩

/-- The host restarts while the conversion thread uses the ring, and the next surface
unmaps it. -/
theorem view_unmapped :
    ¬∀ c : CaptureConfig anyStep, CaptureRun anyStep (.initial anyStep) c → ViewKept c.shared := by
  intro h
  have hfollow : ((CaptureConfig.initial anyStep).follow (fun _ _ _ _ ↦ True)
      (convertsSecond anyStep 4 ++ ⟨.host, .enter ()⟩ :: operations anyStep .host 1 ++
        operations anyStep .swapChain 6)).map
          (fun c ↦ (c.shared.log.view .conversion, c.shared.processor.mapped)) =
        some (some 0, none) := by decide +kernel
  obtain ⟨c, hc, hend⟩ := Option.map_eq_some_iff.1 hfollow
  obtain ⟨hview, hmapped⟩ := Prod.mk.injEq .. ▸ hend
  obtain ⟨-, hkept, -⟩ := h c (System.Config.run_of_follow hc) 0 hview
  rw [hmapped] at hkept
  cases hkept

end SecondScreen.Capture
