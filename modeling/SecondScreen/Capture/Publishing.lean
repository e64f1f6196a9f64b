import SecondScreen.Capture.Accounting

/-!
# One frame published

Whichever thread calls `PublishBgraFrame`, nobody else is inside of it, the counters and
the slot are the thread's own until it has signalled the frame, and the buffer keeps the
pixels.
-/

namespace SecondScreen.Capture

open SecondScreen.Conc SecondScreen.Machine

variable {i : Worker} {s t u : Shared} {β : Type} {w : Answer} {o : CaptureOp β} {r : β}
  {b : Nat} {f : Frame} {bytes : Bytes} {C : Capturing} {P : Publishing}

/-- Thread `i` is to publish a frame from a buffer. -/
def Publishes : Worker → Nat → Frame → Shared → Prop
  | .swapChain, b, f, s =>
      s.ConverterIdle ∧ s.log.captureBuffer = some b ∧ s.log.inStaging = [f] ∧
        s.processor.frameRing ≠ none
  | .conversion, b, f, s => s.converter = ⟨some (b, f), some b, false⟩
  | .host, _, _, _ => False

theorem Publishes.frameRing (hs : Accounted s) (h : Publishes i b f s) :
    s.processor.frameRing ≠ none := by
  cases i with
  | swapChain => exact h.2.2.2
  | conversion =>
      apply hs.ring
      have hc : s.log.converting = some (b, f) := congrArg Converter.converting h
      simp [Shared.toConvert, hc]
  | host => exact h.elim

/-- A thread that is to publish a frame finds the counters as the last publish left
them. -/
theorem Publishes.not_taken (hs : Accounted s) (h : Publishes i b f s)
    (hi : s.log.inside i = false) :
    s.log.sequenceTaken = false ∧ s.log.frameIdTaken = false := by
  have hinside : ¬ (s.log.inside .conversion = true ∨ s.log.inside .swapChain = true) := by
    cases i with
    | swapChain =>
        rintro (hconv | hswap)
        · have hidle := h.1.1
          have hne := hs.insideConversion hconv
          cases hc : s.log.converting with
          | none => exact hne hc
          | some p => simp [Shared.toConvert, hc] at hidle
        · rw [hi] at hswap
          cases hswap
    | conversion =>
        rintro (hconv | hswap)
        · rw [hi] at hconv
          cases hconv
        · have hc : s.log.converting = some (b, f) := congrArg Converter.converting h
          have hidle := (hs.insideSwapChain hswap).1
          simp [Shared.toConvert, hc] at hidle
    | host => exact h.elim
  have htaken := mt hs.taken hinside
  exact ⟨Bool.eq_false_iff.2 fun h ↦ htaken (.inl h), Bool.eq_false_iff.2 fun h ↦ htaken (.inr h)⟩

/-- The counters, the slot and the record of who is publishing are replaced. -/
def Shared.writing (s : Shared) (P : Publishing) (inside : Worker → Bool)
    (view : Worker → Option Nat) : Shared where
  processor :=
    { s.processor with
      nextSequence := P.nextSequence
      nextFrameId := P.nextFrameId
      slot := P.slot }
  log :=
    { s.log with
      published := P.published
      inside
      view
      sequenceTaken := P.sequenceTaken
      frameIdTaken := P.frameIdTaken }

/-- A thread that publishes may do this. -/
theorem Publishes.writing (hs : Accounted s) (h : Publishes i b f s)
    (hP : P.Numbered) (hpublished : P.published = s.log.published) {inside : Worker → Bool}
    (hinside : inside i = true) (hothers : ∀ j, j ≠ i → inside j = s.log.inside j)
    (view : Worker → Option Nat) :
    (accountRG i).guar s (s.writing P inside view) ∧ Publishes i b f (s.writing P inside view) := by
  have haccount : s.log.captured =
      P.published.map (·.frame) ++ s.toConvert.map (·.2) ++ s.log.inStaging := by
    rw [hpublished]
    exact hs.account
  cases i with
  | swapChain =>
      refine ⟨⟨⟨rfl, hothers _ nofun, fun b hb ↦ ?_, fun hstop ↦ ⟨hstop, rfl⟩⟩, ?_⟩, h⟩
      · rw [h.1.2] at hb
        cases hb
      · exact
          { hs with
            account := haccount
            numbered := hP
            insideConversion := fun hconv ↦
              hs.insideConversion ((hothers .conversion nofun).symm.trans hconv)
            insideSwapChain := fun _ ↦ h.1
            taken := fun _ ↦ .inr hinside }
  | conversion =>
      have hc : s.log.converting = some (b, f) := congrArg Converter.converting h
      refine ⟨⟨⟨rfl, hothers _ nofun, fun hidle ↦ ?_, id⟩, ?_⟩, h⟩
      · have hnil := hidle.1
        simp [Shared.toConvert, hc] at hnil
      · exact
          { hs with
            account := haccount
            numbered := hP
            insideConversion := fun _ hnone ↦ by
              rw [show s.log.converting = none from hnone] at hc
              cases hc
            insideSwapChain := fun hswap ↦
              hs.insideSwapChain ((hothers .swapChain nofun).symm.trans hswap)
            taken := fun _ ↦ .inl hinside }
  | host => exact h.elim

/-- What a thread knows while it is inside of `PublishBgraFrame`. -/
structure Writing (i : Worker) (C : Capturing) (b : Nat) (f : Frame) (bytes : Bytes)
    (P : Publishing) (s : Shared) : Prop where
  publishes : Publishes i b f s
  inside : s.log.inside i = true
  buffer : s.processor.bgraBuffers b = some bytes
  publishing : s.publishing = P
  capturing : i = .swapChain → s.capturing = C

/-- What a thread knows when it calls `PublishBgraFrame`. -/
structure ToPublish (i : Worker) (C : Capturing) (b : Nat) (f : Frame) (s : Shared) : Prop where
  publishes : Publishes i b f s
  inside : s.log.inside i = false
  buffer : Holds s.processor.bgraBuffers b f
  capturing : i = .swapChain → s.capturing = C

/-- What the other thread does leaves the publishing thread's part alone. -/
theorem Publishes.stable (hR : (accountRG i).rely s t) (h : Publishes i b f s) :
    Publishes i b f t ∧ t.log.inside i = s.log.inside i ∧
      t.processor.bgraBuffers b = s.processor.bgraBuffers b ∧ t.publishing = s.publishing ∧
        (i = .swapChain → t.capturing = s.capturing) := by
  cases i with
  | swapChain =>
      have hC := hR.1.capturing
      obtain ⟨hidle, hpublishing⟩ := hR.1.idle h.1
      refine ⟨⟨hidle, ?_, ?_, ?_⟩, hR.1.inside, ?_, hpublishing, fun _ ↦ hC⟩
      · exact (congrArg Capturing.captureBuffer hC).trans h.2.1
      · exact (congrArg Capturing.inStaging hC).trans h.2.2.1
      · rw [show t.processor.frameRing = s.processor.frameRing from
          congrArg Capturing.frameRing hC]
        exact h.2.2.2
      · exact congrFun (congrArg Capturing.bgraBuffers hC) b
  | conversion =>
      have hbuffer : s.log.conversionBuffer = some b := congrArg Converter.conversionBuffer h
      obtain ⟨hsame, hpublishing⟩ := hR.1.buffer b hbuffer
      exact ⟨hR.1.converter.trans h, hR.1.inside, hsame, hpublishing, nofun⟩
  | host => exact h.elim

theorem writing_stable : (accountRG i).Stable (Writing i C b f bytes P) := by
  intro s t hR h
  obtain ⟨hpublishes, hinside, hbuffer, hpublishing, hC⟩ := h.publishes.stable hR
  exact ⟨hpublishes, hinside.trans h.inside, hbuffer.trans h.buffer,
    hpublishing.trans h.publishing, fun hi ↦ (hC hi).trans (h.capturing hi)⟩

theorem toPublish_stable : (accountRG i).Stable (ToPublish i C b f) := by
  intro s t hR h
  obtain ⟨hpublishes, hinside, hbuffer, -, hC⟩ := h.publishes.stable hR
  refine ⟨hpublishes, hinside.trans h.inside, ?_, fun hi ↦ (hC hi).trans (h.capturing hi)⟩
  unfold Holds
  rw [hbuffer]
  exact h.buffer

/-- Every rely carries the account. -/
theorem accounted_of_rely (hR : (accountRG i).rely s t) : Accounted t := by
  cases i with
  | swapChain | conversion => exact hR.2
  | host => exact hR

/-- An operation inside of `PublishBgraFrame` before the last one. -/
theorem writing_act {α : Type} {Q : Publishing} {B : β → Prop} {k : β → CaptureProg α}
    {R : α → Shared → Prop} (hQ : P.Numbered → Q.Numbered)
    (hpublished : Q.published = P.published)
    (hexec : ∀ w s r u, Accounted s → Writing i C b f bytes P s →
      captureExec succeeds i β w o s = some (r, u) →
        B r ∧ ∃ view, u = s.writing Q s.log.inside view)
    (hk : ∀ r, B r →
      Triple (captureExec succeeds i) (accountRG i) (Writing i C b f bytes Q) (k r) R) :
    Triple (captureExec succeeds i) (accountRG i) (Writing i C b f bytes P) (.act o k) R := by
  refine Triple.act writing_stable (fun r s ↦ Writing i C b f bytes Q s ∧ B r) ?_
    fun r ↦ Triple.of_const (hk r)
  intro s hR hA w r u hu
  have hs := accounted_of_rely hR
  obtain ⟨hB, view, rfl⟩ := hexec w s r u hs hA hu
  have hnumbered : P.Numbered := hA.publishing ▸ hs.numbered
  have hsame : Q.published = s.log.published :=
    hpublished.trans (congrArg Publishing.published hA.publishing).symm
  obtain ⟨hguar, hpublishes⟩ :=
    hA.publishes.writing hs (hQ hnumbered) hsame hA.inside (fun _ _ ↦ rfl) view
  exact ⟨hguar, ⟨hpublishes, hA.inside, hA.buffer, rfl, hA.capturing⟩, hB⟩

theorem Publishing.eta (P : Publishing) (hs : s.publishing = P) (view : Worker → Option Nat) :
    (⟨s.processor, { s.log with view }⟩ : Shared) = s.writing P s.log.inside view := by
  subst hs
  rfl

/-- An operation that changes nothing that matters here. -/
theorem writing_idle {α : Type} {B : β → Prop} {k : β → CaptureProg α} {R : α → Shared → Prop}
    (hexec : ∀ w s r u, Accounted s → Writing i C b f bytes P s →
      captureExec succeeds i β w o s = some (r, u) →
        B r ∧ ∃ view, u = ⟨s.processor, { s.log with view }⟩)
    (hk : ∀ r, B r →
      Triple (captureExec succeeds i) (accountRG i) (Writing i C b f bytes P) (k r) R) :
    Triple (captureExec succeeds i) (accountRG i) (Writing i C b f bytes P) (.act o k) R := by
  refine writing_act (Q := P) (B := B) id rfl (fun w s r u hs hA hu ↦ ?_) hk
  obtain ⟨hB, view, rfl⟩ := hexec w s r u hs hA hu
  exact ⟨hB, view, Publishing.eta P hA.publishing view⟩

/-- A check that does not fail. -/
theorem writing_check {α : Type} {o : CaptureOp Bool} {k : Bool → CaptureProg α}
    {R : α → Shared → Prop}
    (hexec : ∀ w s r u, Accounted s → Writing i C b f bytes P s →
      captureExec succeeds i _ w o s = some (r, u) →
        r = true ∧ ∃ view, u = ⟨s.processor, { s.log with view }⟩)
    (hk : Triple (captureExec succeeds i) (accountRG i) (Writing i C b f bytes P) (k true) R) :
    Triple (captureExec succeeds i) (accountRG i) (Writing i C b f bytes P) (.act o k) R :=
  writing_idle hexec fun _ hr ↦ hr ▸ hk

/-- The sequence number of the frame is taken. -/
theorem takeSequence_writing {α : Type} {R : α → Shared → Prop} (htaken : P.sequenceTaken = false)
    {k : Nat → CaptureProg α}
    (hk : Triple (captureExec succeeds i) (accountRG i)
      (Writing i C b f bytes { P with nextSequence := P.nextSequence + 1, sequenceTaken := true })
      (k P.nextSequence) R) :
    Triple (captureExec succeeds i) (accountRG i) (Writing i C b f bytes P)
      (.act .readNextSequence fun sequence ↦ .act (.writeNextSequence (sequence + 1)) fun _ ↦
        k sequence) R := by
  refine writing_idle (B := fun sequence ↦ sequence = P.nextSequence) ?_ fun sequence hseq ↦ ?_
  · intro w s r u _ hA hu
    obtain ⟨-, q, hq, rfl⟩ := captureExec_some hu
    cases hq
    exact ⟨congrArg Publishing.nextSequence hA.publishing, s.log.view, rfl⟩
  subst hseq
  refine writing_act
    (Q := { P with nextSequence := P.nextSequence + 1, sequenceTaken := true })
    (B := fun _ ↦ True) ?_ rfl ?_ fun _ _ ↦ hk
  · intro hP
    have hnext := hP.nextSequence
    rw [htaken] at hnext
    exact { hP with nextSequence := congrArg (· + 1) hnext }
  · intro w s r u _ hA hu
    obtain ⟨-, q, hq, rfl⟩ := captureExec_some hu
    cases hq
    have hP := hA.publishing
    subst hP
    exact ⟨trivial, s.log.view, rfl⟩

/-- The id of the frame is taken. -/
theorem takeFrameId_writing {α : Type} {R : α → Shared → Prop} (htaken : P.frameIdTaken = false)
    {k : Nat → CaptureProg α}
    (hk : Triple (captureExec succeeds i) (accountRG i)
      (Writing i C b f bytes { P with nextFrameId := P.nextFrameId + 1, frameIdTaken := true })
      (k P.nextFrameId) R) :
    Triple (captureExec succeeds i) (accountRG i) (Writing i C b f bytes P)
      (.act .readNextFrameId fun frameId ↦ .act (.writeNextFrameId (frameId + 1)) fun _ ↦
        k frameId) R := by
  refine writing_idle (B := fun frameId ↦ frameId = P.nextFrameId) ?_ fun frameId hid ↦ ?_
  · intro w s r u _ hA hu
    obtain ⟨-, q, hq, rfl⟩ := captureExec_some hu
    cases hq
    exact ⟨congrArg Publishing.nextFrameId hA.publishing, s.log.view, rfl⟩
  subst hid
  refine writing_act
    (Q := { P with nextFrameId := P.nextFrameId + 1, frameIdTaken := true })
    (B := fun _ ↦ True) ?_ rfl ?_ fun _ _ ↦ hk
  · intro hP
    have hnext := hP.nextFrameId
    rw [htaken] at hnext
    exact { hP with nextFrameId := congrArg (· + 1) hnext }
  · intro w s r u _ hA hu
    obtain ⟨-, q, hq, rfl⟩ := captureExec_some hu
    cases hq
    have hP := hA.publishing
    subst hP
    exact ⟨trivial, s.log.view, rfl⟩

/-- The pixels are read as the buffer holds them. -/
theorem readPixels_writing {α : Type} {R : α → Shared → Prop} (count n : Nat)
    {k : List UInt8 → CaptureProg α}
    (hk : Triple (captureExec succeeds i) (accountRG i) (Writing i C b f bytes P)
      (k ((List.range' n count).map bytes)) R) :
    Triple (captureExec succeeds i) (accountRG i) (Writing i C b f bytes P)
      ((readPixels b count n).bind k) R := by
  induction count generalizing n k with
  | zero => exact hk
  | succ count ih =>
      refine writing_idle (B := fun byte ↦ byte = bytes n) ?_ fun byte hbyte ↦ ?_
      · intro w s r u _ hA hu
        obtain ⟨-, q, hq, rfl⟩ := captureExec_some hu
        simp only [CaptureOp.exec, hA.buffer, Option.getD_some, Option.some.injEq,
          Prod.mk.injEq] at hq
        obtain ⟨rfl, rfl⟩ := hq
        exact ⟨rfl, s.log.view, rfl⟩
      · simp only [Prog.ret_bind, Prog.bind_eq, Prog.bind_assoc]
        subst hbyte
        exact ih (n + 1) hk

/-- The frame is published. -/
def PublishDone : Worker → Capturing → Nat → Shared → Prop
  | .swapChain, C, _, s =>
      s.capturing = { C with inStaging := [] } ∧ s.log.inside .swapChain = false ∧ s.ConverterIdle
  | .conversion, _, b, s => s.converter = ⟨none, some b, false⟩
  | .host, _, _, _ => False

theorem publishDone_stable : (accountRG i).Stable (PublishDone i C b) := by
  intro s t hR h
  cases i with
  | swapChain =>
      exact ⟨hR.1.capturing.trans h.1, hR.1.inside.trans h.2.1, (hR.1.idle h.2.2).1⟩
  | conversion => exact hR.1.converter.trans h
  | host => exact h.elim

/-- The numbers of the next frame follow those of the frames before it. -/
theorem Publishing.Numbered.publish (hP : P.Numbered) (hs : P.sequenceTaken = true)
    (hf : P.frameIdTaken = true) (hslot : P.slot.sequence + 1 = P.nextSequence)
    (hslot' : P.slot.frameId + 1 = P.nextFrameId) :
    Publishing.Numbered { P with
      published := P.published ++ [P.slot]
      sequenceTaken := false
      frameIdTaken := false } := by
  have hseq := hP.nextSequence
  have hid := hP.nextFrameId
  rw [hs, Bool.toNat_true] at hseq
  rw [hf, Bool.toNat_true] at hid
  refine ⟨fun k hk ↦ ?_, ?_, ?_⟩
  · rw [List.length_append, List.length_singleton] at hk
    rcases Nat.lt_succ_iff_lt_or_eq.1 hk with hlt | rfl
    · simp only [List.getElem_append_left hlt]
      exact hP.published k hlt
    · simp only [List.getElem_concat_length]
      omega
  · simp only [List.length_append, List.length_singleton, Bool.toNat_false]
    omega
  · simp only [List.length_append, List.length_singleton, Bool.toNat_false]
    omega

/-- The last operation publishes the frame. -/
theorem Writing.setEvent (hs : Accounted s) (h : Writing i C b f bytes P s)
    (hst : P.sequenceTaken = true) (hft : P.frameIdTaken = true)
    (hseq : P.slot.sequence + 1 = P.nextSequence) (hid : P.slot.frameId + 1 = P.nextFrameId)
    (hframe : P.slot.frame = f) :
    (accountRG i).guar s ⟨s.processor, s.log.publish i s.processor.slot⟩ ∧
      PublishDone i C b ⟨s.processor, s.log.publish i s.processor.slot⟩ := by
  have hP := h.publishing
  subst hP
  have hnumbered := hs.numbered.publish hst hft hseq hid
  have hframe : s.processor.slot.frame = f := hframe
  have hnottaken : ¬ (false = true ∨ false = true) := by simp
  cases i with
  | swapChain =>
      obtain ⟨hidle, hbuffer, hstaging, hring⟩ := h.publishes
      have hcapturing := h.capturing rfl
      refine ⟨⟨⟨rfl, rfl, fun b hb ↦ ?_, fun hstop ↦ ⟨hstop, rfl⟩⟩, ?_⟩, ?_, rfl, hidle⟩
      · rw [hidle.2] at hb
        cases hb
      · refine
          { hs with
            account := ?_
            numbered := hnumbered
            insideSwapChain := fun h ↦ by cases h
            taken := fun htaken ↦ absurd htaken hnottaken }
        have haccount := hs.account
        rw [hidle.1, hstaging] at haccount
        have hidle' : Shared.toConvert ⟨s.processor, s.log.publish .swapChain s.processor.slot⟩ =
            [] := hidle.1
        rw [hidle']
        show s.log.captured = (s.log.published ++ [s.processor.slot]).map (·.frame) ++ [] ++
          s.log.inStaging.tail
        rw [haccount, hstaging]
        simp [hframe]
      · have htail : s.log.inStaging.tail = [] := by rw [hstaging]; rfl
        rw [← hcapturing, ← htail]
        rfl
  | conversion =>
      have hc : s.log.converting = some (b, f) := congrArg Converter.converting h.publishes
      have hb : s.log.conversionBuffer = some b :=
        congrArg Converter.conversionBuffer h.publishes
      have hended : s.processor.ended = false := congrArg Converter.ended h.publishes
      have hring := h.publishes.frameRing hs
      have hto : s.toConvert = (b, f) :: s.log.queued := by simp [Shared.toConvert, hc]
      have hto' : Shared.toConvert ⟨s.processor, s.log.publish .conversion s.processor.slot⟩ =
          s.log.queued := rfl
      refine ⟨⟨⟨rfl, rfl, fun hidle ↦ ?_, id⟩, ?_⟩, ?_⟩
      · rw [Shared.ConverterIdle, hto] at hidle
        cases hidle.1
      · refine
          { hs with
            account := ?_
            numbered := hnumbered
            holds := fun p hp ↦ hs.holds p (hto ▸ List.mem_cons_of_mem _ hp)
            conversionBuffer := fun _ h ↦ by cases h
            insideConversion := fun h ↦ by cases h
            insideSwapChain := fun hswap ↦ ?_
            taken := fun htaken ↦ absurd htaken hnottaken
            ended := fun h ↦ ?_
            ring := fun _ ↦ hring }
        · rw [hto']
          show s.log.captured = (s.log.published ++ [s.processor.slot]).map (·.frame) ++
            s.log.queued.map (·.2) ++ s.log.inStaging
          rw [hs.account, hto]
          simp [hframe]
        · have hidle := (hs.insideSwapChain hswap).1
          rw [hto] at hidle
          cases hidle
        · rw [show s.processor.ended = true from h] at hended
          cases hended
      · show Converter.mk none s.log.conversionBuffer s.processor.ended = _
        rw [hb, hended]
  | host => exact h.publishes.elim

/-- The check of the buffer is where the publish begins. -/
theorem ToPublish.begin (hs : Accounted s) (h : ToPublish i C b f s) {ok : Bool}
    (hu : captureExec succeeds i Bool w (.checkBgraBuffer b) s = some (ok, u)) :
    (accountRG i).guar s u ∧ ok = true ∧ ∃ bytes P,
      f.pixels = (List.range (4 * f.width * f.height)).map bytes ∧
        P.sequenceTaken = false ∧ P.frameIdTaken = false ∧ Writing i C b f bytes P u := by
  obtain ⟨-, q, hq, rfl⟩ := captureExec_some hu
  obtain ⟨bytes, hbytes, hpixels⟩ := h.buffer
  simp only [CaptureOp.exec, hbytes, Option.isSome_some, Option.some.injEq, Prod.mk.injEq] at hq
  obtain ⟨rfl, rfl⟩ := hq
  obtain ⟨hst, hft⟩ := h.publishes.not_taken hs h.inside
  have hinside : Function.update s.log.inside i true i = true := Function.update_self ..
  obtain ⟨hguar, hpublishes⟩ := h.publishes.writing hs hs.numbered rfl hinside
    (fun j hj ↦ Function.update_of_ne hj ..) s.log.view
  exact ⟨hguar, rfl, bytes, s.publishing, hpixels, hst, hft, hpublishes, Function.update_self ..,
    hbytes, rfl, h.capturing⟩

/-- **A publish publishes the frame**, whose pixels the buffer holds. -/
theorem publishBgraFrame_account (hb : b < kBgraBuffers) :
    Triple (captureExec succeeds i) (accountRG i) (ToPublish i C b f)
      (publishBgraFrame (queueEntry (b, f))) fun ok s ↦ ok = true ∧ PublishDone i C b s := by
  unfold publishBgraFrame
  rw [if_neg (show ¬ (queueEntry (b, f)).bufferIndex ≥ kBgraBuffers from Nat.not_le.2 hb)]
  refine Triple.act toPublish_stable (fun ok s ↦ (∃ bytes P,
    Writing i C b f bytes P s ∧ f.pixels = (List.range (4 * f.width * f.height)).map bytes ∧
      P.sequenceTaken = false ∧ P.frameIdTaken = false) ∧ ok = true) ?_ fun ok ↦ ?_
  · intro s hR hA w r u hu
    obtain ⟨hguar, hok, bytes, P, hpixels, hst, hft, hwriting⟩ := hA.begin (accounted_of_rely hR) hu
    exact ⟨hguar, ⟨bytes, P, hwriting, hpixels, hst, hft⟩, hok⟩
  refine Triple.of_const fun hok ↦ Triple.of_exists fun bytes ↦ Triple.of_exists fun P ↦
    Triple.of_const fun ⟨hpixels, hst, hft⟩ ↦ ?_
  subst hok
  refine writing_check ?_ (writing_check ?_ (writing_check ?_ ?_))
  · intro w s r u hs hA hu
    obtain ⟨-, q, hq, rfl⟩ := captureExec_some hu
    cases hq
    have hring := Option.isSome_iff_ne_none.2 (hA.publishes.frameRing hs)
    refine ⟨hring, Function.update s.log.view i s.processor.frameRing, ?_⟩
    rw [hring]
    rfl
  · intro w s r u _ _ hu
    obtain ⟨hallow, q, hq, rfl⟩ := captureExec_some hu
    cases hq
    refine ⟨hallow.1, s.log.view, ?_⟩
    rw [hallow.1]
    rfl
  · intro w s r u _ _ hu
    obtain ⟨hallow, q, hq, rfl⟩ := captureExec_some hu
    cases hq
    exact ⟨hallow.1, s.log.view, rfl⟩
  refine takeSequence_writing hst ?_
  refine takeFrameId_writing ?_ ?_
  · exact hft
  -- its pixels
  apply readPixels_writing
  rw [← List.range_eq_range',
    show (List.range (4 * (queueEntry (b, f)).width * (queueEntry (b, f)).height)).map bytes =
      f.pixels from hpixels.symm]
  let taken : Publishing :=
    { P with
      nextSequence := P.nextSequence + 1
      nextFrameId := P.nextFrameId + 1
      sequenceTaken := true
      frameIdTaken := true }
  let stored : Publishing := { taken with slot := ⟨P.nextSequence, P.nextFrameId, f⟩ }
  refine writing_act (Q := stored) (B := fun _ ↦ True) ?_ rfl ?_ fun _ _ ↦ ?_
  · exact fun hP ↦ { hP with }
  · intro w s r u _ hA hu
    obtain ⟨-, q, hq, rfl⟩ := captureExec_some hu
    cases hq
    refine ⟨trivial, s.log.view, ?_⟩
    have hP : s.publishing = taken := hA.publishing
    show _ = s.writing { taken with slot := ⟨P.nextSequence, P.nextFrameId, f⟩ } ..
    rw [← hP]
    rfl
  refine writing_idle (B := fun _ ↦ True) ?_ fun _ _ ↦ ?_
  · intro w s r u _ _ hu
    obtain ⟨-, q, hq, rfl⟩ := captureExec_some hu
    cases hq
    exact ⟨trivial, s.log.view, rfl⟩
  refine Triple.act writing_stable (fun ok s ↦ PublishDone i C b s ∧ ok = true) ?_ fun ok ↦
    Triple.of_const fun hok ↦ ?_
  · intro s hR hA w r u hu
    obtain ⟨hallow, q, hq, rfl⟩ := captureExec_some hu
    cases hq
    obtain ⟨hguar, hdone⟩ := hA.setEvent (accounted_of_rely hR) rfl rfl rfl rfl rfl
    rw [hallow.1]
    exact ⟨hguar, hdone, rfl⟩
  · subst hok
    exact Triple.ret publishDone_stable fun _ h ↦ ⟨rfl, h⟩

/-! ## The conversion thread -/

/-- The conversion thread holds nothing. -/
def BetweenPasses (ended : Bool) (s : Shared) : Prop := s.converter = ⟨none, none, ended⟩

theorem betweenPasses_stable (ended : Bool) :
    (accountRG .conversion).Stable (BetweenPasses ended) :=
  fun _ _ hR h ↦ hR.1.converter.trans h

/-- The conversion thread has been told to stop, and nothing is queued. -/
def Stopped (s : Shared) : Prop :=
  BetweenPasses false s ∧ s.processor.bgraStop = true ∧ s.log.queued = []

theorem stopped_stable : (accountRG .conversion).Stable Stopped := by
  intro s t hR h
  obtain ⟨hstop, hqueued⟩ := hR.1.stopped h.2.1
  exact ⟨betweenPasses_stable false s t hR h.1, hstop, hqueued.trans h.2.2⟩

/-- What the conversion thread takes is the first frame of the queue, with its buffer. -/
theorem Accounted.dequeue (hs : Accounted s) (hA : BetweenPasses false s)
    {p : Nat × Frame} {rest : List (Nat × Frame)} (hqueued : s.log.queued = p :: rest) :
    Accounted
      { processor :=
          { s.processor with
            bgraQueueHead := (s.processor.bgraQueueHead + 1) % kBgraBuffers
            bgraQueueCount := s.processor.bgraQueueCount - 1 }
        log :=
          { s.log with
            converting := some p
            queued := rest
            conversionBuffer := some p.1 } } := by
  have hconverting : s.log.converting = none := congrArg Converter.converting hA
  have hbuffer : s.log.conversionBuffer = none := congrArg Converter.conversionBuffer hA
  have hended : s.processor.ended = false := congrArg Converter.ended hA
  have hto : s.toConvert = p :: rest := by simp [Shared.toConvert, hconverting, hqueued]
  exact
    { hs with
      account := by
        have haccount := hs.account
        rw [hto] at haccount
        exact haccount
      count := by
        have hcount := hs.count
        rw [hqueued, List.length_cons] at hcount
        simp only [hcount, Nat.add_sub_cancel]
      head := Nat.mod_lt _ (by decide)
      entries := fun k hk ↦ by
        have hk' : k + 1 < s.log.queued.length := by
          rw [hqueued, List.length_cons]
          exact Nat.succ_lt_succ hk
        have hentry := hs.entries (k + 1) hk'
        simp only [hqueued, List.getElem_cons_succ] at hentry
        simp only [Nat.mod_add_mod]
        rw [← hentry, Nat.add_assoc, Nat.add_comm 1 k]
      inUse := by
        apply hs.inUse.perm
        show (s.log.queued.map (·.1) ++ s.log.conversionBuffer.toList ++
          s.log.captureBuffer.toList).Perm
            (rest.map (·.1) ++ [p.1] ++ s.log.captureBuffer.toList)
        rw [hqueued, hbuffer]
        apply List.Perm.append_right
        simpa using @List.perm_append_comm _ [p.1] _
      holds := fun q hq ↦ hs.holds q (hto ▸ hq)
      conversionBuffer := fun q hq ↦ by
        cases hq
        rfl
      insideConversion := fun _ h ↦ by cases h
      insideSwapChain := fun hswap ↦ by
        have hidle := (hs.insideSwapChain hswap).1
        rw [hto] at hidle
        cases hidle
      ended := fun h ↦ by
        rw [show s.processor.ended = true from h] at hended
        cases hended
      ring := fun _ ↦ hs.ring (by simp [hto]) }

/-- What the conversion thread knows when it has looked into the queue. -/
def Taken : Option PendingBgraFrame → Shared → Prop
  | none, s => Stopped s
  | some frame, s => ∃ C b f, ToPublish .conversion C b f s ∧
      b < kBgraBuffers ∧ frame = queueEntry (b, f)

/-- The section that takes a frame. -/
theorem BetweenPasses.dequeue {frame : Option PendingBgraFrame} (hs : Accounted s)
    (hA : BetweenPasses false s)
    (hu : captureExec succeeds .conversion _ w .dequeueBgraFrame s = some (frame, u)) :
    (accountRG .conversion).guar s u ∧ Taken frame u := by
  obtain ⟨-, q, hq, rfl⟩ := captureExec_some hu
  have hcount := hs.count
  simp only [CaptureOp.exec] at hq
  split at hq
  · next hready =>
    simp only [hs.failed, Bool.or_false, Bool.and_eq_true, Bool.or_eq_true,
      decide_eq_true_eq] at hready
    split at hq <;> cases hq
    · next hstop =>
      simp only [hs.failed, Bool.false_or, Bool.and_eq_true, decide_eq_true_eq] at hstop
      refine ⟨⟨.refl s, hs⟩, hA, hstop.1, ?_⟩
      rw [hstop.2] at hcount
      exact List.length_eq_zero_iff.1 hcount.symm
    · next hgo =>
      simp only [hs.failed, Bool.false_or, Bool.and_eq_true, decide_eq_true_eq] at hgo
      have hconverting : s.log.converting = none := congrArg Converter.converting hA
      have hended : s.processor.ended = false := congrArg Converter.ended hA
      cases hqueued : s.log.queued with
      | nil =>
          rw [hqueued, List.length_nil] at hcount
          rcases hready.2 with hstop | hne
          · exact absurd ⟨hstop, hcount⟩ hgo
          · exact absurd hcount hne
      | cons p rest =>
          have hto : s.toConvert = p :: rest := by simp [Shared.toConvert, hconverting, hqueued]
          have hmem : p ∈ s.toConvert := by simp [hto]
          have hheld : p.1 ∈ s.held := by simp [Shared.held, hqueued]
          have hentry : s.processor.bgraQueue s.processor.bgraQueueHead = queueEntry p := by
            have h := hs.entries 0 (by simp [hqueued])
            simpa [hqueued, Nat.mod_eq_of_lt hs.head] using h
          have hlog : s.log.step .conversion _ .dequeueBgraFrame
              (some (s.processor.bgraQueue s.processor.bgraQueueHead)) s.processor =
                { s.log with
                  converting := some p
                  queued := rest
                  conversionBuffer := some p.1 } := by
            simp [Log.step, hqueued, hentry, queueEntry]
          rw [hlog, hentry]
          refine ⟨⟨⟨rfl, rfl, fun hidle ↦ ?_, id⟩, hs.dequeue hA hqueued⟩,
            s.capturing, p.1, p.2, ?_,
            hs.inUse.lt _ hheld, rfl⟩
          · rw [Shared.ConverterIdle, hto] at hidle
            cases hidle.1
          · refine ⟨?_, ?_, hs.holds p hmem, fun h ↦ by cases h⟩
            · show Converter.mk (some p) (some p.1) s.processor.ended = _
              rw [hended]
            · exact Bool.eq_false_iff.2 fun hinside ↦ hs.insideConversion hinside hconverting
  · cases hq

/-- The buffer of the published frame is given back. -/
theorem Accounted.releaseConverted (hs : Accounted s)
    (hA : s.converter = ⟨none, some b, false⟩) :
    Accounted
      { processor :=
          { s.processor with
            bgraBufferInUse := Function.update s.processor.bgraBufferInUse b false }
        log := { s.log with converting := none, conversionBuffer := none } } := by
  have hconverting : s.log.converting = none := congrArg Converter.converting hA
  have hbuffer : s.log.conversionBuffer = some b := congrArg Converter.conversionBuffer hA
  have hended : s.processor.ended = false := congrArg Converter.ended hA
  have hto : s.toConvert = s.log.queued := by simp [Shared.toConvert, hconverting]
  have hidle (h : s.ConverterIdle) : False := by
    have hnone := h.2
    rw [hbuffer] at hnone
    cases hnone
  exact
    { hs with
      account := by
        have haccount := hs.account
        rw [hto] at haccount
        exact haccount
      inUse := by
        apply InUse.release
        apply hs.inUse.perm
        show (s.log.queued.map (·.1) ++ s.log.conversionBuffer.toList ++
          s.log.captureBuffer.toList).Perm
            (b :: (s.log.queued.map (·.1) ++ [] ++ s.log.captureBuffer.toList))
        rw [hbuffer]
        simp
      holds := fun p hp ↦ hs.holds p (hto ▸ hp)
      conversionBuffer := fun _ h ↦ by cases h
      insideConversion := fun h ↦ absurd hconverting (hs.insideConversion h)
      insideSwapChain := fun h ↦ (hidle (hs.insideSwapChain h)).elim
      ended := fun h ↦ by
        rw [show s.processor.ended = true from h] at hended
        cases hended
      ring := fun h ↦ hs.ring (hto ▸ h) }

theorem releaseConverted_act {α : Type} {k : Unit → CaptureProg α} {R : α → Shared → Prop}
    (hk : Triple (captureExec succeeds .conversion) (accountRG .conversion) (BetweenPasses false)
      (k ()) R) :
    Triple (captureExec succeeds .conversion) (accountRG .conversion)
      (PublishDone .conversion C b) (.act (.releaseBgraBuffer b) k) R := by
  refine Triple.act publishDone_stable (fun _ ↦ BetweenPasses false) ?_ fun _ ↦ hk
  intro s hR hA w r u hu
  obtain ⟨-, q, hq, rfl⟩ := captureExec_some hu
  cases hq
  have hended : s.processor.ended = false := congrArg Converter.ended hA
  have hbuffer : s.log.conversionBuffer = some b := congrArg Converter.conversionBuffer hA
  refine ⟨⟨⟨rfl, rfl, fun hidle ↦ ?_, id⟩, hR.2.releaseConverted hA⟩, ?_⟩
  · have hnone := hidle.2
    rw [hbuffer] at hnone
    cases hnone
  · show Converter.mk none none s.processor.ended = _
    rw [hended]

/-- A pass publishes the frame that it takes, or the thread ends. -/
theorem conversionPass_account :
    Triple (captureExec succeeds .conversion) (accountRG .conversion) (BetweenPasses false)
      conversionPass fun again s ↦ BetweenPasses (!again) s := by
  unfold conversionPass
  refine Triple.act (betweenPasses_stable false) Taken
    (fun s hR hA w r u hu ↦ hA.dequeue hR.2 hu) fun frame ↦ ?_
  cases frame with
  | none =>
      refine Triple.act stopped_stable (fun _ ↦ BetweenPasses true) ?_ fun _ ↦
        Triple.ret (betweenPasses_stable true) fun _ h ↦ h
      intro s hR hA w r u hu
      obtain ⟨-, q, hq, rfl⟩ := captureExec_some hu
      cases hq
      have hconverting : s.log.converting = none := congrArg Converter.converting hA.1
      have hbuffer : s.log.conversionBuffer = none := congrArg Converter.conversionBuffer hA.1
      have hidle : s.ConverterIdle :=
        ⟨by simp [Shared.toConvert, hconverting, hA.2.2], hbuffer⟩
      refine ⟨⟨⟨rfl, rfl, fun h ↦ ⟨h, rfl⟩, fun _ ↦ rfl⟩,
        { hR.2 with ended := fun _ ↦ ⟨hidle, hA.2.1⟩ }⟩, ?_⟩
      show Converter.mk s.log.converting s.log.conversionBuffer true = _
      rw [hconverting, hbuffer]
  | some frame =>
      rw [Prog.ret_bind]
      refine Triple.of_exists fun C ↦ Triple.of_exists fun b ↦ Triple.of_exists fun f ↦
        Triple.of_const fun h ↦ ?_
      obtain ⟨hb, rfl⟩ := h
      refine Triple.bind _ (publishBgraFrame_account hb) fun ok ↦ ?_
      refine (Triple.of_const (A := PublishDone .conversion C b) (P := ok = true)
        fun hok ↦ ?_).conseq
        (fun _ h ↦ ⟨h.2, h.1⟩) fun _ _ h ↦ h
      subst hok
      exact releaseConverted_act (Triple.ret (betweenPasses_stable false) fun _ h ↦ h)

end SecondScreen.Capture
