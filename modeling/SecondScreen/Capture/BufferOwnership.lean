import SecondScreen.Capture.BufferPool

/-!
# Who holds the BGRA buffers

As long as `m_BgraFailed` is not set, a buffer that is in use is with the swap-chain
thread, in the queue or with the conversion thread, and with one of them only.

What is shown of a thread is shown of the time before the failure: a contract says that
the failure is never taken back, and what holds as long as there is none.
-/

namespace SecondScreen.Capture

open SecondScreen.Conc

/-! ## The contracts -/

/-- Nothing is queued or being converted. -/
def PoolPart.Idle (p : PoolPart) : Prop := p.queued = [] ∧ p.conversionBuffer = none

/-- What the swap-chain thread leaves alone. -/
structure CaptureKeeps (p q : PoolPart) : Prop where
  conversionBuffer : q.conversionBuffer = p.conversionBuffer
  ended : q.ended = p.ended
  stopped : p.bgraStop = true → q.bgraStop = true ∧ q.queued = p.queued

/-- What the conversion thread leaves alone. -/
structure ConversionKeeps (p q : PoolPart) : Prop where
  captureBuffer : q.captureBuffer = p.captureBuffer
  joinable : q.joinable = p.joinable
  stopped : p.bgraStop = true → q.bgraStop = true
  idle : p.Idle → q.Idle

theorem CaptureKeeps.refl (p : PoolPart) : CaptureKeeps p p := ⟨rfl, rfl, fun h ↦ ⟨h, rfl⟩⟩

theorem CaptureKeeps.trans {p q v : PoolPart} (h : CaptureKeeps p q) (h' : CaptureKeeps q v) :
    CaptureKeeps p v where
  conversionBuffer := h'.conversionBuffer.trans h.conversionBuffer
  ended := h'.ended.trans h.ended
  stopped hp := by
    obtain ⟨hstop, hqueued⟩ := h.stopped hp
    obtain ⟨hstop', hqueued'⟩ := h'.stopped hstop
    exact ⟨hstop', hqueued'.trans hqueued⟩

theorem ConversionKeeps.refl (p : PoolPart) : ConversionKeeps p p := ⟨rfl, rfl, id, id⟩

theorem ConversionKeeps.trans {p q v : PoolPart} (h : ConversionKeeps p q)
    (h' : ConversionKeeps q v) : ConversionKeeps p v where
  captureBuffer := h'.captureBuffer.trans h.captureBuffer
  joinable := h'.joinable.trans h.joinable
  stopped hp := h'.stopped (h.stopped hp)
  idle hp := h'.idle (h.idle hp)

/-- What a thread leaves alone; the host leaves everything alone. -/
def Keeps : Worker → PoolPart → PoolPart → Prop
  | .swapChain => CaptureKeeps
  | .conversion => ConversionKeeps
  | .host => fun p q ↦ q = p

/-- What the others leave alone. -/
def OthersKeep : Worker → PoolPart → PoolPart → Prop
  | .swapChain => ConversionKeeps
  | .conversion => CaptureKeeps
  | .host => fun _ _ ↦ True

theorem OthersKeep.refl (i : Worker) (p : PoolPart) : OthersKeep i p p := by
  cases i with
  | swapChain => exact ConversionKeeps.refl p
  | conversion => exact CaptureKeeps.refl p
  | host => trivial

theorem OthersKeep.trans {i : Worker} {p q v : PoolPart} (h : OthersKeep i p q)
    (h' : OthersKeep i q v) : OthersKeep i p v := by
  cases i with
  | swapChain => exact ConversionKeeps.trans h h'
  | conversion => exact CaptureKeeps.trans h h'
  | host => trivial

/-- A failure stays, and without one the pool is kept and so is what `K` says. -/
def Unfailed (K : PoolPart → PoolPart → Prop) (p q : PoolPart) : Prop :=
  (p.bgraFailed = true → q.bgraFailed = true) ∧ (q.bgraFailed = false → K p q ∧ Pool q)

theorem Unfailed.before {K : PoolPart → PoolPart → Prop} {p q : PoolPart} (h : Unfailed K p q)
    (hq : q.bgraFailed = false) : p.bgraFailed = false := by
  rw [Bool.eq_false_iff] at hq ⊢
  exact fun hp ↦ hq (h.1 hp)

/-- The contracts of the threads. -/
def poolRG (i : Worker) : RG PoolShared where
  rely s t := Unfailed (OthersKeep i) s.pool t.pool
  guar s t := Unfailed (Keeps i) s.pool t.pool
  rely_trans h h' := by
    refine ⟨fun hp ↦ h'.1 (h.1 hp), fun hv ↦ ?_⟩
    obtain ⟨hkeep', hpool⟩ := h'.2 hv
    exact ⟨(h.2 (h'.before hv)).1.trans hkeep', hpool⟩
  rely_refl h := ⟨id, fun hq ↦ ⟨.refl _ _, (h.2 hq).2⟩⟩

/-! ## Assertions -/

variable {allow : Steps} [allow.Decides] {i : Worker} {β : Type} {o : CaptureOp β}

/-- The assertion holds unless the conversion has failed. -/
def Live (A : PoolPart → Prop) (s : PoolShared) : Prop := s.pool.bgraFailed = false → A s.pool

/-- The others cannot invalidate the assertion. -/
def Kept (i : Worker) (A : PoolPart → Prop) : Prop := ∀ p q, OthersKeep i p q → A p → A q

/-- What the other thread keeps may be asserted between two operations. -/
theorem Kept.stable {A : PoolPart → Prop} (h : Kept i A) : (poolRG i).Stable (Live A) :=
  fun _ _ hrely hs ht ↦ h _ _ (hrely.2 ht).1 (hs (hrely.before ht))

/-- From the assertion the program gets to the postcondition, unless the conversion
fails. -/
def PoolTriple (allow : Steps) [allow.Decides] (i : Worker) {α : Type} (A : PoolPart → Prop)
    (p : CaptureProg α) (R : α → PoolPart → Prop) : Prop :=
  Triple (poolExec allow i) (poolRG i) (Live A) p fun a ↦ Live (R a)

namespace PoolTriple

variable {α γ : Type} {A : PoolPart → Prop} {R : α → PoolPart → Prop}

theorem ret {a : α} (hA : Kept i A) (hR : ∀ p, A p → R a p) :
    PoolTriple allow i A (.ret a) R :=
  Triple.ret hA.stable fun _ hs hlive ↦ hR _ (hs hlive)

/-- One program after the other. -/
theorem bind {B : γ → PoolPart → Prop} {p : CaptureProg γ} {f : γ → CaptureProg α}
    (hp : PoolTriple allow i A p B) (hf : ∀ c, PoolTriple allow i (B c) (f c) R) :
    PoolTriple allow i A (p.bind f) R :=
  Triple.bind _ hp hf

/-- Less may be asked before, and more promised after. -/
theorem conseq {A' : PoolPart → Prop} {R' : α → PoolPart → Prop} {p : CaptureProg α}
    (h : PoolTriple allow i A p R) (hA : ∀ q, A' q → A q) (hR : ∀ a q, R a q → R' a q) :
    PoolTriple allow i A' p R' :=
  Triple.conseq h (fun _ hs hlive ↦ hA _ (hs hlive)) fun _ _ hs hlive ↦ hR _ _ (hs hlive)

theorem ite {c : Prop} [Decidable c] {p q : CaptureProg α} (hp : PoolTriple allow i A p R)
    (hq : PoolTriple allow i A q R) : PoolTriple allow i A (if c then p else q) R :=
  Triple.ite hp hq

/-- One operation, by what it does while there is no failure. -/
theorem act {k : β → CaptureProg α} {B : β → PoolPart → Prop} (hA : Kept i A)
    (hop : ∀ {s u : PoolShared} {w : Answer} {r : β}, poolExec allow i β w o s = some (r, u) →
      s.pool.bgraFailed = false → Pool s.pool → A s.pool →
        u.pool.bgraFailed = true ∨ Keeps i s.pool u.pool ∧ Pool u.pool ∧ B r u.pool)
    (hk : ∀ r, PoolTriple allow i (B r) (k r) R) : PoolTriple allow i A (.act o k) R := by
  refine Triple.act hA.stable (fun r ↦ Live (B r)) (fun s hs hA' w r u hu ↦ ?_) hk
  have hbefore := poolExec_failed hu
  have hcase (hlive : u.pool.bgraFailed = false) :
      Keeps i s.pool u.pool ∧ Pool u.pool ∧ B r u.pool := by
    have hlive' : s.pool.bgraFailed = false := by
      rw [Bool.eq_false_iff] at hlive ⊢
      exact fun h ↦ hlive (hbefore h)
    rcases hop hu hlive' (hs.2 hlive').2 (hA' hlive') with hfailed | hdone
    · rw [hlive] at hfailed
      cases hfailed
    · exact hdone
  exact ⟨⟨hbefore, fun hlive ↦ ⟨(hcase hlive).1, (hcase hlive).2.1⟩⟩,
    fun hlive ↦ (hcase hlive).2.2⟩

/-- An operation that leaves the pool alone. -/
theorem keep {k : β → CaptureProg α} (ho : KeepsPool β o) (hA : Kept i A)
    (hk : ∀ r, PoolTriple allow i A (k r) R) : PoolTriple allow i A (.act o k) R := by
  refine act hA (B := fun _ ↦ A) (fun hu _ hpool hs ↦ .inr ?_) hk
  rw [ho.pool hu]
  refine ⟨?_, hpool, hs⟩
  cases i with
  | swapChain => exact CaptureKeeps.refl _
  | conversion => exact ConversionKeeps.refl _
  | host => rfl

/-- Operations that leave the pool alone. -/
theorem keeps {p : CaptureProg α} (hp : p.Uses KeepsPool) (hA : Kept i A) :
    PoolTriple allow i A p fun _ ↦ A := by
  induction p with
  | ret a => exact ret hA fun _ h ↦ h
  | act o k ih => exact keep hp.1 hA fun r ↦ ih r (hp.2 r)

end PoolTriple

/-! ## The swap-chain thread -/

/-- The swap-chain thread holds this buffer; the conversion thread can be joined. -/
def Having (b : Option Nat) (p : PoolPart) : Prop := p.joinable = true ∧ p.captureBuffer = b

/-- No buffer is held by anyone. -/
def Emptied (p : PoolPart) : Prop := p.joinable = true ∧ p.held = []

/-- No buffer is in use when both threads and the queue have none. -/
theorem held_eq_nil {p : PoolPart} : p.held = [] ↔ p.captureBuffer = none ∧ p.Idle := by
  simp [PoolPart.held, PoolPart.Idle]

/-- The buffer of the swap-chain thread is no business of the conversion thread. -/
theorem having_kept (b : Option Nat) : Kept .swapChain (Having b) :=
  fun _ _ (hkeep : ConversionKeeps _ _) h ↦
    ⟨hkeep.joinable.trans h.1, hkeep.captureBuffer.trans h.2⟩

/-- Nor does it take a buffer out of an empty queue. -/
theorem emptied_kept : Kept .swapChain Emptied := by
  rintro p q (hkeep : ConversionKeeps p q) ⟨hjoinable, hempty⟩
  rw [held_eq_nil] at hempty
  exact ⟨hkeep.joinable.trans hjoinable,
    held_eq_nil.2 ⟨hkeep.captureBuffer.trans hempty.1, hkeep.idle hempty.2⟩⟩

theorem Emptied.having {p : PoolPart} (h : Emptied p) : Having none p :=
  ⟨h.1, (held_eq_nil.1 h.2).1⟩

/-- Operations that leave the pool alone, between two uses of it. -/
theorem plain_triple {α : Type} {p : CaptureProg α} (hp : p.Uses PlainOperation)
    (b : Option Nat) : PoolTriple allow .swapChain (Having b) p fun _ ↦ Having b :=
  .keeps (hp.mono fun _ _ ↦ PlainOperation.keepsPool) (having_kept b)

/-- `WaitForConversionIdle` ends when nothing is held. -/
theorem waitForConversionIdle_triple {α : Type} {k : Unit → CaptureProg α}
    {R : α → PoolPart → Prop} (hk : PoolTriple allow .swapChain Emptied (k ()) R) :
    PoolTriple allow .swapChain (Having none) (.act .waitForConversionIdle k) R := by
  refine .act (having_kept none) (B := fun _ ↦ Emptied) (fun {s u w r} hu hlive hpool hs ↦ ?_)
    fun _ ↦ hk
  have hsame : u.pool = s.pool := KeepsPool.pool (o := .waitForConversionIdle) trivial hu
  obtain ⟨q, hexec, -⟩ := poolExec_some hu
  simp only [CaptureOp.exec] at hexec
  split_ifs at hexec with hwait
  rw [hsame]
  refine .inr ⟨CaptureKeeps.refl _, hpool, hs.1, held_eq_nil.2 ⟨hs.2, ?_⟩⟩
  rcases hwait with hnot | hfailed | ⟨hcount, hfree⟩
  · rw [show s.shared.processor.joinable = true from hs.1] at hnot
    cases hnot
  · rw [show s.shared.processor.bgraFailed = false from hlive] at hfailed
    cases hfailed
  · have hqueued : s.pool.queued = [] := by
      have hlen := hpool.count.symm.trans (show s.pool.bgraQueueCount = 0 from hcount)
      exact List.length_eq_zero_iff.1 hlen
    refine ⟨hqueued, ?_⟩
    cases hconversion : s.pool.conversionBuffer with
    | none => rfl
    | some b =>
        have hmem : b ∈ s.pool.held := by
          simp [PoolPart.held, hconversion]
        have hb := hpool.inUse.lt b hmem
        have hinUse := (hpool.inUse.iff b hb).2 hmem
        rw [show s.pool.bgraBufferInUse b = false from hfree b hb] at hinUse
        cases hinUse

/-- Operations that set up the pool while nothing is held. -/
theorem rebuild_triple {α : Type} {p : CaptureProg α} (hp : p.Uses Rebuilds) :
    PoolTriple allow .swapChain Emptied p fun _ ↦ Emptied := by
  induction p with
  | ret a => exact .ret emptied_kept fun _ h ↦ h
  | act o k ih =>
      refine .act emptied_kept (B := fun _ ↦ Emptied) (fun hu _ hpool hs ↦ .inr ?_)
        fun r ↦ ih r (hp.2 r)
      obtain ⟨inUse, head, hinUse, hhead, heq⟩ := hp.1.pool hu hpool hs.2
      rw [heq]
      exact ⟨⟨rfl, rfl, fun h ↦ ⟨h, rfl⟩⟩, hpool.rebuild hs.2 hinUse hhead, hs⟩

/-- The reset gives up buffers and does nothing else to the pool. -/
theorem resetBgraBuffers_uses (l : List Nat) : (resetBgraBuffers l).Uses Rebuilds := by
  induction l with
  | nil => trivial
  | cons i l ih => exact ⟨trivial, fun _ ↦ ih⟩

/-- So does making the new ones. -/
theorem newBgraBuffers_uses (l : List Nat) : (newBgraBuffers l).Uses Rebuilds := by
  induction l with
  | nil => trivial
  | cons i l ih =>
      refine ⟨trivial, fun _ ↦ Prog.Uses.ite ?_ ih⟩
      exact (resetBgraBuffers_uses _).bind fun _ ↦ trivial

/-- The buffers are made anew after `WaitForConversionIdle`, when none is in use. -/
theorem ensureBgraBuffers_pool (m : Staging) (width height : Nat) :
    PoolTriple allow .swapChain (Having none) (ensureBgraBuffers m width height)
      fun _ ↦ Having none := by
  refine .ite (.ret (having_kept none) fun _ h ↦ h) ?_
  refine .bind (plain_triple (bgraBuffersReady_plain _) none) fun ready ↦ ?_
  refine .ite (.ret (having_kept none) fun _ h ↦ h) (waitForConversionIdle_triple ?_)
  refine PoolTriple.conseq (rebuild_triple ?_) (fun _ h ↦ h) fun _ _ h ↦ h.having
  refine (resetBgraBuffers_uses _).bind fun _ ↦
    ⟨trivial, fun _ ↦ ⟨trivial, fun _ ↦ ⟨trivial, fun _ ↦ ?_⟩⟩⟩
  exact (newBgraBuffers_uses _).bind fun _ ↦ Prog.Uses.ite trivial trivial

/-- The swap-chain thread gives its buffer back. -/
theorem releaseBgraBuffer_triple {α : Type} {b : Nat} {k : Unit → CaptureProg α}
    {R : α → PoolPart → Prop} (hk : PoolTriple allow .swapChain (Having none) (k ()) R) :
    PoolTriple allow .swapChain (Having (some b)) (.act (.releaseBgraBuffer b) k) R := by
  refine .act (having_kept _) (B := fun _ ↦ Having none) (fun hu _ hpool hs ↦ .inr ?_) fun _ ↦ hk
  rw [poolExec_release hu]
  refine ⟨⟨rfl, rfl, fun h ↦ ⟨h, rfl⟩⟩, ?_, hs.1, rfl⟩
  refine hpool.release ?_ (.refl _) fun he ↦ (hpool.ended he).2.2
  rw [PoolPart.held, hs.2]
  exact .refl _

/-- A buffer is taken for the frame, and queued or given back at every return. -/
theorem mapAndQueueStagingFrame_pool (m : Staging) (frame : PendingStagingFrame) :
    PoolTriple allow .swapChain (Having none) (mapAndQueueStagingFrame m frame)
      fun _ ↦ Having none := by
  have hret (r : Bool × Staging) : PoolTriple allow .swapChain (Having none) (.ret r)
      fun _ ↦ Having none := .ret (having_kept none) fun _ h ↦ h
  refine .ite (hret _) (.keep trivial (having_kept none) fun _ ↦ .ite (hret _) ?_)
  refine .bind (ensureBgraBuffers_pool _ _ _) fun r ↦ .ite (hret _) ?_
  refine .act (having_kept none) (B := Having) (fun hu _ hpool hs ↦ .inr ?_) fun buffer ↦ ?_
  · obtain ⟨rfl, hsame⟩ | ⟨b, rfl, hb, hfree, heq⟩ := poolExec_acquire hu
    · rw [hsame]
      exact ⟨CaptureKeeps.refl _, hpool, hs⟩
    · rw [heq]
      exact ⟨⟨rfl, rfl, fun h ↦ ⟨h, rfl⟩⟩, hpool.acquire hs.2 hb hfree, hs.1, rfl⟩
  cases buffer with
  | none => exact hret _
  | some b =>
      refine .keep trivial (having_kept (some b)) fun mapped ↦ ?_
      cases mapped with
      | none => exact releaseBgraBuffer_triple (hret _)
      | some mapped =>
          rw [Prog.ret_bind]
          refine .bind (plain_triple (copyMapped_plain _ _ _ _) (some b)) fun _ ↦ ?_
          refine PoolTriple.ite ?_ ?_
          · exact .bind (plain_triple (publishBgraFrame_plain _) (some b)) fun published ↦
              releaseBgraBuffer_triple (hret _)
          · refine .act (having_kept _) (B := fun ok ↦ Having (if ok then none else some b))
              (fun {s u w r} hu _ hpool hs ↦ .inr ?_) fun ok ↦ ?_
            · obtain ⟨rfl, hsame⟩ | ⟨rfl, hstop, heq⟩ := poolExec_enqueue hu (hpool.notFull hs.2)
              · rw [hsame]
                exact ⟨CaptureKeeps.refl _, hpool, hs⟩
              · rw [heq]
                refine ⟨⟨rfl, rfl, fun h ↦ ?_⟩, hpool.enqueue hs.2 hstop, hs.1, rfl⟩
                rw [hstop] at h
                cases h
            · cases ok with
              | true => exact hret _
              | false => exact releaseBgraBuffer_triple (hret _)

/-- Frames of the old size are queued before the buffers change. -/
theorem flushResized_pool (m : Staging) (surface : Surface) :
    PoolTriple allow .swapChain (Having none) (flushResized m surface) fun _ ↦ Having none := by
  have hret (r : Bool × Staging) : PoolTriple allow .swapChain (Having none) (.ret r)
      fun _ ↦ Having none := .ret (having_kept none) fun _ h ↦ h
  refine .ite (.bind (mapAndQueueStagingFrame_pool _ _) fun r ↦ ?_) (hret _)
  exact .ite (hret _) (hret _)

theorem queueCaptured_pool (m : Staging) (currentFrame : PendingStagingFrame) :
    PoolTriple allow .swapChain (Having none) (queueCaptured m currentFrame)
      fun _ ↦ Having none := by
  have hret (r : Bool × Staging) : PoolTriple allow .swapChain (Having none) (.ret r)
      fun _ ↦ Having none := .ret (having_kept none) fun _ h ↦ h
  unfold queueCaptured
  apply PoolTriple.ite
  · refine .bind (mapAndQueueStagingFrame_pool _ _) fun r ↦ ?_
    exact .ite (hret _) (hret _)
  · have hrest (r : Bool × Staging) : PoolTriple allow .swapChain (Having none)
        (if !r.1 then .ret r
          else .ret (true, { r.2 with
            pendingStagingFrame := currentFrame
            hasPendingStagingFrame := true })) fun _ ↦ Having none := .ite (hret _) (hret _)
    apply PoolTriple.ite
    · exact .bind (mapAndQueueStagingFrame_pool _ _) hrest
    · exact hrest (true, m)

/-- A surface is copied, and an earlier one queued; no buffer stays in hand. -/
theorem captureAndPublish_pool (m : Staging) (surface : Surface) (presentDisplayQpcTime : Nat) :
    PoolTriple allow .swapChain (Having none) (captureAndPublish m surface presentDisplayQpcTime)
      fun _ ↦ Having none := by
  have hfail (m : Staging) : PoolTriple allow .swapChain (Having none) (failFrame m)
      fun _ ↦ Having none := plain_triple (failFrame_plain m) none
  have hring : PoolTriple allow .swapChain (Having none) ensureFrameRing fun _ ↦ Having none :=
    .keeps (ensureFrameRing_uses.mono fun _ _ ↦ RingOperation.keepsPool) (having_kept none)
  unfold captureAndPublish
  refine .bind hring fun _ ↦ ?_
  apply PoolTriple.ite
  · exact hfail m
  refine .keep trivial (having_kept none) fun _ ↦ ?_
  apply PoolTriple.ite
  · exact hfail m
  apply PoolTriple.ite
  · exact hfail m
  refine .bind (flushResized_pool m surface) fun r ↦ ?_
  apply PoolTriple.ite
  · exact hfail _
  refine .bind (plain_triple (ensureStagingTextures_plain _ _ _) none) fun r ↦ ?_
  apply PoolTriple.ite
  · exact hfail _
  refine .bind (ensureBgraBuffers_pool _ _ _) fun r ↦ ?_
  apply PoolTriple.ite
  · exact hfail _
  refine .keep trivial (having_kept none) fun _ ↦ .keep trivial (having_kept none) fun _ ↦ ?_
  apply PoolTriple.ite
  · exact .ret (having_kept none) fun _ h ↦ h
  · exact queueCaptured_pool _ _

/-- So it is after any number of surfaces. -/
theorem captureLoop_pool (m : Staging) (surfaces : List (Surface × Nat)) :
    PoolTriple allow .swapChain (Having none) (captureLoop m surfaces) fun _ ↦ Having none := by
  induction surfaces generalizing m with
  | nil => exact .ret (having_kept none) fun _ h ↦ h
  | cons surface surfaces ih =>
      refine .bind (captureAndPublish_pool m _ _) fun r ↦ ?_
      apply PoolTriple.ite
      · exact .ret (having_kept none) fun _ h ↦ h
      · exact ih r.2

/-- The swap-chain thread holds no buffer. -/
def HandsEmpty (p : PoolPart) : Prop := p.captureBuffer = none

theorem handsEmpty_kept : Kept .swapChain HandsEmpty :=
  fun _ _ (hkeep : ConversionKeeps _ _) h ↦ hkeep.captureBuffer.trans h

/-- Joining the conversion thread takes no buffer. -/
theorem stopConversionThread_pool :
    PoolTriple allow .swapChain HandsEmpty stopConversionThread fun _ ↦ HandsEmpty := by
  refine .act handsEmpty_kept (B := fun _ ↦ HandsEmpty) (fun {s u w r} hu _ hpool hs ↦ .inr ?_)
    fun _ ↦ .act handsEmpty_kept (B := fun _ ↦ HandsEmpty)
      (fun {s u w r} hu _ hpool hs ↦ .inr ?_) fun _ ↦ .ret handsEmpty_kept fun _ h ↦ h
  · obtain ⟨q, hexec, rfl⟩ := poolExec_some hu
    cases hexec
    refine ⟨⟨rfl, rfl, fun _ ↦ ⟨rfl, rfl⟩⟩, { hpool with ended := fun he ↦ ?_ }, hs⟩
    exact ⟨rfl, (hpool.ended he).2⟩
  · obtain ⟨q, hexec, rfl⟩ := poolExec_some hu
    simp only [CaptureOp.exec] at hexec
    split_ifs at hexec with hended
    cases hexec
    exact ⟨⟨rfl, rfl, fun h ↦ ⟨h, rfl⟩⟩, { hpool with }, hs⟩

/-- The swap-chain thread has no buffer in hand when it begins and when it ends. -/
theorem runCore_pool (surfaces : List (Surface × Nat)) :
    PoolTriple allow .swapChain HandsEmpty (runCore surfaces) fun _ ↦ HandsEmpty := by
  unfold runCore
  refine .act handsEmpty_kept (B := fun ok p ↦ HandsEmpty p ∧ (ok = true → p.joinable = true))
    (fun {s u w r} hu _ hpool hs ↦ .inr ?_) fun ok ↦ ?_
  · obtain ⟨q, hexec, rfl⟩ := poolExec_some hu
    simp only [CaptureOp.exec] at hexec
    split_ifs at hexec <;> cases hexec
    · exact ⟨⟨rfl, rfl, fun h ↦ ⟨h, rfl⟩⟩, { hpool with }, hs, fun _ ↦ rfl⟩
    · exact ⟨CaptureKeeps.refl _, hpool, hs, fun h ↦ by cases h⟩
  cases ok with
  | false =>
      exact PoolTriple.conseq (.ret handsEmpty_kept fun _ h ↦ h) (fun _ h ↦ h.1) fun _ _ h ↦ h
  | true =>
      refine PoolTriple.conseq (A := Having none) ?_ (fun _ h ↦ ⟨h.2 rfl, h.1⟩) fun _ _ h ↦ h
      rw [Prog.ret_bind]
      refine .bind (captureLoop_pool {} surfaces) fun m ↦ ?_
      have hend : PoolTriple allow .swapChain (Having none)
          (stopConversionThread.bind fun _ ↦ closeFrameRing) fun _ ↦ HandsEmpty := by
        refine .bind (stopConversionThread_pool.conseq (fun _ h ↦ h.2) fun _ _ h ↦ h) fun _ ↦ ?_
        exact .keeps (closeFrameRing_uses.mono fun _ _ ↦ RingOperation.keepsPool) handsEmpty_kept
      apply PoolTriple.ite
      · exact .bind (mapAndQueueStagingFrame_pool _ _) fun _ ↦ hend
      · exact hend

/-! ## The conversion thread -/

/-- The conversion thread has taken this buffer. -/
def HasTaken (b : Option Nat) (p : PoolPart) : Prop := p.conversionBuffer = b

/-- Nothing comes any more, and nothing is left. -/
def Drained (p : PoolPart) : Prop := p.bgraStop = true ∧ p.queued = [] ∧ p.conversionBuffer = none

theorem hasTaken_kept (b : Option Nat) : Kept .conversion (HasTaken b) :=
  fun _ _ (hkeep : CaptureKeeps _ _) h ↦ hkeep.conversionBuffer.trans h

theorem drained_kept : Kept .conversion Drained := by
  rintro p q (hkeep : CaptureKeeps p q) ⟨hstop, hqueued, hnone⟩
  obtain ⟨hstop', hqueued'⟩ := hkeep.stopped hstop
  exact ⟨hstop', hqueued'.trans hqueued, hkeep.conversionBuffer.trans hnone⟩

/-- After the failure nothing is claimed. -/
theorem failed_triple {α : Type} (p : CaptureProg α) {R : α → PoolPart → Prop} :
    PoolTriple allow i (fun _ ↦ False) p R := by
  have hkept : Kept i fun _ ↦ False := fun _ _ _ h ↦ h
  induction p with
  | ret a => exact .ret hkept fun _ h ↦ h.elim
  | act o k ih => exact .act hkept (B := fun _ _ ↦ False) (fun _ _ _ h ↦ h.elim) fun r ↦ ih r

/-- What the conversion thread knows when it was given a frame, or none. -/
def AfterDequeue : Option PendingBgraFrame → PoolPart → Prop
  | some frame, p => HasTaken (some frame.bufferIndex) p
  | none, p => Drained p

/-- One pass takes a buffer and gives it back, also after a failure. -/
theorem conversionPass_pool :
    PoolTriple allow .conversion (HasTaken none) conversionPass fun _ ↦ HasTaken none := by
  unfold conversionPass
  refine .act (hasTaken_kept none) (B := AfterDequeue)
    (fun {s u w r} hu hlive hpool hs ↦ .inr ?_) fun frame ↦ ?_
  · obtain ⟨rfl, hsame, hdrained⟩ | ⟨rfl, -, hcount, heq⟩ := poolExec_dequeue hu
    · obtain ⟨hstop, hcount⟩ := hdrained hlive
      rw [hsame]
      refine ⟨ConversionKeeps.refl _, hpool, hstop, ?_, hs⟩
      exact List.length_eq_zero_iff.1 (hpool.count.symm.trans hcount)
    · rw [heq]
      refine ⟨⟨rfl, rfl, id, fun hidle ↦ ?_⟩, hpool.dequeue hs hcount, rfl⟩
      rw [hpool.count, hidle.1] at hcount
      exact absurd rfl hcount
  cases frame with
  | none =>
      refine .act drained_kept (B := fun _ ↦ Drained) (fun {s u w r} hu _ hpool hs ↦ .inr ?_)
        fun _ ↦ ?_
      · obtain ⟨q, hexec, rfl⟩ := poolExec_some hu
        cases hexec
        exact ⟨⟨rfl, rfl, id, id⟩, { hpool with ended := fun _ ↦ hs }, hs⟩
      · exact .ret drained_kept fun _ h ↦ h.2.2
  | some frame =>
      rw [Prog.ret_bind]
      have hpublish : PoolTriple allow .conversion (HasTaken (some frame.bufferIndex))
          (publishBgraFrame frame) fun _ ↦ HasTaken (some frame.bufferIndex) :=
        .keeps ((publishBgraFrame_plain frame).mono fun _ _ ↦ PlainOperation.keepsPool)
          (hasTaken_kept _)
      refine .bind hpublish fun ok ↦ ?_
      apply PoolTriple.ite
      · refine .act (hasTaken_kept _) (B := fun _ _ ↦ False) (fun {s u w r} hu _ _ _ ↦ .inl ?_)
          fun _ ↦ failed_triple _
        obtain ⟨q, hexec, rfl⟩ := poolExec_some hu
        cases hexec
        rfl
      · refine .act (hasTaken_kept _) (B := fun _ ↦ HasTaken none)
          (fun {s u w r} hu _ hpool hs ↦ .inr ?_)
          fun _ ↦ .ret (hasTaken_kept none) fun _ h ↦ h
        rw [poolExec_release hu]
        refine ⟨⟨rfl, rfl, id, fun h ↦ ⟨h.1, rfl⟩⟩, ?_, rfl⟩
        have hheld : s.pool.held.Perm
            (frame.bufferIndex :: (s.pool.captureBuffer.toList ++ s.pool.queued)) := by
          rw [PoolPart.held, hs]
          exact List.perm_append_singleton _ _
        exact hpool.release hheld (by simp) fun _ ↦ rfl

/-! ## All of them -/

/-- What holds of a thread that is not inside of a call. -/
def PoolIdle : Worker → PoolPart → Prop
  | .swapChain => HandsEmpty
  | .conversion => HasTaken none
  | .host => fun _ ↦ True

theorem poolIdle_kept (i : Worker) : Kept i (PoolIdle i) := by
  cases i with
  | swapChain => exact handsEmpty_kept
  | conversion => exact hasTaken_kept none
  | host => exact fun _ _ _ h ↦ h

/-- Every thread keeps its part of the account. -/
theorem body_pool (i : Worker) (call : (poolSystem allow).Call i) (l : (poolSystem allow).Local i) :
    PoolTriple allow i (PoolIdle i) ((poolSystem allow).body i call l) fun _ ↦ PoolIdle i := by
  cases i with
  | swapChain =>
      cases l with
      | true => exact .ret handsEmpty_kept fun _ h ↦ h
      | false => exact .bind (runCore_pool call) fun _ ↦ .ret handsEmpty_kept fun _ h ↦ h
  | conversion =>
      cases l with
      | true => exact .ret (hasTaken_kept none) fun _ h ↦ h
      | false => exact .bind conversionPass_pool fun _ ↦ .ret (hasTaken_kept none) fun _ h ↦ h
  | host =>
      have hhost : PoolTriple allow .host (PoolIdle .host) restartHost fun _ ↦ PoolIdle .host :=
        .keep trivial (poolIdle_kept .host) fun _ ↦ .keep trivial (poolIdle_kept .host) fun _ ↦
          .ret (poolIdle_kept .host) fun _ h ↦ h
      exact .bind hhost fun _ ↦ .ret (poolIdle_kept .host) fun _ h ↦ h

/-- Every contract allows standing still. -/
theorem poolRG_refl {s : PoolShared} (i : Worker) (hs : s.pool.bgraFailed = false → Pool s.pool) :
    (poolRG i).guar s s ∧ (poolRG i).rely s s := by
  refine ⟨⟨id, fun hlive ↦ ⟨?_, hs hlive⟩⟩, id, fun hlive ↦ ⟨.refl i _, hs hlive⟩⟩
  cases i with
  | swapChain => exact CaptureKeeps.refl _
  | conversion => exact ConversionKeeps.refl _
  | host => rfl

/-- What a thread leaves alone, every other one is promised. -/
theorem Keeps.others {i j : Worker} {p q : PoolPart} (hij : i ≠ j) (h : Keeps j p q) :
    OthersKeep i p q := by
  cases i <;> cases j <;> first
    | exact absurd rfl hij
    | exact h
    | trivial
    | (cases h; exact OthersKeep.refl _ _)

/-- The outline of the threads and the host. -/
def poolOutline : System.Outline (poolSystem allow) fun _ _ _ _ ↦ True where
  inv := Live Pool
  rg := poolRG
  idle i _ := Live (PoolIdle i)
  inv_next _ _ h hlive := (h.2 hlive).2
  rely_refl i _ h := (poolRG_refl i h).2
  compat hij _ _ h := ⟨h.1, fun hlive ↦ ⟨(h.2 hlive).1.others hij, (h.2 hlive).2⟩⟩
  idle_stable i _ := (poolIdle_kept i).stable
  enter_ok {c i call c' l} hinv _ hidle := by
    have hsame (s : PoolShared) : ((poolSystem allow).enter i call l s).pool = s.pool := by
      cases i with
      | swapChain => cases l <;> rfl
      | conversion | host => rfl
    have hguar : (poolRG i).guar c.shared ((poolSystem allow).enter i call l c.shared) := by
      have hrefl := (poolRG_refl i hinv).1
      simp only [poolRG, hsame]
      exact hrefl
    have hpool : Live (PoolIdle i) ((poolSystem allow).enter i call l c.shared) := by
      unfold Live
      rw [hsame]
      exact hidle
    refine ⟨hguar, ((body_pool i call l _ hpool).and_rely).mono fun r t ht ↦ ?_⟩
    exact ⟨(poolRG_refl i fun hlive ↦ (ht.2.2 hlive).2).1, ht.1⟩

abbrev PoolConfig (allow : Steps) [allow.Decides] := (poolSystem allow).Config

/-- Nothing has been captured, and no thread has begun. -/
def PoolConfig.initial (allow : Steps) [allow.Decides] : PoolConfig allow where
  shared := {}
  status
    | .swapChain | .conversion => .idle false
    | .host => .idle ()

/-- An arbitrary interleaving. -/
abbrev PoolRun (allow : Steps) [allow.Decides] : PoolConfig allow → PoolConfig allow → Prop :=
  System.Run (S := poolSystem allow) fun _ _ _ _ ↦ True

/-- It holds before the threads begin. -/
theorem poolOutline_initial : poolOutline.Ok (PoolConfig.initial allow) where
  inv _ :=
    { count := rfl
      head := Nat.succ_pos _
      entries := fun k hk ↦ absurd hk (Nat.not_lt_zero k)
      inUse := ⟨fun b hb ↦ by simp [PoolConfig.initial, PoolShared.pool, PoolPart.held],
        List.nodup_nil, fun b hb ↦ by cases hb⟩
      balance := fun b ↦ rfl
      foundFull := rfl
      takenAway := rfl
      ended := nofun }
  status i := by
    cases i with
    | swapChain | conversion => exact fun _ ↦ rfl
    | host => exact fun _ ↦ trivial

/-- The buffers that the live entries of the queue name, the oldest first. -/
def Processor.queuedBuffers (p : Processor) : List Nat :=
  (List.range p.bgraQueueCount).map fun k ↦
    (p.bgraQueue ((p.bgraQueueHead + k) % kBgraBuffers)).bufferIndex

/-- The buffers in the ring of the queue are those of the queued frames. -/
theorem Pool.queuedBuffers {s : PoolShared} (h : Pool s.pool) :
    s.shared.processor.queuedBuffers = s.pool.queued := by
  have hcount : s.shared.processor.bgraQueueCount = s.pool.queued.length := h.count
  apply List.ext_getElem
  · rw [Processor.queuedBuffers, List.length_map, List.length_range, hcount]
  · intro k hk hk'
    simp only [Processor.queuedBuffers, List.getElem_map, List.getElem_range]
    exact h.entries k hk'

/-- The buffers that are with one of the threads or in the queue. -/
def Shared.owned (s : Shared) : List Nat :=
  s.log.captureBuffer.toList ++ s.processor.queuedBuffers ++ s.log.conversionBuffer.toList

/-- Owned buffers are those in hand and in the queue. -/
theorem Pool.owned {s : PoolShared} (h : Pool s.pool) : s.shared.owned = s.pool.held := by
  rw [Shared.owned, h.queuedBuffers]
  rfl

/-- Each buffer in use has one owner. -/
structure Partitioned (c : PoolConfig allow) : Prop where
  inUse : ∀ b < kBgraBuffers,
    c.shared.shared.processor.bgraBufferInUse b = true ↔ b ∈ c.shared.shared.owned
  /-- So no two entries of the queue name the same buffer, and none of them is with a
  thread. -/
  nodup : c.shared.shared.owned.Nodup
  lt : ∀ b ∈ c.shared.shared.owned, b < kBgraBuffers
  swapChain : ∀ l, c.status .swapChain = .idle l → c.shared.shared.log.captureBuffer = none
  conversion : ∀ l, c.status .conversion = .idle l → c.shared.shared.log.conversionBuffer = none
  foundFull : c.shared.history.foundFull = 0
  takenAway : c.shared.history.takenAway = 0
  balance : ∀ b, c.shared.history.acquired.count b =
    c.shared.history.released.count b + if b ∈ c.shared.shared.owned then 1 else 0
  /-- When both threads are done, nothing is in use. -/
  finished : ∀ l, c.status .swapChain = .idle l → c.shared.shared.processor.ended = true →
    c.shared.shared.owned = []

/-- **Each buffer in use has one owner**, as long as the conversion has not failed. -/
theorem buffer_ownership {c : PoolConfig anyStep}
    (h : PoolRun anyStep (.initial anyStep) c)
    (hlive : c.shared.shared.processor.bgraFailed = false) : Partitioned c := by
  have hok := poolOutline.ok_run poolOutline_initial h
  have hpool : Pool c.shared.pool := hok.inv hlive
  have howned := hpool.owned
  have hcapture (l) (hl : c.status .swapChain = .idle l) : c.shared.pool.captureBuffer = none := by
    have hstatus := hok.status .swapChain
    rw [hl] at hstatus
    exact hstatus hlive
  constructor
  · rw [howned]
    exact hpool.inUse.iff
  · rw [howned]
    exact hpool.inUse.nodup
  · rw [howned]
    exact hpool.inUse.lt
  · exact hcapture
  · intro l hl
    have hstatus := hok.status .conversion
    rw [hl] at hstatus
    exact hstatus hlive
  · exact hpool.foundFull
  · exact hpool.takenAway
  · rw [howned]
    exact hpool.balance
  · intro l hl hended
    rw [howned, held_eq_nil]
    exact ⟨hcapture l hl, (hpool.ended hended).2⟩

/-- One buffer is being filled, the next is queued, and the last is being converted. -/
theorem buffer_ownership_all_in_use : ∃ c : PoolConfig anyStep,
    PoolRun anyStep (.initial anyStep) c ∧ c.shared.shared.owned = [2, 1, 0] ∧ Partitioned c := by
  have hfollow : ((PoolConfig.initial anyStep).follow (fun _ _ _ _ ↦ True)
      (⟨.swapChain, .enter (List.replicate 4 (smallSurface, 0))⟩ ::
        List.replicate 128 ⟨.swapChain, .act { rowPitch := 8 }⟩ ++
          ⟨.conversion, .enter ()⟩ :: List.replicate 3 ⟨.conversion, .act {}⟩ ++
            List.replicate 40 ⟨.swapChain, .act { rowPitch := 8 }⟩)).map
      (fun c ↦ (c.shared.shared.owned, c.shared.shared.processor.bgraFailed)) =
        some ([2, 1, 0], false) := by decide +kernel
  obtain ⟨c, hc, hend⟩ := Option.map_eq_some_iff.1 hfollow
  obtain ⟨howned, hlive⟩ := Prod.mk.injEq .. ▸ hend
  have hrun := System.Config.run_of_follow hc
  exact ⟨c, hrun, howned, buffer_ownership hrun hlive⟩

end SecondScreen.Capture
