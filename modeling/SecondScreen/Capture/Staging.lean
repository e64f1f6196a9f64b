import SecondScreen.Capture.Publishing

/-!
# The swap-chain thread

The functions of the swap-chain thread, followed step by step.  Since the conversion
thread never changes what the swap-chain thread owns, the thread knows that part of the
state exactly, and only of the conversion thread it may or may not know that it is idle.
-/

namespace SecondScreen.Capture

open SecondScreen.Conc SecondScreen.Machine

variable {s t u : Shared} {β : Type} {w : Answer} {o : CaptureOp β} {r : β} {b : Nat} {f : Frame}
  {C D : Capturing} {idle : Bool} {α : Type} {R : α → Shared → Prop} {B : β → Prop}

/-- What the swap-chain thread knows while it is not inside of `PublishBgraFrame`. -/
structure Knows (C : Capturing) (idle : Bool) (s : Shared) : Prop where
  capturing : s.capturing = C
  inside : s.log.inside .swapChain = false
  idle : idle = true → s.ConverterIdle

theorem knows_stable : (accountRG .swapChain).Stable (Knows C idle) :=
  fun _ _ hR h ↦ ⟨hR.1.capturing.trans h.capturing, hR.1.inside.trans h.inside,
    fun hidle ↦ (hR.1.idle (h.idle hidle)).1⟩

theorem Knows.weaken (h : Knows C idle s) : Knows C false s := ⟨h.capturing, h.inside, nofun⟩

/-- A program of the swap-chain thread, from what is known to what is known. -/
abbrev SwapTriple (C : Capturing) (idle : Bool) (p : CaptureProg α)
    (R : α → Shared → Prop) : Prop :=
  Triple (captureExec succeeds .swapChain) (accountRG .swapChain) (Knows C idle) p R

theorem swap_ret {a : α} (h : ∀ s, Knows C idle s → R a s) : SwapTriple C idle (.ret a) R :=
  Triple.ret knows_stable h

/-- An operation, with what is known of its answer. -/
theorem swap_act {k : β → CaptureProg α} (idle' : Bool) (B : β → Prop)
    (hexec : ∀ w s r u, Accounted s → Knows C idle s →
      captureExec succeeds .swapChain β w o s = some (r, u) →
        B r ∧ (accountRG .swapChain).guar s u ∧ Knows D idle' u)
    (hk : ∀ r, B r → SwapTriple D idle' (k r) R) : SwapTriple C idle (.act o k) R := by
  refine Triple.act knows_stable (fun r s ↦ Knows D idle' s ∧ B r) ?_ fun r ↦
    Triple.of_const (hk r)
  intro s hR hA w r u hu
  obtain ⟨hr, hguar, hknows⟩ := hexec w s r u hR.2 hA hu
  exact ⟨hguar, hknows, hr⟩

/-- An operation that only looks. -/
theorem swap_read {k : β → CaptureProg α} (B : β → Prop)
    (hexec : ∀ w s r u, Accounted s → Knows C idle s →
      captureExec succeeds .swapChain β w o s = some (r, u) → B r ∧ u = s)
    (hk : ∀ r, B r → SwapTriple C idle (k r) R) : SwapTriple C idle (.act o k) R := by
  refine swap_act _ B (fun w s r u hs hA hu ↦ ?_) hk
  obtain ⟨hr, rfl⟩ := hexec w s r u hs hA hu
  exact ⟨hr, ⟨.refl u, hs⟩, hA⟩

/-- What a program leaves is what the next one starts from. -/
theorem swap_bind {γ : Type} {p : CaptureProg β} {k : β → CaptureProg α} (D : γ → Capturing)
    (idle' : Bool) (B : β → γ → Prop)
    (hp : SwapTriple C idle p fun r s ↦ ∃ c, Knows (D c) idle' s ∧ B r c)
    (hk : ∀ r c, B r c → SwapTriple (D c) idle' (k r) R) : SwapTriple C idle (p.bind k) R :=
  Triple.bind _ hp fun r ↦ Triple.of_exists fun c ↦ Triple.of_const (hk r c)

/-- A call that succeeds. -/
theorem swap_call {g : SystemCall} {k : Bool → CaptureProg α} (hk : SwapTriple C idle (k true) R) :
    SwapTriple C idle (.act (.call g) k) R := by
  refine swap_read (· = true) (fun w s r u _ _ hu ↦ ?_) fun r hr ↦ hr ▸ hk
  obtain ⟨hallow, q, hq, rfl⟩ := captureExec_some hu
  cases hq
  exact ⟨hallow.1, rfl⟩

/-- Nothing has changed that the account mentions. -/
def OwnOnly (p q : Processor) : Prop :=
  q = { p with
    stagingTextures := q.stagingTextures
    joinable := q.joinable
    frameRing := q.frameRing
    frameReadyEvent := q.frameReadyEvent
    frameMapping := q.frameMapping
    mapped := q.mapped
    views := q.views
    eventOpen := q.eventOpen }

theorem OwnOnly.guar {p : Processor} (h : OwnOnly s.processor p) (hs : Accounted s)
    (hring : s.toConvert ≠ [] → p.frameRing ≠ none) :
    (accountRG .swapChain).guar s ⟨p, s.log⟩ := by
  rw [h]
  exact ⟨⟨rfl, rfl, fun _ _ ↦ ⟨rfl, rfl⟩, fun hstop ↦ ⟨hstop, rfl⟩⟩, { hs with ring := hring }⟩

/-- An operation on what the account does not mention. -/
theorem swap_own {k : β → CaptureProg α} (B : β → Prop)
    (hexec : ∀ w s r u, Accounted s → Knows C idle s →
      captureExec succeeds .swapChain β w o s = some (r, u) → B r ∧ u.log = s.log ∧
        OwnOnly s.processor u.processor ∧ u.capturing = D)
    (hring : C.frameRing ≠ none → D.frameRing ≠ none)
    (hk : ∀ r, B r → SwapTriple D idle (k r) R) :
    SwapTriple C idle (.act o k) R := by
  refine swap_act _ B (fun w s r u hs hA hu ↦ ?_) hk
  obtain ⟨hr, hlog, hown, hD⟩ := hexec w s r u hs hA hu
  obtain ⟨p, log⟩ := u
  cases hlog
  refine ⟨hr, hown.guar hs fun h ↦ ?_, hD, hA.inside, hA.idle⟩
  show (Shared.capturing ⟨p, s.log⟩).frameRing ≠ none
  rw [hD]
  apply hring
  rw [← hA.capturing]
  exact hs.ring h

/-! ## The frame ring -/

/-- Once `m_FrameRing` is not null, the handles are there. -/
def HandlesOpen (C : Capturing) : Prop :=
  C.frameRing ≠ none → C.frameReadyEvent = true ∧ C.frameMapping = true

/-- The header is valid. -/
theorem swap_validate {k : Bool → CaptureProg α} (hk : SwapTriple C idle (k true) R) :
    SwapTriple C idle (.act .validateFrameRing k) R := by
  refine swap_read (· = true) (fun w s r u _ _ hu ↦ ?_) fun r hr ↦ hr ▸ hk
  obtain ⟨hallow, q, hq, rfl⟩ := captureExec_some hu
  cases hq
  exact ⟨hallow.2, rfl⟩

/-- The ring is open. -/
def Capturing.opened (C : Capturing) (v : Nat) : Capturing :=
  { C with
    frameRing := some v
    frameReadyEvent := true
    frameMapping := true }

theorem openFrameRing_account :
    SwapTriple C idle openFrameRing fun ok s ↦ ∃ v, Knows (C.opened v) idle s ∧ ok = true := by
  unfold openFrameRing
  apply swap_call
  refine swap_own (· = true) ?_ id ?_
  · intro w s r u _ hA hu
    obtain ⟨hallow, q, hq, rfl⟩ := captureExec_some hu
    simp only [CaptureOp.exec, hallow.1] at hq
    cases hq
    exact ⟨rfl, rfl, rfl, hA.capturing⟩
  rintro _ rfl
  refine swap_own (D := C) (fun view ↦ ∃ v, view = some v) ?_ id ?_
  · intro w s r u _ hA hu
    obtain ⟨hallow, q, hq, rfl⟩ := captureExec_some hu
    simp only [CaptureOp.exec, hallow.1] at hq
    cases hq
    exact ⟨⟨_, rfl⟩, rfl, rfl, hA.capturing⟩
  rintro _ ⟨v, rfl⟩
  apply swap_validate
  refine swap_own (D := { C with frameMapping := true }) (fun _ ↦ True) ?_ id fun _ _ ↦ ?_
  · intro w s r u _ hA hu
    obtain ⟨-, q, hq, rfl⟩ := captureExec_some hu
    cases hq
    exact ⟨trivial, rfl, rfl, by rw [← hA.capturing]; rfl⟩
  refine swap_own (D := { C with frameMapping := true, frameReadyEvent := true }) (fun _ ↦ True)
    ?_ id fun _ _ ↦ ?_
  · intro w s r u _ hA hu
    obtain ⟨-, q, hq, rfl⟩ := captureExec_some hu
    cases hq
    refine ⟨trivial, rfl, rfl, ?_⟩
    show { s.capturing with frameReadyEvent := true } = _
    rw [hA.capturing]
  refine swap_own (D := C.opened v) (fun _ ↦ True) ?_ (fun _ h ↦ by cases h) fun _ _ ↦
    swap_ret fun s h ↦ ⟨v, h, rfl⟩
  intro w s r u _ hA hu
  obtain ⟨-, q, hq, rfl⟩ := captureExec_some hu
  cases hq
  refine ⟨trivial, rfl, rfl, ?_⟩
  show { s.capturing with frameRing := some v } = _
  rw [hA.capturing]
  rfl

/-- Whether the ring is open. -/
theorem frameRingOpen_account {k : Bool → CaptureProg α} (h : HandlesOpen C)
    (hk : SwapTriple C idle (k C.frameRing.isSome) R) :
    SwapTriple C idle (frameRingOpen.bind k) R := by
  refine swap_read (· = C.frameRing.isSome) ?_ ?_
  · intro w s r u _ hA hu
    obtain ⟨-, q, hq, rfl⟩ := captureExec_some hu
    cases hq
    exact ⟨by rw [← hA.capturing]; rfl, rfl⟩
  rintro _ rfl
  cases hring : C.frameRing with
  | none =>
      rw [hring] at hk
      exact hk
  | some v =>
  rw [hring] at hk
  obtain ⟨hready, hmapping⟩ := h (by simp [hring])
  refine swap_read (o := .readFrameMapping) (· = true) ?_ ?_
  · intro w s r u _ hA hu
    obtain ⟨-, q, hq, rfl⟩ := captureExec_some hu
    cases hq
    exact ⟨by rw [← hmapping, ← hA.capturing]; rfl, rfl⟩
  rintro _ rfl
  refine swap_read (o := .readFrameReadyEvent) (· = true) ?_ ?_
  · intro w s r u _ hA hu
    obtain ⟨-, q, hq, rfl⟩ := captureExec_some hu
    cases hq
    exact ⟨by rw [← hready, ← hA.capturing]; rfl, rfl⟩
  rintro _ rfl
  exact hk

/-- `EnsureFrameRing` opens the ring, or leaves it open. -/
theorem ensureFrameRing_account (h : HandlesOpen C) :
    SwapTriple C idle ensureFrameRing fun ok s ↦ ∃ v, Knows (C.opened v) idle s ∧ ok = true := by
  apply frameRingOpen_account h
  cases hring : C.frameRing with
  | none => exact openFrameRing_account
  | some v =>
      apply swap_validate
      obtain ⟨hready, hmapping⟩ := h (by simp [hring])
      have hopened : C.opened v = C := by
        cases C
        cases hring
        cases hready
        cases hmapping
        rfl
      exact swap_ret fun s hs ↦ ⟨v, hopened.symm ▸ hs, rfl⟩

/-! ## Waiting for the conversion thread -/

/-- When no buffer is in use and nothing is queued, the conversion thread is idle. -/
theorem Accounted.converterIdle (hs : Accounted s) (h : s.processor.conversionIdle) :
    s.ConverterIdle := by
  obtain hfailed | ⟨hcount, hfree⟩ := h
  · rw [hs.failed] at hfailed
    cases hfailed
  rw [hs.count] at hcount
  have hqueued : s.log.queued = [] := List.length_eq_zero_iff.1 hcount
  have hbuffer : s.log.conversionBuffer = none := by
    cases hb : s.log.conversionBuffer with
    | none => rfl
    | some b =>
        have hheld : b ∈ s.held := by simp [Shared.held, hb]
        have hlt := hs.inUse.lt b hheld
        have hused := (hs.inUse.iff b hlt).2 hheld
        rw [hfree b hlt] at hused
        cases hused
  refine ⟨?_, hbuffer⟩
  cases hc : s.log.converting with
  | none => simp [Shared.toConvert, hc, hqueued]
  | some p =>
      rw [hs.conversionBuffer p hc] at hbuffer
      cases hbuffer

theorem swap_wait {k : Unit → CaptureProg α} (hjoinable : C.joinable = true)
    (hk : SwapTriple C true (k ()) R) : SwapTriple C idle (.act .waitForConversionIdle k) R := by
  refine swap_act (D := C) true (fun _ ↦ True) ?_ fun _ _ ↦ hk
  intro w s r u hs hA hu
  obtain ⟨-, q, hq, rfl⟩ := captureExec_some hu
  simp only [CaptureOp.exec] at hq
  split at hq
  · next hidle =>
    cases hq
    have hjoined : s.processor.joinable = true :=
      (congrArg Capturing.joinable hA.capturing).trans hjoinable
    rw [hjoined] at hidle
    refine ⟨trivial, ⟨.refl s, hs⟩, hA.capturing, hA.inside, fun _ ↦ ?_⟩
    exact hs.converterIdle (hidle.resolve_left Bool.noConfusion)
  · cases hq

/-! ## The staging textures -/

/-- Both textures are there. -/
def TexturesReady (textures : Nat → Option Bytes) : Prop :=
  textures 0 ≠ none ∧ textures 1 ≠ none

theorem TexturesReady.update {textures : Nat → Option Bytes} (h : TexturesReady textures) (i : Nat)
    (bytes : Bytes) : TexturesReady (Function.update textures i (some bytes)) := by
  have hj (j : Nat) (hne : textures j ≠ none) :
      Function.update textures i (some bytes) j ≠ none := by
    by_cases hji : j = i
    · simp [hji]
    · rwa [Function.update_of_ne hji]
  exact ⟨hj 0 h.1, hj 1 h.2⟩

/-- What is known after the textures were replaced. -/
def Capturing.withTextures (C : Capturing) (textures : Nat → Option Bytes) : Capturing :=
  { C with stagingTextures := textures }

theorem stagingTexturesReady_account {k : Bool → CaptureProg α}
    (hk : ∀ ready, (ready = true ↔ TexturesReady C.stagingTextures) →
      SwapTriple C idle (k ready) R) :
    SwapTriple C idle (stagingTexturesReady.bind k) R := by
  have hread (i : Nat) (w : Answer) (s : Shared) (r : Bool) (u : Shared) (_ : Accounted s)
      (hA : Knows C idle s)
      (hu : captureExec succeeds .swapChain _ w (.readStagingTexture i) s = some (r, u)) :
      (r = true ↔ C.stagingTextures i ≠ none) ∧ u = s := by
    obtain ⟨-, q, hq, rfl⟩ := captureExec_some hu
    cases hq
    exact ⟨by rw [← hA.capturing]; exact Option.isSome_iff_ne_none, rfl⟩
  refine swap_read _ (hread 0) fun first hfirst ↦ ?_
  cases first with
  | false =>
      exact hk false ⟨nofun, fun h ↦ hfirst.2 h.1⟩
  | true =>
      refine swap_read _ (hread 1) fun second hsecond ↦ hk second ?_
      exact hsecond.trans ⟨fun h ↦ ⟨hfirst.1 rfl, h⟩, And.right⟩

theorem resetStagingTextures_account {k : Unit → CaptureProg α} {textures : Nat → Option Bytes}
    (hk : ∀ textures, SwapTriple (C.withTextures textures) idle (k ()) R) :
    SwapTriple (C.withTextures textures) idle (resetStagingTextures.bind k) R := by
  have hreset (i : Nat) (textures : Nat → Option Bytes) {k : Unit → CaptureProg α}
      (hk : ∀ textures, SwapTriple (C.withTextures textures) idle (k ()) R) :
      SwapTriple (C.withTextures textures) idle (.act (.resetStagingTexture i) k) R := by
    refine swap_own (D := C.withTextures (Function.update textures i none)) (fun _ ↦ True) ?_ id
      fun _ _ ↦ hk _
    intro w s r u _ hA hu
    obtain ⟨-, q, hq, rfl⟩ := captureExec_some hu
    cases hq
    refine ⟨trivial, rfl, rfl, ?_⟩
    have hold : s.processor.stagingTextures = textures :=
      congrArg Capturing.stagingTextures hA.capturing
    rw [hold]
    show { s.capturing with stagingTextures := Function.update textures i none } = _
    rw [hA.capturing]
    rfl
  exact hreset 0 textures fun textures ↦ hreset 1 textures hk

theorem createTexture2D_account {k : Bool → CaptureProg α} {textures : Nat → Option Bytes} (i : Nat)
    (hk : ∀ bytes, SwapTriple (C.withTextures (Function.update textures i (some bytes))) idle
      (k true) R) :
    SwapTriple (C.withTextures textures) idle (.act (.createTexture2D i) k) R := by
  refine Triple.act knows_stable (fun r s ↦ ∃ bytes, Knows
    (C.withTextures (Function.update textures i (some bytes))) idle s ∧ r = true) ?_
    fun r ↦ Triple.of_exists fun bytes ↦ Triple.of_const fun hr ↦ hr ▸ hk bytes
  intro s hR hA w r u hu
  obtain ⟨hallow, q, hq, rfl⟩ := captureExec_some hu
  simp only [CaptureOp.exec, hallow.1] at hq
  cases hq
  have hold : s.processor.stagingTextures = textures :=
    congrArg Capturing.stagingTextures hA.capturing
  refine ⟨OwnOnly.guar rfl hR.2 hR.2.ring, w.fresh, ⟨?_, hA.inside, hA.idle⟩, rfl⟩
  rw [hold]
  show { s.capturing with stagingTextures := Function.update textures i (some w.fresh) } = _
  rw [hA.capturing]
  rfl

/-- The members after the textures were created anew. -/
def Staging.resized (m : Staging) (width height : Nat) : Staging :=
  { m with
    stagingWidth := width
    stagingHeight := height
    stagingWriteIndex := 0
    hasPendingStagingFrame := false
    hasPublishedFrame := false }

/-- `EnsureStagingTextures` keeps the textures, or creates them while the conversion thread
is idle. -/
theorem ensureStagingTextures_account {m : Staging} {width height : Nat}
    {k : Bool × Staging → CaptureProg α} (hjoinable : C.joinable = true)
    (hkeep : TexturesReady C.stagingTextures → m.stagingWidth = width →
      m.stagingHeight = height → SwapTriple C idle (k (true, m)) R)
    (hnew : ¬ (TexturesReady C.stagingTextures ∧ m.stagingWidth = width ∧
        m.stagingHeight = height) → ∀ textures, TexturesReady textures →
      SwapTriple (C.withTextures textures) true (k (true, m.resized width height)) R) :
    SwapTriple C idle ((ensureStagingTextures m width height).bind k) R := by
  unfold ensureStagingTextures
  rw [Prog.bind_eq, Prog.bind_assoc]
  refine stagingTexturesReady_account fun ready hready ↦ ?_
  simp only [Bool.and_eq_true, decide_eq_true_eq]
  split
  · next h => exact hkeep (hready.1 h.1.1) h.1.2 h.2
  next h =>
  have hchanged : ¬ (TexturesReady C.stagingTextures ∧ m.stagingWidth = width ∧
      m.stagingHeight = height) := fun h' ↦ h ⟨⟨hready.2 h'.1, h'.2.1⟩, h'.2.2⟩
  rw [Prog.bind_eq, Prog.bind_assoc]
  refine resetStagingTextures_account (C := C) fun textures ↦ ?_
  refine swap_wait (C := C.withTextures textures) hjoinable ?_
  refine createTexture2D_account 0 fun bytes₀ ↦ createTexture2D_account 1 fun bytes₁ ↦ ?_
  refine hnew hchanged _ ⟨?_, ?_⟩
  · simp
  · simp

/-! ## The BGRA buffers -/

/-- All buffers are there. -/
def BuffersReady (buffers : Nat → Option Bytes) : Prop := ∀ i < kBgraBuffers, buffers i ≠ none

/-- What is known after the buffers have changed. -/
def Capturing.withBuffers (C : Capturing) (buffers : Nat → Option Bytes) : Capturing :=
  { C with bgraBuffers := buffers }

theorem bgraBuffersReady_account {k : Bool → CaptureProg α} (l : List Nat)
    (hk : ∀ ready, (ready = true ↔ ∀ i ∈ l, C.bgraBuffers i ≠ none) →
      SwapTriple C idle (k ready) R) :
    SwapTriple C idle ((bgraBuffersReady l).bind k) R := by
  induction l generalizing k with
  | nil => exact hk true ⟨fun _ ↦ nofun, fun _ ↦ rfl⟩
  | cons i l ih =>
      refine swap_read (fun ready ↦ ready = true ↔ C.bgraBuffers i ≠ none) ?_ fun ready hready ↦ ?_
      · intro w s r u _ hA hu
        obtain ⟨-, q, hq, rfl⟩ := captureExec_some hu
        cases hq
        exact ⟨by rw [← hA.capturing]; exact Option.isSome_iff_ne_none, rfl⟩
      · simp only [Prog.ret_bind, Prog.bind_eq, Prog.bind_assoc]
        refine ih fun rest hrest ↦ hk _ ?_
        rw [List.forall_mem_cons, ← hready, ← hrest, Bool.and_eq_true]

/-- While the conversion thread is idle, the buffers may be replaced. -/
theorem swap_buffers {k : β → CaptureProg α} (B : β → (Nat → Option Bytes) → Prop)
    (hexec : ∀ w s r u, Knows C true s → captureExec succeeds .swapChain β w o s = some (r, u) →
      ∃ buffers, B r buffers ∧ u = ⟨{ s.processor with bgraBuffers := buffers }, s.log⟩)
    (hk : ∀ r buffers, B r buffers → SwapTriple (C.withBuffers buffers) true (k r) R) :
    SwapTriple C true (.act o k) R := by
  refine Triple.act knows_stable (fun r s ↦ ∃ buffers, Knows (C.withBuffers buffers) true s ∧
    B r buffers) ?_ fun r ↦ Triple.of_exists fun buffers ↦ Triple.of_const fun hr ↦ hk r buffers hr
  intro s hR hA w r u hu
  obtain ⟨buffers, hB, rfl⟩ := hexec w s r u hA hu
  have hidle := hA.idle rfl
  refine ⟨⟨⟨rfl, rfl, fun b hb ↦ ?_, fun h ↦ ⟨h, rfl⟩⟩, { hR.2 with holds := fun p hp ↦ ?_ }⟩,
    buffers, ⟨?_, hA.inside, hA.idle⟩, hB⟩
  · rw [hidle.2] at hb
    cases hb
  · have hnil : p ∈ s.toConvert := hp
    rw [hidle.1] at hnil
    cases hnil
  · rw [← hA.capturing]
    rfl

theorem resetBgraBuffers_account {k : Unit → CaptureProg α} (l : List Nat)
    {buffers : Nat → Option Bytes}
    (hk : ∀ buffers, SwapTriple (C.withBuffers buffers) true (k ()) R) :
    SwapTriple (C.withBuffers buffers) true ((resetBgraBuffers l).bind k) R := by
  induction l generalizing buffers with
  | nil => exact hk buffers
  | cons i l ih =>
      refine swap_buffers (fun _ _ ↦ True) ?_ fun _ _ _ ↦ ih
      intro w s r u _ hu
      obtain ⟨-, q, hq, rfl⟩ := captureExec_some hu
      cases hq
      exact ⟨_, trivial, rfl⟩

/-- No allocation fails. -/
theorem newBgraBuffers_account {k : Bool → CaptureProg α} (l : List Nat)
    {buffers : Nat → Option Bytes}
    (hk : ∀ buffers', (∀ i, i ∈ l ∨ buffers i ≠ none → buffers' i ≠ none) →
      SwapTriple (C.withBuffers buffers') true (k true) R) :
    SwapTriple (C.withBuffers buffers) true ((newBgraBuffers l).bind k) R := by
  induction l generalizing buffers with
  | nil => exact hk buffers fun i h ↦ h.resolve_left nofun
  | cons i l ih =>
      refine swap_buffers (fun ok buffers' ↦ ok = true ∧
        ∀ j, j = i ∨ buffers j ≠ none → buffers' j ≠ none) ?_ fun ok buffers' h ↦ ?_
      · intro w s r u hA hu
        obtain ⟨hallow, q, hq, rfl⟩ := captureExec_some hu
        simp only [CaptureOp.exec, hallow.1] at hq
        cases hq
        have hold : s.processor.bgraBuffers = buffers :=
          congrArg Capturing.bgraBuffers hA.capturing
        refine ⟨_, ⟨rfl, fun j hj ↦ ?_⟩, rfl⟩
        by_cases hji : j = i
        · simp [hji]
        · simpa [hji, hold] using hj
      · obtain ⟨rfl, hnew⟩ := h
        refine ih fun buffers'' hbuffers ↦ hk buffers'' fun j hj ↦ ?_
        rcases hj with hj | hj
        · rcases List.mem_cons.1 hj with rfl | hj
          · exact hbuffers j (.inr (hnew j (.inl rfl)))
          · exact hbuffers j (.inl hj)
        · exact hbuffers j (.inr (hnew j (.inr hj)))

/-- While nothing is in use, the queue may be reset. -/
theorem swap_resetQueue {o : CaptureOp Unit} {k : Unit → CaptureProg α}
    (hcapture : C.captureBuffer = none)
    (hexec : ∀ w s u, Accounted s → InUse s.processor.bgraBufferInUse [] →
      s.processor.bgraQueueCount = 0 → captureExec succeeds .swapChain Unit w o s = some ((), u) →
        ∃ inUse head count, InUse inUse [] ∧ head < kBgraBuffers ∧ count = 0 ∧
          u = ⟨{ s.processor with
            bgraBufferInUse := inUse
            bgraQueueHead := head
            bgraQueueCount := count }, s.log⟩)
    (hk : SwapTriple C true (k ()) R) : SwapTriple C true (.act o k) R := by
  refine swap_act (D := C) true (fun _ ↦ True) ?_ fun _ _ ↦ hk
  intro w s r u hs hA hu
  have hidle := hA.idle rfl
  have hqueued : s.log.queued = [] := (List.append_eq_nil_iff.1 hidle.1).2
  have hnone : s.log.captureBuffer = none :=
    (congrArg Capturing.captureBuffer hA.capturing).trans hcapture
  have hheld : s.held = [] := by simp [Shared.held, hqueued, hidle.2, hnone]
  have hcount : s.processor.bgraQueueCount = 0 := by rw [hs.count, hqueued, List.length_nil]
  obtain ⟨inUse, head, count, hinUse, hhead, rfl, rfl⟩ :=
    hexec w s u hs (hheld ▸ hs.inUse) hcount hu
  refine ⟨trivial, ⟨⟨rfl, rfl, fun b hb ↦ ?_, fun h ↦ ⟨h, rfl⟩⟩,
    { hs with
      count := (congrArg List.length hqueued).symm
      head := hhead
      entries := fun k hk ↦ ?_
      inUse := ?_ }⟩, hA.capturing, hA.inside, hA.idle⟩
  · rw [hidle.2] at hb
    cases hb
  · have hlt : k < s.log.queued.length := hk
    rw [hqueued] at hlt
    cases hlt
  · show InUse inUse s.held
    rw [hheld]
    exact hinUse

/-- The members of the queue are set back. -/
theorem resetQueue_account {k : Unit → CaptureProg α} (hcapture : C.captureBuffer = none)
    (hk : SwapTriple C true (k ()) R) :
    SwapTriple C true (.act .fillBgraBufferInUse fun _ ↦ .act (.writeBgraQueueHead 0) fun _ ↦
      .act (.writeBgraQueueCount 0) k) R := by
  refine swap_resetQueue hcapture ?_ (swap_resetQueue hcapture ?_ (swap_resetQueue hcapture ?_ hk))
  · intro w s u hs _ hcount hu
    obtain ⟨-, q, hq, rfl⟩ := captureExec_some hu
    cases hq
    exact ⟨fun _ ↦ false, _, _, ⟨fun _ _ ↦ ⟨nofun, nofun⟩, .nil, nofun⟩, hs.head, hcount, rfl⟩
  · intro w s u _ hinUse hcount hu
    obtain ⟨-, q, hq, rfl⟩ := captureExec_some hu
    cases hq
    exact ⟨_, 0, _, hinUse, by decide, hcount, rfl⟩
  · intro w s u hs hinUse _ hu
    obtain ⟨-, q, hq, rfl⟩ := captureExec_some hu
    cases hq
    exact ⟨_, _, 0, hinUse, hs.head, rfl, rfl⟩

theorem Knows.mono (h : Knows C true s) : Knows C idle s :=
  ⟨h.capturing, h.inside, fun _ ↦ h.idle rfl⟩

/-- `EnsureBgraBuffers` keeps the buffers, or replaces them while the conversion thread is
idle. -/
theorem ensureBgraBuffers_account {m : Staging} {width height : Nat}
    {k : Bool × Staging → CaptureProg α} (hsize : width * height * 4 ≠ 0)
    (hjoinable : C.joinable = true) (hcapture : C.captureBuffer = none)
    (hk : ∀ buffers bytes, BuffersReady buffers →
      SwapTriple (C.withBuffers buffers) idle (k (true, { m with bgraBufferBytes := bytes })) R) :
    SwapTriple C idle ((ensureBgraBuffers m width height).bind k) R := by
  unfold ensureBgraBuffers
  rw [if_neg hsize, Prog.bind_eq, Prog.bind_assoc]
  refine bgraBuffersReady_account _ fun ready hready ↦ ?_
  simp only [Bool.and_eq_true, decide_eq_true_eq]
  split
  · next h =>
    refine hk C.bgraBuffers m.bgraBufferBytes fun i hi ↦ ?_
    exact hready.1 h.1 i (List.mem_range.2 hi)
  refine swap_wait hjoinable ?_
  simp only [Prog.bind_eq, Prog.ret_bind, Prog.bind_assoc]
  refine resetBgraBuffers_account (C := C) _ fun buffers ↦ ?_
  refine resetQueue_account (C := C.withBuffers buffers) hcapture ?_
  refine newBgraBuffers_account (C := C) _ fun buffers' hnew ↦ ?_
  refine (hk buffers' (width * height * 4) fun i hi ↦ ?_).conseq (fun _ h ↦ h.mono) fun _ _ h ↦ h
  exact hnew i (.inl (List.mem_range.2 hi))

/-- What is known when the thread holds a buffer, or holds none. -/
def Capturing.holding (C : Capturing) (captureBuffer : Option Nat) : Capturing :=
  { C with captureBuffer }

theorem acquireBgraBuffer_account {k : Option Nat → CaptureProg α} (hstop : C.bgraStop = false)
    (hcapture : C.captureBuffer = none)
    (hk : ∀ b < kBgraBuffers, SwapTriple (C.holding (some b)) idle (k (some b)) R) :
    SwapTriple C idle (.act .acquireBgraBuffer k) R := by
  refine Triple.act knows_stable (fun r s ↦ ∃ b, Knows (C.holding (some b)) idle s ∧
    r = some b ∧ b < kBgraBuffers) ?_ fun r ↦ Triple.of_exists fun b ↦
      Triple.of_const fun ⟨hr, hb⟩ ↦ hr ▸ hk b hb
  intro s hR hA w r u hu
  obtain ⟨-, q, hq, rfl⟩ := captureExec_some hu
  have hgo : (s.processor.bgraStop || s.processor.bgraFailed) = false := by
    rw [hR.2.failed, Bool.or_false]
    exact (congrArg Capturing.bgraStop hA.capturing).trans hstop
  have hnone : s.log.captureBuffer = none :=
    (congrArg Capturing.captureBuffer hA.capturing).trans hcapture
  simp only [CaptureOp.exec, hgo, Bool.false_eq_true, if_false] at hq
  cases hfree : s.processor.freeBuffer with
  | none =>
      rw [hfree] at hq
      cases hq
  | some b =>
      rw [hfree] at hq
      cases hq
      have hb : b < kBgraBuffers := List.mem_range.1 (List.mem_of_find?_eq_some hfree)
      have hunused : s.processor.bgraBufferInUse b = false := by
        simpa using List.find?_some hfree
      refine ⟨⟨⟨rfl, rfl, fun _ _ ↦ ⟨rfl, rfl⟩, fun h ↦ ⟨h, rfl⟩⟩, { hR.2 with inUse := ?_ }⟩, b,
        ⟨?_, hA.inside, hA.idle⟩, rfl, hb⟩
      · apply (hR.2.inUse.acquire hb hunused).perm
        show (b :: (s.log.queued.map (·.1) ++ s.log.conversionBuffer.toList ++
          s.log.captureBuffer.toList)).Perm
            (s.log.queued.map (·.1) ++ s.log.conversionBuffer.toList ++ [b])
        rw [hnone, Option.toList_none, List.append_nil]
        exact (List.perm_append_singleton b _).symm
      · rw [← hA.capturing]
        rfl

theorem releaseBgraBuffer_account {k : Unit → CaptureProg α} (hcapture : C.captureBuffer = some b)
    (hk : SwapTriple (C.holding none) idle (k ()) R) :
    SwapTriple C idle (.act (.releaseBgraBuffer b) k) R := by
  refine swap_act (D := C.holding none) _ (fun _ ↦ True) ?_ fun _ _ ↦ hk
  intro w s r u hs hA hu
  obtain ⟨-, q, hq, rfl⟩ := captureExec_some hu
  cases hq
  have hsome : s.log.captureBuffer = some b :=
    (congrArg Capturing.captureBuffer hA.capturing).trans hcapture
  refine ⟨trivial, ⟨⟨rfl, rfl, fun _ _ ↦ ⟨rfl, rfl⟩, fun h ↦ ⟨h, rfl⟩⟩, { hs with inUse := ?_ }⟩,
    ?_, hA.inside, hA.idle⟩
  · apply InUse.release
    apply hs.inUse.perm
    show (s.log.queued.map (·.1) ++ s.log.conversionBuffer.toList ++
      s.log.captureBuffer.toList).Perm
        (b :: (s.log.queued.map (·.1) ++ s.log.conversionBuffer.toList ++ []))
    rw [hsome, Option.toList_some, List.append_nil]
    exact List.perm_append_singleton b _
  · rw [← hA.capturing]
    rfl

/-- The buffer that the swap-chain thread holds is nobody else's. -/
theorem Accounted.captureBuffer_ne (hs : Accounted s) (hb : s.log.captureBuffer = some b) :
    s.log.conversionBuffer ≠ some b ∧ ∀ p ∈ s.toConvert, p.1 ≠ b := by
  have hnodup := hs.inUse.nodup
  rw [Shared.held, hb, Option.toList_some, List.nodup_append] at hnodup
  have hne (c : Nat) (hc : c ∈ s.log.queued.map (·.1) ++ s.log.conversionBuffer.toList) : c ≠ b :=
    hnodup.2.2 c hc b (List.mem_singleton.2 rfl)
  have hconversion (c : Nat) (hc : s.log.conversionBuffer = some c) : c ≠ b :=
    hne c (List.mem_append_right _ (by simp [hc]))
  refine ⟨fun h ↦ hconversion b h rfl, fun p hp ↦ ?_⟩
  rcases List.mem_append.1 hp with hp | hp
  · apply hconversion
    exact hs.conversionBuffer p (Option.mem_toList.1 hp)
  · exact hne _ (List.mem_append_left _ (List.mem_map_of_mem hp))

/-! ## The copy -/

/-- What is known when a buffer holds some bytes. -/
def Capturing.withBuffer (C : Capturing) (b : Nat) (bytes : Bytes) : Capturing :=
  C.withBuffers (Function.update C.bgraBuffers b (some bytes))

theorem writePixel_account {k : Unit → CaptureProg α} {bytes : Bytes} {n : Nat} {value : UInt8}
    (hcapture : C.captureBuffer = some b)
    (hk : SwapTriple (C.withBuffer b (Function.update bytes n value)) idle (k ()) R) :
    SwapTriple (C.withBuffer b bytes) idle (.act (.writePixel b n value) k) R := by
  refine swap_act (D := C.withBuffer b (Function.update bytes n value)) _ (fun _ ↦ True) ?_
    fun _ _ ↦ hk
  intro w s r u hs hA hu
  obtain ⟨-, q, hq, rfl⟩ := captureExec_some hu
  cases hq
  have hbuffers : s.processor.bgraBuffers = Function.update C.bgraBuffers b (some bytes) :=
    congrArg Capturing.bgraBuffers hA.capturing
  have hsome : s.log.captureBuffer = some b :=
    (congrArg Capturing.captureBuffer hA.capturing).trans hcapture
  obtain ⟨hconversion, hto⟩ := hs.captureBuffer_ne hsome
  have hother (c : Nat) (hc : c ≠ b) (x : Option Bytes) :
      Function.update s.processor.bgraBuffers b x c = s.processor.bgraBuffers c :=
    Function.update_of_ne hc ..
  refine ⟨trivial, ⟨⟨rfl, rfl, fun c hc ↦ ⟨hother c ?_ _, rfl⟩, fun h ↦ ⟨h, rfl⟩⟩,
    { hs with holds := fun p hp ↦ ?_ }⟩, ?_, hA.inside, hA.idle⟩
  · rintro rfl
    exact hconversion hc
  · obtain ⟨content, hcontent, hpixels⟩ := hs.holds p hp
    exact ⟨content, (hother p.1 (hto p hp) _).trans hcontent, hpixels⟩
  · rw [hbuffers]
    simp only [Function.update_self, Option.map_some, Function.update_idem]
    show { s.capturing with
      bgraBuffers := Function.update C.bgraBuffers b (some (Function.update bytes n value)) } = _
    rw [hA.capturing]
    rfl

/-- The bytes after a `memcpy`. -/
def copied (bytes source : Bytes) (count to' from' : Nat) : Bytes := fun n ↦
  if to' ≤ n ∧ n < to' + count then source (from' + (n - to')) else bytes n

theorem copied_succ (bytes source : Bytes) (count to' from' : Nat) :
    copied (Function.update bytes to' (source from')) source count (to' + 1) (from' + 1) =
      copied bytes source (count + 1) to' from' := by
  funext n
  unfold copied
  by_cases hn : n = to'
  · subst hn
    rw [if_neg (by omega), if_pos (by omega), Function.update_self, Nat.sub_self, Nat.add_zero]
  · rw [Function.update_of_ne hn]
    by_cases hin : to' ≤ n ∧ n < to' + (count + 1)
    · rw [if_pos hin, if_pos (by omega), show from' + 1 + (n - (to' + 1)) = from' + (n - to') by
        omega]
    · rw [if_neg hin, if_neg (by omega)]

theorem copyBytes_account {k : Unit → CaptureProg α} {bytes source : Bytes} {count to' from' : Nat}
    (hcapture : C.captureBuffer = some b)
    (hk : SwapTriple (C.withBuffer b (copied bytes source count to' from')) idle (k ()) R) :
    SwapTriple (C.withBuffer b bytes) idle ((copyBytes b source count to' from').bind k) R := by
  induction count generalizing bytes to' from' with
  | zero =>
      have hzero : copied bytes source 0 to' from' = bytes := by
        funext n
        exact if_neg (by omega)
      rw [hzero] at hk
      exact hk
  | succ count ih =>
      refine writePixel_account hcapture (ih ?_)
      rw [copied_succ]
      exact hk

/-- A mapped texture shows its pixels row by row. -/
theorem mappedData_row {pixels padding : Bytes} {rowBytes rowPitch row n : Nat}
    (hpitch : rowBytes ≤ rowPitch) (hn : n < rowBytes) :
    mappedData pixels rowBytes rowPitch padding (row * rowPitch + n) =
      pixels (row * rowBytes + n) := by
  have hlt : n < rowPitch := Nat.lt_of_lt_of_le hn hpitch
  have hmod : (row * rowPitch + n) % rowPitch = n := by
    rw [Nat.add_comm, Nat.add_mul_mod_self_right, Nat.mod_eq_of_lt hlt]
  have hdiv : (row * rowPitch + n) / rowPitch = row := by
    rw [Nat.add_comm, Nat.add_mul_div_right _ _ (Nat.zero_lt_of_lt hlt), Nat.div_eq_of_lt hlt,
      Nat.zero_add]
  rw [mappedData, hmod, hdiv, if_pos hn]

theorem mappedData_pixel {pixels padding : Bytes} {rowBytes n : Nat} (h : 0 < rowBytes) :
    mappedData pixels rowBytes rowBytes padding n = pixels n := by
  rw [mappedData, if_pos (Nat.mod_lt n h), Nat.mul_comm, Nat.div_add_mod]

/-- The rows are copied from the first one on. -/
theorem copyRows_account {k : Unit → CaptureProg α} {bytes pixels padding : Bytes}
    {rowBytes rowPitch : Nat} (count row : Nat) (hpitch : rowBytes ≤ rowPitch)
    (hcapture : C.captureBuffer = some b) (hbytes : ∀ n < row * rowBytes, bytes n = pixels n)
    (hk : ∀ bytes, (∀ n < (row + count) * rowBytes, bytes n = pixels n) →
      SwapTriple (C.withBuffer b bytes) idle (k ()) R) :
    SwapTriple (C.withBuffer b bytes) idle
      ((copyRows b ⟨rowPitch, mappedData pixels rowBytes rowPitch padding⟩ rowBytes count
        row).bind k)
      R := by
  induction count generalizing bytes row with
  | zero => exact hk bytes hbytes
  | succ count ih =>
      rw [copyRows, Prog.bind_eq, Prog.bind_assoc]
      refine copyBytes_account hcapture (ih (row + 1) ?_ ?_)
      · intro n hn
        unfold copied
        rw [Nat.add_mul, Nat.one_mul] at hn
        split
        · next hin =>
          show mappedData pixels rowBytes rowPitch padding
            (row * rowPitch + (n - row * rowBytes)) = _
          rw [mappedData_row hpitch (by omega), Nat.add_sub_cancel' hin.1]
        · next hout => exact hbytes n (by omega)
      · intro bytes hbytes
        exact hk bytes fun n hn ↦ hbytes n (by rwa [Nat.add_right_comm, Nat.add_assoc])

/-- The copy of a mapped texture shows its pixels. -/
theorem copyMapped_account {k : Unit → CaptureProg α} {bytes pixels padding : Bytes}
    {rowBytes rowPitch height : Nat} (hpitch : rowBytes ≤ rowPitch) (hrow : 0 < rowBytes)
    (hcapture : C.captureBuffer = some b)
    (hk : ∀ bytes, (∀ n < rowBytes * height, bytes n = pixels n) →
      SwapTriple (C.withBuffer b bytes) idle (k ()) R) :
    SwapTriple (C.withBuffer b bytes) idle
      ((copyMapped b ⟨rowPitch, mappedData pixels rowBytes rowPitch padding⟩ rowBytes
        height).bind k)
      R := by
  unfold copyMapped
  split
  · next heq =>
    have heq : rowPitch = rowBytes := heq
    subst heq
    refine copyBytes_account hcapture (hk _ fun n hn ↦ ?_)
    unfold copied
    rw [if_pos ⟨Nat.zero_le n, by omega⟩]
    show mappedData pixels rowPitch rowPitch padding (0 + (n - 0)) = _
    rw [mappedData_pixel hrow, Nat.zero_add, Nat.sub_zero]
  · refine copyRows_account height 0 hpitch hcapture (by omega) fun bytes hbytes ↦
      hk bytes fun n hn ↦ ?_
    apply hbytes
    rwa [Nat.zero_add, Nat.mul_comm]

/-- What is known when a frame has left the staging textures. -/
def Capturing.unstaged (C : Capturing) (inStaging : List Frame) : Capturing :=
  { C with inStaging }

/-- A frame goes behind those that are queued. -/
theorem entries_enqueue {queue : Nat → PendingBgraFrame} {head : Nat} {queued : List (Nat × Frame)}
    {p : Nat × Frame} (hspace : queued.length < kBgraBuffers)
    (h : ∀ k (hk : k < queued.length), queue ((head + k) % kBgraBuffers) = queueEntry queued[k])
    (k : Nat) (hk : k < (queued ++ [p]).length) :
    Function.update queue ((head + queued.length) % kBgraBuffers) (queueEntry p)
      ((head + k) % kBgraBuffers) = queueEntry (queued ++ [p])[k] := by
  rw [List.length_append, List.length_singleton] at hk
  rcases Nat.lt_succ_iff_lt_or_eq.1 hk with hlt | rfl
  · have hne : (head + k) % kBgraBuffers ≠ (head + queued.length) % kBgraBuffers := by
      unfold kBgraBuffers at *
      omega
    rw [Function.update_of_ne hne, h k hlt]
    simp only [List.getElem_append_left hlt]
  · rw [Function.update_self]
    simp only [List.getElem_concat_length]

/-- The frame is queued, with the buffer that holds it. -/
theorem enqueueBgraFrame_account {k : Bool → CaptureProg α} {rest : List Frame}
    (hcapture : C.captureBuffer = some b) (hstaging : C.inStaging = f :: rest)
    (hstop : C.bgraStop = false) (hring : C.frameRing ≠ none) (hholds : Holds C.bgraBuffers b f)
    (hk : SwapTriple ((C.unstaged rest).holding none) false (k true) R) :
    SwapTriple C idle (.act (.enqueueBgraFrame (queueEntry (b, f))) k) R := by
  refine swap_act (D := (C.unstaged rest).holding none) false (· = true) ?_
    fun r hr ↦ hr ▸ hk
  intro w s r u hs hA hu
  obtain ⟨-, q, hq, rfl⟩ := captureExec_some hu
  have hsome : s.log.captureBuffer = some b :=
    (congrArg Capturing.captureBuffer hA.capturing).trans hcapture
  have hin : s.log.inStaging = f :: rest :=
    (congrArg Capturing.inStaging hA.capturing).trans hstaging
  have hstopped : s.processor.bgraStop = false :=
    (congrArg Capturing.bgraStop hA.capturing).trans hstop
  have hbuffers : s.processor.bgraBuffers = C.bgraBuffers :=
    congrArg Capturing.bgraBuffers hA.capturing
  have hspace : s.log.queued.length < kBgraBuffers := by
    have hle := hs.inUse.length_le
    simp only [Shared.held, hsome, List.length_append, List.length_map, Option.toList_some,
      List.length_singleton] at hle
    omega
  have hgo : (s.processor.bgraStop || s.processor.bgraFailed ||
      decide (kBgraBuffers ≤ s.processor.bgraQueueCount)) = false := by
    rw [hs.failed, hstopped, hs.count]
    simpa using hspace
  simp only [CaptureOp.exec, hgo, Bool.false_eq_true, if_false] at hq
  cases hq
  have hto : s.toConvert ++ [(b, f)] = s.log.converting.toList ++ (s.log.queued ++ [(b, f)]) :=
    List.append_assoc ..
  have hlog : s.log.step .swapChain _ (.enqueueBgraFrame (queueEntry (b, f))) true s.processor =
      { s.log with
        queued := s.log.queued ++ [(b, f)]
        inStaging := rest
        captureBuffer := none } := by
    simp [Log.step, hin, queueEntry]
  rw [hlog]
  refine ⟨rfl, ⟨⟨rfl, rfl, fun _ _ ↦ ⟨rfl, rfl⟩, fun h ↦ ?_⟩,
    { hs with
      account := ?_
      count := ?_
      entries := fun j hj ↦ ?_
      inUse := ?_
      holds := fun p hp ↦ ?_
      insideSwapChain := fun h ↦ ?_
      ended := fun h ↦ ?_
      ring := fun _ ↦ ?_ }⟩, ?_, hA.inside, fun h ↦ by cases h⟩
  · rw [hstopped] at h
    cases h
  · show s.log.captured = s.log.published.map (·.frame) ++
      (s.log.converting.toList ++ (s.log.queued ++ [(b, f)])).map (·.2) ++ rest
    rw [hs.account, ← hto, hin]
    simp
  · show s.processor.bgraQueueCount + 1 = (s.log.queued ++ [(b, f)]).length
    rw [hs.count, List.length_append, List.length_singleton]
  · have hentry := entries_enqueue (p := (b, f)) hspace hs.entries j hj
    rw [← hs.count] at hentry
    exact hentry
  · apply hs.inUse.perm
    show (s.log.queued.map (·.1) ++ s.log.conversionBuffer.toList ++
      s.log.captureBuffer.toList).Perm
        ((s.log.queued ++ [(b, f)]).map (·.1) ++ s.log.conversionBuffer.toList ++ [])
    rw [hsome, List.map_append, List.append_nil, List.append_assoc, List.append_assoc]
    exact List.Perm.append_left _ List.perm_append_comm
  · have hp : p ∈ s.toConvert ++ [(b, f)] := hto ▸ hp
    rcases List.mem_append.1 hp with hp | hp
    · exact hs.holds p hp
    · rw [List.mem_singleton.1 hp]
      exact hbuffers ▸ hholds
  · have hfalse : s.log.inside .swapChain = true := h
    rw [hA.inside] at hfalse
    cases hfalse
  · have hfalse := (hs.ended h).2
    rw [hstopped] at hfalse
    cases hfalse
  · rw [← hA.capturing] at hring
    exact hring
  · rw [← hA.capturing]
    rfl

/-! ## A frame leaves the staging textures -/

/-- While the conversion thread is idle, the swap-chain thread publishes a frame itself. -/
theorem publish_account {k : Bool → CaptureProg α} (hb : b < kBgraBuffers)
    (hcapture : C.captureBuffer = some b) (hstaging : C.inStaging = [f])
    (hring : C.frameRing ≠ none) (hholds : Holds C.bgraBuffers b f)
    (hk : SwapTriple (C.unstaged []) true (k true) R) :
    SwapTriple C true ((publishBgraFrame (queueEntry (b, f))).bind k) R := by
  refine swap_bind (fun _ : Unit ↦ C.unstaged []) true (fun ok _ ↦ ok = true) ?_
    fun ok _ hok ↦ hok ▸ hk
  refine (publishBgraFrame_account (i := .swapChain) (C := C) hb).conseq
    (fun s h ↦ ?_) fun ok s h ↦ ?_
  · have hC := h.capturing
    refine ⟨⟨h.idle rfl, ?_, ?_, ?_⟩, h.inside, ?_, fun _ ↦ hC⟩
    · exact (congrArg Capturing.captureBuffer hC).trans hcapture
    · exact (congrArg Capturing.inStaging hC).trans hstaging
    · rw [← hC] at hring
      exact hring
    · rw [← hC] at hholds
      exact hholds
  · exact ⟨(), ⟨h.2.1, h.2.2.1, fun _ ↦ h.2.2.2⟩, h.1⟩

/-- A frame is in a staging texture. -/
structure Staged (C : Capturing) (frame : PendingStagingFrame) (f : Frame) : Prop where
  index : frame.stagingIndex < kStagingTextures
  texture : ∃ pixels, C.stagingTextures frame.stagingIndex = some pixels ∧
    f = ⟨frame.width, frame.height, frame.presentDisplayQpcTime,
      (List.range (4 * frame.width * frame.height)).map pixels⟩
  size : frame.width * frame.height * 4 ≠ 0

theorem map_account {k : Option MappedSubresource → CaptureProg α} {i rowBytes : Nat}
    {pixels : Bytes} (hpixels : C.stagingTextures i = some pixels)
    (hk : ∀ rowPitch padding, rowBytes ≤ rowPitch →
      SwapTriple C idle (k (some ⟨rowPitch, mappedData pixels rowBytes rowPitch padding⟩)) R) :
    SwapTriple C idle (.act (.map i rowBytes) k) R := by
  refine swap_read (fun r ↦ ∃ rowPitch padding, rowBytes ≤ rowPitch ∧
    r = some ⟨rowPitch, mappedData pixels rowBytes rowPitch padding⟩) ?_ ?_
  · intro w s r u _ hA hu
    obtain ⟨hallow, q, hq, rfl⟩ := captureExec_some hu
    have hsome : s.processor.stagingTextures i = some pixels := by
      rw [← hA.capturing] at hpixels
      exact hpixels
    simp only [CaptureOp.exec, hsome, hallow.1, if_true] at hq
    split at hq
    · next hpitch =>
      cases hq
      exact ⟨⟨_, _, hpitch, rfl⟩, rfl⟩
    · cases hq
  · rintro _ ⟨rowPitch, padding, hpitch, rfl⟩
    exact hk rowPitch padding hpitch

/-- `MapAndQueueStagingFrame` publishes the first frame of a size, and queues the later
ones. -/
theorem mapAndQueueStagingFrame_account {m : Staging} {frame : PendingStagingFrame}
    {rest : List Frame} {k : Bool × Staging → CaptureProg α} (hframe : Staged C frame f)
    (hstaging : C.inStaging = f :: rest) (hcapture : C.captureBuffer = none)
    (hjoinable : C.joinable = true) (hstop : C.bgraStop = false) (hring : C.frameRing ≠ none)
    (hfirst : m.hasPublishedFrame = false → idle = true ∧ rest = [])
    (hk : ∀ buffers bytes, SwapTriple ((C.withBuffers buffers).unstaged rest) (!m.hasPublishedFrame)
      (k (true, { m with bgraBufferBytes := bytes })) R) :
    SwapTriple C idle ((mapAndQueueStagingFrame m frame).bind k) R := by
  obtain ⟨pixels, hpixels, hf⟩ := hframe.texture
  unfold mapAndQueueStagingFrame
  rw [if_neg (Nat.not_le.2 hframe.index)]
  refine swap_read (o := .readStagingTexture frame.stagingIndex) (· = true) ?_ ?_
  · intro w s r u _ hA hu
    obtain ⟨-, q, hq, rfl⟩ := captureExec_some hu
    cases hq
    rw [← hA.capturing] at hpixels
    exact ⟨Option.isSome_iff_exists.2 ⟨pixels, hpixels⟩, rfl⟩
  rintro _ rfl
  simp only [Prog.bind_eq, Prog.ret_bind, Bool.not_true, Bool.false_eq_true, if_false,
    Prog.bind_assoc]
  refine ensureBgraBuffers_account hframe.size hjoinable hcapture fun buffers bytes hready ↦ ?_
  refine acquireBgraBuffer_account (C := C.withBuffers buffers) hstop hcapture fun b hb ↦ ?_
  refine map_account (C := (C.withBuffers buffers).holding (some b)) hpixels
    fun rowPitch padding hpitch ↦ ?_
  obtain ⟨old, hold⟩ := Option.ne_none_iff_exists'.1 (hready b hb)
  have hsame : ((C.withBuffers buffers).holding (some b)).withBuffer b old =
      (C.withBuffers buffers).holding (some b) := by
    have hupdate : Function.update buffers b (some old) = buffers := by
      rw [← hold, Function.update_eq_self]
    show { (C.withBuffers buffers).holding (some b) with
      bgraBuffers := Function.update buffers b (some old) } = _
    rw [hupdate]
    rfl
  rw [← hsame]
  simp only [Prog.ret_bind, Prog.bind_assoc]
  have hrow : 0 < frame.width * 4 := by
    have hsize := hframe.size
    by_contra hzero
    apply hsize
    rw [Nat.mul_right_comm, Nat.eq_zero_of_not_pos hzero, Nat.zero_mul]
  refine copyMapped_account hpitch hrow rfl fun copy hcopy ↦ ?_
  have hholds :
      Holds (((C.withBuffers buffers).holding (some b)).withBuffer b copy).bgraBuffers b f := by
    refine ⟨copy, Function.update_self .., ?_⟩
    rw [hf]
    apply List.map_congr_left
    intro n hn
    refine (hcopy n ?_).symm
    rw [Nat.mul_comm frame.width 4]
    exact List.mem_range.1 hn
  have hentry :
      queueEntry (b, f) = ⟨b, frame.width, frame.height, frame.presentDisplayQpcTime⟩ := by
    rw [hf]
    rfl
  rw [← hentry]
  have hend (rest : List Frame) :
      ((((C.withBuffers buffers).holding (some b)).withBuffer b copy).unstaged rest).holding none =
        (C.withBuffers (Function.update buffers b (some copy))).unstaged rest := by
    cases C
    cases hcapture
    rfl
  by_cases hpublished : m.hasPublishedFrame = false
  · obtain ⟨rfl, rfl⟩ := hfirst hpublished
    have hidle : (!m.hasPublishedFrame) = true := by rw [hpublished, Bool.not_false]
    rw [hidle] at hk
    rw [if_pos hidle, Prog.bind_assoc]
    refine publish_account (C := ((C.withBuffers buffers).holding (some b)).withBuffer b copy) hb
      rfl
      hstaging hring hholds ?_
    refine releaseBgraBuffer_account rfl ?_
    rw [hend]
    exact hk _ bytes
  · have hbusy : (!m.hasPublishedFrame) = false := by
      rw [Bool.not_eq_false] at hpublished
      rw [hpublished, Bool.not_true]
    rw [hbusy] at hk
    rw [if_neg (by rw [hbusy]; exact Bool.false_ne_true)]
    refine enqueueBgraFrame_account
      (C := ((C.withBuffers buffers).holding (some b)).withBuffer b copy) rfl hstaging hstop hring
        hholds ?_
    rw [hend]
    exact hk _ bytes

/-! ## One surface after the other -/

/-- What is known between two surfaces: at most one frame is left in the staging textures,
and it is not in the one that is written next. -/
structure Between (surfaces : List (Surface × Nat)) (captured : List Frame) (m : Staging)
    (C : Capturing) : Prop where
  surfaces : C.surfaces = surfaces
  captured : C.captured = captured
  joinable : C.joinable = true
  stop : C.bgraStop = false
  captureBuffer : C.captureBuffer = none
  handles : HandlesOpen C
  writeIndex : m.stagingWriteIndex < kStagingTextures
  pending : m.hasPendingStagingFrame = true → m.hasPublishedFrame = true ∧ C.frameRing ≠ none ∧
    TexturesReady C.stagingTextures ∧
      m.pendingStagingFrame.stagingIndex ≠ m.stagingWriteIndex ∧
        ∃ f, C.inStaging = [f] ∧ Staged C m.pendingStagingFrame f
  clear : m.hasPendingStagingFrame = false → C.inStaging = []

variable {surfaces : List (Surface × Nat)} {captured : List Frame} {m : Staging}
  {surface : Surface} {presentDisplayQpcTime : Nat}

/-- What the thread knows between two surfaces, of some state of its own part. -/
def Captures (surfaces : List (Surface × Nat)) (captured : List Frame) (m : Staging) (s : Shared) :
    Prop :=
  ∃ C, Knows C (!m.hasPublishedFrame) s ∧ Between surfaces captured m C

theorem Between.opened (h : Between surfaces captured m C) (v : Nat) :
    Between surfaces captured m (C.opened v) :=
  { h with
    handles := fun _ ↦ ⟨rfl, rfl⟩
    pending := fun hpending ↦ by
      obtain ⟨hpublished, -, hready, hindex, f, hstaging, hstaged⟩ := h.pending hpending
      exact ⟨hpublished, nofun, hready, hindex, f, hstaging, { hstaged with }⟩ }

theorem Between.withBuffers (h : Between surfaces captured m C) (buffers : Nat → Option Bytes)
    (bytes : Nat) :
    Between surfaces captured { m with bgraBufferBytes := bytes } (C.withBuffers buffers) :=
  { h with
    pending := fun hpending ↦ by
      obtain ⟨hpublished, hring, hready, hindex, f, hstaging, hstaged⟩ := h.pending hpending
      exact ⟨hpublished, hring, hready, hindex, f, hstaging, { hstaged with }⟩ }

/-- The pending frame is queued. -/
theorem Between.flush {k : Bool × Staging → CaptureProg α} (h : Between surfaces captured m C)
    (hpending : m.hasPendingStagingFrame = true)
    (hk : ∀ buffers bytes, Between surfaces captured
        { m with bgraBufferBytes := bytes, hasPendingStagingFrame := false }
        ((C.withBuffers buffers).unstaged []) →
      SwapTriple ((C.withBuffers buffers).unstaged []) (!m.hasPublishedFrame)
        (k (true, { m with bgraBufferBytes := bytes })) R) :
    SwapTriple C (!m.hasPublishedFrame)
      ((mapAndQueueStagingFrame m m.pendingStagingFrame).bind k) R := by
  obtain ⟨hpublished, hring, hready, hindex, f, hstaging, hstaged⟩ := h.pending hpending
  refine mapAndQueueStagingFrame_account hstaged hstaging h.captureBuffer h.joinable h.stop hring
    (fun hfirst ↦ ?_) fun buffers bytes ↦ hk buffers bytes ?_
  · rw [hpublished] at hfirst
    cases hfirst
  · exact { h with pending := nofun, clear := fun _ ↦ rfl }

/-- A surface of another size flushes the pending frame. -/
theorem flushResized_account {k : Bool × Staging → CaptureProg α}
    (h : Between surfaces captured m C)
    (hk : ∀ m' D, Between surfaces captured m' D → D.frameRing = C.frameRing →
      (m'.hasPendingStagingFrame = true →
        m'.stagingWidth = surface.width ∧ m'.stagingHeight = surface.height) →
      SwapTriple D (!m'.hasPublishedFrame) (k (true, m')) R) :
    SwapTriple C (!m.hasPublishedFrame) ((flushResized m surface).bind k) R := by
  unfold flushResized
  split
  · next hresized =>
    rw [Bool.and_eq_true] at hresized
    rw [Prog.bind_eq, Prog.bind_assoc]
    refine h.flush hresized.1 fun buffers bytes hbetween ↦ ?_
    exact hk { m with bgraBufferBytes := bytes, hasPendingStagingFrame := false } _ hbetween rfl
      nofun
  · next hsame =>
    refine hk m C h rfl fun hpending ↦ ?_
    simpa [hpending] using hsame

/-- The textures have the size of the surface, and no frame is lost. -/
theorem Between.resize {k : Bool × Staging → CaptureProg α} (h : Between surfaces captured m C)
    {width height : Nat} (hsame : m.hasPendingStagingFrame = true →
      m.stagingWidth = width ∧ m.stagingHeight = height)
    (hk : ∀ m' D, Between surfaces captured m' D → D.frameRing = C.frameRing →
      TexturesReady D.stagingTextures → SwapTriple D (!m'.hasPublishedFrame) (k (true, m')) R) :
    SwapTriple C (!m.hasPublishedFrame) ((ensureStagingTextures m width height).bind k) R := by
  refine ensureStagingTextures_account h.joinable (fun hready _ _ ↦ hk m C h rfl hready)
    fun hchanged textures htextures ↦ ?_
  have hclear : m.hasPendingStagingFrame = false := by
    by_contra hpending
    rw [Bool.not_eq_false] at hpending
    exact hchanged ⟨(h.pending hpending).2.2.1, hsame hpending⟩
  refine hk (m.resized width height) _ ?_ rfl htextures
  exact
    { h with
      writeIndex := show 0 < kStagingTextures by decide
      pending := nofun
      clear := fun _ ↦ h.clear hclear }

/-- What is known when a surface was copied to a texture. -/
def Capturing.copy (C : Capturing) (i : Nat) (surface : Surface) (presentDisplayQpcTime : Nat) :
    Capturing :=
  { C with
    stagingTextures := Function.update C.stagingTextures i (some surface.pixels)
    captured := C.captured ++ [surface.frame presentDisplayQpcTime]
    inStaging := C.inStaging ++ [surface.frame presentDisplayQpcTime] }

theorem copyResource_account {k : Unit → CaptureProg α} {i : Nat}
    (hk : SwapTriple (C.copy i surface presentDisplayQpcTime) idle (k ()) R) :
    SwapTriple C idle (.act (.copyResource i surface presentDisplayQpcTime) k) R := by
  refine swap_act (D := C.copy i surface presentDisplayQpcTime) _ (fun _ ↦ True) ?_ fun _ _ ↦ hk
  intro w s r u hs hA hu
  obtain ⟨-, q, hq, rfl⟩ := captureExec_some hu
  cases hq
  refine ⟨trivial, ⟨⟨rfl, rfl, fun _ _ ↦ ⟨rfl, rfl⟩, fun h ↦ ⟨h, rfl⟩⟩,
    { hs with account := ?_ }⟩, ?_, hA.inside, hA.idle⟩
  · show s.log.captured ++ [surface.frame presentDisplayQpcTime] =
      s.log.published.map (·.frame) ++ s.toConvert.map (·.2) ++
        (s.log.inStaging ++ [surface.frame presentDisplayQpcTime])
    rw [hs.account, List.append_assoc]
  · rw [← hA.capturing]
    rfl

/-- The frame that was copied is in its texture. -/
theorem staged_copy {i t : Nat} (hi : i < kStagingTextures) (haccepted : surface.accepted) :
    Staged (C.copy i surface t) ⟨i, surface.width, surface.height, t⟩ (surface.frame t) where
  index := hi
  texture := ⟨surface.pixels, Function.update_self .., rfl⟩
  size := by
    obtain ⟨-, hwidth, hheight, -⟩ := haccepted
    exact Nat.mul_ne_zero (Nat.mul_ne_zero hwidth hheight) (by decide)

/-- A frame in another texture stays in it. -/
theorem Staged.copy {i t : Nat} {pending : PendingStagingFrame} {f : Frame}
    (h : Staged C pending f) (hne : pending.stagingIndex ≠ i) :
    Staged (C.copy i surface t) pending f := by
  obtain ⟨pixels, hpixels, hf⟩ := h.texture
  exact ⟨h.index, ⟨pixels, (Function.update_of_ne hne ..).trans hpixels, hf⟩, h.size⟩

/-- The frame that was copied is pending. -/
theorem Between.pend (h : Between surfaces captured m C) (hring : C.frameRing ≠ none)
    (hready : TexturesReady C.stagingTextures) (haccepted : surface.accepted)
    (hpublished : m.hasPublishedFrame = true) (presentDisplayQpcTime : Nat)
    (buffers : Nat → Option Bytes) (bytes : Nat) :
    Between surfaces (captured ++ [surface.frame presentDisplayQpcTime])
      { m with
        stagingWriteIndex := (m.stagingWriteIndex + 1) % kStagingTextures
        bgraBufferBytes := bytes
        pendingStagingFrame :=
          ⟨m.stagingWriteIndex, surface.width, surface.height, presentDisplayQpcTime⟩
        hasPendingStagingFrame := true }
      (((C.copy m.stagingWriteIndex surface presentDisplayQpcTime).withBuffers buffers).unstaged
        [surface.frame presentDisplayQpcTime]) := by
  have hstaged := staged_copy (C := C) (t := presentDisplayQpcTime) h.writeIndex haccepted
  have hother : m.stagingWriteIndex ≠ (m.stagingWriteIndex + 1) % kStagingTextures := by
    have hlt := h.writeIndex
    unfold kStagingTextures at *
    omega
  exact
    { h with
      captured := congrArg (· ++ _) h.captured
      writeIndex := Nat.mod_lt _ (by decide)
      pending := fun _ ↦
        ⟨hpublished, hring, hready.update m.stagingWriteIndex surface.pixels, hother,
          surface.frame presentDisplayQpcTime, rfl, { hstaged with }⟩
      clear := nofun }

/-- `CaptureAndPublish` after the copy: the first frame of a size is published, and of the
later ones each is queued when the next one was copied. -/
theorem queueCaptured_account (h : Between surfaces captured m C) (hring : C.frameRing ≠ none)
    (hready : TexturesReady C.stagingTextures) (haccepted : surface.accepted) :
    SwapTriple (C.copy m.stagingWriteIndex surface presentDisplayQpcTime) (!m.hasPublishedFrame)
      (queueCaptured { m with stagingWriteIndex := (m.stagingWriteIndex + 1) % kStagingTextures }
        ⟨m.stagingWriteIndex, surface.width, surface.height, presentDisplayQpcTime⟩)
      fun r s ↦ r.1 = true ∧
        Captures surfaces (captured ++ [surface.frame presentDisplayQpcTime]) r.2 s := by
  have hcaptured : C.captured ++ [surface.frame presentDisplayQpcTime] =
      captured ++ [surface.frame presentDisplayQpcTime] := by rw [h.captured]
  have hstaged := staged_copy (C := C) (t := presentDisplayQpcTime) h.writeIndex haccepted
  have hnext : (m.stagingWriteIndex + 1) % kStagingTextures < kStagingTextures :=
    Nat.mod_lt _ (by decide)
  have hcopied (hpending : m.hasPendingStagingFrame = false) :
      C.inStaging ++ [surface.frame presentDisplayQpcTime] =
        [surface.frame presentDisplayQpcTime] := by rw [h.clear hpending, List.nil_append]
  unfold queueCaptured
  by_cases hpublished : m.hasPublishedFrame = false
  · have hpending : m.hasPendingStagingFrame = false := by
      by_contra hpending
      rw [Bool.not_eq_false] at hpending
      rw [(h.pending hpending).1] at hpublished
      cases hpublished
    rw [if_pos (by simp [hpublished])]
    refine mapAndQueueStagingFrame_account hstaged (hcopied hpending) h.captureBuffer h.joinable
      h.stop hring (fun _ ↦ ⟨by simp [hpublished], rfl⟩) fun buffers bytes ↦ ?_
    refine Triple.ret knows_stable fun s hs ↦ ⟨rfl, _, hs.weaken, ?_⟩
    exact
      { h with
        captured := hcaptured
        writeIndex := hnext
        pending := fun hpending' ↦ by
          rw [show m.hasPendingStagingFrame = true from hpending'] at hpending
          cases hpending
        clear := fun _ ↦ rfl }
  · rw [Bool.not_eq_false] at hpublished
    rw [if_neg (by simp [hpublished])]
    by_cases hpending : m.hasPendingStagingFrame = true
    · obtain ⟨-, -, -, hindex, f, hstaging, hold⟩ := h.pending hpending
      have hstaged' : (C.copy m.stagingWriteIndex surface presentDisplayQpcTime).inStaging =
          f :: [surface.frame presentDisplayQpcTime] := by
        show C.inStaging ++ _ = _
        rw [hstaging]
        rfl
      rw [if_pos hpending]
      refine mapAndQueueStagingFrame_account (hold.copy hindex) hstaged' h.captureBuffer h.joinable
        h.stop hring ?_ fun buffers bytes ↦ ?_
      · intro hfirst
        rw [show m.hasPublishedFrame = false from hfirst] at hpublished
        cases hpublished
      · exact Triple.ret knows_stable fun s hs ↦
          ⟨rfl, _, hs, h.pend hring hready haccepted hpublished _ buffers bytes⟩
    · rw [if_neg hpending]
      rw [Bool.not_eq_true] at hpending
      refine Triple.ret knows_stable fun s hs ↦ ⟨rfl, _, hs, ?_⟩
      have hsame : ((C.copy m.stagingWriteIndex surface presentDisplayQpcTime).withBuffers
          C.bgraBuffers).unstaged [surface.frame presentDisplayQpcTime] =
            C.copy m.stagingWriteIndex surface presentDisplayQpcTime := by
        show { C.copy m.stagingWriteIndex surface presentDisplayQpcTime with
          inStaging := [surface.frame presentDisplayQpcTime] } = _
        rw [← hcopied hpending]
        rfl
      have hbetween := h.pend hring hready haccepted hpublished presentDisplayQpcTime
        C.bgraBuffers m.bgraBufferBytes
      rw [hsame] at hbetween
      exact hbetween

/-- `CaptureAndPublish` captures the surface, unless it does not accept it. -/
theorem captureAndPublish_account (h : Between surfaces captured m C) :
    SwapTriple C (!m.hasPublishedFrame) (captureAndPublish m surface presentDisplayQpcTime)
      fun r s ↦
        if r.1 = true then
          Captures surfaces (captured ++ [surface.frame presentDisplayQpcTime]) r.2 s
        else ¬ surface.accepted ∧ Captures surfaces captured r.2 s := by
  refine swap_bind (fun v ↦ C.opened v) _ (fun ok _ ↦ ok = true) (ensureFrameRing_account h.handles)
    fun ok v hok ↦ ?_
  subst hok
  have h := h.opened v
  have hring : (C.opened v).frameRing ≠ none := nofun
  refine swap_call ?_
  by_cases haccepted : surface.accepted
  · simp only [Prog.ret_bind, Prog.bind_eq]
    rw [if_neg (by simp), if_neg (by simpa using haccepted)]
    refine flushResized_account h fun m₁ C₁ h₁ hring₁ hsame ↦ ?_
    refine h₁.resize hsame fun m₂ C₂ h₂ hring₂ hready ↦ ?_
    have hsize : surface.width * surface.height * 4 ≠ 0 :=
      (staged_copy (C := C₂) (t := 0) h₂.writeIndex haccepted).size
    refine ensureBgraBuffers_account hsize h₂.joinable h₂.captureBuffer fun buffers bytes _ ↦ ?_
    refine copyResource_account (swap_call ?_)
    refine (queueCaptured_account (h₂.withBuffers buffers bytes) ?_ hready haccepted).conseq
      (fun _ hs ↦ hs) fun r s hr ↦ ?_
    · show C₂.frameRing ≠ none
      rw [hring₂, hring₁]
      exact hring
    · rw [if_pos hr.1]
      exact hr.2
  · simp only [Prog.ret_bind, Prog.bind_eq]
    rw [if_neg (by simp), if_pos haccepted]
    refine swap_call (swap_ret fun s hs ↦ ?_)
    exact ⟨haccepted, _, hs, h⟩

/-! ## `RunCore` -/

/-- The frame of a surface that the swap chain hands out. -/
def handedOut (p : Surface × Nat) : Frame := p.1.frame p.2

/-- Some of the surfaces, from the first one on, were captured: all of them, if all are
accepted. -/
def Prefix (surfaces : List (Surface × Nat)) (captured : List Frame) : Prop :=
  ∃ first, first <+: surfaces ∧ captured = first.map handedOut ∧
    ((∀ p ∈ surfaces, p.1.accepted) → first = surfaces)

theorem captures_stable : (accountRG .swapChain).Stable (Captures surfaces captured m) := by
  rintro s t hR ⟨C, hknows, hbetween⟩
  exact ⟨C, knows_stable s t hR hknows, hbetween⟩

/-- The loop captures one surface after the other. -/
theorem captureLoop_account (first rest : List (Surface × Nat))
    (hsurfaces : first ++ rest = surfaces) :
    Triple (captureExec succeeds .swapChain) (accountRG .swapChain)
      (Captures surfaces (first.map handedOut) m) (captureLoop m rest)
      fun m s ↦ ∃ captured, Captures surfaces captured m s ∧ Prefix surfaces captured := by
  induction rest generalizing m first with
  | nil =>
      refine Triple.ret captures_stable fun s hs ↦ ⟨_, hs, first, ?_, rfl, fun _ ↦ ?_⟩
      · rw [← hsurfaces]
        exact List.prefix_append ..
      · rw [← hsurfaces, List.append_nil]
  | cons p rest ih =>
      refine Triple.of_exists fun C ↦ ?_
      refine Triple.bind (p := captureAndPublish m p.1 p.2) (fun r s ↦
        if r.1 = true then Captures surfaces (first.map handedOut ++ [handedOut p]) r.2 s
        else ¬ p.1.accepted ∧ Captures surfaces (first.map handedOut) r.2 s) ?_ fun r ↦ ?_
      · exact fun s hs ↦ captureAndPublish_account hs.2 s hs.1
      · by_cases hok : r.1 = true
        · rw [if_neg (by simp [hok])]
          simp only [hok, if_true]
          have happend : first.map handedOut ++ [handedOut p] = (first ++ [p]).map handedOut := by
            simp
          rw [happend]
          exact ih (first ++ [p]) (by rw [List.append_assoc, ← hsurfaces]; rfl)
        · rw [if_pos (by simpa using hok)]
          have hreject : Triple (captureExec succeeds .swapChain) (accountRG .swapChain)
              (fun s ↦ Captures surfaces (first.map handedOut) r.2 s ∧ ¬ p.1.accepted) (.ret r.2)
              fun m s ↦ ∃ captured, Captures surfaces captured m s ∧ Prefix surfaces captured := by
            refine Triple.of_const fun hrejected ↦ Triple.ret captures_stable
              fun s hs ↦ ⟨_, hs, first, ?_, rfl, fun hall ↦ ?_⟩
            · rw [← hsurfaces]
              exact List.prefix_append ..
            · refine absurd (hall p ?_) hrejected
              simp [← hsurfaces]
          refine hreject.conseq (fun s hs ↦ ?_) fun _ _ h ↦ h
          rw [if_neg hok] at hs
          exact ⟨hs.2, hs.1⟩

/-- Everything was flushed. -/
structure Flushed (surfaces : List (Surface × Nat)) (captured : List Frame) (C : Capturing) :
    Prop where
  surfaces : C.surfaces = surfaces
  captured : C.captured = captured
  inStaging : C.inStaging = []

/-- What is known when the conversion thread has been joined. -/
def Joined (surfaces : List (Surface × Nat)) (captured : List Frame) (s : Shared) : Prop :=
  ∃ C, Knows C true s ∧ Flushed surfaces captured C

theorem joined_stable : (accountRG .swapChain).Stable (Joined surfaces captured) := by
  rintro s t hR ⟨C, hknows, hflushed⟩
  exact ⟨C, knows_stable s t hR hknows, hflushed⟩

/-- The conversion thread ends when it has published what was queued. -/
theorem stopConversionThread_account (hjoinable : C.joinable = true)
    (hflushed : Flushed surfaces captured C) :
    SwapTriple C idle stopConversionThread fun _ ↦ Joined surfaces captured := by
  refine swap_act (D := { C with bgraStop := true }) false (fun _ ↦ True) ?_
    fun _ _ ↦ ?_
  · intro w s r u hs hA hu
    obtain ⟨-, q, hq, rfl⟩ := captureExec_some hu
    cases hq
    refine ⟨trivial, ⟨⟨rfl, rfl, fun _ _ ↦ ⟨rfl, rfl⟩, fun _ ↦ ⟨rfl, rfl⟩⟩,
      { hs with ended := fun h ↦ ⟨(hs.ended h).1, rfl⟩ }⟩, ?_, hA.inside, nofun⟩
    rw [← hA.capturing]
    rfl
  · refine swap_act (D := { C with bgraStop := true, joinable := false }) true
      (fun _ ↦ True) ?_ fun _ _ ↦ swap_ret fun s hs ↦ ⟨_, hs, { hflushed with }⟩
    intro w s r u hs hA hu
    obtain ⟨-, q, hq, rfl⟩ := captureExec_some hu
    have hjoined : s.processor.joinable = true :=
      (congrArg Capturing.joinable hA.capturing).trans hjoinable
    have hended : s.processor.ended = true := by
      by_contra hrunning
      simp [CaptureOp.exec, hjoined, hrunning] at hq
    simp only [CaptureOp.exec] at hq
    split at hq <;> cases hq
    refine ⟨trivial, OwnOnly.guar rfl hs hs.ring, ?_, hA.inside, fun _ ↦ (hs.ended hended).1⟩
    show { s.capturing with joinable := false } = _
    rw [hA.capturing]

theorem RingOperation.own {p q : Processor} (ho : RingOperation β o)
    (h : CaptureOp.exec β w o p = some (r, q)) : OwnOnly p q := by
  cases o <;> first
    | exact ho.elim
    | simp only [CaptureOp.exec] at h
      repeat' split at h
      all_goals
        cases h
        rfl

/-- Once nothing is left to be published, the ring may be closed. -/
theorem closeFrameRing_account :
    Triple (captureExec succeeds .swapChain) (accountRG .swapChain) (Joined surfaces captured)
      closeFrameRing fun _ ↦ Joined surfaces captured := by
  refine Triple.of_preserves closeFrameRing_uses joined_stable fun β o ho w s r u hR hA hu ↦ ?_
  obtain ⟨-, q, hq, rfl⟩ := captureExec_some hu
  rw [ho.log]
  have hown := ho.own hq
  obtain ⟨C, hknows, hflushed⟩ := hA
  refine ⟨hown.guar hR.2 fun hne ↦ absurd (hknows.idle rfl).1 hne, Shared.capturing ⟨q, s.log⟩,
    ⟨rfl, hknows.inside, hknows.idle⟩, ?_⟩
  have hC := hknows.capturing
  subst hC
  exact { hflushed with }

/-- Every captured frame was published, and from the first surface on none was left out. -/
structure Finished (s : Shared) : Prop where
  published : s.log.captured = s.log.published.map (·.frame)
  surfaces : Prefix s.log.surfaces s.log.captured

/-- The swap-chain thread's part before `RunCore`. -/
def Capturing.initial (surfaces : List (Surface × Nat)) : Capturing where
  stagingTextures _ := none
  bgraBuffers _ := none
  bgraStop := false
  joinable := false
  frameRing := none
  frameReadyEvent := false
  frameMapping := false
  surfaces
  captured := []
  inStaging := []
  captureBuffer := none

/-- The last frame is flushed, and the threads stop. -/
theorem shutdown_account (h : Between surfaces captured m C) :
    SwapTriple C (!m.hasPublishedFrame)
      (do
        if m.hasPendingStagingFrame then
          let _ ← mapAndQueueStagingFrame m m.pendingStagingFrame
        stopConversionThread
        closeFrameRing)
      fun _ ↦ Joined surfaces captured := by
  have hstop {C : Capturing} {idle : Bool} (hjoinable : C.joinable = true)
      (hflushed : Flushed surfaces captured C) :
      SwapTriple C idle (stopConversionThread.bind fun _ ↦ closeFrameRing)
        fun _ ↦ Joined surfaces captured :=
    Triple.bind _ (stopConversionThread_account hjoinable hflushed) fun _ ↦ closeFrameRing_account
  by_cases hpending : m.hasPendingStagingFrame = true
  · rw [if_pos hpending]
    refine h.flush hpending fun buffers bytes hbetween ↦ ?_
    exact hstop hbetween.joinable ⟨hbetween.surfaces, hbetween.captured, rfl⟩
  · rw [if_neg hpending]
    rw [Bool.not_eq_true] at hpending
    exact hstop h.joinable ⟨h.surfaces, h.captured, h.clear hpending⟩

theorem Joined.finished (hs : Accounted s) (h : Joined surfaces captured s)
    (hpre : Prefix surfaces captured) : Finished s := by
  obtain ⟨C, hknows, hflushed⟩ := h
  have hsurfaces : s.log.surfaces = surfaces :=
    (congrArg Capturing.surfaces hknows.capturing).trans hflushed.surfaces
  have hcaptured : s.log.captured = captured :=
    (congrArg Capturing.captured hknows.capturing).trans hflushed.captured
  have hstaging : s.log.inStaging = [] :=
    (congrArg Capturing.inStaging hknows.capturing).trans hflushed.inStaging
  refine ⟨?_, ?_⟩
  · rw [hs.account, (hknows.idle rfl).1, hstaging]
    simp
  · rw [hsurfaces, hcaptured]
    exact hpre

/-- `RunCore` from the start: when it has returned, no captured frame is left. -/
theorem runCore_account (surfaces : List (Surface × Nat)) :
    SwapTriple (.initial surfaces) true (runCore surfaces)
      fun _ s ↦ ∃ captured, Joined surfaces captured s ∧ Prefix surfaces captured := by
  unfold runCore
  refine swap_own (D := { Capturing.initial surfaces with joinable := true }) (· = true) ?_ id ?_
  · intro w s r u _ hA hu
    obtain ⟨hallow, q, hq, rfl⟩ := captureExec_some hu
    simp only [CaptureOp.exec, hallow.1] at hq
    cases hq
    refine ⟨rfl, rfl, rfl, ?_⟩
    rw [← hA.capturing]
    rfl
  rintro _ rfl
  have hbetween : Between surfaces ([].map handedOut) {}
      { Capturing.initial surfaces with joinable := true } :=
    { surfaces := rfl
      captured := rfl
      joinable := rfl
      stop := rfl
      captureBuffer := rfl
      handles := fun h ↦ absurd rfl h
      writeIndex := by decide
      pending := fun h ↦ by cases h
      clear := fun _ ↦ rfl }
  rw [Prog.ret_bind, if_neg (by simp)]
  refine Triple.bind _ ((captureLoop_account [] surfaces (List.nil_append surfaces)).conseq
    (fun s hs ↦ ⟨_, hs, hbetween⟩) fun _ _ h ↦ h) fun m ↦ ?_
  refine Triple.of_exists fun captured ↦ Triple.of_const fun hpre ↦
    Triple.of_exists fun C ↦ Triple.of_const fun hbetween ↦ ?_
  exact (shutdown_account hbetween).conseq (fun _ h ↦ h) fun _ s h ↦ ⟨captured, h, hpre⟩

end SecondScreen.Capture
