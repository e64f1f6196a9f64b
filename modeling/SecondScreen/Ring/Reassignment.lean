import SecondScreen.Ring.HostOps
import SecondScreen.Ring.DriverProof
import SecondScreen.Ring.KnownSlot

/-!
# Swap chains come and go

Driver and host take turns here: each call runs to its end before the next one
starts.  Between two publishes the driver may be given a new swap chain, and the
new `SwapChainProcessor` numbers its frames from one again, while slots that the
previous one left ready keep their numbers.

`TryReadLatest` knows the order of two ready slots only by these numbers.  It
returns the frame that was published last exactly when the numbers of the ready
slots are in the order of time (`reads_latest_iff`), and a new processor can put
them out of order (`stale_read`).
-/

namespace SecondScreen.Ring

open SecondScreen.Conc SecondScreen.Machine SecondScreen.Nv12

/-! ## Calls in turn -/

/-- `TryReadLatest` returned `true`. -/
def HostResult.isFrame : HostResult → Bool
  | .read (.frame _) => true
  | _ => false

/-- The shared state, and the private data of both sides. -/
structure Endpoints where
  shared : Shared
  processor : SwapChainProcessor
  reader : FrameRingReader

/-- A call of either side. -/
inductive RingCall
  | driver (call : DriverCall)
  | host (call : HostCall)

namespace Endpoints

/-- The initialised ring, a new processor and a new reader. -/
def initial : Endpoints := ⟨⟨FrameRing.initial, {}⟩, {}, {}⟩

/-- A whole call of the driver. -/
def driver (e : Endpoints) (call : DriverCall) : Endpoints :=
  let r := (driverBody call e.processor).eval driverHandler (driverEnter call e.processor e.shared)
  { e with shared := r.2, processor := r.1.2 }

/-- A whole call of the host, with its result. -/
def host (e : Endpoints) (call : HostCall) : HostResult × Endpoints :=
  let r := (hostBody call e.reader).eval hostHandler e.shared
  (r.1.1, { e with shared := hostLeave r.1.1 r.2, reader := r.1.2 })

/-- One call. -/
def step (e : Endpoints) : RingCall → Endpoints
  | .driver call => e.driver call
  | .host call => (e.host call).2

/-- What holds whenever a run comes to a `TryReadLatest`. -/
def EveryRead (P : Endpoints → Prop) (e : Endpoints) : List RingCall → Prop
  | [] => True
  | .host .tryReadLatest :: calls => P e ∧ (e.step (.host .tryReadLatest)).EveryRead P calls
  | call :: calls => (e.step call).EveryRead P calls

/-- If `TryReadLatest` returns a frame, then it is that of the ready slot which
was published last, and no other slot that was published later is freed. -/
def ReadsLatest (e : Endpoints) : Prop :=
  ∀ f, (e.host .tryReadLatest).1 = .read (.frame f) →
    let e' := (e.host .tryReadLatest).2
    let i := e'.shared.log.selected
    e.shared.ring.state i = .ready ∧
      Publication.Shows ⟨(e.shared.ring.slots i).field, (e.shared.ring.slots i).payload⟩ f ∧
        (∀ j, e.shared.ring.state j = .ready → e.shared.log.origin j ≤ e.shared.log.origin i) ∧
          ∀ j, j ≠ i → e.shared.ring.state j = .ready → e'.shared.ring.state j = .free →
            e.shared.log.origin j ≤ e.shared.log.origin i

end Endpoints

/-- Of two ready slots the one that was published later has the greater sequence,
or the same sequence and the lower index. -/
def Shared.Ordered (s : Shared) : Prop :=
  ∀ i j, s.ring.state i = .ready → s.ring.state j = .ready → s.log.origin i < s.log.origin j →
    s.ring.sequence i < s.ring.sequence j ∨ s.ring.sequence i = s.ring.sequence j ∧ j < i

/-! ## Readable rings -/

/-- The header is valid, and so is every ready slot. -/
structure FrameRing.Readable (ring : FrameRing) : Prop where
  header : ∀ f, ring.header f = headerValue f
  valid : ∀ i, ring.state i = .ready → (ring.slots i).validLength ≠ none

namespace FrameRing.Readable

variable {ring : FrameRing} {i : Slot}

theorem setSlot (h : ring.Readable) {c : FrameSlot}
    (hc : c.state = .ready → c.validLength ≠ none) : (ring.setSlot i c).Readable where
  header := h.header
  valid j hj := by
    by_cases hji : j = i
    · subst hji
      simp only [FrameRing.state, FrameRing.setSlot_same] at hj ⊢
      exact hc hj
    · simp only [FrameRing.state, FrameRing.setSlot_of_ne hji] at hj ⊢
      exact h.valid j hj

theorem setState (h : ring.Readable) {st : SlotState} (hst : st ≠ .ready) :
    (ring.setState i st).Readable :=
  h.setSlot fun hready ↦ absurd hready hst

/-- The operations of the host keep a ring readable. -/
theorem hostOp (h : ring.Readable) {β : Type} {o : RingOp β} (ho : HostOp β o) :
    (RingOp.exec β o ring).2.Readable := by
  have hl := ho.loosens ring
  refine ⟨fun f ↦ ?_, fun i hi ↦ ?_⟩
  · rw [RingOp.exec_header, h.header f]
  · have hv := h.valid i (hl.ready hi)
    simp only [FrameSlot.validLength, hl.field] at hv ⊢
    exact hv

end FrameRing.Readable

/-- What a processor publishes is valid. -/
theorem validLength_of_slotFields {m : SwapChainProcessor} {frame : PendingBgraFrame}
    {timestampUs : Nat} {c : FrameSlot} (hc : c.field = slotFields m frame timestampUs)
    (hts : timestampUs ≠ 0) (hseq : m.nextSequence ≠ 0) (hid : m.nextFrameId ≠ 0) :
    c.validLength ≠ none := by
  obtain ⟨hw0, hh0, hw2, hh2, hw, hh⟩ := frame.geometry
  obtain ⟨k, hk⟩ : ∃ k, frame.height = 2 * k := ⟨frame.height / 2, by omega⟩
  have hexpected : expectedBytes frame.height frame.width = frame.width * frame.height * 3 / 2 := by
    have hhalf : frame.width * (2 * k) * 3 = 2 * (frame.width * (3 * k)) := by ring
    rw [expectedBytes, hk, hhalf, Nat.mul_div_cancel_left _ two_pos,
      Nat.mul_div_cancel_left _ two_pos]
    ring
  have hmax : ¬expectedBytes frame.height frame.width > kMaxPayloadBytes := by
    have hle := Nat.mul_le_mul hw hh
    rw [hexpected, not_lt]
    exact Nat.div_le_div_right (Nat.mul_le_mul_right 3 hle)
  have hsize : validSize frame.width frame.height frame.width = true := by
    have hw1 := hw0.ne'
    have hh1 := hh0.ne'
    simp [validSize, kMaxStride, hw1, hh1, hw2, hh2, hw, hh]
  simp [FrameSlot.validLength, hc, slotFields, hts, hseq, hid, hsize, hexpected] at hmax ⊢
  exact hmax

/-! ## A publish -/

section Publish

variable {i : Slot}

/-- The driver has claimed slot `i` and written the given fields. -/
structure Filling (i : Slot) (value : SlotField → Nat) (done : List SlotField) (s : Shared) :
    Prop where
  readable : s.ring.Readable
  notReady : s.ring.state i ≠ .ready
  field : ∀ f ∈ done, (s.ring.slots i).field f = value f

/-- Changing the state word keeps the ring readable, if a slot made ready is
valid. -/
theorem FrameRing.Readable.exchange {ring : FrameRing} (h : ring.Readable) {st : SlotState}
    (hst : st = .ready → (ring.slots i).validLength ≠ none) : (ring.setState i st).Readable :=
  h.setSlot hst

/-- The proof of a publish that runs alone on a readable ring. -/
def readableOutline (m : SwapChainProcessor) (frame : PendingBgraFrame) (env : PublishEnv)
    (hseq : m.nextSequence ≠ 0) (hid : m.nextFrameId ≠ 0) :
    PublishOutline driverExec (RG.alone Shared) m frame env where
  before s := s.ring.Readable
  writing i done _ := Filling i (slotFields m frame (env.timestampUs frame)) done
  announced _ s := s.ring.Readable
  after r s := s.ring.Readable ∧ r.2.nextSequence ≠ 0 ∧ r.2.nextFrameId ≠ 0
  claims :=
    { stable := RG.alone_stable _
      stable_taken := fun _ ↦ RG.alone_stable _
      read := by
        intro β o ho s _ hs w r u hu
        obtain rfl := driverExec_read ho w s r u hu
        exact ⟨trivial, hs⟩
      take := by
        intro i expected _ s _ hs w old u hu
        simp only [driverExec, driverHandler, RingOp.exec, Option.some.injEq, Prod.mk.injEq] at hu
        obtain ⟨rfl, rfl⟩ := hu
        refine ⟨trivial, ?_⟩
        split
        · exact ⟨hs.setState (by decide), by simp [FrameRing.state], fun _ h ↦ by cases h⟩
        · exact hs }
  stable _ _ _ := RG.alone_stable _
  stable_announced _ := RG.alone_stable _
  stable_after _ := RG.alone_stable _
  refuse _ h := ⟨h, hseq, hid⟩
  giveUp _ i := by
    intro s _ hs w r u hu
    cases hu
    exact ⟨trivial, hs.readable.setState (by decide), hseq, hid⟩
  field i done f := by
    intro s _ hs w r u hu
    cases hu
    refine ⟨trivial, hs.readable.setSlot fun h ↦ absurd h hs.notReady, ?_, fun g hg ↦ ?_⟩
    · simpa [FrameRing.state, driverHandler, RingOp.exec] using hs.notReady
    · by_cases hgf : g = f
      · subst hgf; simp [RingOp.exec]
      · simpa [driverHandler, RingOp.exec, hgf] using
          hs.field g ((List.mem_cons.1 hg).resolve_left hgf)
  byte source _ i done n := by
    intro s _ hs w r u hu
    cases hu
    refine ⟨trivial, hs.readable.setSlot fun h ↦ absurd h hs.notReady, ?_, fun f hf ↦ ?_⟩
    · simpa [FrameRing.state, driverHandler, RingOp.exec] using hs.notReady
    · simpa [driverHandler, RingOp.exec] using hs.field f hf
  telemetry i done n t v := by
    intro s _ hs w r u hu
    cases hu
    exact ⟨trivial, ⟨hs.readable.header, hs.readable.valid⟩, hs.notReady, hs.field⟩
  announce hts i := by
    intro s _ hs w r u hu
    cases hu
    refine ⟨trivial, hs.readable.exchange fun _ ↦ ?_⟩
    refine validLength_of_slotFields (funext fun f ↦ hs.field f ?_) hts hseq hid
    simp [mem_fieldOrder]
  signalled _ _ _ h := ⟨h, Nat.succ_ne_zero _, Nat.succ_ne_zero _⟩
  unsignalled _ i := by
    intro s _ hs w r u hu
    cases hu
    exact ⟨trivial, hs.setState (by decide), Nat.succ_ne_zero _, Nat.succ_ne_zero _⟩

/-- A publish keeps the ring readable, and the processor's counters positive. -/
theorem publish_alone (m : SwapChainProcessor) (frame : PendingBgraFrame) (env : PublishEnv)
    (hseq : m.nextSequence ≠ 0) (hid : m.nextFrameId ≠ 0) :
    Triple driverExec (RG.alone Shared) (fun s ↦ s.ring.Readable) (publishBgraFrame m frame env)
      fun r s ↦ s.ring.Readable ∧ r.2.nextSequence ≠ 0 ∧ r.2.nextFrameId ≠ 0 :=
  (readableOutline m frame env hseq hid).triple

end Publish

/-! ## A read -/

theorem slotIndices_eq : slotIndices = [0, 1] := rfl

/-- There are two slots. -/
theorem Slot.eq_of_ne : ∀ {i j k : Slot}, j ≠ i → j ≠ k → k = i := by
  decide

/-- The slot that the first pass selects. -/
def FrameRing.newestReady (ring : FrameRing) : Option Slot :=
  if ring.state 0 = .ready then
    if ring.state 1 = .ready ∧ ring.sequence 1 > ring.sequence 0 then some 1 else some 0
  else if ring.state 1 = .ready then some 1
  else none

/-- No other ready slot has a greater sequence, or the same and a lower index. -/
theorem FrameRing.newestReady_some {ring : FrameRing} {i : Slot} (h : ring.newestReady = some i) :
    ring.state i = .ready ∧ ∀ j, j ≠ i → ring.state j = .ready →
      ring.sequence j < ring.sequence i ∨ ring.sequence j = ring.sequence i ∧ i < j := by
  unfold newestReady at h
  rw [Fin.forall_fin_two]
  split_ifs at h with h0 h1 h1
  · cases h
    exact ⟨h1.1, fun _ _ ↦ .inl h1.2, fun h ↦ absurd rfl h⟩
  · cases h
    refine ⟨h0, fun h ↦ absurd rfl h, fun _ hr ↦ ?_⟩
    have hle : ring.sequence 1 ≤ ring.sequence 0 := not_lt.1 fun hlt ↦ h1 ⟨hr, hlt⟩
    exact (Nat.lt_or_eq_of_le hle).imp_right fun h ↦ ⟨h, by decide⟩
  · cases h
    exact ⟨h1, fun _ h ↦ absurd h h0, fun h ↦ absurd rfl h⟩

theorem FrameRing.newestReady_none {ring : FrameRing} (h : ring.newestReady = none) (i : Slot) :
    ring.state i ≠ .ready := by
  unfold newestReady at h
  revert i
  rw [Fin.forall_fin_two]
  split_ifs at h with h0 h1 h1
  exact ⟨h0, h1⟩

section Read

variable {s : Shared} {i : Slot} (r : FrameRingReader)

theorem eval_isValidFrameRingHeader (h : ∀ f, s.ring.header f = headerValue f)
    (l : List HeaderField) : (isValidFrameRingHeader l).eval hostHandler s = (true, s) := by
  induction l with
  | nil => rfl
  | cons f l ih => simp [isValidFrameRingHeader, Prog.perform, hostHandler, RingOp.exec,
      Log.readerStep, h, ih]

theorem eval_scanNewest (s : Shared) : (scanNewest slotIndices none).eval hostHandler s =
    (s.ring.newestReady.map fun i ↦ (i, s.ring.sequence i), s) := by
  simp only [slotIndices_eq, scanNewest, FrameRing.newestReady]
  by_cases h0 : s.ring.state 0 = .ready <;> by_cases h1 : s.ring.state 1 = .ready <;>
    by_cases hlt : s.ring.sequence 1 > s.ring.sequence 0 <;>
      simp [Prog.perform, hostHandler, RingOp.exec, Log.readerStep, h0, h1, hlt]

/-- Where no other ready slot has a greater sequence, the second pass finds none. -/
theorem eval_newerReadySlot (h : ∀ j, j ≠ i → s.ring.state j = .ready →
    s.ring.sequence j ≤ s.ring.sequence i) (l : List Slot) :
    (newerReadySlot i l).eval hostHandler s = (false, s) := by
  induction l with
  | nil => rfl
  | cons j l ih =>
      rw [newerReadySlot]
      split
      · exact ih
      next hj =>
      by_cases hr : s.ring.state j = .ready
      · simp [Prog.perform, hostHandler, RingOp.exec, Log.readerStep, hr, (h j hj hr).not_gt, ih]
      · simp [Prog.perform, hostHandler, RingOp.exec, Log.readerStep, hr, ih]

/-- The third pass leaves the selected slot alone. -/
theorem purgeOlder_alone (i : Slot) (c : FrameSlot) (l : List Slot) :
    Triple hostExec (RG.alone Shared) (fun s ↦ s.ring.slots i = c) (purgeOlder i l)
      fun _ s ↦ s.ring.slots i = c := by
  apply Triple.of_preserves (purgeOlder_uses i l) (RG.alone_stable _)
  intro β o ho w s r u _ hs hu
  refine ⟨trivial, ?_⟩
  cases hu
  rw [← hs]
  exact ho.slots_selected s.ring

/-- What remains of a call once a valid slot has been selected. -/
theorem readSelected_alone (c : FrameSlot) (hc : c.validLength ≠ none) :
    Triple hostExec (RG.alone Shared) (fun s ↦ s.ring.slots i = c) (readSelected r i)
      fun x _ ↦ x = (.frame (r.consume c).cachedFrame, r.consume c) := by
  have hknows : Knows (RG.alone Shared) (fun s ↦ s.ring.slots i = c) i c :=
    ⟨RG.alone_stable _, fun _ _ ↦ trivial, fun _ h ↦ h⟩
  refine Triple.bind _ (purgeOlder_alone i c slotIndices) fun _ ↦ hknows.isValidSlot ?_
  obtain ⟨n, hn⟩ := Option.ne_none_iff_exists'.1 hc
  obtain ⟨rfl, -⟩ := FrameSlot.of_validLength hn
  rw [hn]
  refine hknows.consumeSlot r (Triple.act (RG.alone_stable _) (fun _ _ ↦ True)
    (fun _ _ _ _ _ _ _ ↦ ⟨trivial, trivial⟩) fun _ ↦ ?_)
  exact Triple.ret (RG.alone_stable _) fun _ _ ↦ rfl

/-- Once a slot has been claimed, no other one is claimed. -/
theorem readSelected_selected (hs : s.log.selected = i) :
    ((readSelected r i).eval hostHandler s).2.log.selected = i := by
  refine (readSelected_uses r i).eval (fun t : Shared ↦ t.log.selected = i)
    (fun β o ho t ht ↦ ?_) hs
  cases o with
  | compareExchange j x e =>
      cases x <;> cases e <;> first | exact ho.elim | skip
      simp only [hostHandler, Log.readerStep]
      split <;> exact ht
  | _ => exact ht

/-- The ring and its record after `ClaimReady`. -/
def claimedBy (s : Shared) (i : Slot) : Shared :=
  ⟨s.ring.setState i .reading, { s.log with
    readerOwns := Function.update s.log.readerOwns i true, selected := i,
    claimed := s.ring.sequence i }⟩

/-- **A call of `TryReadLatest` on a readable ring** returns the frame of the
slot that the first pass selects. -/
theorem eval_tryReadLatest (hs : s.ring.Readable) (hi : s.ring.newestReady = some i) :
    ((tryReadLatest r).eval hostHandler s).1 =
        (.frame (r.consume (s.ring.slots i)).cachedFrame, r.consume (s.ring.slots i)) ∧
      ((tryReadLatest r).eval hostHandler s).2.log.selected = i := by
  obtain ⟨hr, hother⟩ := FrameRing.newestReady_some hi
  have hnewer : (newerReadySlot i slotIndices).eval hostHandler (claimedBy s i) =
      (false, claimedBy s i) := by
    refine eval_newerReadySlot (fun j hj hjr ↦ ?_) slotIndices
    simp only [claimedBy, FrameRing.state, FrameRing.sequence, FrameRing.setState_of_ne hj,
      FrameRing.setState_same] at hjr ⊢
    rcases hother j hj hjr with hlt | ⟨heq, -⟩
    · exact hlt.le
    · exact heq.le
  have hclaim : (claimReady i).eval hostHandler s = (true, claimedBy s i) := by
    simp [claimReady, Prog.perform, hostHandler, RingOp.exec, Log.readerStep, hr, claimedBy]
  have heval : (tryReadLatest r).eval hostHandler s =
      (readSelected r i).eval hostHandler (claimedBy s i) := by
    simp [tryReadLatest, readAttempts, eval_isValidFrameRingHeader hs.header, eval_scanNewest, hi,
      hclaim, hnewer]
  have hread := (readSelected_alone r { s.ring.slots i with state := .reading } (hs.valid i hr)
    (claimedBy s i) (FrameRing.setState_same _)).eval ()
  rw [heval]
  exact ⟨hread, readSelected_selected r rfl⟩

theorem eval_tryReadLatest_none (hheader : ∀ f, s.ring.header f = headerValue f)
    (hi : s.ring.newestReady = none) :
    (tryReadLatest r).eval hostHandler s = ((.noFrame, r), s) := by
  simp [tryReadLatest, readAttempts, eval_isValidFrameRingHeader hheader, eval_scanNewest, hi]

end Read

/-! ## Runs -/

/-- Between two calls: the ring is readable, and the processor counts from one. -/
structure Endpoints.Sound (e : Endpoints) : Prop where
  readable : e.shared.ring.Readable
  sequence : e.processor.nextSequence ≠ 0
  frameId : e.processor.nextFrameId ≠ 0

namespace Endpoints

theorem Sound.initial : Endpoints.initial.Sound where
  readable := ⟨fun _ ↦ rfl, fun _ h ↦ by cases h⟩
  sequence := Nat.one_ne_zero
  frameId := Nat.one_ne_zero

theorem Sound.driver {e : Endpoints} (h : e.Sound) (call : DriverCall) : (e.driver call).Sound := by
  cases call with
  | assignSwapChain => exact ⟨h.readable, Nat.one_ne_zero, Nat.one_ne_zero⟩
  | publish frame env =>
      have hpublish := (publish_alone e.processor frame env h.sequence h.frameId
        (driverEnter (.publish frame env) e.processor e.shared) h.readable).eval ()
      simp only [Endpoints.driver, driverBody, Prog.bind_eq, Prog.pure_eq, Prog.eval_bind]
      exact ⟨hpublish.1, hpublish.2.1, hpublish.2.2⟩

theorem Sound.host {e : Endpoints} (h : e.Sound) (call : HostCall) : (e.host call).2.Sound := by
  refine ⟨?_, h.sequence, h.frameId⟩
  have hleave (x : HostResult) (s : Shared) : (hostLeave x s).ring = s.ring := by cases x <;> rfl
  simp only [Endpoints.host, hleave]
  cases call with
  | beginClient width height => exact h.readable
  | tryReadLatest =>
      refine ((tryReadLatest_uses e.reader).bind fun _ ↦ ?_).eval
        (fun t : Shared ↦ t.ring.Readable) (fun β o ho t ht ↦ ht.hostOp ho) h.readable
      trivial

theorem Sound.step {e : Endpoints} (h : e.Sound) (call : RingCall) : (e.step call).Sound := by
  cases call with
  | driver call => exact h.driver call
  | host call => exact h.host call

/-- A single read returns the frame published last exactly when the sequences of
the ready slots are in the order of time. -/
theorem Sound.readsLatest_iff {e : Endpoints} (h : e.Sound) :
    e.ReadsLatest ↔ e.shared.Ordered := by
  cases hi : e.shared.ring.newestReady with
  | none =>
      have hnone := FrameRing.newestReady_none hi
      refine ⟨fun _ i _ hr ↦ absurd hr (hnone i), fun _ f hf ↦ ?_⟩
      simp [Endpoints.host, hostBody, eval_tryReadLatest_none e.reader h.readable.header hi] at hf
  | some i =>
      obtain ⟨hr, hother⟩ := FrameRing.newestReady_some hi
      obtain ⟨hread, hselected⟩ := eval_tryReadLatest e.reader h.readable hi
      have hresult : (e.host .tryReadLatest).1 =
          .read (.frame (e.reader.consume (e.shared.ring.slots i)).cachedFrame) := by
        simp [Endpoints.host, hostBody, hread]
      have hlog : (e.host .tryReadLatest).2.shared.log.selected = i := by
        simp [Endpoints.host, hostBody, hostLeave, hread, Log.deliver, hselected]
      constructor
      · intro hlatest j k hj hk hlt
        obtain ⟨-, -, hle, -⟩ := hlatest _ hresult
        rw [hlog] at hle
        -- the later one is the slot selected
        have hji : j ≠ i := fun hji ↦ absurd (hle k hk) (not_le.2 (hji ▸ hlt))
        have hjk : j ≠ k := fun hjk ↦ absurd hlt (hjk ▸ lt_irrefl _)
        cases Slot.eq_of_ne hji hjk
        exact hother j hji hj
      · intro hordered f hf
        rw [hresult] at hf
        have hframe := Outcome.frame.inj (HostResult.read.inj hf)
        have hle : ∀ j, e.shared.ring.state j = .ready →
            e.shared.log.origin j ≤ e.shared.log.origin i := by
          intro j hj
          by_contra hlt
          have hji : j ≠ i := fun hji ↦ hlt (hji ▸ le_rfl)
          rcases hordered i j hr hj (not_le.1 hlt) with hseq | ⟨hseq, hidx⟩ <;>
            rcases hother j hji hj with hseq' | ⟨hseq', hidx'⟩
          · omega
          · omega
          · omega
          · exact Nat.lt_asymm hidx hidx'
        subst hlog
        rw [← hframe]
        exact ⟨hr, Publication.Fills.shows ⟨rfl, fun _ _ ↦ rfl⟩ e.reader, hle,
          fun j _ hj _ ↦ hle j hj⟩

end Endpoints

/-- **Every read of a run returns the frame published last** among the ready
slots exactly when every read of the run finds the sequences of the ready slots
in the order of time. -/
theorem reads_latest_iff (calls : List RingCall) :
    Endpoints.initial.EveryRead Endpoints.ReadsLatest calls ↔
      Endpoints.initial.EveryRead (fun e ↦ e.shared.Ordered) calls := by
  suffices h : ∀ e : Endpoints, e.Sound →
      (e.EveryRead Endpoints.ReadsLatest calls ↔ e.EveryRead (fun e ↦ e.shared.Ordered) calls) from
    h _ .initial
  induction calls with
  | nil => exact fun _ _ ↦ Iff.rfl
  | cons call calls ih =>
      intro e he
      rcases call with call | _ | ⟨width, height⟩
      · exact ih _ (he.step _)
      · exact and_congr he.readsLatest_iff (ih _ (he.step _))
      · exact ih _ (he.step _)

/-- Two frames of one processor, the first frame of the next one in the slot of
the older of them, and a read. -/
def readAfterReassignment : List RingCall :=
  [.driver smallPublish, .driver smallPublish, .driver .assignSwapChain, .driver smallPublish,
    .host .tryReadLatest]

/-- A read that returns a frame and frees a ready slot that was published later
does not return the latest one. -/
theorem Endpoints.not_readsLatest {e : Endpoints} (j : Slot)
    (hframe : (e.host .tryReadLatest).1.isFrame = true)
    (hj : j ≠ (e.host .tryReadLatest).2.shared.log.selected)
    (hr : e.shared.ring.state j = .ready)
    (hfree : (e.host .tryReadLatest).2.shared.ring.state j = .free)
    (hlt : e.shared.log.origin (e.host .tryReadLatest).2.shared.log.selected <
      e.shared.log.origin j) : ¬e.ReadsLatest := by
  intro hread
  cases hresult : (e.host .tryReadLatest).1 with
  | began => simp [hresult, HostResult.isFrame] at hframe
  | read outcome =>
      cases outcome with
      | frame f => exact absurd ((hread f hresult).2.2.2 j hj hr hfree) (not_le.2 hlt)
      | _ => simp [hresult, HostResult.isFrame] at hframe

/-- The read returns the second frame, and frees the third one unread. -/
theorem stale_read : ¬Endpoints.initial.EveryRead Endpoints.ReadsLatest readAfterReassignment := by
  rintro ⟨hread, -⟩
  refine Endpoints.not_readsLatest 0 ?_ ?_ ?_ ?_ ?_ hread
  all_goals decide +kernel

end SecondScreen.Ring
