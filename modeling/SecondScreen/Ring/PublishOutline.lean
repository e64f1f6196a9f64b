import SecondScreen.Conc.RelyGuarantee
import SecondScreen.Ring.Driver

/-!
# Proof outlines of a publish

`PublishOutline` lists what has to be shown of each operation of
`PublishBgraFrame`: the assertion before the claim, the one while the slot is
being written, and the one afterwards.  `PublishOutline.triple` puts the
operations together.

Nothing is said here of the state or of what runs next to the publish, so that
one proof of the program serves against a host that reads, against a host that
resets the ring, and alone.
-/

namespace SecondScreen.Ring

open SecondScreen.Conc SecondScreen.Machine

variable {ω σ : Type} {exec : Exec RingOp ω σ} {rg : RG σ} {A : σ → Prop} {B : Slot → σ → Prop}

/-! ## Claiming -/

/-- What the operations of a claim do: `A` holds before it, and `B i` once slot
`i` is taken. -/
structure ClaimOutline (exec : Exec RingOp ω σ) (rg : RG σ) (A : σ → Prop)
    (B : Slot → σ → Prop) : Prop where
  stable : rg.Stable A
  stable_taken : ∀ i, rg.Stable (B i)
  read : ∀ {β : Type} {o : RingOp β}, RingOp.IsRead β o → OpTriple exec rg A o fun _ ↦ A
  take : ∀ i expected, expected = .free ∨ expected = .ready →
    OpTriple exec rg A (.compareExchange i .writing expected) fun old s ↦
      if old = expected then B i s else A s

/-- What a claim ends in. -/
def Taken (A : σ → Prop) (B : Slot → σ → Prop) : Option Slot → σ → Prop
  | none => A
  | some i => B i

namespace ClaimOutline

/-- A compare-and-exchange of the driver takes the slot, or changes nothing. -/
theorem compareExchange (h : ClaimOutline exec rg A B) (i : Slot) {expected : SlotState}
    (he : expected = .free ∨ expected = .ready) {α : Type} {Q : α → σ → Prop}
    {k : SlotState → RingProg α} (hk : Triple exec rg (B i) (k expected) Q)
    (hk' : ∀ old, old ≠ expected → Triple exec rg A (k old) Q) :
    Triple exec rg A (.act (.compareExchange i .writing expected) k) Q := by
  refine Triple.act h.stable _ (h.take i expected he) fun old ↦ ?_
  by_cases hold : old = expected
  · subst hold
    simpa using hk
  · simpa [hold] using hk' old hold

theorem claimFree (h : ClaimOutline exec rg A B) (l : List Slot) :
    Triple exec rg A (claimFree l) (Taken A B) := by
  induction l with
  | nil => exact Triple.ret h.stable fun _ hs ↦ hs
  | cons i l ih =>
      refine h.compareExchange i (.inl rfl) ?_ fun old hold ↦ ?_
      · exact Triple.ret (h.stable_taken i) fun _ hs ↦ hs
      · simpa [hold] using ih

theorem findOldest (h : ClaimOutline exec rg A B) (l : List Slot) (oldest : Option Slot)
    (sequence : Nat) : Triple exec rg A (findOldest l oldest sequence) fun _ ↦ A := by
  have hread {β : Type} {o : RingOp β} (ho : RingOp.IsRead β o) {α : Type} {Q : α → σ → Prop}
      {k : β → RingProg α} (hk : ∀ r, Triple exec rg A (k r) Q) :
      Triple exec rg A (.act o k) Q :=
    Triple.act h.stable _ (h.read ho) hk
  induction l generalizing oldest sequence with
  | nil => exact Triple.ret h.stable fun _ hs ↦ hs
  | cons i l ih =>
      apply hread (o := .readState i) trivial
      intro st
      simp only [Prog.bind_eq, Prog.ret_bind]
      split
      · apply hread (o := .readField i .sequence) trivial
        intro n
        simp only [Prog.ret_bind]
        split
        · apply hread (o := .readField i .sequence) trivial
          exact fun n ↦ ih _ _
        · exact ih _ _
      · exact ih _ _

theorem claimAttempts (h : ClaimOutline exec rg A B) (n : Nat) :
    Triple exec rg A (claimAttempts n) (Taken A B) := by
  have htaken (i : Slot) : Triple exec rg (B i) (.ret (some i)) (Taken A B) :=
    Triple.ret (h.stable_taken i) fun _ hs ↦ hs
  induction n with
  | zero => exact Triple.ret h.stable fun _ hs ↦ hs
  | succ n ih =>
      refine Triple.bind _ (h.claimFree slotIndices) fun slot ↦ ?_
      cases slot with
      | some i => exact htaken i
      | none =>
          refine Triple.bind _ (h.findOldest slotIndices none uint64Max) fun oldest ↦ ?_
          cases oldest with
          | none => exact ih
          | some i =>
              apply h.compareExchange i (.inr rfl)
              · exact htaken i
              · intro old hold
                simpa [hold] using ih

end ClaimOutline

/-! ## Filling the slot -/

theorem writeFields_outline {W : List SlotField → σ → Prop} (hW : ∀ done, rg.Stable (W done))
    {i : Slot} {value : SlotField → Nat}
    (hstep : ∀ done f, OpTriple exec rg (W done) (.writeField i f (value f)) fun _ ↦ W (f :: done))
    (l done : List SlotField) :
    Triple exec rg (W done) (writeFields i value l) fun _ ↦ W (l.reverse ++ done) := by
  induction l generalizing done with
  | nil => exact Triple.ret (hW done) fun _ h ↦ h
  | cons f l ih =>
      refine Triple.act (hW done) _ (hstep done f) fun _ ↦ ?_
      simpa using ih (f :: done)

theorem writePayload_outline {W : Nat → σ → Prop} (hW : ∀ n, rg.Stable (W n)) {i : Slot}
    {bytes : Bytes}
    (hstep : ∀ n, OpTriple exec rg (W n) (.writeByte i n (bytes n)) fun _ ↦ W (n + 1))
    (count n : Nat) :
    Triple exec rg (W n) (writePayload i bytes count n) fun _ ↦ W (n + count) := by
  induction count generalizing n with
  | zero => exact Triple.ret (hW n) fun _ h ↦ h
  | succ count ih =>
      refine Triple.act (hW n) _ (hstep n) fun _ ↦ ?_
      simpa [Nat.add_assoc, Nat.add_comm 1] using ih (n + 1)

theorem addTelemetryTotals_outline (hA : rg.Stable A)
    (hstep : ∀ t v, OpTriple exec rg A (.addTelemetry t v) fun _ ↦ A)
    (frame : PendingBgraFrame) (env : PublishEnv) :
    Triple exec rg A (addTelemetryTotals frame env) fun _ ↦ A :=
  Triple.act hA _ (hstep _ _) fun _ ↦ Triple.act hA _ (hstep _ _) fun _ ↦
    Triple.act hA _ (hstep _ _) fun _ ↦ Triple.act hA _ (hstep _ _) fun _ ↦
      Triple.ret hA fun _ h ↦ h

/-! ## The publish -/

variable {m : SwapChainProcessor} {frame : PendingBgraFrame} {env : PublishEnv}

/-- A proof about each operation of `PublishBgraFrame`. -/
structure PublishOutline (exec : Exec RingOp ω σ) (rg : RG σ) (m : SwapChainProcessor)
    (frame : PendingBgraFrame) (env : PublishEnv) where
  /-- Before a slot is claimed. -/
  before : σ → Prop
  /-- The slot is claimed, and the given fields and the first bytes are
  written. -/
  writing : Slot → List SlotField → Nat → σ → Prop
  /-- The slot is ready, and `SetEvent` still to be called. -/
  announced : Slot → σ → Prop
  after : Bool × SwapChainProcessor → σ → Prop
  claims : ClaimOutline exec rg before fun i ↦ writing i [] 0
  stable : ∀ i done n, rg.Stable (writing i done n)
  stable_announced : ∀ i, rg.Stable (announced i)
  stable_after : ∀ r, rg.Stable (after r)
  refuse : ∀ s, before s → after (false, m) s
  giveUp : env.timestampUs frame = 0 → ∀ i,
    OpTriple exec rg (writing i [] 0) (.exchange i .free) fun _ ↦ after (false, m)
  field : ∀ i done f, OpTriple exec rg (writing i done 0)
    (.writeField i f (slotFields m frame (env.timestampUs frame) f)) fun _ ↦ writing i (f :: done) 0
  byte : ∀ source, env.buffer frame = some source → ∀ i done n, OpTriple exec rg (writing i done n)
    (.writeByte i n (pictureBytes source frame n)) fun _ ↦ writing i done (n + 1)
  telemetry : ∀ i done n t v,
    OpTriple exec rg (writing i done n) (.addTelemetry t v) fun _ ↦ writing i done n
  announce : env.timestampUs frame ≠ 0 → ∀ i,
    OpTriple exec rg
      (writing i fieldOrder.reverse (slotFields m frame (env.timestampUs frame) .payloadLength))
      (.exchange i .ready) fun _ ↦ announced i
  signalled : env.setEvent = true → ∀ i s, announced i s → after (true, m.bump) s
  unsignalled : env.setEvent = false → ∀ i,
    OpTriple exec rg (announced i) (.exchange i .free) fun _ ↦ after (false, m.bump)

/-- **One proof for each operation makes a proof of the publish.** -/
theorem PublishOutline.triple (O : PublishOutline exec rg m frame env) :
    Triple exec rg O.before (publishBgraFrame m frame env) O.after := by
  have hrefuse : Triple exec rg O.before (.ret (false, m)) O.after :=
    Triple.ret O.claims.stable O.refuse
  unfold publishBgraFrame
  split
  case h_2 => exact hrefuse
  next source hsource hmapped =>
    refine Triple.bind _ (O.claims.claimAttempts (kSlotCount + 1)) fun slot ↦ ?_
    cases slot with
    | none => exact hrefuse
    | some i =>
        simp only [Prog.bind_eq, Prog.pure_eq]
        split
        · next hts =>
          exact Triple.act (O.stable i [] 0) _ (O.giveUp hts i) fun _ ↦
            Triple.ret (O.stable_after _) fun _ h ↦ h
        next hts =>
        have hfields := writeFields_outline (fun done ↦ O.stable i done 0) (O.field i) fieldOrder []
        rw [List.append_nil] at hfields
        refine Triple.bind _ hfields fun _ ↦ ?_
        have hpayload := writePayload_outline (O.stable i fieldOrder.reverse)
          (O.byte source hsource i fieldOrder.reverse)
          (slotFields m frame (env.timestampUs frame) .payloadLength) 0
        rw [Nat.zero_add] at hpayload
        refine Triple.bind _ hpayload fun _ ↦ ?_
        refine Triple.bind _ (addTelemetryTotals_outline (O.stable i _ _) (O.telemetry i _ _)
          frame env) fun _ ↦ ?_
        refine Triple.act (O.stable i _ _) _ (O.announce hts i) fun _ ↦ ?_
        split
        · next hset => exact Triple.ret (O.stable_announced i) (O.signalled hset i)
        · next hset =>
          exact Triple.act (O.stable_announced i) _ (O.unsignalled (by simpa using hset) i) fun _ ↦
            Triple.ret (O.stable_after _) fun _ h ↦ h

end SecondScreen.Ring
