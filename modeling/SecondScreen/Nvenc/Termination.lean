import Mathlib.Data.Finset.Card
import Mathlib.Data.Fintype.Basic
import SecondScreen.Nvenc.Completion

/-!
# Termination of the output loops

`EncodeFrame` waits for a slot, and `Drain` for every output.  `PollOutput` polls only as
many outputs as there were successes, and a picture for which the encoder has asked for
more input is never counted.
-/

namespace SecondScreen.Nvenc

open SecondScreen.Conc SecondScreen.Ring

/-- `encodePicture` is called next. -/
def Point.submits : Point → Bool
  | .encode .. => true
  | _ => false

/-- `EncodeFrame` waits for a slot. -/
def Point.waits : Point → Bool
  | .makeRoom .. | .waitForOutput .. => true
  | _ => false

namespace Pipeline

variable {fps : Nat} {p q : Pipeline}

/-- The functions of the encoder succeed or ask for more input, and the device completes
the pictures that were pending at a success, each once. -/
def Contract (p : Pipeline) : Move → Prop
  | .step a =>
      (a.encodePicture = kNvencSuccess ∨ a.encodePicture = kNvencNeedMoreInput) ∧
        a.poll.waitFailed = none ∧ a.poll.lockBitstream = kNvencSuccess ∧
          a.poll.unlockBitstream = kNvencSuccess
  | .complete i => i ∈ p.encoder.pendingSlots ∧ p.due i = true ∧ p.completed i = false
  | _ => True

instance (p : Pipeline) : (move : Move) → Decidable (p.Contract move)
  | .step _ => inferInstanceAs (Decidable (_ ∧ _))
  | .complete _ => inferInstanceAs (Decidable (_ ∧ _))
  | .encodeFrame .. | .drain => .isTrue trivial

/-- No success after the encoder has asked for more input, and no frame after it has
asked three times. -/
def NoneLeftOver (p : Pipeline) : Move → Prop
  | .encodeFrame .. => p.statuses.count kNvencNeedMoreInput < kNvencPipelineSlotCount
  | .step a => p.point.submits = true → a.encodePicture = kNvencSuccess →
      kNvencNeedMoreInput ∉ p.statuses
  | _ => True

instance (p : Pipeline) : (move : Move) → Decidable (p.NoneLeftOver move)
  | .encodeFrame .. => inferInstanceAs (Decidable (_ < _))
  | .step _ => inferInstanceAs (Decidable (_ → _ → _))
  | .drain | .complete _ => .isTrue trivial

/-- Under the contract only a send that fails makes a call return `false` or throw. -/
def SendFailed (p : Pipeline) : Prop := p.point = .idle (some false) ∨ ¬ p.Alive

/-- What the loops of the encoder do in the end, if the device keeps its contract. -/
structure Terminates (fps : Nat) (p : Pipeline) : Prop where
  drain : p.point = .drain → (∀ status ∈ p.statuses.getLast?, status = kNvencSuccess) →
    Inevitable (Moves (next fps) Contract)
      (fun q ↦ q.point = .idle (some true) ∧ q.encoder.pendingSlots = [] ∨ q.SendFailed) p
  makeRoom : p.point.waits = true →
    Inevitable (Moves (next fps) Contract) (fun q ↦ q.point.waits = false) p
  available : ∀ i ∈ p.encoder.pendingSlots, p.completed i = true → p.encoder.readyOutputs ≠ 0

/-! ## The two counters -/

/-- The pending pictures are first those that were counted, which the device completes,
and then those that were not, which it does not. -/
structure Counted (p : Pipeline) (ready waiting : List SlotIndex) : Prop where
  pending : p.encoder.pendingSlots = ready ++ waiting
  readyOutputs : ready.length = p.encoder.readyOutputs
  uncounted : waiting.length = p.statuses.count kNvencNeedMoreInput
  due : ∀ i ∈ ready, p.due i = true
  signalled : ∀ i ∈ ready, p.completed i = true → (p.encoder.slots i).completionEvent = true
  notDue : ∀ i ∈ waiting, p.due i = false ∧ p.completed i = false

theorem needMoreInput_ne_success : kNvencNeedMoreInput ≠ kNvencSuccess := by decide

section Counted

variable {ready waiting : List SlotIndex}

/-- The slots may change, except that an event is reset only when its picture is not
complete. -/
theorem Counted.congr (h : p.Counted ready waiting)
    (hpending : q.encoder.pendingSlots = p.encoder.pendingSlots)
    (hready : q.encoder.readyOutputs = p.encoder.readyOutputs)
    (hstatuses : q.statuses = p.statuses) (hdue : q.due = p.due)
    (hsignalled : ∀ i ∈ ready, q.completed i = true →
      (q.encoder.slots i).completionEvent = true)
    (hcompleted : ∀ i ∈ waiting, q.completed i = p.completed i) : q.Counted ready waiting where
  pending := hpending.trans h.pending
  readyOutputs := h.readyOutputs.trans hready.symm
  uncounted := by
    rw [hstatuses]
    exact h.uncounted
  due := by
    rw [hdue]
    exact h.due
  signalled := hsignalled
  notDue i hi := by
    rw [hdue, hcompleted i hi]
    exact h.notDue i hi

/-- The device completes a picture that is due. -/
theorem Counted.complete (h : p.Counted ready waiting) {i : SlotIndex}
    (hdue : p.due i = true) :
    Counted { p with
      encoder := p.encoder.setSlot i { p.encoder.slots i with completionEvent := true }
      completed := Function.update p.completed i true } ready waiting := by
  refine h.congr rfl rfl rfl rfl (fun j hj hcompleted ↦ ?_) (fun j hj ↦ ?_)
  · show ((p.encoder.setSlot i _).slots j).completionEvent = true
    rcases eq_or_ne j i with rfl | hne
    · rw [NvencH264Encoder.setSlot_slots_self]
    · rw [NvencH264Encoder.setSlot_slots_of_ne hne]
      dsimp only at hcompleted
      rw [Function.update_of_ne hne] at hcompleted
      exact h.signalled j hj hcompleted
  · have hne : j ≠ i := by
      rintro rfl
      rw [(h.notDue j hj).1] at hdue
      cases hdue
    exact Function.update_of_ne hne true p.completed

/-- A slot that is not pending is written. -/
theorem Counted.signalled_setSlot (h : p.Counted ready waiting) {i : SlotIndex}
    (hfree : i ∉ p.encoder.pendingSlots) (s : PipelineSlot) {j : SlotIndex} (hj : j ∈ ready)
    (hcompleted : p.completed j = true) :
    ((p.encoder.setSlot i s).slots j).completionEvent = true := by
  have hne : j ≠ i := by
    rintro rfl
    rw [h.pending] at hfree
    exact hfree (List.mem_append_left waiting hj)
  rw [NvencH264Encoder.setSlot_slots_of_ne hne]
  exact h.signalled j hj hcompleted

/-- A success counts the picture, which is then the last of those that are due. -/
theorem Counted.success (h : p.Counted ready waiting) (hin : p.InOrder) {slotIndex : SlotIndex}
    (hfree : slotIndex ∉ p.encoder.pendingSlots) (hno : kNvencNeedMoreInput ∉ p.statuses)
    (frame : CapturedFrame) (frameIndex : Nat) :
    (p.accept fps frame frameIndex slotIndex kNvencSuccess).Counted (ready ++ [slotIndex]) [] := by
  have hnil : waiting = [] := by
    apply List.eq_nil_of_length_eq_zero
    rw [h.uncounted, List.count_eq_zero.2 hno]
  have hpending : p.encoder.pendingSlots = ready := by
    rw [h.pending, hnil, List.append_nil]
  refine ⟨?_, ?_, ?_, ?_, ?_, by simp⟩
  · show p.encoder.pendingSlots ++ [slotIndex] = (ready ++ [slotIndex]) ++ []
    rw [hpending, List.append_nil]
  · show (ready ++ [slotIndex]).length = (p.encoder.readyOutputs + 1) % 2 ^ 64
    have hle := hin.length
    have h3 : kNvencPipelineSlotCount = 3 := rfl
    rw [hpending] at hle
    rw [← h.readyOutputs, List.length_append, List.length_singleton]
    omega
  · show 0 = (p.statuses ++ [kNvencSuccess]).count kNvencNeedMoreInput
    rw [List.count_append, List.count_eq_zero.2 hno]
    rfl
  · intro j hj
    show (p.encoder.pendingSlots ++ [slotIndex]).contains j = true
    rw [hpending]
    exact List.contains_iff_mem.2 hj
  · intro j hj hcompleted
    have hupdate : Function.update p.completed slotIndex false j = true := hcompleted
    have hne : j ≠ slotIndex := by
      rintro rfl
      rw [Function.update_self] at hupdate
      cases hupdate
    rw [Function.update_of_ne hne] at hupdate
    have hmem : j ∈ ready :=
      (List.mem_append.1 hj).resolve_right fun hmem ↦ hne (List.mem_singleton.1 hmem)
    exact h.signalled_setSlot hfree _ hmem hupdate

/-- A picture for which more input is needed is left over. -/
theorem Counted.needMoreInput (h : p.Counted ready waiting) {slotIndex : SlotIndex}
    (hfree : slotIndex ∉ p.encoder.pendingSlots) (frame : CapturedFrame) (frameIndex : Nat) :
    (p.accept fps frame frameIndex slotIndex kNvencNeedMoreInput).Counted ready
      (waiting ++ [slotIndex]) := by
  -- the slots that were pending before are other ones
  have hother {j : SlotIndex} (hj : j ∈ ready ++ waiting) : j ≠ slotIndex := by
    rintro rfl
    rw [h.pending] at hfree
    exact hfree hj
  refine ⟨?_, h.readyOutputs, ?_, ?_, ?_, ?_⟩
  · show p.encoder.pendingSlots ++ [slotIndex] = ready ++ (waiting ++ [slotIndex])
    rw [h.pending, List.append_assoc]
  · show (waiting ++ [slotIndex]).length =
      (p.statuses ++ [kNvencNeedMoreInput]).count kNvencNeedMoreInput
    rw [List.length_append, List.count_append, h.uncounted]
    rfl
  · intro j hj
    have hne := hother (List.mem_append_left waiting hj)
    exact (Function.update_of_ne hne false p.due).trans (h.due j hj)
  · intro j hj hcompleted
    have hupdate : Function.update p.completed slotIndex false j = true := hcompleted
    rw [Function.update_of_ne (hother (List.mem_append_left waiting hj))] at hupdate
    exact h.signalled_setSlot hfree _ hj hupdate
  · intro j hj
    show Function.update p.due slotIndex false j = false ∧
      Function.update p.completed slotIndex false j = false
    rcases List.mem_append.1 hj with hj | hj
    · have hne := hother (List.mem_append_right ready hj)
      rw [Function.update_of_ne hne, Function.update_of_ne hne]
      exact h.notDue j hj
    · rw [List.mem_singleton.1 hj, Function.update_self, Function.update_self]
      exact ⟨rfl, rfl⟩

/-- What is sent is a picture that was counted. -/
theorem Counted.retired (h : p.Counted ready waiting) (hin : p.InOrder) {i : SlotIndex}
    {pendingSlots : List SlotIndex} (hpending : p.encoder.pendingSlots = i :: pendingSlots)
    (hready : p.encoder.readyOutputs ≠ 0) (packets : List Packet) (point : Point) :
    ∃ ready', Counted { p with encoder := p.encoder.retired i pendingSlots, packets, point }
      ready' waiting := by
  cases ready with
  | nil => exact absurd h.readyOutputs.symm hready
  | cons j ready =>
      obtain ⟨rfl, hpending'⟩ := List.cons.inj (h.pending.symm.trans hpending)
      have hnodup : (j :: pendingSlots).Nodup := by
        rw [← hpending, hin.pending]
        exact window_nodup _ hin.length
      refine ⟨ready, hpending'.symm, ?_, h.uncounted,
        fun i hi ↦ h.due i (List.mem_cons_of_mem j hi), ?_, h.notDue⟩
      · show ready.length = (p.encoder.readyOutputs + 2 ^ 64 - 1) % 2 ^ 64
        have hle := hin.ready
        have hmax := hin.length
        have hlength := h.readyOutputs
        have h3 : kNvencPipelineSlotCount = 3 := rfl
        rw [List.length_cons] at hlength
        omega
      · intro i hi hcompleted
        have hne : i ≠ j := by
          rintro rfl
          exact (List.nodup_cons.1 hnodup).1 (hpending' ▸ List.mem_append_left waiting hi)
        show ((p.encoder.setSlot j _).slots i).completionEvent = true
        rw [NvencH264Encoder.setSlot_slots_of_ne hne]
        exact h.signalled i (List.mem_cons_of_mem j hi) hcompleted

/-- Every move keeps the pending pictures so ordered. -/
theorem Effect.counted {move : Move} (he : Effect fps p move q) (hin : p.InOrder)
    (hf : p.Filled) (h : p.Counted ready waiting) (hcontract : p.Contract move)
    (hnone : p.NoneLeftOver move) : ∃ ready' waiting', q.Counted ready' waiting' := by
  cases he with
  | moved => exact ⟨ready, waiting, h.congr rfl rfl rfl rfl h.signalled fun _ _ ↦ rfl⟩
  | completed i => exact ⟨ready, waiting, h.complete hcontract.2.1⟩
  | filled hpoint hroom =>
      exact ⟨ready, waiting, h.congr rfl rfl rfl rfl
        (fun j hj hcompleted ↦ h.signalled_setSlot (hin.free hroom) _ hj hcompleted)
        fun _ _ ↦ rfl⟩
  | @accepted a frame frameIndex slotIndex hpoint hstatus =>
      obtain ⟨hslot, hroom, -⟩ := hf (frame, slotIndex) (by rw [hpoint]; rfl)
      have hfree : slotIndex ∉ p.encoder.pendingSlots := by
        dsimp only at hslot
        rw [hslot]
        exact hin.free hroom
      rcases hstatus with hstatus | hstatus
      · have hno := hnone (by rw [hpoint]; rfl) hstatus
        rw [hstatus]
        exact ⟨_, _, h.success hin hfree hno frame frameIndex⟩
      · rw [hstatus]
        exact ⟨_, _, h.needMoreInput hfree frame frameIndex⟩
  | waited _ hbusy =>
      obtain ⟨-, -, hlock, -⟩ := hcontract
      rw [hlock] at hbusy
      exact absurd hbusy (by decide)
  | retired hpending hready =>
      obtain ⟨ready', h⟩ := h.retired hin hpending hready _ _
      exact ⟨ready', waiting, h⟩

/-- A counted picture is complete, or the device completes it. -/
theorem Counted.front (h : p.Counted ready waiting) {i : SlotIndex}
    {pendingSlots : List SlotIndex} (hpending : p.encoder.pendingSlots = i :: pendingSlots)
    (hready : p.encoder.readyOutputs ≠ 0) :
    (p.encoder.slots i).completionEvent = true ∨ p.Contract (.complete i) := by
  cases ready with
  | nil => exact absurd h.readyOutputs.symm hready
  | cons j ready =>
      obtain ⟨rfl, -⟩ := List.cons.inj (h.pending.symm.trans hpending)
      cases hcompleted : p.completed j with
      | true => exact .inl (h.signalled j List.mem_cons_self hcompleted)
      | false =>
          right
          exact ⟨by rw [hpending]; exact List.mem_cons_self, h.due j List.mem_cons_self,
            hcompleted⟩

end Counted

/-! ## The measure -/

/-- The slots whose picture is not complete. -/
def incomplete (p : Pipeline) : Finset SlotIndex := {i | p.completed i = false}

theorem incomplete_lt {i : SlotIndex} (h : p.completed i = false)
    (hq : q.completed = Function.update p.completed i true) :
    q.incomplete.card < p.incomplete.card := by
  apply Finset.card_lt_card
  rw [Finset.ssubset_iff_of_subset]
  · refine ⟨i, by simp [incomplete, h], ?_⟩
    simp [incomplete, hq]
  · intro j hj
    simp only [incomplete, Finset.mem_filter, Finset.mem_univ, true_and, hq] at hj ⊢
    rcases eq_or_ne j i with rfl | hne
    · exact h
    · rwa [Function.update_of_ne hne] at hj

/-! ## The two loops -/

/-- The loops wait only for a counted picture. -/
theorem can_move {ready waiting : List SlotIndex} (h : p.Counted ready waiting)
    {next' : OutputPollResult → Point}
    (hpoint : ∀ a, p.next fps (.step a) = p.polled true a.poll next')
    (hpending : p.encoder.pendingSlots ≠ []) (hready : p.encoder.readyOutputs ≠ 0) :
    ∃ q, Moves (next fps) Contract p q := by
  obtain ⟨i, pendingSlots, hcons⟩ := List.exists_cons_of_ne_nil hpending
  rcases h.front hcons hready with hevent | hcontract
  · cases hnext : p.next fps (.step {}) with
    | some q => exact ⟨q, .step {}, ⟨.inl rfl, rfl, rfl, rfl⟩, hnext⟩
    | none =>
        rw [hpoint, polled, Option.map_eq_none_iff] at hnext
        obtain ⟨j, _, hcons', -, hblocked⟩ := NvencH264Encoder.pollOutput_eq_none hnext
        obtain ⟨rfl, -⟩ := List.cons.inj (hcons.symm.trans hcons')
        rw [hevent] at hblocked
        cases hblocked
  · exact ⟨_, .complete i, hcontract, rfl⟩

/-- Under the contract a waiting `PollOutput` that does not throw sends an output, if
there is a counted one. -/
theorem polled_retired {a : PollAnswer} {next' : OutputPollResult → Point}
    (h : p.polled true a next' = some q) (hq : q.Alive)
    (hlock : a.lockBitstream = kNvencSuccess) (hpending : p.encoder.pendingSlots ≠ [])
    (hready : p.encoder.readyOutputs ≠ 0) :
    ∃ i pendingSlots, ∃ sent : Bool, p.encoder.pendingSlots = i :: pendingSlots ∧
      q = { p with
        encoder := p.encoder.retired i pendingSlots
        packets := p.packets ++ [p.encoder.packet i]
        point := next' (if sent then .sent else .failed) } := by
  rcases polled_cases h hq with ⟨-, hnil | hzero | ⟨hwait, -⟩⟩ |
    ⟨i, pendingSlots, hcons, -, -, ⟨-, hbusy⟩ | ⟨sent, -, rfl⟩⟩
  · exact absurd hnil hpending
  · exact absurd hzero hready
  · cases hwait
  · rw [hlock] at hbusy
    exact absurd hbusy (by decide)
  · exact ⟨i, pendingSlots, sent, hcons, rfl⟩

theorem polled_point {wait : Bool} {a : PollAnswer} {next' : OutputPollResult → Point}
    (h : p.polled wait a next' = some q) (hq : q.Alive) : ∃ result, q.point = next' result := by
  rcases polled_cases h hq with ⟨rfl, -⟩ | ⟨_, _, -, -, -, ⟨rfl, -⟩ | ⟨_, -, rfl⟩⟩
  · exact ⟨.notReady, rfl⟩
  · exact ⟨.notReady, rfl⟩
  · exact ⟨_, rfl⟩

/-- A pass of `Drain` while something is pending. -/
theorem next_drain (hpoint : p.point = .drain) (a : Answer)
    (hpending : p.encoder.pendingSlots ≠ []) :
    p.next fps (.step a) = p.polled true a.poll fun
      | .notReady | .sent => .drain
      | .failed => .idle (some false) := by
  simp only [next, hpoint]
  exact if_neg hpending

/-- **`Drain` returns** with nothing pending, if every pending picture is counted. -/
theorem drain_inevitable (hin : p.InOrder) {ready waiting : List SlotIndex}
    (hcounted : p.Counted ready waiting) (hpoint : p.point = .drain)
    (hno : kNvencNeedMoreInput ∉ p.statuses) :
    Inevitable (Moves (next fps) Contract)
      (fun q ↦ q.point = .idle (some true) ∧ q.encoder.pendingSlots = [] ∨ q.SendFailed) p := by
  refine Inevitable.of_measure
    (I := fun p ↦ p.InOrder ∧ (∃ ready waiting, p.Counted ready waiting) ∧ p.point = .drain ∧
      kNvencNeedMoreInput ∉ p.statuses)
    (fun p ↦ p.encoder.pendingSlots.length + p.incomplete.card) ?_
    ⟨hin, ⟨ready, waiting, hcounted⟩, hpoint, hno⟩
  rintro p ⟨hin, ⟨ready, waiting, hcounted⟩, hpoint, hno⟩
  have hf : p.Filled := by
    intro s hs
    rw [hpoint] at hs
    cases hs
  have hready (hpending : p.encoder.pendingSlots ≠ []) : p.encoder.readyOutputs ≠ 0 := by
    have hnil : waiting = [] := by
      apply List.eq_nil_of_length_eq_zero
      rw [hcounted.uncounted, List.count_eq_zero.2 hno]
    rw [hcounted.pending, hnil, List.append_nil] at hpending
    rw [← hcounted.readyOutputs]
    exact fun hzero ↦ hpending (List.eq_nil_of_length_eq_zero hzero)
  have hstep := @next_drain fps _ hpoint
  constructor
  · rcases eq_or_ne p.encoder.pendingSlots [] with hpending | hpending
    · refine ⟨{ p with point := .idle (some true) }, .step {}, ⟨.inl rfl, rfl, rfl, rfl⟩, ?_⟩
      simp only [next, hpoint, if_pos hpending]
    · exact can_move hcounted (hstep · hpending) hpending (hready hpending)
  · rintro q ⟨move, hcontract, hnext⟩
    by_cases hq : q.Alive
    · have he := next_effect hnext hq
      have hnone : p.NoneLeftOver move := by
        cases move with
        | encodeFrame => simp only [next, hpoint] at hnext; cases hnext
        | step a => simp [NoneLeftOver, hpoint, Point.submits]
        | drain | complete => exact trivial
      have hkept := he.inOrder hin hf
      have hcounted' := he.counted hin hf hcounted hcontract hnone
      cases move with
      | encodeFrame | drain => simp only [next, hpoint] at hnext; cases hnext
      | complete i =>
          cases hnext
          right
          refine ⟨⟨hkept, hcounted', hpoint, hno⟩, ?_⟩
          exact Nat.add_lt_add_left (incomplete_lt hcontract.2.2 rfl) _
      | step a =>
          rcases eq_or_ne p.encoder.pendingSlots [] with hpending | hpending
          · simp only [next, hpoint, if_pos hpending] at hnext
            cases hnext
            exact .inl (.inl ⟨rfl, hpending⟩)
          · rw [hstep a hpending] at hnext
            obtain ⟨i, pendingSlots, sent, hcons, rfl⟩ :=
              polled_retired hnext hq hcontract.2.2.1 hpending (hready hpending)
            cases sent with
            | true =>
                right
                refine ⟨⟨hkept, hcounted', rfl, hno⟩, ?_⟩
                show pendingSlots.length + p.incomplete.card < _
                rw [hcons]
                exact Nat.add_lt_add_right (Nat.lt_succ_self _) _
            | false => exact .inl (.inr (.inl rfl))
    · exact .inl (.inr (.inr hq))

/-- `EncodeFrame` waits for a slot from here on, and will not wait in vain. -/
structure Waiting (p : Pipeline) : Prop where
  waits : p.point.waits = true
  counted : ∃ ready waiting, p.Counted ready waiting
  uncounted : p.statuses.count kNvencNeedMoreInput < kNvencPipelineSlotCount
  full : ∀ frame frameIndex, p.point = .waitForOutput frame frameIndex →
    kNvencPipelineSlotCount ≤ p.encoder.pendingSlots.length

theorem Waiting.ready (h : p.Waiting)
    (hfull : kNvencPipelineSlotCount ≤ p.encoder.pendingSlots.length) :
    p.encoder.readyOutputs ≠ 0 := by
  obtain ⟨ready, waiting, hcounted⟩ := h.counted
  have huncounted := h.uncounted
  rw [← hcounted.uncounted] at huncounted
  rw [hcounted.pending, List.length_append, hcounted.readyOutputs] at hfull
  omega

/-- Every move lowers it while `EncodeFrame` waits. -/
def waitMeasure (p : Pipeline) : Nat :=
  2 * p.encoder.pendingSlots.length + p.incomplete.card +
    match p.point with
    | .makeRoom .. => 1
    | _ => 0

theorem waits_cases (h : p.point.waits = true) :
    (∃ frame frameIndex, p.point = .makeRoom frame frameIndex) ∨
      ∃ frame frameIndex, p.point = .waitForOutput frame frameIndex := by
  cases hpoint : p.point with
  | makeRoom frame frameIndex => exact .inl ⟨frame, frameIndex, rfl⟩
  | waitForOutput frame frameIndex => exact .inr ⟨frame, frameIndex, rfl⟩
  | idle | encode | busy | retire | drain | threw => rw [hpoint] at h; cases h

/-- What a pass does while `EncodeFrame` waits. -/
theorem Waiting.pass (h : p.Waiting) (hin : p.InOrder) {a : Answer}
    (hnext : p.next fps (.step a) = some q) (hlock : a.poll.lockBitstream = kNvencSuccess)
    (hq : q.Alive) : q.point.waits = false ∨ q.Waiting ∧ q.waitMeasure < p.waitMeasure := by
  obtain ⟨ready, waiting, hcounted⟩ := h.counted
  rcases waits_cases h.waits with ⟨frame, frameIndex, hpoint⟩ | ⟨frame, frameIndex, hpoint⟩
  · simp only [next, hpoint] at hnext
    split_ifs at hnext with hfull <;> cases hnext
    · right
      refine ⟨⟨rfl, ⟨ready, waiting, hcounted.congr rfl rfl rfl rfl hcounted.signalled
        fun _ _ ↦ rfl⟩, h.uncounted, fun _ _ _ ↦ hfull⟩, ?_⟩
      simp only [waitMeasure, hpoint]
      exact Nat.lt_succ_self _
    · rw [fill_cases hq]
      exact .inl rfl
  · have hfull := h.full frame frameIndex hpoint
    have hpending : p.encoder.pendingSlots ≠ [] := by
      intro hnil
      rw [hnil] at hfull
      exact absurd hfull (by decide)
    simp only [next, hpoint, if_neg hpending] at hnext
    obtain ⟨i, pendingSlots, sent, hcons, rfl⟩ :=
      polled_retired hnext hq hlock hpending (h.ready hfull)
    cases sent with
    | true =>
        right
        obtain ⟨ready', hcounted'⟩ := hcounted.retired hin hcons (h.ready hfull)
          (p.packets ++ [p.encoder.packet i]) (.makeRoom frame frameIndex)
        refine ⟨⟨rfl, ⟨ready', waiting, hcounted'⟩, h.uncounted, fun _ _ h ↦ by cases h⟩, ?_⟩
        show 2 * pendingSlots.length + p.incomplete.card + 1 < p.waitMeasure
        simp only [waitMeasure, hpoint, hcons, List.length_cons]
        omega
    | false => exact .inl rfl

/-- **The wait for a slot ends**, if some pending picture is counted. -/
theorem Waiting.inevitable (h : p.Waiting) (hin : p.InOrder) :
    Inevitable (Moves (next fps) Contract) (fun q ↦ q.point.waits = false) p := by
  refine Inevitable.of_measure (I := fun p ↦ p.InOrder ∧ p.Waiting) waitMeasure ?_ ⟨hin, h⟩
  rintro p ⟨hin, h⟩
  have hf : p.Filled := by
    intro s hs
    rcases waits_cases h.waits with ⟨_, _, hpoint⟩ | ⟨_, _, hpoint⟩ <;>
    · rw [hpoint] at hs
      cases hs
  obtain ⟨ready, waiting, hcounted⟩ := h.counted
  constructor
  · rcases waits_cases h.waits with ⟨frame, frameIndex, hpoint⟩ | ⟨frame, frameIndex, hpoint⟩
    · cases hnext : p.next fps (.step {}) with
      | some q => exact ⟨q, .step {}, ⟨.inl rfl, rfl, rfl, rfl⟩, hnext⟩
      | none =>
          simp only [next, hpoint] at hnext
          split_ifs at hnext
    · have hfull := h.full frame frameIndex hpoint
      have hpending : p.encoder.pendingSlots ≠ [] := by
        intro hnil
        rw [hnil] at hfull
        exact absurd hfull (by decide)
      exact can_move hcounted (fun a ↦ by simp only [next, hpoint, if_neg hpending]; rfl) hpending
        (h.ready hfull)
  · rintro q ⟨move, hcontract, hnext⟩
    by_cases hq : q.Alive
    · have hkept := (next_effect hnext hq).inOrder hin hf
      cases move with
      | encodeFrame | drain =>
          rcases waits_cases h.waits with ⟨_, _, hpoint⟩ | ⟨_, _, hpoint⟩ <;>
          · simp only [next, hpoint] at hnext
            cases hnext
      | complete i =>
          cases hnext
          right
          refine ⟨⟨hkept, h.waits, ⟨ready, waiting, hcounted.complete hcontract.2.1⟩,
            h.uncounted, h.full⟩, ?_⟩
          unfold waitMeasure
          exact Nat.add_lt_add_right (Nat.add_lt_add_left (incomplete_lt hcontract.2.2 rfl) _) _
      | step a =>
          rcases h.pass hin hnext hcontract.2.2.1 hq with hleft | ⟨hwaiting, hlt⟩
          · exact .inl hleft
          · exact .inr ⟨⟨hkept, hwaiting⟩, hlt⟩
    · left
      have hthrew : ∃ error, q.point = .threw error := by
        by_contra hno
        exact hq fun error hpoint ↦ hno ⟨error, hpoint⟩
      obtain ⟨error, hpoint⟩ := hthrew
      rw [hpoint]
      rfl

/-! ## Runs -/

/-- What holds in a run in which nothing is left over. -/
structure Accounted (p : Pipeline) : Prop where
  inOrder : p.InOrder
  filled : p.Filled
  counted : ∃ ready waiting, p.Counted ready waiting
  last : kNvencNeedMoreInput ∈ p.statuses → p.statuses.getLast? = some kNvencNeedMoreInput
  waiting : p.point.waits = true → p.Waiting

/-- `EncodeFrame` waits from its call on. -/
theorem waits_of_next {move : Move} (hnext : p.next fps move = some q) (hq : q.Alive)
    (hwaits : q.point.waits = true) :
    p.point.waits = true ∨
      ∃ frame frameIndex, move = .encodeFrame frame frameIndex ∧
        q = { p with point := .makeRoom frame frameIndex } := by
  cases move with
  | encodeFrame frame frameIndex =>
      cases hpoint : p.point <;> simp only [next, hpoint] at hnext <;> cases hnext
      exact .inr ⟨frame, frameIndex, rfl, rfl⟩
  | drain =>
      cases hpoint : p.point <;> simp only [next, hpoint] at hnext <;> cases hnext
      cases hwaits
  | complete i =>
      cases hnext
      exact .inl hwaits
  | step a =>
      cases hpoint : p.point with
      | makeRoom | waitForOutput => exact .inl rfl
      | idle | threw => simp only [next, hpoint] at hnext; cases hnext
      | encode frame frameIndex slotIndex =>
          simp only [next, hpoint] at hnext
          split_ifs at hnext <;> cases hnext
          · cases hwaits
          · cases hwaits
          · unfold accept at hwaits
            dsimp only at hwaits
            split_ifs at hwaits <;> cases hwaits
      | busy | retire =>
          simp only [next, hpoint] at hnext
          obtain ⟨result, hresult⟩ := polled_point hnext hq
          rw [hresult] at hwaits
          cases result <;> cases hwaits
      | drain =>
          simp only [next, hpoint] at hnext
          split_ifs at hnext
          · cases hnext
            cases hwaits
          · obtain ⟨result, hresult⟩ := polled_point hnext hq
            rw [hresult] at hwaits
            cases result <;> cases hwaits

/-- The answers of `encodePicture` are recorded when it has accepted the picture. -/
theorem Effect.last {move : Move} (he : Effect fps p move q) (hnone : p.NoneLeftOver move)
    (h : kNvencNeedMoreInput ∈ p.statuses → p.statuses.getLast? = some kNvencNeedMoreInput) :
    kNvencNeedMoreInput ∈ q.statuses → q.statuses.getLast? = some kNvencNeedMoreInput := by
  cases he with
  | moved | completed | filled | waited | retired => exact h
  | @accepted a frame frameIndex slotIndex hpoint hstatus =>
      intro hmem
      show (p.statuses ++ [a.encodePicture]).getLast? = _
      rw [List.getLast?_concat]
      rcases hstatus with hstatus | hstatus
      · have hno := hnone (by rw [hpoint]; rfl) hstatus
        rcases List.mem_append.1 hmem with hmem | hmem
        · exact absurd hmem hno
        · rw [List.mem_singleton.1 hmem]
      · rw [hstatus]

theorem Accounted.step {move : Move} (h : p.Accounted) (hnext : p.next fps move = some q)
    (hcontract : p.Contract move) (hnone : p.NoneLeftOver move) (hq : q.Alive) :
    q.Accounted := by
  obtain ⟨ready, waiting, hcounted⟩ := h.counted
  have he := next_effect hnext hq
  refine ⟨he.inOrder h.inOrder h.filled, he.filled_of h.filled,
    he.counted h.inOrder h.filled hcounted hcontract hnone, he.last hnone h.last, ?_⟩
  intro hwaits
  rcases waits_of_next hnext hq hwaits with hwas | ⟨frame, frameIndex, rfl, rfl⟩
  · have hwaiting := h.waiting hwas
    cases move with
    | encodeFrame | drain =>
        rcases waits_cases hwas with ⟨_, _, hpoint⟩ | ⟨_, _, hpoint⟩ <;>
        · simp only [next, hpoint] at hnext
          cases hnext
    | complete i =>
        cases hnext
        exact ⟨hwas, ⟨ready, waiting, hcounted.complete hcontract.2.1⟩, hwaiting.uncounted,
          hwaiting.full⟩
    | step a =>
        rcases hwaiting.pass h.inOrder hnext hcontract.2.2.1 hq with hleft | ⟨hwaiting, -⟩
        · rw [hwaits] at hleft
          cases hleft
        · exact hwaiting
  · exact ⟨rfl, ⟨ready, waiting, hcounted.congr rfl rfl rfl rfl hcounted.signalled
      fun _ _ ↦ rfl⟩, hnone, fun _ _ h ↦ by cases h⟩

theorem accounted_run
    (hrun : Relation.ReflTransGen
      (Moves (next fps) fun p move ↦ p.Contract move ∧ p.NoneLeftOver move) {} p) :
    p.Alive → p.Accounted := by
  refine run_preserves (I := fun p ↦ p.Alive → p.Accounted) ?_ ?_ hrun
  · rintro p q h ⟨move, ⟨hcontract, hnone⟩, hnext⟩ hq
    exact (h (alive_of_next hnext hq)).step hnext hcontract hnone hq
  · intro halive
    obtain ⟨hin, hf⟩ := @inOrder_run fps _ .refl halive
    exact ⟨hin, hf, ⟨[], [], rfl, rfl, rfl, by simp, by simp, by simp⟩, by simp, nofun⟩

theorem Accounted.terminates (h : p.Accounted) : p.Terminates fps := by
  obtain ⟨ready, waiting, hcounted⟩ := h.counted
  constructor
  · intro hpoint hlast
    apply drain_inevitable h.inOrder hcounted hpoint
    intro hmem
    have hsuccess := hlast _ (h.last hmem)
    exact needMoreInput_ne_success hsuccess
  · intro hwaits
    exact (h.waiting hwaits).inevitable h.inOrder
  · intro i hi hcompleted hzero
    rw [← hcounted.readyOutputs] at hzero
    rw [hcounted.pending, List.eq_nil_of_length_eq_zero hzero] at hi
    rw [(hcounted.notDue i hi).2] at hcompleted
    cases hcompleted

/-- **The output loops terminate** in every run in which the encoder does not succeed
after it has asked for more input, and gets no frame after it has asked three times. -/
theorem terminates_run
    (hrun : Relation.ReflTransGen
      (Moves (next fps) fun p move ↦ p.Contract move ∧ p.NoneLeftOver move) {} p)
    (halive : p.Alive) : p.Terminates fps :=
  (accounted_run hrun halive).terminates

/-- Two pictures, then `Drain`. -/
def twoSuccesses : List Move :=
  [.encodeFrame { frameId := 7 } 0, .step {}, .step {}, .step {},
   .encodeFrame { frameId := 9 } 1, .step {}, .step {}, .step {}, .drain, .complete 1]

/-- `Drain` gets to its end. -/
theorem terminates_run_twoSuccesses : ∃ p : Pipeline, p.encoder.pendingSlots = [0, 1] ∧
    Inevitable (Moves (next 60) Contract)
      (fun q ↦ q.point = .idle (some true) ∧ q.encoder.pendingSlots = [] ∨ q.SendFailed) p := by
  obtain ⟨p, hrun, hpending, hpoint, hlast⟩ : ∃ p : Pipeline,
      Relation.ReflTransGen
        (Moves (next 60) fun p move ↦ p.Contract move ∧ p.NoneLeftOver move) {} p ∧
        p.encoder.pendingSlots = [0, 1] ∧ p.point = .drain ∧
          p.statuses.getLast? = some kNvencSuccess :=
    exists_run twoSuccesses (by decide +kernel)
  have halive : p.Alive := by
    intro error
    rw [hpoint]
    exact Point.noConfusion
  refine ⟨p, hpending, (terminates_run hrun halive).drain hpoint ?_⟩
  intro status hstatus
  rw [hlast] at hstatus
  cases hstatus
  rfl

/-- The encoder asks for more input, then succeeds, and the device completes both
pictures. -/
def moreInput : List Move :=
  [.encodeFrame { frameId := 7 } 0, .step {}, .step { encodePicture := kNvencNeedMoreInput },
   .encodeFrame { frameId := 9 } 1, .step {}, .step {}, .complete 0, .complete 1,
   .step {}, .step {}, .drain]

/-- In general the outputs of completed pictures are not counted: after these moves one is
pending that no loop will poll. -/
theorem more_input_not_counted :
    ¬ ∀ (fps : Nat) (p : Pipeline),
      Relation.ReflTransGen (Moves (next fps) Contract) {} p → p.Alive → p.Terminates fps := by
  intro h
  obtain ⟨p, hrun, hcompleted, hpending, hready, hpoint⟩ : ∃ p : Pipeline,
      Relation.ReflTransGen (Moves (next 60) Contract) {} p ∧ p.completed 1 = true ∧
        p.encoder.pendingSlots = [1] ∧ p.encoder.readyOutputs = 0 ∧ p.point = .drain :=
    exists_run moreInput (by decide +kernel)
  have halive : p.Alive := by
    intro error
    rw [hpoint]
    exact Point.noConfusion
  exact (h 60 p hrun halive).available 1
    (hpending ▸ List.mem_singleton.2 rfl) hcompleted hready

end Pipeline

end SecondScreen.Nvenc
