import SecondScreen.Nvenc.Order

/-!
# Completions

A completion event is signalled once for each completed picture, and the wait that
succeeds resets it.  `PollOutput` waits before it knows whether it can lock the bitstream,
and waits again if it could not.
-/

namespace SecondScreen.Nvenc

open SecondScreen.Conc

namespace Pipeline

variable {fps : Nat} {p q : Pipeline}

/-- The device completes each submitted picture at most once. -/
def CompletesOnce (p : Pipeline) : Move → Prop
  | .complete i => i ∈ p.encoder.pendingSlots ∧ p.completed i = false
  | _ => True

instance (p : Pipeline) : (move : Move) → Decidable (p.CompletesOnce move)
  | .complete _ => inferInstanceAs (Decidable (_ ∧ _))
  | .encodeFrame .. | .drain | .step _ => .isTrue trivial

/-- `lockBitstream` does not find the bitstream busy. -/
def NeverLockBusy : Move → Prop
  | .step a => a.poll.lockBitstream ≠ kNvencLockBusy
  | _ => True

instance : (move : Move) → Decidable (NeverLockBusy move)
  | .step _ => inferInstanceAs (Decidable (_ ≠ _))
  | .encodeFrame .. | .drain | .complete _ => .isTrue trivial

/-- The event of a completed picture whose output has not been sent is still signalled,
so that the next `PollOutput` gets past the wait. -/
def Retrievable (p : Pipeline) : Prop :=
  ∀ i ∈ p.encoder.pendingSlots, p.completed i = true →
    (p.encoder.slots i).completionEvent = true

theorem Effect.retrievable {move : Move} (he : Effect fps p move q) (h : p.Retrievable)
    (hin : p.InOrder) (hmove : NeverLockBusy move) : q.Retrievable := by
  intro j hj hcompleted
  cases he with
  | moved => exact h j hj hcompleted
  | completed i =>
      show ((p.encoder.setSlot i _).slots j).completionEvent = true
      rcases eq_or_ne j i with rfl | hne
      · rw [NvencH264Encoder.setSlot_slots_self]
      · rw [NvencH264Encoder.setSlot_slots_of_ne hne]
        have hupdate : Function.update p.completed i true j = true := hcompleted
        rw [Function.update_of_ne hne] at hupdate
        exact h j hj hupdate
  | filled =>
      show ((p.encoder.setSlot p.encoder.nextSlot _).slots j).completionEvent = true
      rcases eq_or_ne j p.encoder.nextSlot with rfl | hne
      · rw [NvencH264Encoder.setSlot_slots_self]
        exact h _ hj hcompleted
      · rw [NvencH264Encoder.setSlot_slots_of_ne hne]
        exact h j hj hcompleted
  | @accepted a frame frameIndex slotIndex hpoint =>
      have hupdate : Function.update p.completed slotIndex false j = true := hcompleted
      have hne : j ≠ slotIndex := by
        rintro rfl
        rw [Function.update_self] at hupdate
        cases hupdate
      have hmem : j ∈ p.encoder.pendingSlots :=
        (List.mem_append.1 hj).resolve_right fun hmem ↦ hne (List.mem_singleton.1 hmem)
      show ((p.encoder.setSlot slotIndex _).slots j).completionEvent = true
      rw [NvencH264Encoder.setSlot_slots_of_ne hne]
      rw [Function.update_of_ne hne] at hupdate
      exact h j hmem hupdate
  | waited _ hbusy => exact absurd hbusy hmove
  | @retired a i pendingSlots point hpending =>
      have hnodup : (i :: pendingSlots).Nodup := by
        rw [← hpending, hin.pending]
        exact window_nodup _ hin.length
      have hne : j ≠ i := fun heq ↦ (List.nodup_cons.1 hnodup).1 (heq ▸ hj)
      show ((p.encoder.setSlot i _).slots j).completionEvent = true
      rw [NvencH264Encoder.setSlot_slots_of_ne hne]
      exact h j (hpending ▸ List.mem_cons_of_mem i hj) hcompleted

/-- **No completion is lost** as long as no bitstream is busy when `PollOutput` locks it. -/
theorem retrievable_run
    (hrun : Relation.ReflTransGen
      (Moves (next fps) fun p move ↦ p.CompletesOnce move ∧ NeverLockBusy move) {} p)
    (halive : p.Alive) : p.Retrievable := by
  have hinv : p.Alive → (p.InOrder ∧ p.Filled) ∧ p.Retrievable := by
    refine run_preserves (I := fun p ↦ p.Alive → (p.InOrder ∧ p.Filled) ∧ p.Retrievable) ?_ ?_ hrun
    · rintro p q h ⟨move, ⟨-, hmove⟩, hnext⟩ hq
      obtain ⟨⟨hin, hf⟩, hret⟩ := h (alive_of_next hnext hq)
      have he := next_effect hnext hq
      exact ⟨⟨he.inOrder hin hf, he.filled_of hf⟩, he.retrievable hret hin hmove⟩
    · intro halive
      exact ⟨@inOrder_run fps _ .refl halive, by simp [Retrievable]⟩
  exact (hinv halive).2

/-- The device completes the picture after the first `PollOutput`; the next one, when
the encoder is drained, sends it. -/
def completedLate : List Move :=
  [.encodeFrame { frameId := 7 } 0, .step {}, .step {}, .step {}, .complete 0]

theorem retrievable_run_completedLate : ∃ p : Pipeline, p.completed 0 = true ∧
    p.encoder.pendingSlots = [0] ∧ p.Retrievable := by
  obtain ⟨p, hrun, hcompleted, hpending, hpoint⟩ : ∃ p : Pipeline,
      Relation.ReflTransGen
        (Moves (next 60) fun p move ↦ p.CompletesOnce move ∧ NeverLockBusy move) {} p ∧
        p.completed 0 = true ∧ p.encoder.pendingSlots = [0] ∧ p.point = .idle (some true) :=
    exists_run completedLate (by decide +kernel)
  refine ⟨p, hcompleted, hpending, retrievable_run hrun ?_⟩
  intro error
  rw [hpoint]
  exact Point.noConfusion

/-- The bitstream of the completed picture is busy when it is locked first. -/
def busyBitstream : List Move :=
  [.encodeFrame { frameId := 7 } 0, .step {}, .step {}, .complete 0,
   .step { poll := { lockBitstream := kNvencLockBusy } }]

/-- In general a completion is lost: the event of the picture has been reset, and its
output is still pending. -/
theorem busy_bitstream_lost :
    ¬ ∀ (fps : Nat) (p : Pipeline),
      Relation.ReflTransGen (Moves (next fps) CompletesOnce) {} p → p.Alive →
        p.Retrievable := by
  intro h
  obtain ⟨p, hrun, hcompleted, hpending, hevent, hpoint⟩ : ∃ p : Pipeline,
      Relation.ReflTransGen (Moves (next 60) CompletesOnce) {} p ∧ p.completed 0 = true ∧
        p.encoder.pendingSlots = [0] ∧ (p.encoder.slots 0).completionEvent = false ∧
          p.point = .idle (some true) := exists_run busyBitstream (by decide +kernel)
  have halive : p.Alive := by
    intro error
    rw [hpoint]
    exact Point.noConfusion
  have hret := h 60 p hrun halive 0 (hpending ▸ List.mem_singleton.2 rfl)
    hcompleted
  rw [hevent] at hret
  cases hret

end Pipeline

end SecondScreen.Nvenc
