import SecondScreen.Conc.RelyGuarantee
import SecondScreen.Ring.Reader

/-!
# The operations of `TryReadLatest`

Which atomic operations the host performs at all, and which of them once it has
claimed a slot; and what these operations can make of a ring, whatever its
contents: a state word only ever moves on from ready to reading to free, and
nothing else changes (`Loosens`).
-/

namespace SecondScreen.Ring

open SecondScreen.Conc

/-- The operations of the clean-up: it reads, and frees slots other than the
selected one. -/
def CleansUp (selected : Slot) : (β : Type) → RingOp β → Prop
  | _, .compareExchange i .free .ready => i ≠ selected
  | β, o => RingOp.IsRead β o

/-- The operations of the host once it has claimed a slot: it reads, cleans up
and gives slots back. -/
def AfterClaim : (β : Type) → RingOp β → Prop
  | _, .compareExchange _ .free .ready | _, .exchange _ .free => True
  | β, o => RingOp.IsRead β o

/-- The operations of the host. -/
def HostOp : (β : Type) → RingOp β → Prop
  | _, .compareExchange _ .reading .ready => True
  | β, o => AfterClaim β o

/-- What the host does after a claim is an operation of the host. -/
theorem AfterClaim.hostOp {β : Type} {o : RingOp β} (ho : AfterClaim β o) : HostOp β o := by
  cases o with
  | compareExchange i x e => cases x <;> cases e <;> first | exact ho | trivial
  | _ => exact ho

theorem RingOp.IsRead.afterClaim {β : Type} {o : RingOp β} (ho : RingOp.IsRead β o) :
    AfterClaim β o := by
  cases o <;> first | exact ho.elim | trivial

/-- The clean-up comes after the claim. -/
theorem CleansUp.afterClaim {i : Slot} {β : Type} {o : RingOp β} (ho : CleansUp i β o) :
    AfterClaim β o := by
  cases o with
  | compareExchange j x e => cases x <;> cases e <;> first | exact ho.elim | trivial
  | _ => exact RingOp.IsRead.afterClaim ho

theorem RingOp.IsRead.cleansUp {i : Slot} {β : Type} {o : RingOp β} (ho : RingOp.IsRead β o) :
    CleansUp i β o := by
  cases o <;> first | exact ho.elim | trivial

theorem RingOp.IsRead.hostOp {β : Type} {o : RingOp β} (ho : RingOp.IsRead β o) : HostOp β o := by
  cases o <;> first | exact ho.elim | trivial

/-- The check of the header only reads, however many fields it compares. -/
theorem isValidFrameRingHeader_uses (l : List HeaderField) :
    (isValidFrameRingHeader l).Uses RingOp.IsRead := by
  induction l with
  | nil => trivial
  | cons f l ih =>
      refine ⟨trivial, fun v ↦ ?_⟩
      simp only [Prog.ret_bind]
      split
      · exact ih
      · trivial

/-- The search for the newest frame only reads. -/
theorem scanNewest_uses (l : List Slot) (newest : Option (Slot × Nat)) :
    (scanNewest l newest).Uses RingOp.IsRead := by
  induction l generalizing newest with
  | nil => trivial
  | cons i l ih =>
      refine ⟨trivial, fun st ↦ ?_⟩
      simp only [Prog.bind_eq, Prog.ret_bind]
      split
      · cases newest with
        | none => exact ⟨trivial, fun n ↦ ih _⟩
        | some best =>
            refine ⟨trivial, fun n ↦ ?_⟩
            simp only [Prog.ret_bind]
            split
            · exact ⟨trivial, fun n ↦ ih _⟩
            · exact ih _
      · exact ih _

/-- So does the second look at the other slots. -/
theorem newerReadySlot_uses (i : Slot) (l : List Slot) :
    (newerReadySlot i l).Uses RingOp.IsRead := by
  induction l with
  | nil => trivial
  | cons j l ih =>
      rw [newerReadySlot]
      split
      · exact ih
      refine ⟨trivial, fun st ↦ ?_⟩
      simp only [Prog.ret_bind]
      split
      · refine ⟨trivial, fun v ↦ ⟨trivial, fun w ↦ ?_⟩⟩
        simp only [Prog.ret_bind]
        split
        · trivial
        · exact ih
      · exact ih

/-- The purge skips the selected slot. -/
theorem purgeOlder_uses (i : Slot) (l : List Slot) : (purgeOlder i l).Uses (CleansUp i) := by
  induction l with
  | nil => trivial
  | cons j l ih =>
      rw [purgeOlder]
      split
      · exact ih
      next hj =>
      refine ⟨trivial, fun st ↦ ?_⟩
      simp only [Prog.ret_bind]
      split
      · refine ⟨trivial, fun v ↦ ⟨trivial, fun w ↦ ?_⟩⟩
        simp only [Prog.ret_bind]
        split
        · exact ⟨hj, fun _ ↦ ih⟩
        · exact ih
      · exact ih

/-- The check of a slot only reads, at each of its returns. -/
theorem isValidSlot_uses (i : Slot) : (isValidSlot i).Uses RingOp.IsRead := by
  refine ⟨trivial, fun w ↦ ⟨trivial, fun h ↦ ⟨trivial, fun st ↦ ⟨trivial, fun v ↦ ?_⟩⟩⟩⟩
  simp only [Prog.ret_bind]
  split
  · trivial
  refine ⟨trivial, fun v ↦ ?_⟩
  simp only [Prog.ret_bind]
  split
  · trivial
  refine ⟨trivial, fun v ↦ ?_⟩
  simp only [Prog.ret_bind]
  split
  · trivial
  split
  · trivial
  split
  · trivial
  refine ⟨trivial, fun v ↦ ?_⟩
  simp only [Prog.ret_bind]
  split <;> trivial

/-- The copy of the payload only reads. -/
theorem readPayload_uses (i : Slot) (count n : Nat) :
    (readPayload i count n).Uses RingOp.IsRead := by
  induction count generalizing n with
  | zero => trivial
  | succ count ih => exact ⟨trivial, fun b ↦ (ih (n + 1)).bind fun _ ↦ trivial⟩

/-- Skipped frames are counted by reading. -/
theorem skippedBefore_uses (last : Nat) (i : Slot) :
    (skippedBefore last i).Uses RingOp.IsRead := by
  unfold skippedBefore
  split
  · trivial
  refine ⟨trivial, fun v ↦ ?_⟩
  simp only [Prog.ret_bind]
  split
  · exact ⟨trivial, fun _ ↦ trivial⟩
  · trivial

/-- A frame is copied, and its slot is given back. -/
theorem consumeSlot_uses (r : FrameRingReader) (i : Slot) (n : Nat) :
    (consumeSlot r i n).Uses AfterClaim := by
  have hread {α : Type} {p : RingProg α} (hp : p.Uses RingOp.IsRead) : p.Uses AfterClaim :=
    hp.mono fun _ _ ↦ RingOp.IsRead.afterClaim
  exact (hread (readPayload_uses i n 0)).bind fun _ ↦ ⟨trivial, fun _ ↦ ⟨trivial, fun _ ↦
    ⟨trivial, fun _ ↦ ⟨trivial, fun _ ↦ ⟨trivial, fun _ ↦ (hread (skippedBefore_uses _ i)).bind
      fun _ ↦ ⟨trivial, fun _ ↦ ⟨trivial, fun _ ↦ trivial⟩⟩⟩⟩⟩⟩⟩

/-- A claimed slot is read or given back; no other is claimed. -/
theorem readSelected_uses (r : FrameRingReader) (i : Slot) :
    (readSelected r i).Uses AfterClaim := by
  refine ((purgeOlder_uses i slotIndices).mono fun _ _ ↦ CleansUp.afterClaim).bind fun _ ↦
    ((isValidSlot_uses i).mono fun _ _ ↦ RingOp.IsRead.afterClaim).bind fun n ↦ ?_
  cases n with
  | none => exact ⟨trivial, fun _ ↦ trivial⟩
  | some n => exact consumeSlot_uses r i n

/-- Each attempt claims a slot at most once. -/
theorem readAttempts_uses (r : FrameRingReader) (n : Nat) : (readAttempts r n).Uses HostOp := by
  induction n with
  | zero => trivial
  | succ n ih =>
      refine ((scanNewest_uses slotIndices none).mono fun _ _ ↦ RingOp.IsRead.hostOp).bind
        fun best ↦ ?_
      cases best with
      | none => trivial
      | some best =>
          refine ⟨trivial, fun old ↦ ?_⟩
          simp only [Prog.pure_eq, Prog.ret_bind]
          split
          · refine ((newerReadySlot_uses best.1 slotIndices).mono
              fun _ _ ↦ RingOp.IsRead.hostOp).bind fun newer ↦ ?_
            cases newer with
            | true => exact ⟨trivial, fun _ ↦ ih⟩
            | false => exact (readSelected_uses r best.1).mono fun _ _ ↦ AfterClaim.hostOp
          · exact ih

/-- The host claims, reads, purges and gives back, and does nothing else to the ring. -/
theorem tryReadLatest_uses (r : FrameRingReader) : (tryReadLatest r).Uses HostOp := by
  refine ((isValidFrameRingHeader_uses headerOrder).mono fun _ _ ↦ RingOp.IsRead.hostOp).bind
    fun valid ↦ ?_
  cases valid with
  | true => exact readAttempts_uses r _
  | false => trivial

/-! ## Their effect -/

/-- What a state word can become while the driver has claimed nothing. -/
def SlotState.Loosens (s t : SlotState) : Prop := s = t ∨ t = .free ∨ s = .ready ∧ t = .reading

/-- State words move on through any number of operations. -/
theorem SlotState.Loosens.trans {s t u : SlotState} (h : s.Loosens t) (h' : t.Loosens u) :
    s.Loosens u := by
  rcases h with rfl | rfl | ⟨rfl, rfl⟩
  · exact h'
  · rcases h' with rfl | rfl | ⟨h, -⟩
    · exact .inr (.inl rfl)
    · exact .inr (.inl rfl)
    · cases h
  · rcases h' with rfl | rfl | ⟨h, -⟩
    · exact .inr (.inr ⟨rfl, rfl⟩)
    · exact .inr (.inl rfl)
    · cases h

/-- No operation of the host writes a payload. -/
theorem HostOp.payload {β : Type} {o : RingOp β} (ho : HostOp β o) (ring : FrameRing) (i : Slot) :
    ((RingOp.exec β o ring).2.slots i).payload = (ring.slots i).payload := by
  have hset (j : Slot) (st : SlotState) :
      ((ring.setState j st).slots i).payload = (ring.slots i).payload := by
    by_cases hi : i = j
    · subst hi
      simp
    · simp [hi]
  cases o with
  | compareExchange j x e =>
      simp only [RingOp.exec]
      split
      · exact hset j x
      · rfl
  | exchange j x => exact hset j x
  | readState | readField | readByte | readHeader => rfl
  | writeField | writeByte | addTelemetry => exact ho.elim

/-- The clean-up leaves the selected slot alone. -/
theorem CleansUp.slots_selected {i : Slot} {β : Type} {o : RingOp β} (ho : CleansUp i β o)
    (ring : FrameRing) : (RingOp.exec β o ring).2.slots i = ring.slots i := by
  cases o with
  | compareExchange j x e =>
      cases x <;> cases e <;> first | exact ho.elim | skip
      simp only [RingOp.exec]
      split
      · exact FrameRing.setState_of_ne (Ne.symm ho) _
      · rfl
  | readState | readField | readByte | readHeader => rfl
  | exchange | writeField | writeByte | addTelemetry => exact ho.elim

/-- The cumulative effect of the host on the ring. -/
structure Loosens (ring ring' : FrameRing) : Prop where
  state : ∀ i, (ring.state i).Loosens (ring'.state i)
  field : ∀ i, (ring'.slots i).field = (ring.slots i).field

namespace Loosens

variable {ring ring' ring'' : FrameRing} {i : Slot}

theorem refl (ring : FrameRing) : Loosens ring ring := ⟨fun _ ↦ .inl rfl, fun _ ↦ rfl⟩

theorem trans (h : Loosens ring ring') (h' : Loosens ring' ring'') : Loosens ring ring'' :=
  ⟨fun i ↦ (h.state i).trans (h'.state i), fun i ↦ (h'.field i).trans (h.field i)⟩

/-- A free slot stays free. -/
theorem free (h : Loosens ring ring') (hi : ring.state i = .free) : ring'.state i = .free := by
  rcases h.state i with heq | hf | ⟨hr, -⟩
  · rw [← heq, hi]
  · exact hf
  · rw [hi] at hr
    cases hr

/-- A slot that is ready was ready all along. -/
theorem ready (h : Loosens ring ring') (hi : ring'.state i = .ready) : ring.state i = .ready := by
  rcases h.state i with heq | hf | ⟨-, hr⟩
  · rw [heq, hi]
  · rw [hf] at hi
    cases hi
  · rw [hr] at hi
    cases hi

end Loosens

/-- Each operation of the host loosens the ring. -/
theorem HostOp.loosens {β : Type} {o : RingOp β} (ho : HostOp β o) (ring : FrameRing) :
    Loosens ring (RingOp.exec β o ring).2 := by
  have hset : ∀ (i : Slot) (st : SlotState), (ring.state i).Loosens st →
      Loosens ring (ring.setState i st) := by
    intro i st h
    refine ⟨fun j ↦ ?_, fun j ↦ ?_⟩
    · by_cases hj : j = i
      · subst hj
        simpa [FrameRing.state] using h
      · exact .inl (by simp [FrameRing.state, hj])
    · by_cases hj : j = i
      · subst hj
        simp
      · simp [hj]
  cases o with
  | compareExchange i x e =>
      simp only [RingOp.exec]
      split
      · next h =>
        cases x <;> cases e <;> first | exact ho.elim | skip
        · exact hset i _ (.inr (.inl rfl))
        · exact hset i _ (.inr (.inr ⟨h, rfl⟩))
      · exact .refl ring
  | exchange i x =>
      cases x <;> first | exact ho.elim | exact hset i _ (.inr (.inl rfl))
  | readState | readField | readByte | readHeader => exact .refl ring
  | writeField | writeByte | addTelemetry => exact ho.elim

end SecondScreen.Ring
