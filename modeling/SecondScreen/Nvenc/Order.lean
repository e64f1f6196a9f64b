import Mathlib.Algebra.Group.Fin.Basic
import Mathlib.Data.List.Nodup
import Mathlib.Tactic.IntervalCases
import SecondScreen.Conc.Runs
import SecondScreen.Nvenc.Encoder

/-!
# The order of the pipeline

The slots are used in turn, and their outputs are sent in the order in which the pictures
were submitted, whichever of the four loops sends them.  A slot is filled and submitted
again only when its output has been sent.
-/

namespace SecondScreen.Nvenc

open SecondScreen.Conc SecondScreen.Ring

/-! ## Consecutive slots -/

/-- The slot that is used `n` turns before this one. -/
def before (i : SlotIndex) : Nat → SlotIndex
  | 0 => i
  | n + 1 => before i n - 1

/-- The `n` slots before the next one, in the order in which they are used. -/
def window (nextSlot : SlotIndex) : Nat → List SlotIndex
  | 0 => []
  | n + 1 => before nextSlot (n + 1) :: window nextSlot n

theorem before_succ (i : SlotIndex) (n : Nat) : before (i + 1) (n + 1) = before i n := by
  induction n with
  | zero => exact add_sub_cancel_right i 1
  | succ n ih => rw [before, ih, before]

theorem window_succ (i : SlotIndex) (n : Nat) : window (i + 1) (n + 1) = window i n ++ [i] := by
  induction n with
  | zero => exact congrArg (· :: []) (before_succ i 0)
  | succ n ih => rw [window, before_succ, ih]; rfl

theorem window_nodup (i : SlotIndex) {n : Nat} (hn : n ≤ 3) : (window i n).Nodup := by
  revert i
  interval_cases n <;> decide

/-- The next slot is free as long as there is room. -/
theorem notMem_window (i : SlotIndex) {n : Nat} (hn : n < 3) : i ∉ window i n := by
  revert i
  interval_cases n <;> decide

/-! ## What one move can do -/

/-- The frame that `EncodeFrame` is about to submit, and in which slot. -/
def Point.submitting : Point → Option (CapturedFrame × SlotIndex)
  | .encode frame _ slotIndex | .busy frame _ slotIndex => some (frame, slotIndex)
  | _ => none

namespace NvencH264Encoder

variable {e e' : NvencH264Encoder} {wait : Bool} {a : PollAnswer} {packets : List Packet}
  {result : Except String OutputPollResult}

@[simp] theorem setSlot_pendingSlots (i : SlotIndex) (s : PipelineSlot) :
    (e.setSlot i s).pendingSlots = e.pendingSlots := rfl

@[simp] theorem setSlot_nextSlot (i : SlotIndex) (s : PipelineSlot) :
    (e.setSlot i s).nextSlot = e.nextSlot := rfl

@[simp] theorem setSlot_readyOutputs (i : SlotIndex) (s : PipelineSlot) :
    (e.setSlot i s).readyOutputs = e.readyOutputs := rfl

@[simp] theorem setSlot_slots_self (i : SlotIndex) (s : PipelineSlot) :
    (e.setSlot i s).slots i = s := Function.update_self ..

theorem setSlot_slots_of_ne {i j : SlotIndex} (h : j ≠ i) (s : PipelineSlot) :
    (e.setSlot i s).slots j = e.slots j := Function.update_of_ne h ..

/-- The wait has reset the event of the slot. -/
def waited (e : NvencH264Encoder) (i : SlotIndex) : NvencH264Encoder :=
  e.setSlot i { e.slots i with completionEvent := false }

/-- The output of the first pending slot has been sent. -/
def retired (e : NvencH264Encoder) (i : SlotIndex) (pendingSlots : List SlotIndex) :
    NvencH264Encoder :=
  { e.setSlot i { e.slots i with completionEvent := false, submitted := false } with
    readyOutputs := (e.readyOutputs + 2 ^ 64 - 1) % 2 ^ 64
    pendingSlots }

/-- `PollOutput` finds nothing or cannot wait, or resets the event without sending the
output, or sends it. -/
theorem pollOutput_cases (h : e.pollOutput wait a = some (result, e', packets)) :
    (e' = e ∧ packets = [] ∧
      (result = .ok .notReady ∧
        (e.pendingSlots = [] ∨ e.readyOutputs = 0 ∨
          wait = false ∧ ∃ i ∈ e.pendingSlots.head?, (e.slots i).completionEvent = false) ∨
      ∃ error, a.waitFailed = some error ∧ result = .error error)) ∨
    ∃ i pendingSlots, e.pendingSlots = i :: pendingSlots ∧ e.readyOutputs ≠ 0 ∧
      (e.slots i).completionEvent = true ∧
      (e' = e.waited i ∧ a.lockBitstream = kNvencLockBusy ∧ packets = [] ∧
        result = .ok .notReady ∨
      e' = e.waited i ∧ (∃ error, result = .error error) ∧
        (a.lockBitstream ≠ kNvencSuccess ∨ (∃ error, a.sendAnnexB = .error error) ∨
          a.unlockBitstream ≠ kNvencSuccess) ∨
      e' = e.retired i pendingSlots ∧ packets = [e.packet i] ∧
        ∃ sent, a.sendAnnexB = .ok sent ∧ result = .ok (if sent then .sent else .failed)) := by
  unfold pollOutput at h
  split at h
  · next hpending =>
      cases h
      exact .inl ⟨rfl, rfl, .inl ⟨rfl, .inl hpending⟩⟩
  · next i pendingSlots hpending =>
      by_cases hready : e.readyOutputs = 0
      · rw [if_pos hready] at h
        cases h
        exact .inl ⟨rfl, rfl, .inl ⟨rfl, .inr (.inl hready)⟩⟩
      · rw [if_neg hready] at h
        split at h
        · next error hfailed =>
            cases h
            exact .inl ⟨rfl, rfl, .inr ⟨error, hfailed, rfl⟩⟩
        · dsimp only at h
          by_cases hevent : (e.slots i).completionEvent = false
          · rw [if_pos hevent] at h
            split_ifs at h with hwait
            cases h
            refine .inl ⟨rfl, rfl, .inl ⟨rfl, .inr (.inr ⟨?_, i, ?_, hevent⟩)⟩⟩
            · exact Bool.eq_false_iff.2 hwait
            · rw [hpending]
              rfl
          rw [if_neg hevent] at h
          refine .inr ⟨i, pendingSlots, hpending, hready, Bool.eq_true_of_not_eq_false hevent, ?_⟩
          by_cases hbusy : a.lockBitstream = kNvencLockBusy
          · rw [if_pos hbusy] at h
            cases h
            exact .inl ⟨rfl, hbusy, rfl, rfl⟩
          rw [if_neg hbusy] at h
          by_cases hlock : a.lockBitstream = kNvencSuccess
          · rw [if_neg (not_not_intro hlock)] at h
            split at h
            · next error hsend =>
                cases h
                exact .inr (.inl ⟨rfl, ⟨_, rfl⟩, .inr (.inl ⟨error, hsend⟩)⟩)
            · next sent hsend =>
                by_cases hunlock : a.unlockBitstream = kNvencSuccess
                · rw [if_neg (not_not_intro hunlock)] at h
                  cases h
                  exact .inr (.inr ⟨rfl, rfl, sent, hsend, rfl⟩)
                · rw [if_pos hunlock] at h
                  cases h
                  exact .inr (.inl ⟨rfl, ⟨_, rfl⟩, .inr (.inr hunlock)⟩)
          · rw [if_pos hlock] at h
            cases h
            exact .inr (.inl ⟨rfl, ⟨_, rfl⟩, .inl hlock⟩)

/-- A waiting `PollOutput` blocks only on an event that is not signalled. -/
theorem pollOutput_eq_none (h : e.pollOutput wait a = none) :
    ∃ i pendingSlots, e.pendingSlots = i :: pendingSlots ∧ e.readyOutputs ≠ 0 ∧
      (e.slots i).completionEvent = false := by
  unfold pollOutput at h
  split at h
  · cases h
  · next i pendingSlots hpending =>
      by_cases hready : e.readyOutputs = 0
      · rw [if_pos hready] at h
        cases h
      rw [if_neg hready] at h
      split at h
      · cases h
      · dsimp only at h
        by_cases hevent : (e.slots i).completionEvent = false
        · exact ⟨i, pendingSlots, hpending, hready, hevent⟩
        · rw [if_neg hevent] at h
          repeat' split at h
          all_goals cases h

/-- The metadata and the bitstream of a slot are what is sent of it. -/
theorem packet_setSlot {i : SlotIndex} {s : PipelineSlot}
    (hmetadata : s.metadata = (e.slots i).metadata)
    (hbitstream : s.bitstreamBuffer = (e.slots i).bitstreamBuffer) :
    (e.setSlot i s).packet = e.packet := by
  funext j
  unfold packet
  rcases eq_or_ne j i with rfl | hj
  · rw [setSlot_slots_self, hmetadata, hbitstream]
  · rw [setSlot_slots_of_ne hj]

theorem packet_setCompletionEvent (i : SlotIndex) (completionEvent : Bool) :
    (e.setSlot i { e.slots i with completionEvent }).packet = e.packet :=
  packet_setSlot (s := { e.slots i with completionEvent }) rfl rfl

theorem packet_setInputBuffer (i : SlotIndex) (inputBuffer : Option CapturedFrame) :
    (e.setSlot i { e.slots i with inputBuffer }).packet = e.packet :=
  packet_setSlot (s := { e.slots i with inputBuffer }) rfl rfl

@[simp] theorem packet_waited (i : SlotIndex) : (e.waited i).packet = e.packet :=
  packet_setCompletionEvent i false

@[simp] theorem packet_retired (i : SlotIndex) (pendingSlots : List SlotIndex) :
    (e.retired i pendingSlots).packet = e.packet :=
  packet_setSlot (s := { e.slots i with completionEvent := false, submitted := false }) rfl rfl

end NvencH264Encoder

namespace Pipeline

variable {fps : Nat} {p q : Pipeline}

/-- The encoder has not thrown. -/
def Alive (p : Pipeline) : Prop := ∀ error, p.point ≠ .threw error

/-- A pass that does not throw leaves the encoder alone, or resets an event without
sending the output, or sends it. -/
theorem polled_cases {wait : Bool} {a : PollAnswer} {next : OutputPollResult → Point}
    (h : p.polled wait a next = some q) (hq : q.Alive) :
    (q = { p with point := next .notReady } ∧
      (p.encoder.pendingSlots = [] ∨ p.encoder.readyOutputs = 0 ∨
        wait = false ∧
          ∃ i ∈ p.encoder.pendingSlots.head?, (p.encoder.slots i).completionEvent = false)) ∨
    ∃ i pendingSlots, p.encoder.pendingSlots = i :: pendingSlots ∧
      p.encoder.readyOutputs ≠ 0 ∧ (p.encoder.slots i).completionEvent = true ∧
      (q = { p with encoder := p.encoder.waited i, point := next .notReady } ∧
        a.lockBitstream = kNvencLockBusy ∨
      ∃ sent, a.sendAnnexB = .ok sent ∧
        q = { p with
          encoder := p.encoder.retired i pendingSlots
          packets := p.packets ++ [p.encoder.packet i]
          point := next (if sent then .sent else .failed) }) := by
  obtain ⟨⟨result, e, packets⟩, hpoll, rfl⟩ := Option.map_eq_some_iff.1 h
  cases result with
  | error error => exact absurd rfl (hq error)
  | ok result =>
      rcases NvencH264Encoder.pollOutput_cases hpoll with
        ⟨rfl, rfl, ⟨hresult, hnone⟩ | ⟨_, -, hresult⟩⟩ |
        ⟨i, pendingSlots, hpending, hready, hevent,
          ⟨rfl, hbusy, rfl, hresult⟩ | ⟨-, ⟨_, hresult⟩, -⟩ | ⟨rfl, rfl, sent, hsend, hresult⟩⟩
      · cases hresult
        left
        simp only [List.append_nil]
        exact ⟨trivial, hnone⟩
      · cases hresult
      · cases hresult
        refine .inr ⟨i, pendingSlots, hpending, hready, hevent, .inl ⟨?_, hbusy⟩⟩
        simp only [List.append_nil]
      · cases hresult
      · cases hresult
        exact .inr ⟨i, pendingSlots, hpending, hready, hevent, .inr ⟨sent, hsend, rfl⟩⟩

/-- What one move does to the encoder. -/
inductive Effect (fps : Nat) (p : Pipeline) : Move → Pipeline → Prop
  | /-- Nothing. -/
    moved {move : Move} {point : Point} (hmove : ∀ i, move ≠ .complete i)
      (hpoint : point.submitting = none ∨ point.submitting = p.point.submitting) :
      Effect fps p move { p with point }
  | completed (i : SlotIndex) :
      Effect fps p (.complete i) { p with
        encoder := p.encoder.setSlot i { p.encoder.slots i with completionEvent := true }
        completed := Function.update p.completed i true }
  | filled {a : Answer} {frame : CapturedFrame} {frameIndex : Nat}
      (hpoint : p.point = .makeRoom frame frameIndex)
      (hroom : p.encoder.pendingSlots.length < kNvencPipelineSlotCount) :
      Effect fps p (.step a) { p with
        encoder := p.encoder.setSlot p.encoder.nextSlot
          { p.encoder.slots p.encoder.nextSlot with inputBuffer := some frame }
        point := .encode frame frameIndex p.encoder.nextSlot }
  | accepted {a : Answer} {frame : CapturedFrame} {frameIndex : Nat} {slotIndex : SlotIndex}
      (hpoint : p.point = .encode frame frameIndex slotIndex)
      (hstatus : a.encodePicture = kNvencSuccess ∨ a.encodePicture = kNvencNeedMoreInput) :
      Effect fps p (.step a) (p.accept fps frame frameIndex slotIndex a.encodePicture)
  | /-- `PollOutput` resets the event, but the bitstream is locked. -/
    waited {a : Answer} {i : SlotIndex} {pendingSlots : List SlotIndex} {point : Point}
      (hpending : p.encoder.pendingSlots = i :: pendingSlots)
      (hbusy : a.poll.lockBitstream = kNvencLockBusy)
      (hpoint : point.submitting = none ∨ point.submitting = p.point.submitting) :
      Effect fps p (.step a) { p with encoder := p.encoder.waited i, point }
  | /-- `PollOutput` sends the output. -/
    retired {a : Answer} {i : SlotIndex} {pendingSlots : List SlotIndex} {point : Point}
      (hpending : p.encoder.pendingSlots = i :: pendingSlots)
      (hready : p.encoder.readyOutputs ≠ 0)
      (hpoint : point.submitting = none ∨ point.submitting = p.point.submitting) :
      Effect fps p (.step a) { p with
        encoder := p.encoder.retired i pendingSlots
        packets := p.packets ++ [p.encoder.packet i]
        point }

theorem Effect.of_polled {wait : Bool} {a : Answer} {next : OutputPollResult → Point}
    (h : p.polled wait a.poll next = some q) (hq : q.Alive)
    (hnext : ∀ result,
      (next result).submitting = none ∨ (next result).submitting = p.point.submitting) :
    Effect fps p (.step a) q := by
  rcases polled_cases h hq with ⟨rfl, -⟩ |
    ⟨i, pendingSlots, hpending, hready, -, ⟨rfl, hbusy⟩ | ⟨sent, -, rfl⟩⟩
  · exact .moved nofun (hnext _)
  · exact .waited hpending hbusy (hnext _)
  · exact .retired hpending hready (hnext _)

/-- `EncodeFrame` fills the next slot or throws. -/
theorem fill_cases {frame : CapturedFrame} {frameIndex : Nat} {a : Answer}
    (hq : (p.fill frame frameIndex a).Alive) :
    p.fill frame frameIndex a = { p with
      encoder := p.encoder.setSlot p.encoder.nextSlot
        { p.encoder.slots p.encoder.nextSlot with inputBuffer := some frame }
      point := .encode frame frameIndex p.encoder.nextSlot } := by
  revert hq
  unfold fill
  dsimp only
  split_ifs
  · exact fun hq ↦ absurd rfl (hq _)
  · exact fun hq ↦ absurd rfl (hq _)
  · exact fun hq ↦ absurd rfl (hq _)
  · exact fun _ ↦ rfl

theorem next_effect {move : Move} (h : p.next fps move = some q) (hq : q.Alive) :
    Effect fps p move q := by
  cases move with
  | encodeFrame frame frameIndex =>
      cases hpoint : p.point <;> simp only [next, hpoint] at h <;> cases h
      exact .moved nofun (.inl rfl)
  | drain =>
      cases hpoint : p.point <;> simp only [next, hpoint] at h <;> cases h
      exact .moved nofun (.inl rfl)
  | complete i =>
      cases h
      exact .completed i
  | step a =>
      cases hpoint : p.point with
      | idle returned => simp only [next, hpoint] at h; cases h
      | threw error => simp only [next, hpoint] at h; cases h
      | makeRoom frame frameIndex =>
          simp only [next, hpoint] at h
          split_ifs at h with hroom <;> cases h
          · exact .moved nofun (.inl rfl)
          · rw [fill_cases hq]
            exact .filled hpoint (Nat.lt_of_not_le hroom)
      | waitForOutput frame frameIndex =>
          simp only [next, hpoint] at h
          split_ifs at h
          · cases h
            exact .moved nofun (.inl rfl)
          · refine .of_polled h hq fun result ↦ .inl ?_
            cases result <;> rfl
      | encode frame frameIndex slotIndex =>
          simp only [next, hpoint] at h
          split_ifs at h with hbusy hstatus <;> cases h
          · refine .moved nofun (.inr ?_)
            rw [hpoint]
            rfl
          · exact absurd rfl (hq _)
          · exact .accepted hpoint (by tauto)
      | busy frame frameIndex slotIndex =>
          simp only [next, hpoint] at h
          apply Effect.of_polled h hq
          rintro (_ | _ | _)
          · exact .inr (by rw [hpoint]; rfl)
          · exact .inr (by rw [hpoint]; rfl)
          · exact .inl rfl
      | retire =>
          simp only [next, hpoint] at h
          refine .of_polled h hq fun result ↦ .inl ?_
          cases result <;> rfl
      | drain =>
          simp only [next, hpoint] at h
          split_ifs at h
          · cases h
            exact .moved nofun (.inl rfl)
          · refine .of_polled h hq fun result ↦ .inl ?_
            cases result <;> rfl

/-- A move that does not throw is made by an encoder that has not thrown. -/
theorem alive_of_next {move : Move} (h : p.next fps move = some q) (hq : q.Alive) : p.Alive := by
  intro error hpoint
  cases move with
  | complete i =>
      cases h
      exact hq error hpoint
  | encodeFrame frame frameIndex | drain | step a =>
      simp only [next, hpoint] at h
      cases h

/-! ## The invariant -/

/-- What the packet of a submitted picture must be: the metadata of the frame with the
bitstream of the picture. -/
def submittedPacket (s : CapturedFrame × Picture) : Packet where
  frameId := s.1.frameId
  timestampUs := s.1.captureTimestampUs
  bitstream := some s.2

/-- The slots are used in turn, and what was submitted was sent or is pending. -/
structure InOrder (p : Pipeline) : Prop where
  pending : p.encoder.pendingSlots = window p.encoder.nextSlot p.encoder.pendingSlots.length
  length : p.encoder.pendingSlots.length ≤ kNvencPipelineSlotCount
  ready : p.encoder.readyOutputs ≤ p.encoder.pendingSlots.length
  sent : p.packets ++ p.encoder.pendingSlots.map p.encoder.packet =
    p.submitted.map submittedPacket
  input : ∀ s ∈ p.submitted, s.2.input = some s.1

/-- The slot in which `EncodeFrame` is about to submit its frame is the next one, and
holds the frame. -/
def Filled (p : Pipeline) : Prop :=
  ∀ s ∈ p.point.submitting,
    s.2 = p.encoder.nextSlot ∧ p.encoder.pendingSlots.length < kNvencPipelineSlotCount ∧
      (p.encoder.slots s.2).inputBuffer = some s.1

/-- The invariant speaks of the encoder and of the record only. -/
theorem InOrder.congr (h : p.InOrder) (hpending : q.encoder.pendingSlots = p.encoder.pendingSlots)
    (hnext : q.encoder.nextSlot = p.encoder.nextSlot)
    (hready : q.encoder.readyOutputs = p.encoder.readyOutputs)
    (hpacket : ∀ i ∈ p.encoder.pendingSlots, q.encoder.packet i = p.encoder.packet i)
    (hpackets : q.packets = p.packets) (hsubmitted : q.submitted = p.submitted) : q.InOrder where
  pending := by
    rw [hpending, hnext]
    exact h.pending
  length := by
    rw [hpending]
    exact h.length
  ready := by
    rw [hpending, hready]
    exact h.ready
  sent := by
    rw [hpending, hpackets, hsubmitted, List.map_congr_left hpacket]
    exact h.sent
  input := by
    rw [hsubmitted]
    exact h.input

/-- The first pending output is sent. -/
theorem InOrder.retired (h : p.InOrder) {i : SlotIndex} {pendingSlots : List SlotIndex}
    (hpending : p.encoder.pendingSlots = i :: pendingSlots) (hready : p.encoder.readyOutputs ≠ 0)
    (point : Point) :
    InOrder { p with
      encoder := p.encoder.retired i pendingSlots
      packets := p.packets ++ [p.encoder.packet i]
      point } := by
  have hwindow := h.pending
  have hlength := h.length
  have hle := h.ready
  have hsent := h.sent
  rw [hpending, List.length_cons] at hwindow hlength hle
  rw [hpending, List.map_cons] at hsent
  constructor
  · exact (List.cons.inj hwindow).2
  · exact Nat.le_of_succ_le hlength
  · show (p.encoder.readyOutputs + 2 ^ 64 - 1) % 2 ^ 64 ≤ pendingSlots.length
    have h3 : kNvencPipelineSlotCount = 3 := rfl
    omega
  · show (p.packets ++ [p.encoder.packet i]) ++
      pendingSlots.map (p.encoder.retired i pendingSlots).packet = p.submitted.map submittedPacket
    rw [NvencH264Encoder.packet_retired, List.append_assoc]
    exact hsent
  · exact h.input

/-- A picture is submitted in the next slot. -/
theorem InOrder.accept (h : p.InOrder) {frame : CapturedFrame} (frameIndex : Nat)
    (status : NvencStatus) (hroom : p.encoder.pendingSlots.length < kNvencPipelineSlotCount)
    (hinput : (p.encoder.slots p.encoder.nextSlot).inputBuffer = some frame) :
    (p.accept fps frame frameIndex p.encoder.nextSlot status).InOrder := by
  have hfree : p.encoder.nextSlot ∉ p.encoder.pendingSlots := by
    rw [h.pending]
    exact notMem_window _ hroom
  have hlength : (p.encoder.pendingSlots ++ [p.encoder.nextSlot]).length =
      p.encoder.pendingSlots.length + 1 := List.length_append
  constructor
  · show p.encoder.pendingSlots ++ [p.encoder.nextSlot] =
      window (p.encoder.nextSlot + 1) (p.encoder.pendingSlots ++ [p.encoder.nextSlot]).length
    rw [hlength, window_succ, ← h.pending]
  · show (p.encoder.pendingSlots ++ [p.encoder.nextSlot]).length ≤ kNvencPipelineSlotCount
    rw [hlength]
    exact hroom
  · show (if status = kNvencNeedMoreInput then p.encoder.readyOutputs
      else (p.encoder.readyOutputs + 1) % 2 ^ 64) ≤
        (p.encoder.pendingSlots ++ [p.encoder.nextSlot]).length
    have hle := h.ready
    rw [hlength]
    split_ifs
    · exact Nat.le_succ_of_le hle
    · exact (Nat.mod_le _ _).trans (Nat.succ_le_succ hle)
  · show p.packets ++ (p.encoder.pendingSlots ++ [p.encoder.nextSlot]).map
        (p.encoder.setSlot p.encoder.nextSlot _).packet =
      (p.submitted ++ [(frame, picture fps (p.encoder.slots p.encoder.nextSlot) frameIndex)]).map
        submittedPacket
    rw [List.map_append, List.map_append, ← h.sent, List.append_assoc]
    congr 2
    · apply List.map_congr_left
      intro i hi
      have hne : i ≠ p.encoder.nextSlot := fun heq ↦ hfree (heq ▸ hi)
      unfold NvencH264Encoder.packet
      rw [NvencH264Encoder.setSlot_slots_of_ne hne]
    · simp [NvencH264Encoder.packet, submittedPacket]
  · intro s hs
    rcases List.mem_append.1 hs with hs | hs
    · exact h.input s hs
    · rw [List.mem_singleton.1 hs]
      exact hinput

/-! ## Runs -/

theorem InOrder.free (h : p.InOrder)
    (hroom : p.encoder.pendingSlots.length < kNvencPipelineSlotCount) :
    p.encoder.nextSlot ∉ p.encoder.pendingSlots := by
  rw [h.pending]
  exact notMem_window _ hroom

theorem Effect.inOrder {move : Move} (he : Effect fps p move q) (h : p.InOrder)
    (hf : p.Filled) : q.InOrder := by
  cases he with
  | moved => exact h.congr rfl rfl rfl (fun _ _ ↦ rfl) rfl rfl
  | completed i =>
      refine h.congr rfl rfl rfl (fun j _ ↦ ?_) rfl rfl
      exact congrFun (NvencH264Encoder.packet_setCompletionEvent i true) j
  | filled =>
      refine h.congr rfl rfl rfl (fun j _ ↦ ?_) rfl rfl
      exact congrFun (NvencH264Encoder.packet_setInputBuffer _ _) j
  | @accepted a frame frameIndex slotIndex hpoint =>
      obtain ⟨hslot, hroom, hinput⟩ := hf (frame, slotIndex) (by rw [hpoint]; rfl)
      dsimp only at hslot hinput
      rw [hslot] at hinput ⊢
      exact h.accept frameIndex a.encodePicture hroom hinput
  | waited hpending =>
      refine h.congr rfl rfl rfl (fun j _ ↦ ?_) rfl rfl
      rw [NvencH264Encoder.packet_waited]
  | retired hpending hready => exact h.retired hpending hready _

theorem Effect.filled_of {move : Move} (he : Effect fps p move q) (hf : p.Filled) :
    q.Filled := by
  intro s hs
  have hsame {point : Point}
      (hpoint : point.submitting = none ∨ point.submitting = p.point.submitting)
      (hs : s ∈ point.submitting) : s ∈ p.point.submitting := by
    rcases hpoint with hpoint | hpoint <;> rw [hpoint] at hs
    · cases hs
    · exact hs
  cases he with
  | moved _ hpoint => exact hf s (hsame hpoint hs)
  | completed i =>
      obtain ⟨hslot, hroom, hinput⟩ := hf s hs
      refine ⟨hslot, hroom, ?_⟩
      rcases eq_or_ne s.2 i with rfl | hne
      · rwa [NvencH264Encoder.setSlot_slots_self]
      · rwa [NvencH264Encoder.setSlot_slots_of_ne hne]
  | filled hpoint hroom =>
      cases hs
      refine ⟨rfl, hroom, ?_⟩
      rw [NvencH264Encoder.setSlot_slots_self]
  | accepted hpoint hstatus =>
      unfold accept at hs
      dsimp only at hs
      split_ifs at hs <;> cases hs
  | @waited a i pendingSlots point hpending _ hpoint =>
      obtain ⟨hslot, hroom, hinput⟩ := hf s (hsame hpoint hs)
      refine ⟨hslot, hroom, ?_⟩
      rcases eq_or_ne s.2 i with rfl | hne
      · exact (congrArg _ (NvencH264Encoder.setSlot_slots_self _ _)).trans hinput
      · exact (congrArg _ (NvencH264Encoder.setSlot_slots_of_ne hne _)).trans hinput
  | @retired a i pendingSlots point hpending _ hpoint =>
      obtain ⟨hslot, hroom, hinput⟩ := hf s (hsame hpoint hs)
      rw [hpending] at hroom
      refine ⟨hslot, (Nat.lt_succ_self _).trans hroom, ?_⟩
      rcases eq_or_ne s.2 i with rfl | hne
      · exact (congrArg _ (NvencH264Encoder.setSlot_slots_self _ _)).trans hinput
      · exact (congrArg _ (NvencH264Encoder.setSlot_slots_of_ne hne _)).trans hinput

/-- The encoder makes any moves. -/
abbrev Run (fps : Nat) : Pipeline → Pipeline → Prop :=
  Relation.ReflTransGen (Moves (next fps) fun _ _ ↦ True)

theorem inOrder_run (hrun : Run fps {} p) : p.Alive → p.InOrder ∧ p.Filled := by
  refine run_preserves (I := fun p ↦ p.Alive → p.InOrder ∧ p.Filled) ?_ ?_ hrun
  · rintro p q h ⟨move, -, hnext⟩ hq
    obtain ⟨hinOrder, hfilled⟩ := h (alive_of_next hnext hq)
    have he := next_effect hnext hq
    exact ⟨he.inOrder hinOrder hfilled, he.filled_of hfilled⟩
  · intro _
    exact ⟨⟨rfl, Nat.zero_le _, le_rfl, rfl, by simp⟩, by simp [Filled, Point.submitting]⟩

/-- A slot is filled and submitted only when it is not pending, and whatever the encoder
does next leaves the buffers and the metadata of the pending slots alone. -/
structure Exclusive (fps : Nat) (p : Pipeline) : Prop where
  fill : ∀ frame frameIndex, p.point = .makeRoom frame frameIndex →
    p.encoder.pendingSlots.length < kNvencPipelineSlotCount →
      p.encoder.nextSlot ∉ p.encoder.pendingSlots
  submit : ∀ s ∈ p.point.submitting, s.2 ∉ p.encoder.pendingSlots
  kept : ∀ move q, p.next fps move = some q → q.Alive → ∀ i ∈ p.encoder.pendingSlots,
    (q.encoder.slots i).inputBuffer = (p.encoder.slots i).inputBuffer ∧
      (q.encoder.slots i).bitstreamBuffer = (p.encoder.slots i).bitstreamBuffer ∧
      (q.encoder.slots i).metadata = (p.encoder.slots i).metadata

/-- Replacing a slot that is not pending, or nothing but its event and `submitted`. -/
theorem kept_setSlot {e : NvencH264Encoder} {i : SlotIndex} {s : PipelineSlot} {j : SlotIndex}
    (h : j ≠ i ∨ s.inputBuffer = (e.slots i).inputBuffer ∧
      s.bitstreamBuffer = (e.slots i).bitstreamBuffer ∧ s.metadata = (e.slots i).metadata) :
    ((e.setSlot i s).slots j).inputBuffer = (e.slots j).inputBuffer ∧
      ((e.setSlot i s).slots j).bitstreamBuffer = (e.slots j).bitstreamBuffer ∧
      ((e.setSlot i s).slots j).metadata = (e.slots j).metadata := by
  rcases eq_or_ne j i with rfl | hne
  · rw [NvencH264Encoder.setSlot_slots_self]
    exact h.resolve_left (not_not_intro rfl)
  · rw [NvencH264Encoder.setSlot_slots_of_ne hne]
    exact ⟨rfl, rfl, rfl⟩

theorem InOrder.exclusive (h : p.InOrder) (hf : p.Filled) : p.Exclusive fps where
  fill _ _ _ := h.free
  submit s hs := by
    obtain ⟨hslot, hroom, -⟩ := hf s hs
    rw [hslot]
    exact h.free hroom
  kept move q hnext hq j hj := by
    cases next_effect hnext hq with
    | moved => exact ⟨rfl, rfl, rfl⟩
    | completed i => exact kept_setSlot (.inr ⟨rfl, rfl, rfl⟩)
    | filled hpoint hroom => exact kept_setSlot (.inl fun heq ↦ h.free hroom (heq ▸ hj))
    | @accepted a frame frameIndex slotIndex hpoint =>
        obtain ⟨hslot, hroom, -⟩ := hf (frame, slotIndex) (by rw [hpoint]; rfl)
        dsimp only at hslot
        exact kept_setSlot (.inl fun heq ↦ h.free hroom (hslot ▸ heq ▸ hj))
    | waited => exact kept_setSlot (.inr ⟨rfl, rfl, rfl⟩)
    | retired => exact kept_setSlot (.inr ⟨rfl, rfl, rfl⟩)

/-- **The order of the pipeline**, in every state that the encoder reaches without
throwing. -/
theorem pipeline_inOrder (hrun : Run fps {} p) (halive : p.Alive) :
    p.InOrder ∧ p.encoder.pendingSlots.Nodup ∧ p.Exclusive fps := by
  obtain ⟨h, hf⟩ := inOrder_run hrun halive
  refine ⟨h, ?_, h.exclusive hf⟩
  rw [h.pending]
  exact window_nodup _ h.length

/-- Two pictures, the second submitted after the encoder was busy, while the output of
the first was sent. -/
def busyOnce : List Move :=
  [.encodeFrame { frameId := 7 } 0, .step {}, .step {}, .step {},
   .encodeFrame { frameId := 9 } 1, .step {}, .complete 0,
   .step { encodePicture := kNvencEncoderBusy }, .step {}, .step {}, .step {}]

/-- After them one packet has been sent and one picture is pending. -/
theorem pipeline_inOrder_busyOnce : ∃ p : Pipeline, Run 60 {} p ∧
    p.packets.map Packet.frameId = [7] ∧ p.encoder.pendingSlots = [1] ∧
    p.InOrder ∧ p.encoder.pendingSlots.Nodup ∧ p.Exclusive 60 := by
  obtain ⟨p, hrun, hpackets, hpending, hpoint⟩ : ∃ p : Pipeline, Run 60 {} p ∧
      p.packets.map Packet.frameId = [7] ∧ p.encoder.pendingSlots = [1] ∧
        p.point = .idle (some true) := exists_run busyOnce (by decide +kernel)
  refine ⟨p, hrun, hpackets, hpending, pipeline_inOrder hrun ?_⟩
  intro error
  rw [hpoint]
  exact Point.noConfusion

end Pipeline

end SecondScreen.Nvenc
