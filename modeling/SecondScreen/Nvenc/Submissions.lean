import SecondScreen.Nvenc.Order
import SecondScreen.Machine.Lists

/-!
# What NVENC makes of the frames it is given

Each call of `EncodeFrame` submits its frame, unless it throws or returns false, and also where
an exception comes out of a loop, only outputs of submitted pictures have been sent, in order.
-/

namespace SecondScreen.Nvenc

open SecondScreen.Conc SecondScreen.Machine SecondScreen.Ring

/-- The frame that `EncodeFrame` was called with and has not submitted, and its index. -/
def Point.toSubmit : Point → List (CapturedFrame × Nat)
  | .makeRoom frame frameIndex | .waitForOutput frame frameIndex
  | .encode frame frameIndex _ | .busy frame frameIndex _ => [(frame, frameIndex)]
  | _ => []

/-- The picture that is made of a frame. -/
def framePicture (fps : Nat) (frame : CapturedFrame) (frameIndex : Nat) : Picture :=
  picture fps { inputBuffer := some frame } frameIndex

/-- The picture of a slot is that of the frame in its input buffer. -/
theorem picture_eq {fps : Nat} {slot : PipelineSlot} {frame : CapturedFrame} (frameIndex : Nat)
    (h : slot.inputBuffer = some frame) :
    picture fps slot frameIndex = framePicture fps frame frameIndex := by
  unfold framePicture picture
  rw [h]

namespace Pipeline

variable {fps : Nat} {p q : Pipeline} {given : List CapturedFrame}

/-- The last call has not thrown, nor returned false. -/
structure Running (p : Pipeline) : Prop where
  alive : p.Alive
  not_failed : p.point ≠ .idle (some false)

/-- What was submitted of the frames that `EncodeFrame` was called with, the last one perhaps
under way. -/
structure Submits (fps : Nat) (given : List CapturedFrame) (p : Pipeline) : Prop where
  inOrder : p.Alive → p.InOrder ∧ p.Filled
  sent : p.packets <+: p.submitted.map submittedPacket
  frames : p.submitted.map Prod.fst <+: given
  pictures : ∀ k x, p.submitted[k]? = some x → x.2 = framePicture fps x.1 (k % 2 ^ 64)
  index : ∀ x ∈ p.point.toSubmit, x.2 = p.submitted.length % 2 ^ 64
  all : p.Running → p.submitted.map Prod.fst ++ p.point.toSubmit.map Prod.fst = given
  given_le : given.length ≤ p.submitted.length + 1
  submitted_le : p.submitted.length ≤ p.packets.length + kNvencPipelineSlotCount

/-- Nothing is given to a new encoder. -/
theorem Submits.new (fps : Nat) : Submits fps [] {} where
  inOrder := @inOrder_run fps _ .refl
  sent := List.nil_prefix
  frames := List.nil_prefix
  pictures k x hx := by cases hx
  index x hx := by cases hx
  all _ := rfl
  given_le := Nat.zero_le _
  submitted_le := Nat.zero_le _

/-- At most the first pending output is sent. -/
def Sends (p q : Pipeline) : Prop :=
  q.packets = p.packets ∨ ∃ i pendingSlots, p.encoder.pendingSlots = i :: pendingSlots ∧
    q.packets = p.packets ++ [p.encoder.packet i]

/-- `PollOutput` sends the packet of the first pending slot, or nothing. -/
theorem pollOutput_packets {e e' : NvencH264Encoder} {wait : Bool} {a : PollAnswer}
    {result : Except String OutputPollResult} {packets : List Packet}
    (h : e.pollOutput wait a = some (result, e', packets)) :
    packets = [] ∨
      ∃ i pendingSlots, e.pendingSlots = i :: pendingSlots ∧ packets = [e.packet i] := by
  unfold NvencH264Encoder.pollOutput at h
  split at h
  · cases h
    exact .inl rfl
  · next i pendingSlots hpending =>
      have hone : [e.packet i] = [] ∨ ∃ j rest, e.pendingSlots = j :: rest ∧
          [e.packet i] = [e.packet j] := .inr ⟨i, pendingSlots, hpending, rfl⟩
      dsimp only at h
      repeat' split at h
      all_goals first | cases h; exact .inl rfl | cases h; exact hone | cases h

/-- After `PollOutput` the loop goes on with its result, or it is left by an exception. -/
theorem polled_sends {wait : Bool} {a : PollAnswer} {next : OutputPollResult → Point}
    (h : p.polled wait a next = some q) :
    Sends p q ∧ q.submitted = p.submitted ∧
      ((∃ result, q.point = next result) ∨ ∃ error, q.point = .threw error) := by
  obtain ⟨⟨result, e, packets⟩, hpoll, rfl⟩ := Option.map_eq_some_iff.1 h
  have hsends : p.packets ++ packets = p.packets ∨ ∃ i pendingSlots,
      p.encoder.pendingSlots = i :: pendingSlots ∧
        p.packets ++ packets = p.packets ++ [p.encoder.packet i] := by
    rcases pollOutput_packets hpoll with rfl | ⟨i, pendingSlots, hpending, rfl⟩
    · exact .inl (List.append_nil _)
    · exact .inr ⟨i, pendingSlots, hpending, rfl⟩
  cases result with
  | ok result => exact ⟨hsends, rfl, .inl ⟨result, rfl⟩⟩
  | error error => exact ⟨hsends, rfl, .inr ⟨error, rfl⟩⟩

/-- A step submits the frame, or it leaves it to be submitted, unless it is the last one. -/
theorem step_cases {a : Answer} (h : p.next fps (.step a) = some q) :
    (∃ frame frameIndex slotIndex, p.point = .encode frame frameIndex slotIndex ∧
      q = p.accept fps frame frameIndex slotIndex a.encodePicture) ∨
    Sends p q ∧ q.submitted = p.submitted ∧
      (q.point.toSubmit = p.point.toSubmit ∨ q.point = .idle (some false) ∨
        ∃ error, q.point = .threw error) := by
  cases hpoint : p.point with
  | idle returned =>
      simp only [next, hpoint] at h
      cases h
  | threw error =>
      simp only [next, hpoint] at h
      cases h
  | makeRoom frame frameIndex =>
      simp only [next, hpoint] at h
      split_ifs at h
      · cases h
        exact .inr ⟨.inl rfl, rfl, .inl rfl⟩
      · cases h
        right
        unfold fill
        dsimp only
        split_ifs
        · exact ⟨.inl rfl, rfl, .inr (.inr ⟨_, rfl⟩)⟩
        · exact ⟨.inl rfl, rfl, .inr (.inr ⟨_, rfl⟩)⟩
        · exact ⟨.inl rfl, rfl, .inr (.inr ⟨_, rfl⟩)⟩
        · exact ⟨.inl rfl, rfl, .inl rfl⟩
  | waitForOutput frame frameIndex =>
      simp only [next, hpoint] at h
      split_ifs at h
      · cases h
        exact .inr ⟨.inl rfl, rfl, .inl rfl⟩
      · obtain ⟨hsends, hsubmitted, ⟨result, hq⟩ | hthrew⟩ := polled_sends h
        · refine .inr ⟨hsends, hsubmitted, ?_⟩
          rw [hq]
          cases result with
          | notReady => exact .inl rfl
          | sent => exact .inl rfl
          | failed => exact .inr (.inl rfl)
        · exact .inr ⟨hsends, hsubmitted, .inr (.inr hthrew)⟩
  | encode frame frameIndex slotIndex =>
      simp only [next, hpoint] at h
      split_ifs at h
      · cases h
        exact .inr ⟨.inl rfl, rfl, .inl rfl⟩
      · cases h
        exact .inr ⟨.inl rfl, rfl, .inr (.inr ⟨_, rfl⟩)⟩
      · cases h
        exact .inl ⟨frame, frameIndex, slotIndex, rfl, rfl⟩
  | busy frame frameIndex slotIndex =>
      simp only [next, hpoint] at h
      obtain ⟨hsends, hsubmitted, ⟨result, hq⟩ | hthrew⟩ := polled_sends h
      · refine .inr ⟨hsends, hsubmitted, ?_⟩
        rw [hq]
        cases result with
        | notReady => exact .inl rfl
        | sent => exact .inl rfl
        | failed => exact .inr (.inl rfl)
      · exact .inr ⟨hsends, hsubmitted, .inr (.inr hthrew)⟩
  | retire =>
      simp only [next, hpoint] at h
      obtain ⟨hsends, hsubmitted, ⟨result, hq⟩ | hthrew⟩ := polled_sends h
      · refine .inr ⟨hsends, hsubmitted, ?_⟩
        rw [hq]
        cases result with
        | notReady => exact .inl rfl
        | sent => exact .inl rfl
        | failed => exact .inr (.inl rfl)
      · exact .inr ⟨hsends, hsubmitted, .inr (.inr hthrew)⟩
  | drain =>
      simp only [next, hpoint] at h
      split_ifs at h
      · cases h
        exact .inr ⟨.inl rfl, rfl, .inl rfl⟩
      · obtain ⟨hsends, hsubmitted, ⟨result, hq⟩ | hthrew⟩ := polled_sends h
        · refine .inr ⟨hsends, hsubmitted, ?_⟩
          rw [hq]
          cases result with
          | notReady => exact .inl rfl
          | sent => exact .inl rfl
          | failed => exact .inr (.inl rfl)
        · exact .inr ⟨hsends, hsubmitted, .inr (.inr hthrew)⟩

/-- What is sent is the output of the next submitted picture. -/
theorem InOrder.sends (h : p.InOrder) (hsends : Sends p q)
    (hsubmitted : q.submitted = p.submitted) : q.packets <+: q.submitted.map submittedPacket := by
  rw [hsubmitted, ← h.sent]
  rcases hsends with hpackets | ⟨i, pendingSlots, hpending, hpackets⟩
  · rw [hpackets]
    exact List.prefix_append _ _
  · rw [hpackets, hpending, List.map_cons]
    exact ⟨pendingSlots.map p.encoder.packet, by rw [List.append_assoc]; rfl⟩

/-- What is submitted and not sent is in the slots. -/
theorem InOrder.submitted_le (h : p.InOrder) :
    p.submitted.length ≤ p.packets.length + kNvencPipelineSlotCount := by
  have hsent := congrArg List.length h.sent
  rw [List.length_append, List.length_map, List.length_map] at hsent
  rw [← hsent]
  exact Nat.add_le_add_left h.length _

/-- Packets are not taken back. -/
theorem Sends.length_le (h : Sends p q) : p.packets.length ≤ q.packets.length := by
  rcases h with hpackets | ⟨i, pendingSlots, -, hpackets⟩
  · rw [hpackets]
  · rw [hpackets, List.length_append]
    exact Nat.le_add_right _ _

/-- Only a call that has not ended takes a step. -/
theorem alive_of_step {a : Answer} (h : p.next fps (.step a) = some q) : p.Running := by
  constructor
  · intro error hpoint
    simp only [next, hpoint] at h
    cases h
  · intro hpoint
    simp only [next, hpoint] at h
    cases h

/-- Order and filled slots are kept up to the first exception. -/
theorem inOrder_next {move : Move} (h : p.Alive → p.InOrder ∧ p.Filled)
    (hnext : p.next fps move = some q) (hq : q.Alive) : q.InOrder ∧ q.Filled := by
  obtain ⟨hin, hf⟩ := h (alive_of_next hnext hq)
  have he := next_effect hnext hq
  exact ⟨he.inOrder hin hf, he.filled_of hf⟩

/-- A step of a call: the picture that is accepted is that of the frame last given. -/
theorem Submits.step (h : Submits fps given p) {a : Answer}
    (hnext : p.next fps (.step a) = some q) : Submits fps given q := by
  have hrunning := alive_of_step hnext
  have hall := h.all hrunning
  obtain ⟨hin, hf⟩ := h.inOrder hrunning.alive
  rcases step_cases hnext with
    ⟨frame, frameIndex, slotIndex, hpoint, rfl⟩ | ⟨hsends, hsubmitted, hgoes⟩
  · -- the picture of the frame is accepted
    rw [hpoint] at hall
    obtain ⟨-, -, hinput⟩ := hf (frame, slotIndex) (by rw [hpoint]; rfl)
    have hpicture : picture fps (p.encoder.slots slotIndex) frameIndex =
        framePicture fps frame frameIndex := picture_eq frameIndex hinput
    have hframes : (p.submitted ++ [(frame, picture fps (p.encoder.slots slotIndex)
        frameIndex)]).map Prod.fst = given := by
      rw [List.map_append]
      exact hall
    have hdone : (p.accept fps frame frameIndex slotIndex a.encodePicture).point.toSubmit = [] := by
      unfold accept
      dsimp only
      split_ifs <;> rfl
    have hindex : frameIndex = p.submitted.length % 2 ^ 64 :=
      h.index (frame, frameIndex) (by rw [hpoint]; exact List.mem_singleton_self _)
    have haccepted : (p.accept fps frame frameIndex slotIndex a.encodePicture).InOrder := by
      refine (inOrder_next h.inOrder hnext ?_).1
      intro error
      unfold accept
      dsimp only
      split_ifs <;> rintro ⟨⟩
    refine ⟨inOrder_next h.inOrder hnext, ?_, ?_, ?_, ?_, fun _ ↦ ?_, ?_, haccepted.submitted_le⟩
    · exact h.sent.trans (by
        show p.submitted.map submittedPacket <+: (p.submitted ++ _).map submittedPacket
        rw [List.map_append]
        exact List.prefix_append _ _)
    · exact hframes ▸ List.prefix_rfl
    · intro k x hx
      rcases getElem?_concat_cases hx with hx | ⟨rfl, rfl⟩
      · exact h.pictures k x hx
      · rw [← hindex]
        exact hpicture
    · rw [hdone]
      rintro x ⟨⟩
    · rw [hdone, List.map_nil, List.append_nil]
      exact hframes
    · rw [← hframes, List.length_map]
      exact Nat.le_succ _
  · refine ⟨inOrder_next h.inOrder hnext, hin.sends hsends hsubmitted, ?_, ?_, ?_, ?_, ?_, ?_⟩
    · rw [hsubmitted]
      exact h.frames
    · rw [hsubmitted]
      exact h.pictures
    · rw [hsubmitted]
      rcases hgoes with hsame | hfailed | ⟨error, hthrew⟩
      · rw [hsame]
        exact h.index
      · rw [hfailed]
        rintro x ⟨⟩
      · rw [hthrew]
        rintro x ⟨⟩
    · intro hq
      rcases hgoes with hsame | hfailed | ⟨error, hthrew⟩
      · rw [hsubmitted, hsame]
        exact hall
      · exact absurd hfailed hq.not_failed
      · exact absurd hthrew (hq.alive error)
    · rw [hsubmitted]
      exact h.given_le
    · rw [hsubmitted]
      exact h.submitted_le.trans (Nat.add_le_add_right hsends.length_le _)

/-- `EncodeFrame` is called between two calls and begins with making room. -/
theorem idle_of_encodeFrame {frame : CapturedFrame} {frameIndex : Nat}
    (h : p.next fps (.encodeFrame frame frameIndex) = some q) :
    (∃ returned, p.point = .idle returned) ∧
      q = { p with point := .makeRoom frame frameIndex } := by
  cases hpoint : p.point with
  | idle returned =>
      simp only [next, hpoint] at h
      cases h
      exact ⟨⟨returned, rfl⟩, rfl⟩
  | _ =>
      simp only [next, hpoint] at h
      cases h

/-- `Drain` is called between two calls. -/
theorem idle_of_drain (h : p.next fps .drain = some q) :
    (∃ returned, p.point = .idle returned) ∧ q = { p with point := .drain } := by
  cases hpoint : p.point with
  | idle returned =>
      simp only [next, hpoint] at h
      cases h
      exact ⟨⟨returned, rfl⟩, rfl⟩
  | _ =>
      simp only [next, hpoint] at h
      cases h

theorem alive_of_idle {returned : Option Bool} (h : p.point = .idle returned) : p.Alive := by
  intro error
  rw [h]
  rintro ⟨⟩

/-- A further frame is given, with the number of submitted pictures as its index. -/
theorem Submits.encodeFrame (h : Submits fps given p) (hnot : p.point ≠ .idle (some false))
    {frame : CapturedFrame}
    (hnext : p.next fps (.encodeFrame frame (p.submitted.length % 2 ^ 64)) = some q) :
    Submits fps (given ++ [frame]) q := by
  obtain ⟨⟨returned, hpoint⟩, rfl⟩ := idle_of_encodeFrame hnext
  have hall := h.all ⟨alive_of_idle hpoint, hnot⟩
  rw [hpoint] at hall
  have hlength := congrArg List.length hall
  refine ⟨inOrder_next h.inOrder hnext, h.sent, h.frames.trans (List.prefix_append _ _), h.pictures,
    ?_, fun _ ↦ ?_, ?_, h.submitted_le⟩
  · rintro x hx
    rw [List.mem_singleton.1 hx]
  · rw [← hall]
    show p.submitted.map Prod.fst ++ [frame] = _
    rw [List.append_assoc]
    rfl
  · rw [List.length_append, ← hlength, List.length_append, List.length_map]
    exact le_rfl

/-- `Drain` gives no frame. -/
theorem Submits.drain (h : Submits fps given p) (hnot : p.point ≠ .idle (some false))
    (hnext : p.next fps .drain = some q) : Submits fps given q := by
  obtain ⟨⟨returned, hpoint⟩, rfl⟩ := idle_of_drain hnext
  have hall := h.all ⟨alive_of_idle hpoint, hnot⟩
  rw [hpoint] at hall
  refine ⟨inOrder_next h.inOrder hnext, h.sent, h.frames, h.pictures, ?_, fun _ ↦ hall, h.given_le,
    h.submitted_le⟩
  rintro x ⟨⟩

/-- NVENC finishes a picture: nothing changes but that its output is ready. -/
theorem Submits.complete (h : Submits fps given p) {i : SlotIndex}
    (hnext : p.next fps (.complete i) = some q) : Submits fps given q := by
  have hkeeps := inOrder_next h.inOrder hnext
  cases hnext
  exact ⟨hkeeps, h.sent, h.frames, h.pictures, h.index, fun hq ↦ h.all ⟨hq.alive, hq.not_failed⟩,
    h.given_le, h.submitted_le⟩

/-- `Drain` returns true only when nothing is pending. -/
theorem drain_step {a : Answer} (hpoint : p.point = .drain)
    (hnext : p.next fps (.step a) = some q) :
    q.point = .drain ∨ q.point = .idle (some true) ∧ q.encoder.pendingSlots = [] ∨
      q.point = .idle (some false) ∨ ∃ error, q.point = .threw error := by
  simp only [next, hpoint] at hnext
  split_ifs at hnext with hpending
  · cases hnext
    exact .inr (.inl ⟨rfl, hpending⟩)
  · obtain ⟨-, -, ⟨result, hq⟩ | hthrew⟩ := polled_sends hnext
    · rw [hq]
      cases result with
      | notReady => exact .inl rfl
      | sent => exact .inl rfl
      | failed => exact .inr (.inr (.inl rfl))
    · exact .inr (.inr (.inr hthrew))

end Pipeline

end SecondScreen.Nvenc
