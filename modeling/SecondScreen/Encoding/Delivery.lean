import SecondScreen.Encoding.Fallback

/-!
# What the encoder sends

Over any run: which frames are sent and in which order, how many are lost where the encoder
falls back, and with which time stamps they are encoded.
-/

namespace SecondScreen.Encoding

open SecondScreen.Conc SecondScreen.Ring Relation
open MediaFoundation (Config MF_E_TRANSFORM_NEED_MORE_INPUT)

/-- What is sent before the call `k` is over and what is sent from it on keep an order of the
frames, as only the frame of that call may be among both. -/
theorem pairwise_seam {α : Type*} {r : α → α → Prop} (hrefl : ∀ x, r x x) {l before after : List α}
    {k : Nat} (hl : l.Pairwise r) (hbefore : before <+: l.take (k + 1))
    (hafter : after <+: l.drop k) : (before ++ after).Pairwise r := by
  rw [List.pairwise_append]
  refine ⟨hl.sublist (hbefore.sublist.trans (List.take_sublist _ _)),
    hl.sublist (hafter.sublist.trans (List.drop_sublist _ _)), ?_⟩
  intro x hx y hy
  have hxl := hbefore.subset hx
  have hyl := hafter.subset hy
  rw [← List.take_append_drop k l, List.pairwise_append] at hl
  obtain ⟨-, hlater, hacross⟩ := hl
  cases hdrop : l.drop k with
  | nil =>
      rw [hdrop] at hyl
      cases hyl
  | cons z rest =>
      rw [List.take_add, List.mem_append, hdrop] at hxl
      rcases hxl with hx | hx
      · exact hacross x hx y hyl
      · obtain rfl := List.mem_singleton.1 hx
        rw [hdrop] at hlater hyl
        rcases List.mem_cons.1 hyl with rfl | hy
        · exact hrefl y
        · exact List.rel_of_pairwise_cons hlater hy

namespace H264Encoder

variable {c : Config} {a : InitializeAnswer} {s t : H264Encoder}

abbrev Run (c : Config) : H264Encoder → H264Encoder → Prop :=
  ReflTransGen (Moves (next c) fun _ _ ↦ True)

theorem Record.new {s : H264Encoder} (hcalls : s.start = 0) (hfallbacks : s.fallbacks = [])
    (hearlier : s.earlier = []) : s.Record where
  start_le := by
    rw [hcalls]
    exact Nat.zero_le _
  fallback := .inl ⟨hfallbacks, hcalls, hearlier⟩

/-- Where `Initialize` throws there is no backend. -/
theorem Inv.threw {error : String} : Inv c { point := .threw error } := by
  refine ⟨.new rfl rfl rfl, ?_, trivial, trivial⟩
  rintro _ _ ⟨⟩

/-- A new transform has sent nothing. -/
theorem Inv.transform (async hardware : Bool) :
    Inv c { backend := .transform async {}, hardware } := by
  refine ⟨.new rfl rfl rfl, ?_, List.nil_prefix, .inr ⟨.new _, ⟨_, rfl⟩, ?_⟩⟩
  · rintro _ _ ⟨⟩
  · rintro ⟨⟩

/-- Whatever `Initialize` ends with keeps the invariant. -/
theorem Inv.new (c : Config) (a : InitializeAnswer) : Inv c (initializeEncoder a) := by
  unfold initializeEncoder
  cases a.mediaTypes with
  | error error => exact .threw
  | ok =>
      cases a.nvenc with
      | ok =>
          refine ⟨.new rfl rfl rfl, fun _ _ _ ↦ rfl, List.nil_prefix,
            .inr ⟨.new _, rfl, ⟨_, rfl⟩, ?_⟩⟩
          rintro ⟨⟩
      | error error =>
          dsimp only
          cases a.hardware.bind tryInitializeHardware with
          | some async => exact .transform async true
          | none =>
              cases a.software with
              | ok async => exact .transform async false
              | error error => exact .threw

/-- The invariant holds in every run. -/
theorem Inv.run (h : Run c (initializeEncoder a) s) : Inv c s :=
  run_preserves (fun h ⟨_, _, hnext⟩ ↦ h.next hnext) (.new c a) h

/-- NVENC sends the first frame and throws at the second one, which software then sends. -/
def fallen : List Event :=
  let frame (frameId : Nat) : CapturedFrame :=
    { nv12 := [0, 0, 0, 0, 0, 0], width := 2, height := 2, stride := 2, frameId,
      captureTimestampUs := 100 * frameId }
  let broken : Answer := { nvenc := { encodePicture := 8 } }
  let needMoreInput : Answer :=
    { transform := { output := { processOutput := MF_E_TRANSFORM_NEED_MORE_INPUT } } }
  [.encodeFrame (frame 7) (.ok ()), .step {}, .step {}, .complete 0, .step {}, .step {},
   .encodeFrame (frame 8) (.ok ()), .step {}, .step broken, .step {}, .step {}, .step {},
   .step needMoreInput]

theorem fallen_run : ∃ s, Run { width := 2, height := 2, fps := 30, async := false }
    (initializeEncoder {}) s ∧ s.point = .idle (some true) ∧ s.fallbacks = [1] ∧ s.start = 1 ∧
      s.calls.map CapturedFrame.frameId = [7, 8] ∧ s.outputs.length = 2 ∧
      s.backend.held = [] ∧ s.hardware = false ∧ s.backend.outputs.length = 1 :=
  exists_run fallen (by decide +kernel)

/-! ## The order -/

/-- **Frames are sent in order.**  Without a fallback, what is sent are the frames of the first
calls.  The encoder falls back at most once, to software; what is sent before are the frames of
the first calls, and what is sent afterwards are the frames of the calls that follow the call in
which it fell back, that one included.  So whatever does not decrease from call to call does not
decrease from one output to the next. -/
theorem sent_in_order (h : Run c (initializeEncoder a) s) :
    (s.fallbacks = [] ∧ s.outputs <+: s.calls.map frameOutput ∨
      ∃ k before after, s.fallbacks = [k] ∧ k < s.calls.length ∧ s.hardware = false ∧
        s.outputs = before ++ after ∧
        before <+: (s.calls.take (k + 1)).map frameOutput ∧
        after <+: (s.calls.drop k).map frameOutput) ∧
    ∀ key : Output → Nat, (s.calls.map frameOutput).Pairwise (key · ≤ key ·) →
      s.outputs.Pairwise (key · ≤ key ·) := by
  have hinv := Inv.run h
  have hsends := hinv.sends.outputs
  rcases hinv.record.fallback with ⟨hnone, hstart, hearlier⟩ | ⟨hone, hsoftware, hlt, hearlier⟩
  · have houtputs : s.outputs <+: s.calls.map frameOutput := by
      rw [outputs, hearlier]
      rw [given, hstart, List.drop_zero] at hsends
      exact hsends
    exact ⟨.inl ⟨hnone, houtputs⟩, fun key hkey ↦ hkey.sublist houtputs.sublist⟩
  · refine ⟨.inr ⟨s.start, s.earlier, s.backend.outputs, hone, hlt, hsoftware, rfl, hearlier,
      hsends⟩, fun key hkey ↦ ?_⟩
    refine pairwise_seam (r := (key · ≤ key ·)) (k := s.start) (fun _ ↦ le_rfl) hkey ?_ ?_
    · rw [← List.map_take]
      exact hearlier
    · rw [← List.map_drop]
      exact hsends

theorem sent_in_order_fallen : ∃ s : H264Encoder, s.fallbacks = [1] ∧ s.outputs.length = 2 ∧
    s.outputs.Pairwise (·.frameId ≤ ·.frameId) := by
  obtain ⟨s, hrun, -, hfallbacks, -, hcalls, hlength, -, -, -⟩ := fallen_run
  refine ⟨s, hfallbacks, hlength, (sent_in_order hrun).2 Output.frameId ?_⟩
  have hpairwise : (s.calls.map CapturedFrame.frameId).Pairwise (· ≤ ·) := by
    rw [hcalls]
    decide
  rw [List.pairwise_map] at hpairwise ⊢
  exact hpairwise

/-! ## What is not sent -/

/-- Between two calls every frame that was given to the backend is sent or held, and NVENC
holds no more than it has slots. -/
theorem accounted_of_idle (h : Inv c s) {returned : Option Bool} (hpoint : s.point = .idle returned)
    (hnot : returned ≠ some false) :
    s.outputs ++ s.backend.held = s.earlier ++ s.given.map frameOutput := by
  have hat := h.at_point
  rw [hpoint] at hat
  rw [outputs, List.append_assoc, (hat.resolve_left hnot).accounted]

/-- Where NVENC has thrown, the encoder has not fallen back before. -/
theorem lost_of_fallingBack (h : Inv c s) {frame : CapturedFrame} {count : Nat}
    {pipeline : Nvenc.Pipeline} (hpoint : s.point = .fallingBack frame)
    (hbackend : s.backend = .nvenc count pipeline) :
    s.calls.length ≤ s.outputs.length + Nvenc.kNvencPipelineSlotCount + 1 := by
  have hat := h.at_point
  rw [hpoint] at hat
  obtain ⟨hhardware, -, hfew⟩ := hat
  obtain ⟨-, hstart, hearlier⟩ := h.record.start_eq hhardware
  have hlength := hfew _ _ hbackend
  rw [given, hstart, List.drop_zero] at hlength
  rw [outputs, hearlier, hbackend, List.nil_append, Backend.outputs, List.length_map]
  exact hlength

/-- Without a fallback, and with nothing held, every frame was sent once. -/
theorem outputs_of_idle (h : Inv c s) (hpoint : s.point = .idle (some true))
    (hhardware : s.hardware = true) (hheld : s.backend.held = []) :
    s.outputs = s.calls.map frameOutput := by
  obtain ⟨-, hstart, hearlier⟩ := h.record.start_eq hhardware
  have hall := accounted_of_idle h hpoint (by rintro ⟨⟩)
  rw [hheld, hearlier, given, hstart] at hall
  rwa [List.append_nil, List.drop_zero, List.nil_append] at hall

theorem held_nil {count : Nat} {pipeline : Nvenc.Pipeline}
    (h : pipeline.encoder.pendingSlots = []) : (Backend.nvenc count pipeline).held = [] := by
  show (pipeline.encoder.pendingSlots.map pipeline.encoder.packet).map packetOutput = []
  rw [h]
  rfl

/-- The call returns what the backend has returned. -/
theorem settle_of_result {value : Bool} (h : s.backend.result = some (.ok value)) (call : Call) :
    s.settle call = s.returned value call := by
  unfold settle
  rw [h]

/-- Where `Drain` returns true, no frame of NVENC is left. -/
theorem drained_of_step (h : Inv c s) {count : Nat} {pipeline : Nvenc.Pipeline} {a : Answer}
    (hpoint : s.point = .inside .drain) (hbackend : s.backend = .nvenc count pipeline)
    (hstep : s.next c (.step a) = some t) (ht : t.point = .idle (some true)) :
    t.outputs = s.calls.map frameOutput := by
  have hinv := h.next hstep
  have hat := h.at_point
  rw [hpoint] at hat
  have hdrain := hat.2 _ _ hbackend
  simp only [next, hpoint] at hstep
  obtain ⟨backend, hpass, rfl⟩ := Option.map_eq_some_iff.1 hstep
  unfold pass at hpass
  rw [hbackend] at hpass
  obtain ⟨pipeline', hnext, rfl⟩ := Option.map_eq_some_iff.1 hpass
  have hhardware := h.hardware _ _ hbackend
  rcases Nvenc.Pipeline.drain_step hdrain hnext with hp | ⟨hp, hempty⟩ | hp | ⟨error, hp⟩
  · simp only [settle, Backend.result, hp] at ht
    cases ht
  · have hresult : (Backend.nvenc count pipeline').result = some (.ok true) := by
      simp only [Backend.result, hp]
      rfl
    rw [settle_of_result hresult] at hinv ⊢
    exact outputs_of_idle hinv rfl hhardware (held_nil hempty)
  · simp only [settle, Backend.result, hp] at ht
    cases ht
  · simp only [settle, Backend.result, hp] at ht
    cases ht

/-- **Frames are accounted for.**  Between two calls, what the backend has accepted and not sent are
the last of the frames that it was given, and all others were sent.  If NVENC throws, no frames
are lost but those in its slots, beside the one of the call.  If `Drain` of NVENC returns true, the
frames of all calls were sent, each once. -/
theorem frames_accounted (h : Run c (initializeEncoder a) s) :
    (∀ returned, s.point = .idle returned → returned ≠ some false →
      s.outputs ++ s.backend.held = s.earlier ++ (s.calls.drop s.start).map frameOutput) ∧
    (∀ frame count pipeline, s.point = .fallingBack frame → s.backend = .nvenc count pipeline →
      s.calls.length ≤ s.outputs.length + Nvenc.kNvencPipelineSlotCount + 1) ∧
    ∀ count pipeline answer t, s.point = .inside .drain → s.backend = .nvenc count pipeline →
      s.next c (.step answer) = some t → t.point = .idle (some true) →
        t.outputs = s.calls.map frameOutput :=
  have hinv := Inv.run h
  ⟨fun _ ↦ accounted_of_idle hinv, fun _ _ _ ↦ lost_of_fallingBack hinv,
    fun _ _ _ _ ↦ drained_of_step hinv⟩

theorem frames_accounted_fallen : ∃ s : H264Encoder, s.fallbacks = [1] ∧
    s.outputs.map Output.frameId = s.earlier.map Output.frameId ++ [8] := by
  obtain ⟨s, hrun, hpoint, hfallbacks, hstart, hcalls, -, hheld, -, -⟩ := fallen_run
  refine ⟨s, hfallbacks, ?_⟩
  have hall := (frames_accounted hrun).1 _ hpoint (by rintro ⟨⟩)
  rw [hheld, List.append_nil, hstart] at hall
  have hlast : (s.calls.drop 1).map CapturedFrame.frameId = [8] := by
    rw [List.map_drop, hcalls]
    rfl
  rw [hall, List.map_append, List.map_map, ← hlast]
  rfl

/-! ## The time stamps -/

/-- The entry at a place of a prefix is that of the frame at this place. -/
theorem getElem?_of_prefix_mapIdx {α β : Type*} {l : List β} {m : Nat → α → β} {frames : List α}
    (h : l <+: frames.mapIdx m) {k : Nat} {x : β} (hx : l[k]? = some x) :
    ∃ frame, frames[k]? = some frame ∧ x = m k frame := by
  obtain ⟨hk, rfl⟩ := List.getElem?_eq_some_iff.1 hx
  have hmap := List.prefix_iff_getElem?.1 h k hk
  rw [List.getElem?_mapIdx] at hmap
  obtain ⟨frame, hframe, hsame⟩ := Option.map_eq_some_iff.1 hmap
  exact ⟨frame, hframe, hsame.symm⟩

/-- **Frames are timed by their number.**  The `k`th packet of NVENC is that of the frame of the
`k`th call, and its picture was given the index, the time stamp and the flag of that number.  The
`k`th sample that a transform sends is that of the `k`th call, counted from the one in which it
was made, with the time that belongs to that number. -/
theorem frames_timed (h : Run c (initializeEncoder a) s) :
    (∀ count pipeline k packet, s.backend = .nvenc count pipeline →
      pipeline.packets[k]? = some packet →
        ∃ frame, s.calls[k]? = some frame ∧ packet = framePacket c.fps k frame) ∧
    ∀ async pipeline k sent, s.backend = .transform async pipeline →
      pipeline.sends[k]? = some sent →
        ∃ frame, s.calls[s.start + k]? = some frame ∧ sent = frameSent c k frame := by
  have hinv := Inv.run h
  have hsends := hinv.sends
  constructor
  · intro count pipeline k packet hbackend hpacket
    obtain ⟨-, hstart, -⟩ := hinv.record.start_eq (hinv.hardware _ _ hbackend)
    rw [hbackend, given, hstart, List.drop_zero] at hsends
    exact getElem?_of_prefix_mapIdx hsends hpacket
  · intro async pipeline k sent hbackend hsent
    rw [hbackend] at hsends
    obtain ⟨frame, hframe, rfl⟩ := getElem?_of_prefix_mapIdx hsends hsent
    rw [given, List.getElem?_drop] at hframe
    exact ⟨frame, hframe, rfl⟩

theorem frames_timed_fallen : ∃ (s : H264Encoder) (sent : MediaFoundation.Sent),
    s.backend.outputs = [sentOutput sent] ∧ sent.sample.sampleTime = 0 ∧
      s.calls[1]? = some sent.sample.frame := by
  obtain ⟨s, hrun, -, -, hstart, -, -, -, hhardware, hlength⟩ := fallen_run
  cases hbackend : s.backend with
  | none =>
      rw [hbackend] at hlength
      cases hlength
  | nvenc count pipeline =>
      rw [(Inv.run hrun).hardware _ _ hbackend] at hhardware
      cases hhardware
  | transform async pipeline =>
      rw [hbackend, Backend.outputs, List.length_map] at hlength
      obtain ⟨sent, hsends⟩ := List.length_eq_one_iff.1 hlength
      obtain ⟨frame, hframe, rfl⟩ :=
        (frames_timed hrun).2 async pipeline 0 sent hbackend (by rw [hsends]; rfl)
      rw [hstart] at hframe
      refine ⟨s, frameSent { width := 2, height := 2, fps := 30, async := false } 0 frame, ?_, rfl,
        hframe⟩
      rw [hbackend, Backend.outputs, hsends]
      rfl

end H264Encoder

end SecondScreen.Encoding
