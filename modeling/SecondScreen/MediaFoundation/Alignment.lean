import SecondScreen.Conc.Runs
import SecondScreen.MediaFoundation.Encoder

/-!
# The metadata stay aligned

`pendingFrames_` holds the metadata of the samples inside the transform, and of the one that
is being submitted, in order (`Steady`).  The output that the transform gives next is
therefore sent with the metadata at the front.
-/

namespace SecondScreen.MediaFoundation

open SecondScreen.Conc SecondScreen.Ring Relation

/-- The sample whose metadata are queued but which the transform has not accepted. -/
def Point.submitting : Point → List Sample
  | .submitAgain sample | .pump (.refused sample) => [sample]
  | _ => []

def Point.Running (point : Point) : Prop := ∀ error, point ≠ .threw error

/-- An output is sent with the metadata of its own sample. -/
structure Sent.Aligned (x : Sent) : Prop where
  metadata : x.metadata = x.sample.metadata
  not_fallback : x.fallback = false

/-- The queue of the encoder and that of the transform. -/
structure Steady (p : Pipeline) (submitting : List Sample) : Prop where
  pending : p.encoder.pendingFrames = (p.inside ++ submitting).map Sample.metadata
  order : p.sends.map Sent.sample ++ p.inside = p.accepted

structure Inv (p : Pipeline) : Prop where
  aligned : ∀ x ∈ p.sends, x.Aligned
  steady : p.point.Running → Steady p p.point.submitting

/-- If the packet is sent, `SendAnnexB` returns true. -/
def SendsSucceed (_ : Pipeline) : Move → Prop
  | .step a => a.output.sendSample.sendAnnexB = true
  | _ => True

variable {c : Config} {p q : Pipeline} {waiting : List Sample} {sample : Sample} {error : String}

/-- A new encoder has sent nothing and has no metadata queued. -/
theorem Inv.initial : Inv {} where
  aligned _ h := by cases h
  steady _ := ⟨rfl, rfl⟩

/-- After an exception there is no more to say. -/
theorem Inv.of_threw (haligned : ∀ x ∈ q.sends, x.Aligned) (hpoint : q.point = .threw error) :
    Inv q := ⟨haligned, fun hrunning ↦ absurd hpoint (hrunning error)⟩

theorem Inv.of_steady (haligned : ∀ x ∈ q.sends, x.Aligned) (h : Steady q waiting)
    (hpoint : q.point.submitting = waiting) : Inv q :=
  ⟨haligned, fun _ ↦ hpoint ▸ h⟩

/-- The output that a call has asked for does not change what is to be submitted after it. -/
theorem PumpCall.submitting_return (call : PumpCall) :
    call.return.submitting = (Point.pump call).submitting := by
  cases call <;> rfl

/-! ## What each function preserves -/

/-- The sample that was being submitted is inside now. -/
theorem Inv.accept (h : Steady p [sample]) (haligned : ∀ x ∈ p.sends, x.Aligned) {point : Point}
    (hpoint : point.submitting = []) : Inv (p.accept sample point) := by
  refine .of_steady haligned ⟨?_, ?_⟩ hpoint
  · rw [List.append_nil]
    exact h.pending
  · show p.sends.map Sent.sample ++ (p.inside ++ [sample]) = p.accepted ++ [sample]
    rw [← List.append_assoc, h.order]

/-- A `SendAnnexB` that returns true, unless an exception comes before or after it. -/
theorem sendSample_cases {a : SendAnswer} (h : a.sendAnnexB = true) :
    (∃ called error, sendSample c a = (called, .error error)) ∨
      sendSample c a = (true, .ok true) := by
  unfold sendSample
  split
  · exact .inl ⟨_, _, rfl⟩
  · split
    · exact .inl ⟨_, _, rfl⟩
    · rw [h]
      cases checkHr c "unlock H.264 output buffer" a.unlock with
      | error e => exact .inl ⟨_, _, rfl⟩
      | ok => exact .inr rfl

section Step

variable (haligned : ∀ x ∈ p.sends, x.Aligned)

include haligned

/-- Nothing is queued before the first `ProcessInput`. -/
theorem Inv.encodeFrameOnce (h : Steady p []) (frame : CapturedFrame)
    (inputSample : Except String Unit) : Inv (p.encodeFrameOnce c frame inputSample) := by
  unfold Pipeline.encodeFrameOnce
  split
  · exact .of_threw haligned rfl
  · split
    · exact .of_threw haligned rfl
    · refine .of_steady haligned ⟨h.pending, h.order⟩ ?_
      dsimp only
      split <;> rfl

/-- `Drain` submits nothing. -/
theorem Inv.drain (h : Steady p []) (command : HRESULT) : Inv (p.drain c command) := by
  unfold Pipeline.drain
  split
  · exact .of_threw haligned rfl
  · split
    · exact .of_steady haligned ⟨h.pending, h.order⟩ rfl
    · exact .of_steady haligned ⟨h.pending, h.order⟩ rfl

/-- The metadata are queued first, and stay there when the sample is refused. -/
theorem Inv.submit (h : Steady p []) (sample : Sample) (inputResult : HRESULT) :
    Inv (p.submit c sample inputResult) := by
  have hpushed : Steady { p with
      encoder :=
        { p.encoder with pendingFrames := p.encoder.pendingFrames ++ [sample.metadata] } }
      [sample] := by
    refine ⟨?_, h.order⟩
    show p.encoder.pendingFrames ++ [sample.metadata] = _
    rw [h.pending, List.append_nil, List.map_append]
    rfl
  unfold Pipeline.submit
  dsimp only
  split_ifs
  · split
    · exact .of_threw haligned rfl
    · exact .accept hpushed haligned rfl
  · exact .of_steady haligned ⟨hpushed.pending, hpushed.order⟩ rfl
  · split
    · exact .of_threw haligned rfl
    · exact .accept hpushed haligned rfl

/-- The second `ProcessInput`. -/
theorem Inv.submitAgain (h : Steady p [sample]) (inputResult : HRESULT) :
    Inv (p.submitAgain c sample inputResult) := by
  unfold Pipeline.submitAgain
  split
  · exact .of_threw haligned rfl
  · exact .accept h haligned rfl

/-- The metadata at the front are those of the sample whose output is sent. -/
theorem Inv.send {call : PumpCall} {inside : List Sample} {a : OutputAnswer}
    (hinside : p.inside = sample :: inside) (h : Steady p (Point.pump call).submitting)
    (hsend : a.sendSample.sendAnnexB = true) : Inv (p.send c call sample inside a) := by
  have hpending : p.encoder.pendingFrames =
      sample.metadata :: (inside ++ (Point.pump call).submitting).map Sample.metadata := by
    rw [h.pending, hinside]
    rfl
  have hsent : ∀ x ∈ p.sends ++ [(⟨sample, sample.metadata, false⟩ : Sent)], x.Aligned := by
    intro x hx
    rcases List.mem_append.1 hx with hx | hx
    · exact haligned x hx
    · rw [List.mem_singleton.1 hx]
      exact ⟨rfl, rfl⟩
  unfold Pipeline.send
  rw [hpending]
  rcases sendSample_cases (c := c) hsend with ⟨called, error, hresult⟩ | hresult
  · rw [hresult]
    refine .of_threw ?_ rfl
    cases called with
    | true => exact hsent
    | false => exact haligned
  · rw [hresult]
    refine .of_steady hsent ⟨rfl, ?_⟩ rfl
    show (p.sends ++ [(⟨sample, sample.metadata, false⟩ : Sent)]).map Sent.sample ++ inside =
      p.accepted
    rw [← h.order, hinside, List.map_append, List.append_assoc]
    rfl

/-- `PumpOneOutput` takes the metadata of the sample that comes out. -/
theorem Inv.pump {call : PumpCall} {a : OutputAnswer}
    (h : Steady p (Point.pump call).submitting) (hsend : a.sendSample.sendAnnexB = true)
    (hpump : p.pump c call a = some q) : Inv q := by
  unfold Pipeline.pump at hpump
  split at hpump
  · cases hpump
    exact .of_threw haligned rfl
  · by_cases hneed : a.processOutput = MF_E_TRANSFORM_NEED_MORE_INPUT
    · rw [if_pos hneed] at hpump
      cases hpump
      exact .of_steady haligned ⟨h.pending, h.order⟩ call.submitting_return
    · rw [if_neg hneed] at hpump
      by_cases hchange : a.processOutput = MF_E_TRANSFORM_STREAM_CHANGE
      · rw [if_pos hchange] at hpump
        split at hpump <;> cases hpump
        · exact .of_threw haligned rfl
        · refine .of_steady haligned ⟨h.pending, h.order⟩ ?_
          dsimp only
          split
          · exact call.submitting_return
          · rfl
      · rw [if_neg hchange] at hpump
        split at hpump
        · cases hpump
          exact .of_threw haligned rfl
        · split at hpump
          · cases hpump
          · next sample inside hinside =>
            split_ifs at hpump <;> cases hpump
            · exact .of_threw haligned rfl
            · exact .send haligned hinside h hsend

/-- An event changes neither the queue nor what is inside the transform. -/
theorem Inv.processAsyncEvent (h : Steady p []) (loop : EventLoop) (a : EventAnswer) :
    Inv (p.processAsyncEvent c loop a) := by
  unfold Pipeline.processAsyncEvent
  split
  · refine .of_steady haligned ⟨h.pending, h.order⟩ ?_
    dsimp only
    split <;> rfl
  · exact .of_threw haligned rfl
  · split
    · exact .of_threw haligned rfl
    · split
      · exact .of_steady haligned ⟨h.pending, h.order⟩ rfl
      · exact .of_steady haligned ⟨h.pending, h.order⟩ rfl
      · exact .of_steady haligned ⟨h.pending, h.order⟩ rfl
      · exact .of_steady haligned ⟨h.pending, h.order⟩ rfl

/-- One round of any of the three loops over the events. -/
theorem Inv.event (h : Steady p []) (loop : EventLoop) (a : EventAnswer) :
    Inv (p.event c loop a) := by
  unfold Pipeline.event
  split
  · split_ifs
    · exact .processAsyncEvent haligned h _ a
    · exact .of_steady haligned ⟨h.pending, h.order⟩ rfl
  · exact .processAsyncEvent haligned h _ a
  · split_ifs
    · exact .of_steady haligned ⟨h.pending, h.order⟩ rfl
    · exact .processAsyncEvent haligned h _ a

end Step

/-- Every step keeps metadata and samples together. -/
theorem Inv.next (h : Inv p) {m : Move} (hsend : SendsSucceed p m) (hnext : p.next c m = some q) :
    Inv q := by
  -- Where the machine can move at all, nothing has thrown.
  have hsteady {point : Point} (hpoint : p.point = point) (hrunning : point.Running) :
      Steady p point.submitting := by
    subst hpoint
    exact h.steady hrunning
  cases m with
  | encodeFrameOnce frame inputSample =>
      simp only [Pipeline.next] at hnext
      split at hnext <;> cases hnext
      next hpoint => exact .encodeFrameOnce h.aligned (hsteady hpoint (by rintro _ ⟨⟩)) _ _
  | drain command =>
      simp only [Pipeline.next] at hnext
      split at hnext <;> cases hnext
      next hpoint => exact .drain h.aligned (hsteady hpoint (by rintro _ ⟨⟩)) _
  | step a =>
      simp only [Pipeline.next] at hnext
      split at hnext
      · cases hnext
      · cases hnext
      · next hpoint =>
        cases hnext
        exact .submit h.aligned (hsteady hpoint (by rintro _ ⟨⟩)) _ _
      · next hpoint =>
        cases hnext
        exact .submitAgain h.aligned (hsteady hpoint (by rintro _ ⟨⟩)) _
      · next hpoint =>
        cases hnext
        exact .event h.aligned (hsteady hpoint (by rintro _ ⟨⟩)) _ _
      · next hpoint =>
        exact .pump h.aligned (hsteady hpoint (by rintro _ ⟨⟩)) hsend hnext

/-! ## The result -/

/-- **Metadata stay aligned.**  In any run in which the sends succeed, each output is sent with the
metadata of its own frame, never with the fallback; and unless something has thrown, outputs are
sent in the order in which the transform has accepted their frames, and `pendingFrames_` holds the
metadata of the frames that it has accepted or that are being submitted and whose output has not
been sent. -/
theorem metadata_aligned (h : ReflTransGen (Moves (Pipeline.next c) SendsSucceed) {} p) :
    (∀ x ∈ p.sends, (x.metadata.frameId = x.sample.frame.frameId ∧
      x.metadata.timestampUs = x.sample.frame.captureTimestampUs) ∧ x.fallback = false) ∧
    (p.point.Running → p.sends.map Sent.sample = p.accepted.take p.sends.length ∧
      p.encoder.pendingFrames =
        (p.accepted.drop p.sends.length ++ p.point.submitting).map Sample.metadata) := by
  have hinv : Inv p := run_preserves (fun h ⟨_, hsend, hnext⟩ ↦ h.next hsend hnext) .initial h
  constructor
  · intro x hx
    have haligned := hinv.aligned x hx
    rw [haligned.metadata]
    exact ⟨⟨rfl, rfl⟩, haligned.not_fallback⟩
  · intro hrunning
    obtain ⟨hpending, horder⟩ := hinv.steady hrunning
    have hlength : p.sends.length = (p.sends.map Sent.sample).length := by rw [List.length_map]
    rw [← horder, hlength, List.take_left, List.drop_left]
    exact ⟨rfl, hpending⟩

instance (p : Pipeline) (m : Move) : Decidable (SendsSucceed p m) :=
  match m with
  | .step a => inferInstanceAs (Decidable (a.output.sendSample.sendAnnexB = true))
  | .encodeFrameOnce _ _ | .drain _ => isTrue trivial

/-- Two frames go in; the second is refused until the format has changed and the first has
come out, and the second comes out in `Drain`. -/
def delayed : List Move :=
  let frame (frameId : Nat) : CapturedFrame :=
    { nv12 := [0, 0, 0, 0, 0, 0], width := 2, height := 2, stride := 2, frameId,
      captureTimestampUs := 100 * frameId }
  let needMoreInput : Move :=
    .step { output := { processOutput := MF_E_TRANSFORM_NEED_MORE_INPUT } }
  [.encodeFrameOnce (frame 7) (.ok ()), .step {}, needMoreInput,
   .encodeFrameOnce (frame 8) (.ok ()), .step { processInput := MF_E_NOTACCEPTING },
   .step { output :=
     { processOutput := MF_E_TRANSFORM_STREAM_CHANGE
       offered := [.ok { h264 := true, frameSize := none, accepted := true,
                         streamInfo := .ok 0 }] } },
   .step {}, needMoreInput, .step {}, needMoreInput,
   .drain S_OK, .step {}, needMoreInput]

theorem metadata_aligned_delayed : ∃ p : Pipeline,
    p.sends.map (fun x ↦ x.metadata.frameId) = [7, 8] ∧ p.encoder.pendingFrames = [] := by
  obtain ⟨p, hrun, hidle, hframes, haccepted⟩ : ∃ p : Pipeline,
      ReflTransGen (Moves (Pipeline.next { width := 2, height := 2, fps := 30, async := false })
        SendsSucceed) {} p ∧ p.point = .idle (some true) ∧
        p.sends.map (fun x ↦ x.sample.frame.frameId) = [7, 8] ∧
        p.accepted.length = 2 := exists_run delayed (by decide +kernel)
  obtain ⟨haligned, hsteady⟩ := metadata_aligned hrun
  refine ⟨p, ?_, ?_⟩
  · rw [← hframes]
    exact List.map_congr_left fun x hx ↦ (haligned x hx).1.1
  · have hlength : p.sends.length = 2 := by
      have h := congrArg List.length hframes
      rwa [List.length_map] at h
    have hrunning : p.point.Running := by
      rw [hidle]
      rintro _ ⟨⟩
    rw [(hsteady hrunning).2, hidle, List.drop_eq_nil_of_le (by omega)]
    rfl

end SecondScreen.MediaFoundation
