import SecondScreen.MediaFoundation.Alignment
import SecondScreen.Machine.Lists

/-!
# What the transform makes of the frames it is given

Each call of `EncodeFrameOnce` has its sample accepted, unless it throws or returns false.  Here
a `SendAnnexB` may return false, which ends the use of the encoder.
-/

namespace SecondScreen.MediaFoundation

open SecondScreen.Ring

/-- The sample of the call that is under way, if the transform has not accepted it. -/
def Point.toSubmit : Point → List Sample
  | .submit sample | .submitAgain sample | .events (.waitForInput sample)
  | .pump (.refused sample) | .pump (.haveOutput (.waitForInput sample)) => [sample]
  | _ => []

/-- The last call has not thrown, nor returned false. -/
structure Pipeline.Running (p : Pipeline) : Prop where
  point : p.point.Running
  not_failed : p.point ≠ .idle (some false)

/-- The input sample of a frame. -/
def frameSample (c : Config) (frameIndex : Nat) (frame : CapturedFrame) : Sample where
  frame
  sampleTime := frameIndex % 2 ^ 64 * 10000000 % 2 ^ 64 / c.fps
  sampleDuration := 10000000 / c.fps

/-- What was accepted of the frames that `EncodeFrameOnce` was called with, the last one perhaps
under way. -/
structure Submits (c : Config) (given : List CapturedFrame) (p : Pipeline) : Prop where
  inv : p.point ≠ .idle (some false) → Inv p
  aligned : ∀ x ∈ p.sends, x.Aligned
  sent : p.sends.map Sent.sample <+: p.accepted
  frames : p.accepted.map Sample.frame <+: given
  samples : ∀ k sample, p.accepted[k]? = some sample → sample = frameSample c k sample.frame
  sample : ∀ sample ∈ p.point.toSubmit, sample = frameSample c p.accepted.length sample.frame
  count : p.Running → p.encoder.encodedFrameCount = given.length % 2 ^ 64
  all : p.Running → (p.accepted ++ p.point.toSubmit).map Sample.frame = given

variable {c : Config} {p q : Pipeline} {given : List CapturedFrame}

/-- Nothing is given to a new encoder. -/
theorem Submits.new (c : Config) : Submits c [] {} where
  inv _ := .initial
  aligned x hx := by cases hx
  sent := List.nil_prefix
  frames := List.nil_prefix
  samples k sample hk := by cases hk
  sample sample hsample := by cases hsample
  count _ := rfl
  all _ := rfl

/-! ## What a step does -/

/-- The sample stays to be submitted, or nothing more is done. -/
def Keeps (p q : Pipeline) : Prop :=
  q.point.toSubmit = p.point.toSubmit ∨ q.point = .idle (some false) ∨
    ∃ error, q.point = .threw error

/-- The sample is accepted, or it stays to be submitted. -/
structure Goes (p q : Pipeline) : Prop where
  count : q.encoder.encodedFrameCount = p.encoder.encodedFrameCount
  accepted : q.accepted = p.accepted ∧ Keeps p q ∨
    ∃ sample, p.point.toSubmit = [sample] ∧ q.accepted = p.accepted ++ [sample] ∧
      q.point.toSubmit = []

theorem Goes.kept (hcount : q.encoder.encodedFrameCount = p.encoder.encodedFrameCount)
    (haccepted : q.accepted = p.accepted) (hkeeps : Keeps p q) : Goes p q :=
  ⟨hcount, .inl ⟨haccepted, hkeeps⟩⟩

/-- The output that a call has asked for does not change what is to be submitted after it. -/
theorem toSubmit_return (call : PumpCall) :
    call.return.toSubmit = (Point.pump call).toSubmit := by
  cases call with
  | refused sample => rfl
  | last => rfl
  | haveOutput loop => cases loop <;> rfl

/-- The first `ProcessInput`: accepted, refused for now, or the call throws. -/
theorem goes_submit {sample : Sample} (hpoint : p.point = .submit sample)
    (inputResult : HRESULT) : Goes p (p.submit c sample inputResult) := by
  have hsubmit : p.point.toSubmit = [sample] := by rw [hpoint]; rfl
  unfold Pipeline.submit
  dsimp only
  split_ifs
  · split
    · exact .kept rfl rfl (.inr (.inr ⟨_, rfl⟩))
    · exact ⟨rfl, .inr ⟨sample, hsubmit, rfl, rfl⟩⟩
  · exact .kept rfl rfl (.inl (by rw [hpoint]; rfl))
  · split
    · exact .kept rfl rfl (.inr (.inr ⟨_, rfl⟩))
    · exact ⟨rfl, .inr ⟨sample, hsubmit, rfl, rfl⟩⟩

/-- The second `ProcessInput`: accepted, or the call throws. -/
theorem goes_submitAgain {sample : Sample} (hpoint : p.point = .submitAgain sample)
    (inputResult : HRESULT) : Goes p (p.submitAgain c sample inputResult) := by
  unfold Pipeline.submitAgain
  split
  · exact .kept rfl rfl (.inr (.inr ⟨_, rfl⟩))
  · exact ⟨rfl, .inr ⟨sample, by rw [hpoint]; rfl, rfl, rfl⟩⟩

/-- An event is counted or output is fetched; the sample waits. -/
theorem goes_processAsyncEvent {loop : EventLoop}
    (hpoint : p.point.toSubmit = (Point.events loop).toSubmit) (a : EventAnswer) :
    Goes p (p.processAsyncEvent c loop a) := by
  unfold Pipeline.processAsyncEvent
  split
  · refine .kept rfl rfl (.inl ?_)
    rw [hpoint]
    dsimp only
    cases loop <;> rfl
  · exact .kept rfl rfl (.inr (.inr ⟨_, rfl⟩))
  · split
    · exact .kept rfl rfl (.inr (.inr ⟨_, rfl⟩))
    · split
      · exact .kept rfl rfl (.inl hpoint.symm)
      · exact .kept rfl rfl (.inl hpoint.symm)
      · refine .kept rfl rfl (.inl ?_)
        rw [hpoint]
        cases loop <;> rfl
      · exact .kept rfl rfl (.inl hpoint.symm)

/-- So does one round of any of the three loops over the events. -/
theorem goes_event {loop : EventLoop} (hpoint : p.point = .events loop) (a : EventAnswer) :
    Goes p (p.event c loop a) := by
  have hsame : p.point.toSubmit = (Point.events loop).toSubmit := by rw [hpoint]
  unfold Pipeline.event
  split
  · split_ifs
    · exact goes_processAsyncEvent hsame a
    · exact .kept rfl rfl (.inl hsame.symm)
  · exact goes_processAsyncEvent hsame a
  · split_ifs
    · exact .kept rfl rfl (.inl hsame.symm)
    · exact goes_processAsyncEvent hsame a

/-- A packet that is sent, or not, is that of an earlier sample. -/
theorem keeps_send {call : PumpCall} (hpoint : p.point = .pump call) (sample : Sample)
    (inside : List Sample) (a : OutputAnswer) : Keeps p (p.send c call sample inside a) := by
  unfold Pipeline.send
  rcases sendSample c a.sendSample with ⟨called, error | (_ | _)⟩
  · exact .inr (.inr ⟨error, rfl⟩)
  · exact .inr (.inl rfl)
  · left
    rw [hpoint]

theorem goes_send {call : PumpCall} (hpoint : p.point = .pump call) (sample : Sample)
    (inside : List Sample) (a : OutputAnswer) : Goes p (p.send c call sample inside a) :=
  .kept rfl rfl (keeps_send hpoint sample inside a)

/-- `PumpOneOutput` submits nothing, whatever the transform answers. -/
theorem goes_pump {call : PumpCall} (hpoint : p.point = .pump call) {a : OutputAnswer}
    (hpump : p.pump c call a = some q) : Goes p q := by
  have hsame : p.point.toSubmit = (Point.pump call).toSubmit := by rw [hpoint]
  unfold Pipeline.pump at hpump
  split at hpump
  · cases hpump
    exact .kept rfl rfl (.inr (.inr ⟨_, rfl⟩))
  · by_cases hneed : a.processOutput = MF_E_TRANSFORM_NEED_MORE_INPUT
    · rw [if_pos hneed] at hpump
      cases hpump
      exact .kept rfl rfl (.inl ((toSubmit_return call).trans hsame.symm))
    · rw [if_neg hneed] at hpump
      by_cases hchange : a.processOutput = MF_E_TRANSFORM_STREAM_CHANGE
      · rw [if_pos hchange] at hpump
        split at hpump <;> cases hpump
        · exact .kept rfl rfl (.inr (.inr ⟨_, rfl⟩))
        · refine .kept rfl rfl (.inl ?_)
          dsimp only
          split
          · exact (toSubmit_return call).trans hsame.symm
          · exact hsame.symm
      · rw [if_neg hchange] at hpump
        split at hpump
        · cases hpump
          exact .kept rfl rfl (.inr (.inr ⟨_, rfl⟩))
        · split at hpump
          · cases hpump
          · split_ifs at hpump <;> cases hpump
            · exact .kept rfl rfl (.inr (.inr ⟨_, rfl⟩))
            · exact goes_send hpoint _ _ _

/-- Every step of a call accepts the sample, keeps it to be submitted or ends the call. -/
theorem goes_step {a : Answer} (hnext : p.next c (.step a) = some q) : Goes p q := by
  simp only [Pipeline.next] at hnext
  split at hnext
  · cases hnext
  · cases hnext
  · next hpoint =>
    cases hnext
    exact goes_submit hpoint _
  · next hpoint =>
    cases hnext
    exact goes_submitAgain hpoint _
  · next hpoint =>
    cases hnext
    exact goes_event hpoint _
  · next hpoint => exact goes_pump hpoint hnext

/-! ## What a step sends -/

/-- At most the output of the first sample inside is sent, with its metadata. -/
def Sends (p q : Pipeline) : Prop :=
  q.sends = p.sends ∨ ∃ sample inside, p.inside = sample :: inside ∧
    q.sends = p.sends ++ [⟨sample, sample.metadata, false⟩]

/-- The metadata that is taken from the queue is that of the first sample inside. -/
theorem sends_send {call : PumpCall} {sample : Sample} {inside waiting : List Sample}
    (hinside : p.inside = sample :: inside) (h : Steady p waiting) (a : OutputAnswer) :
    Sends p (p.send c call sample inside a) := by
  have hpending : p.encoder.pendingFrames =
      sample.metadata :: (inside ++ waiting).map Sample.metadata := by
    rw [h.pending, hinside]
    rfl
  unfold Pipeline.send
  rw [hpending]
  dsimp only
  cases (sendSample c a.sendSample).1 with
  | true => exact .inr ⟨sample, inside, hinside, rfl⟩
  | false => exact .inl rfl

/-- One `ProcessOutput` sends at most one packet. -/
theorem sends_pump {call : PumpCall} {waiting : List Sample} (h : Steady p waiting)
    {a : OutputAnswer} (hpump : p.pump c call a = some q) : Sends p q := by
  unfold Pipeline.pump at hpump
  split at hpump
  · cases hpump
    exact .inl rfl
  · by_cases hneed : a.processOutput = MF_E_TRANSFORM_NEED_MORE_INPUT
    · rw [if_pos hneed] at hpump
      cases hpump
      exact .inl rfl
    · rw [if_neg hneed] at hpump
      by_cases hchange : a.processOutput = MF_E_TRANSFORM_STREAM_CHANGE
      · rw [if_pos hchange] at hpump
        split at hpump <;> cases hpump
        · exact .inl rfl
        · exact .inl rfl
      · rw [if_neg hchange] at hpump
        split at hpump
        · cases hpump
          exact .inl rfl
        · split at hpump
          · cases hpump
          · next hinside =>
            split_ifs at hpump <;> cases hpump
            · exact .inl rfl
            · exact sends_send hinside h _

/-- An event alone sends nothing. -/
theorem sends_processAsyncEvent (loop : EventLoop) (a : EventAnswer) :
    (p.processAsyncEvent c loop a).sends = p.sends := by
  unfold Pipeline.processAsyncEvent
  split
  · rfl
  · rfl
  · split
    · rfl
    · split <;> rfl

/-- Only `ProcessOutput` sends. -/
theorem sends_step (h : Inv p) {a : Answer} (hnext : p.next c (.step a) = some q) :
    Sends p q := by
  simp only [Pipeline.next] at hnext
  split at hnext
  · cases hnext
  · cases hnext
  · cases hnext
    left
    unfold Pipeline.submit
    dsimp only
    split_ifs
    · split <;> rfl
    · rfl
    · split <;> rfl
  · cases hnext
    left
    unfold Pipeline.submitAgain
    split <;> rfl
  · cases hnext
    left
    unfold Pipeline.event
    split
    · split_ifs
      · exact sends_processAsyncEvent _ _
      · rfl
    · exact sends_processAsyncEvent _ _
    · split_ifs
      · rfl
      · exact sends_processAsyncEvent _ _
  · next hpoint =>
    refine sends_pump (h.steady ?_) hnext
    rw [hpoint]
    rintro _ ⟨⟩

/-- The answer in which the packet is sent. -/
def OutputAnswer.sending (a : OutputAnswer) : OutputAnswer :=
  { a with sendSample := { a.sendSample with sendAnnexB := true } }

/-- What `SendAnnexB` returns makes no difference, or `SendSample` returns false. -/
theorem sendSample_sending (a : SendAnswer) :
    sendSample c { a with sendAnnexB := true } = sendSample c a ∨
      (sendSample c a).2 = .ok false := by
  unfold sendSample
  dsimp only
  cases checkHr c "convert H.264 output to contiguous buffer" a.convertToContiguousBuffer with
  | error error => exact .inl rfl
  | ok =>
      cases checkHr c "lock H.264 output buffer" a.lock with
      | error error => exact .inl rfl
      | ok =>
          cases checkHr c "unlock H.264 output buffer" a.unlock with
          | error error => exact .inl rfl
          | ok =>
              cases a.sendAnnexB with
              | true => exact .inl rfl
              | false => exact .inr rfl

/-- The step is the one in which the packet is sent, or the call returns false. -/
theorem send_sending (call : PumpCall) (sample : Sample) (inside : List Sample)
    (a : OutputAnswer) :
    p.send c call sample inside a.sending = p.send c call sample inside a ∨
      (p.send c call sample inside a).point = .idle (some false) := by
  rcases sendSample_sending (c := c) a.sendSample with hsame | hfailed
  · left
    unfold Pipeline.send
    rw [show a.sending.sendSample = { a.sendSample with sendAnnexB := true } from rfl, hsame]
    rfl
  · right
    unfold Pipeline.send
    cases p.encoder.pendingFrames with
    | nil =>
        dsimp only
        rw [hfailed]
    | cons metadata pendingFrames =>
        dsimp only
        rw [hfailed]

/-- The same of `PumpOneOutput`, in which only `SendSample` looks at that answer. -/
theorem pump_sending (call : PumpCall) (a : OutputAnswer) :
    p.pump c call a.sending = p.pump c call a ∨
      ∃ sample inside, p.pump c call a = some (p.send c call sample inside a) ∧
        p.pump c call a.sending = some (p.send c call sample inside a.sending) := by
  unfold Pipeline.pump
  rw [show prepareOutput c a.sending = prepareOutput c a from rfl]
  cases prepareOutput c a with
  | error error => exact .inl rfl
  | ok =>
      dsimp only
      by_cases hneed : a.processOutput = MF_E_TRANSFORM_NEED_MORE_INPUT
      · rw [if_pos hneed, if_pos (show a.sending.processOutput = _ from hneed)]
        exact .inl rfl
      · rw [if_neg hneed, if_neg (show a.sending.processOutput = _ → False from hneed)]
        by_cases hchange : a.processOutput = MF_E_TRANSFORM_STREAM_CHANGE
        · rw [if_pos hchange, if_pos (show a.sending.processOutput = _ from hchange)]
          exact .inl rfl
        · rw [if_neg hchange, if_neg (show a.sending.processOutput = _ → False from hchange)]
          rw [show a.sending.processOutput = a.processOutput from rfl]
          cases checkHr c "H.264 encoder ProcessOutput" a.processOutput with
          | error error => exact .inl rfl
          | ok =>
              cases p.inside with
              | nil => exact .inl rfl
              | cons sample inside =>
                  by_cases hnone : (a.provideSample && !a.provided) = true
                  · exact .inl ((if_pos hnone).trans (if_pos hnone).symm)
                  · exact .inr ⟨sample, inside, if_neg hnone, if_neg hnone⟩

/-- The invariant of the metadata holds as long as nothing has returned false. -/
theorem inv_step (h : Inv p) {a : Answer} (hnext : p.next c (.step a) = some q)
    (hnot : q.point ≠ .idle (some false)) : Inv q := by
  have hsending : p.next c (.step { a with output := a.output.sending }) = some q := by
    simp only [Pipeline.next] at hnext ⊢
    cases hpoint : p.point with
    | pump call =>
        rw [hpoint] at hnext
        dsimp only at hnext ⊢
        rcases pump_sending (c := c) (p := p) call a.output with
          hsame | ⟨sample, inside, hpump, hsending⟩
        · rw [hsame]
          exact hnext
        · rw [hpump] at hnext
          obtain rfl := Option.some.inj hnext
          rcases send_sending (c := c) (p := p) call sample inside a.output with hsame | hfailed
          · rw [hsending, hsame]
          · exact absurd hfailed hnot
    | _ =>
        rw [hpoint] at hnext
        exact hnext
  exact h.next (m := .step { a with output := a.output.sending }) rfl hsending

/-! ## What is preserved -/

/-- Only a call that has not ended takes a step. -/
theorem running_of_step {a : Answer} (hnext : p.next c (.step a) = some q) : p.Running := by
  constructor
  · intro error hpoint
    simp only [Pipeline.next, hpoint] at hnext
    cases hnext
  · intro hpoint
    simp only [Pipeline.next, hpoint] at hnext
    cases hnext

/-- A step of a call: what the transform accepts is the sample of the frame last given. -/
theorem Submits.step (h : Submits c given p) {a : Answer}
    (hnext : p.next c (.step a) = some q) : Submits c given q := by
  have hrunning := running_of_step hnext
  have hinv := h.inv hrunning.not_failed
  have hall := h.all hrunning
  have hsteady := hinv.steady hrunning.point
  have hgoes := goes_step hnext
  have hsent : q.sends.map Sent.sample <+: p.accepted := by
    rw [← hsteady.order]
    rcases sends_step hinv hnext with hsends | ⟨sample, inside, hinside, hsends⟩
    · rw [hsends]
      exact List.prefix_append _ _
    · rw [hsends, hinside, List.map_append]
      exact ⟨inside, by rw [List.append_assoc]; rfl⟩
  have haligned : ∀ x ∈ q.sends, x.Aligned := by
    rcases sends_step hinv hnext with hsends | ⟨sample, inside, hinside, hsends⟩
    · rw [hsends]
      exact h.aligned
    · rw [hsends]
      intro x hx
      rcases List.mem_append.1 hx with hx | hx
      · exact h.aligned x hx
      · rw [List.mem_singleton.1 hx]
        exact ⟨rfl, rfl⟩
  rcases hgoes.accepted with ⟨haccepted, hkeeps⟩ | ⟨sample, hsubmit, haccepted, hdone⟩
  · refine ⟨inv_step hinv hnext, haligned, ?_, ?_, ?_, ?_, fun _ ↦ ?_, fun hq ↦ ?_⟩
    · rw [haccepted]
      exact hsent
    · rw [haccepted]
      exact h.frames
    · rw [haccepted]
      exact h.samples
    · rw [haccepted]
      rcases hkeeps with hsame | hfailed | ⟨error, hthrew⟩
      · rw [hsame]
        exact h.sample
      · rw [hfailed]
        rintro x ⟨⟩
      · rw [hthrew]
        rintro x ⟨⟩
    · rw [hgoes.count]
      exact h.count hrunning
    · rcases hkeeps with hsame | hfailed | ⟨error, hthrew⟩
      · rw [haccepted, hsame]
        exact hall
      · exact absurd hfailed hq.not_failed
      · exact absurd hthrew (hq.point error)
  · rw [hsubmit] at hall
    refine ⟨inv_step hinv hnext, haligned, ?_, ?_, ?_, ?_, fun _ ↦ ?_, fun _ ↦ ?_⟩
    · rw [haccepted]
      exact hsent.trans (List.prefix_append _ _)
    · have hframes : q.accepted.map Sample.frame = given := by
        rw [haccepted]
        exact hall
      exact hframes ▸ List.prefix_rfl
    · rw [haccepted]
      intro k x hx
      rcases Machine.getElem?_concat_cases hx with hx | ⟨rfl, rfl⟩
      · exact h.samples k x hx
      · exact h.sample x (by rw [hsubmit]; exact List.mem_singleton_self x)
    · rw [hdone]
      rintro x ⟨⟩
    · rw [hgoes.count]
      exact h.count hrunning
    · rw [haccepted, hdone, List.append_nil]
      exact hall

/-- A call that throws at once. -/
theorem Submits.throw (h : Submits c given p) {error : String} {later : List CapturedFrame}
    (hlater : given <+: later) : Submits c later { p with point := .threw error } where
  inv _ := .of_threw h.aligned rfl
  aligned := h.aligned
  sent := h.sent
  frames := h.frames.trans hlater
  samples := h.samples
  sample x hx := by cases hx
  count hq := absurd rfl (hq.point error)
  all hq := absurd rfl (hq.point error)

/-- Between two calls nothing has thrown. -/
theorem running_of_idle {returned : Option Bool} (hpoint : p.point = .idle returned)
    (hnot : p.point ≠ .idle (some false)) : p.Running := by
  refine ⟨fun error ↦ ?_, hnot⟩
  rw [hpoint]
  rintro ⟨⟩

/-- A further frame is given, as the sample with the next index. -/
theorem Submits.encodeFrameOnce (h : Submits c given p) (hnot : p.point ≠ .idle (some false))
    {frame : CapturedFrame} {inputSample : Except String Unit}
    (hnext : p.next c (.encodeFrameOnce frame inputSample) = some q) :
    Submits c (given ++ [frame]) q := by
  have hfront : given <+: given ++ [frame] := List.prefix_append _ _
  have hinv := (h.inv hnot).next (m := .encodeFrameOnce frame inputSample) trivial hnext
  simp only [Pipeline.next] at hnext
  split at hnext <;> cases hnext
  next returned hpoint =>
  have hrunning := running_of_idle hpoint hnot
  have hcount := h.count hrunning
  have hall := h.all hrunning
  rw [hpoint] at hall
  have hframes : p.accepted.map Sample.frame = given := by
    rw [← hall]
    exact (congrArg _ (List.append_nil _)).symm
  have hlength : p.accepted.length = given.length := by rw [← hframes, List.length_map]
  unfold Pipeline.encodeFrameOnce at hinv ⊢
  cases hcheck : checkFrame c frame with
  | error error => exact h.throw hfront
  | ok =>
      cases inputSample with
      | error error => exact h.throw hfront
      | ok =>
          rw [hcheck] at hinv
          dsimp only at hinv ⊢
          refine ⟨fun _ ↦ hinv, h.aligned, h.sent, h.frames.trans hfront, h.samples, ?_,
            fun _ ↦ ?_, fun _ ↦ ?_⟩
          · intro x hx
            rw [frameSample, hlength, ← hcount]
            split_ifs at hx
            · rw [List.mem_singleton.1 hx]
            · rw [List.mem_singleton.1 hx]
          · show (p.encoder.encodedFrameCount + 1) % 2 ^ 64 = _
            rw [hcount, List.length_append, List.length_singleton]
            omega
          · rw [← hframes]
            split_ifs
            · rw [List.map_append]
              rfl
            · rw [List.map_append]
              rfl

/-- `Drain` gives no frame. -/
theorem Submits.drain (h : Submits c given p) (hnot : p.point ≠ .idle (some false))
    {command : HRESULT} (hnext : p.next c (.drain command) = some q) : Submits c given q := by
  have hinv := (h.inv hnot).next (m := .drain command) trivial hnext
  simp only [Pipeline.next] at hnext
  split at hnext <;> cases hnext
  next returned hpoint =>
  have hrunning := running_of_idle hpoint hnot
  have hcount := h.count hrunning
  have hall := h.all hrunning
  rw [hpoint] at hall
  unfold Pipeline.drain at hinv ⊢
  cases hcheck : checkHr c "H.264 encoder drain" command with
  | error error => exact h.throw List.prefix_rfl
  | ok =>
      rw [hcheck] at hinv
      dsimp only at hinv ⊢
      split_ifs at hinv ⊢
      · refine ⟨fun _ ↦ hinv, h.aligned, h.sent, h.frames, h.samples, ?_, fun _ ↦ hcount,
          fun _ ↦ hall⟩
        rintro x ⟨⟩
      · refine ⟨fun _ ↦ hinv, h.aligned, h.sent, h.frames, h.samples, ?_, fun _ ↦ hcount,
          fun _ ↦ hall⟩
        rintro x ⟨⟩

end SecondScreen.MediaFoundation
