import SecondScreen.Conc.Runs
import SecondScreen.Host.Recovery

/-!
# From the capture thread to the worker

All calls of the host's queue, in any order, with what went through it.  A frame that is
delivered is recorded with the number of frames that had been accepted by then, so that
it is told apart from an equal one.

The frame that a delivery takes from the worker goes back into the queue, below a flag
that says that nothing is there.
-/

namespace SecondScreen.Host

open SecondScreen.Conc SecondScreen.Ring Relation

inductive HandoverCall
  | publish (frame : CapturedFrame)
  | publishHeartbeat
  | close
  | abort
  | /-- `WaitFor`, with the frame of the worker as its output. -/
    waitFor
  | /-- `TakePending`, with an empty frame as its output; the worker then swaps the two. -/
    takePending
deriving DecidableEq

/-- What the queue hands to the worker. -/
inductive Handed
  | frame (accepted : Nat) (frame : CapturedFrame)
  | heartbeat
deriving DecidableEq

/-- The queue, the frame of the worker, and what went through the queue. -/
structure Handover where
  queue : LatestFrameQueue := {}
  /-- The worker's `frame`. -/
  frame : CapturedFrame := {}
  /-- The frames that were accepted. -/
  published : List CapturedFrame := []
  handed : List Handed := []
  /-- How many pending frames `Abort` has discarded. -/
  discarded : Nat := 0
deriving DecidableEq

namespace Handover

/-- The worker has got the newest frame. -/
def deliver (s : Handover) (frame : CapturedFrame) (queue : LatestFrameQueue) : Handover :=
  { s with queue, frame, handed := s.handed ++ [.frame s.published.length frame] }

/-- What a call does. -/
def apply (s : Handover) : HandoverCall → Handover
  | .publish frame =>
      match s.queue.publish frame with
      | (true, queue) => { s with queue, published := s.published ++ [frame] }
      | (false, queue) => { s with queue }
  | .publishHeartbeat => { s with queue := s.queue.publishHeartbeat.2 }
  | .close => { s with queue := s.queue.close }
  | .abort =>
      { s with
        queue := s.queue.abort
        discarded := s.discarded + s.queue.hasPending.toNat }
  | .waitFor =>
      match s.queue.waitFor s.frame with
      | (.frame, frame, queue) => s.deliver frame queue
      | (.heartbeat, frame, queue) => { s with queue, frame, handed := s.handed ++ [.heartbeat] }
      | (.timeout, frame, queue) | (.closed, frame, queue) => { s with queue, frame }
  | .takePending =>
      match s.queue.takePending {} with
      | (true, frame, queue) => s.deliver frame queue
      | (false, _, queue) => { s with queue }

/-- Any sequence of calls. -/
abbrev Run : Handover → Handover → Prop :=
  ReflTransGen (Moves (fun s call ↦ some (apply s call)) fun _ _ ↦ True)

/-- The frames that were delivered, each with the number of those accepted until then. -/
def delivered (s : Handover) : List (Nat × CapturedFrame) :=
  s.handed.filterMap fun
    | .frame accepted frame => some (accepted, frame)
    | .heartbeat => none

/-- What the queue still has to hand over, in the order in which it will. -/
def waiting (s : Handover) : List Handed :=
  (if s.queue.hasPending then [.frame s.published.length s.queue.pending] else []) ++
    if s.queue.heartbeatPending then [.heartbeat] else []

@[simp] theorem delivered_deliver (s : Handover) (frame : CapturedFrame)
    (queue : LatestFrameQueue) :
    (s.deliver frame queue).delivered = s.delivered ++ [(s.published.length, frame)] := by
  simp [delivered, deliver]

/-! ## What a call can do -/

/-- The cases of a call. -/
inductive Effect (s : Handover) : HandoverCall → Handover → Prop
  | publish {frame : CapturedFrame} (hopen : (s.queue.closed || s.queue.aborted) = false) :
      Effect s (.publish frame) { s with
        queue := { s.queue with
          pending := frame
          droppedFrames := s.queue.droppedFrames + s.queue.hasPending.toNat
          hasPending := true }
        published := s.published ++ [frame] }
  | publishHeartbeat (hopen : (s.queue.closed || s.queue.aborted) = false) :
      Effect s .publishHeartbeat { s with queue := { s.queue with heartbeatPending := true } }
  | close : Effect s .close { s with queue := { s.queue with closed := true } }
  | abort : Effect s .abort { s with
      queue := { s.queue with
        aborted := true, closed := true, hasPending := false, heartbeatPending := false }
      discarded := s.discarded + s.queue.hasPending.toNat }
  | frame {call : HandoverCall} {left : CapturedFrame} (hpending : s.queue.hasPending = true) :
      Effect s call (s.deliver s.queue.pending
        { s.queue with pending := left, hasPending := false })
  | heartbeat (hpending : s.queue.hasPending = false)
      (hheartbeat : s.queue.heartbeatPending = true) :
      Effect s .waitFor { s with
        queue := { s.queue with heartbeatPending := false }
        handed := s.handed ++ [.heartbeat] }
  | nothing {call : HandoverCall} : Effect s call s

theorem apply_effect (s : Handover) (call : HandoverCall) : Effect s call (s.apply call) := by
  cases call with
  | publish frame =>
      cases hopen : s.queue.closed || s.queue.aborted with
      | true =>
          rw [show s.apply (.publish frame) = s by simp [apply, LatestFrameQueue.publish, hopen]]
          exact .nothing
      | false =>
          have heffect := @Effect.publish s frame hopen
          simp only [apply, LatestFrameQueue.publish, hopen]
          cases hpending : s.queue.hasPending <;> simpa [hpending] using heffect
  | publishHeartbeat =>
      simp only [apply, LatestFrameQueue.publishHeartbeat]
      split_ifs with hclosed
      · exact .nothing
      · exact .publishHeartbeat (Bool.not_eq_true _ ▸ hclosed)
  | close => exact .close
  | abort => exact .abort
  | waitFor =>
      simp only [apply, LatestFrameQueue.waitFor]
      split_ifs with hpending hheartbeat hclosed
      · exact .frame hpending
      · exact .heartbeat (Bool.not_eq_true _ ▸ hpending) hheartbeat
      · exact .nothing
      · exact .nothing
  | takePending =>
      simp only [apply, LatestFrameQueue.takePending]
      split_ifs with hpending
      · exact .frame hpending
      · exact .nothing

theorem run_apply (s : Handover) (call : HandoverCall) : Run s (s.apply call) :=
  .single ⟨call, trivial, rfl⟩

/-- What every call preserves, a run preserves. -/
theorem run_effect {I : Handover → Prop} {s t : Handover}
    (hstep : ∀ {s t call}, I s → Effect s call t → I t) (hs : I s) (h : Run s t) : I t := by
  refine run_preserves (fun {s t} hs hmove ↦ ?_) hs h
  obtain ⟨call, -, hnext⟩ := hmove
  cases hnext
  exact hstep hs (s.apply_effect call)

/-! ## The invariant -/

/-- What was delivered, and the frame that is pending. -/
def passed (s : Handover) : List (Nat × CapturedFrame) :=
  s.delivered ++ if s.queue.hasPending then [(s.published.length, s.queue.pending)] else []

/-- The invariant of the queue. -/
structure Inv (s : Handover) : Prop where
  sublist : (s.passed.map Prod.snd).Sublist s.published
  sorted : (s.passed.map Prod.fst).Pairwise (· < ·)
  /-- The newest frame at its delivery. -/
  newest : ∀ v ∈ s.passed, (s.published.take v.1).getLast? = some v.2 ∧ v.1 ≤ s.published.length
  counted : s.published.length =
    s.delivered.length + s.queue.droppedFrames + s.queue.hasPending.toNat + s.discarded
  frame : ∀ v, s.delivered.getLast? = some v → s.frame = v.2
  aborted : s.queue.aborted = true → s.queue.closed = true ∧ s.waiting = []

variable {s t : Handover} {call : HandoverCall}

theorem Inv.initial : Inv {} where
  sublist := .slnil
  sorted := .nil
  newest v h := by cases h
  counted := rfl
  frame v h := by cases h
  aborted h := by cases h

/-- A call that neither accepts nor delivers a frame. -/
theorem Inv.of_passed (h : Inv s) (hpassed : t.passed = s.passed)
    (hpublished : t.published = s.published) (hdelivered : t.delivered = s.delivered)
    (hframe : t.frame = s.frame)
    (hcounted : t.queue.droppedFrames + t.queue.hasPending.toNat + t.discarded =
      s.queue.droppedFrames + s.queue.hasPending.toNat + s.discarded)
    (haborted : t.queue.aborted = true → t.queue.closed = true ∧ t.waiting = []) : Inv t where
  sublist := by
    rw [hpassed, hpublished]
    exact h.sublist
  sorted := by
    rw [hpassed]
    exact h.sorted
  newest := by
    rw [hpassed, hpublished]
    exact h.newest
  counted := by
    have hcount := h.counted
    rw [hpublished, hdelivered]
    omega
  frame := by
    rw [hdelivered, hframe]
    exact h.frame
  aborted := haborted

theorem passed_of_pending (hpending : s.queue.hasPending = true) :
    s.passed = s.delivered ++ [(s.published.length, s.queue.pending)] := by
  rw [passed, if_pos hpending]

theorem passed_of_empty (hpending : s.queue.hasPending = false) : s.passed = s.delivered := by
  rw [passed, if_neg (Bool.eq_false_iff.1 hpending), List.append_nil]

theorem delivered_sublist (s : Handover) : s.delivered.Sublist s.passed :=
  List.sublist_append_left _ _

/-- What has been delivered so far was so before the next frame is accepted. -/
theorem Inv.publish (h : Inv s) (frame : CapturedFrame)
    (hopen : (s.queue.closed || s.queue.aborted) = false) :
    Inv { s with
      queue := { s.queue with
        pending := frame
        droppedFrames := s.queue.droppedFrames + s.queue.hasPending.toNat
        hasPending := true }
      published := s.published ++ [frame] } := by
  have hdelivered := s.delivered_sublist
  have hlen : (s.published ++ [frame]).length = s.published.length + 1 :=
    List.length_append
  refine ⟨?_, ?_, ?_, ?_, h.frame, fun haborted ↦ ?_⟩
  · rw [passed_of_pending rfl, List.map_append]
    exact ((hdelivered.map Prod.snd).trans h.sublist).append (.refl _)
  · rw [passed_of_pending rfl, List.map_append, List.pairwise_append]
    refine ⟨h.sorted.sublist (hdelivered.map Prod.fst), List.pairwise_singleton _ _, ?_⟩
    intro n hn m hm
    obtain ⟨v, hv, rfl⟩ := List.mem_map.1 hn
    rw [List.map_singleton, List.mem_singleton] at hm
    rw [hm, hlen]
    exact Nat.lt_succ_of_le (h.newest v (hdelivered.subset hv)).2
  · intro v hv
    rw [passed_of_pending rfl] at hv
    rcases List.mem_append.1 hv with hv | hv
    · obtain ⟨hlast, hle⟩ := h.newest v (hdelivered.subset hv)
      rw [List.take_append_of_le_length hle, hlen]
      exact ⟨hlast, Nat.le_succ_of_le hle⟩
    · rw [List.mem_singleton.1 hv]
      constructor
      · rw [List.take_length]
        exact List.getLast?_concat
      · exact le_rfl
  · have hcount := h.counted
    show (s.published ++ [frame]).length = s.delivered.length +
      (s.queue.droppedFrames + s.queue.hasPending.toNat) + 1 + s.discarded
    rw [hlen]
    omega
  · rw [Bool.or_eq_false_iff] at hopen
    exact absurd haborted (Bool.eq_false_iff.1 hopen.2)

/-- A delivery moves the pending frame to those delivered. -/
theorem Inv.deliver (h : Inv s) (hpending : s.queue.hasPending = true) (left : CapturedFrame) :
    Inv (s.deliver s.queue.pending { s.queue with pending := left, hasPending := false }) := by
  have hpassed : (s.deliver s.queue.pending
      { s.queue with pending := left, hasPending := false }).passed = s.passed := by
    rw [passed_of_empty rfl, delivered_deliver, passed_of_pending hpending]
  refine ⟨?_, ?_, ?_, ?_, ?_, ?_⟩
  · rw [hpassed]
    exact h.sublist
  · rw [hpassed]
    exact h.sorted
  · rw [hpassed]
    exact h.newest
  · have hcount := h.counted
    rw [hpending, Bool.toNat_true] at hcount
    rw [delivered_deliver, List.length_append, List.length_singleton]
    show s.published.length = _ + s.queue.droppedFrames + 0 + s.discarded
    omega
  · intro v hv
    rw [delivered_deliver, List.getLast?_concat, Option.some.injEq] at hv
    exact hv ▸ rfl
  · intro haborted
    have hwaiting := (h.aborted haborted).2
    simp [waiting, hpending] at hwaiting

theorem Inv.effect (h : Inv s) (heffect : Effect s call t) : Inv t := by
  cases heffect with
  | publish hopen => exact h.publish _ hopen
  | publishHeartbeat hopen =>
      refine h.of_passed rfl rfl rfl rfl rfl fun haborted ↦ ?_
      rw [Bool.or_eq_false_iff] at hopen
      exact absurd haborted (Bool.eq_false_iff.1 hopen.2)
  | close => exact h.of_passed rfl rfl rfl rfl rfl fun haborted ↦ ⟨rfl, (h.aborted haborted).2⟩
  | abort =>
      have hdelivered := s.delivered_sublist
      refine ⟨?_, ?_, ?_, ?_, h.frame, fun _ ↦ ⟨rfl, rfl⟩⟩
      · rw [passed_of_empty rfl]
        exact (hdelivered.map Prod.snd).trans h.sublist
      · rw [passed_of_empty rfl]
        exact h.sorted.sublist (hdelivered.map Prod.fst)
      · rw [passed_of_empty rfl]
        exact fun v hv ↦ h.newest v (hdelivered.subset hv)
      · have hcount := h.counted
        show s.published.length =
          s.delivered.length + s.queue.droppedFrames + 0 + (s.discarded + s.queue.hasPending.toNat)
        omega
  | frame hpending => exact h.deliver hpending _
  | heartbeat hpending hheartbeat =>
      have hdelivered : Handover.delivered { s with
          queue := { s.queue with heartbeatPending := false }
          handed := s.handed ++ [.heartbeat] } = s.delivered := by simp [delivered]
      refine h.of_passed ?_ rfl hdelivered rfl rfl fun haborted ↦ ?_
      · rw [passed, passed, hdelivered]
      · have hwaiting := (h.aborted haborted).2
        simp [waiting, hheartbeat] at hwaiting
  | nothing => exact h

theorem Inv.run (h : Run s t) (hs : Inv s) : Inv t := run_effect Inv.effect hs h

/-! ## A closed queue -/

theorem Effect.closed (hclosed : s.queue.closed = true) (h : Effect s call t) :
    t.queue.closed = true := by
  cases h with
  | close | abort => rfl
  | publish | publishHeartbeat | frame | heartbeat | nothing => exact hclosed

theorem Effect.aborted (haborted : s.queue.aborted = true) (h : Effect s call t) :
    t.queue.aborted = true := by
  cases h with
  | abort => rfl
  | publish | publishHeartbeat | close | frame | heartbeat | nothing => exact haborted

/-- Once it is closed, the queue hands over what it has and nothing else. -/
theorem Effect.handed (h : Effect s call t) (hclosed : s.queue.closed = true)
    (hopen : t.queue.aborted = false) : t.handed ++ t.waiting = s.handed ++ s.waiting := by
  cases h with
  | publish hnot | publishHeartbeat hnot =>
      rw [hclosed, Bool.true_or] at hnot
      cases hnot
  | close | nothing => rfl
  | abort => cases hopen
  | frame hpending =>
      simp only [deliver, waiting, hpending, List.append_assoc]
      rfl
  | heartbeat hpending hheartbeat => simp [waiting, hpending, hheartbeat]

/-- The queue that the worker uses has this history. -/
structure Serves (s : Handover) (u : StreamSession) : Prop where
  queue : s.queue = u.queue
  frame : s.frame = u.frame
  published : s.published = u.published
  got : u.point = .replacing ∨ u.hasFrame = true → s.delivered ≠ []

/-- What the worker encodes, if anything, is what was delivered last. -/
def EncodesLast (s : Handover) (u u' : StreamSession) : Prop :=
  u'.encoded = u.encoded ∨
    ∃ v, s.delivered.getLast? = some v ∧ u'.encoded = u.encoded ++ [v.2]

theorem Serves.encodeCurrentFrame {u : StreamSession} (h : s.Serves u) (hinv : s.Inv)
    (hgot : s.delivered ≠ []) (frames : Nat) :
    ∃ t, Run s t ∧ t.Serves (u.encodeCurrentFrame frames) ∧
      t.EncodesLast u (u.encodeCurrentFrame frames) := by
  have hlast :
      ∃ v, s.delivered.getLast? = some v ∧ u.encoded ++ [u.frame] = u.encoded ++ [v.2] := by
    refine ⟨_, List.getLast?_eq_some_getLast hgot, ?_⟩
    rw [← h.frame, hinv.frame _ (List.getLast?_eq_some_getLast hgot)]
  simp only [StreamSession.encodeCurrentFrame]
  split_ifs with hstop hlimit
  · exact ⟨s, .refl, h, .inl rfl⟩
  · refine ⟨s.apply .abort, run_apply s _, ⟨?_, h.frame, h.published, fun _ ↦ hgot⟩, .inr hlast⟩
    show s.queue.abort = u.queue.abort
    rw [h.queue]
  · exact ⟨s, .refl, ⟨h.queue, h.frame, h.published, h.got⟩, .inr hlast⟩

variable {u u' : StreamSession} {frames : Nat}

/-- The worker at `WaitFor`. -/
theorem Serves.waitFor (h : s.Serves u) (hinv : s.Inv) (refreshDue : Bool) :
    ∃ t, Run s t ∧ t.Serves (u.received frames refreshDue (u.queue.waitFor u.frame)) ∧
      t.EncodesLast u (u.received frames refreshDue (u.queue.waitFor u.frame)) := by
  have hrun := run_apply s .waitFor
  have happly : s.apply .waitFor = match u.queue.waitFor u.frame with
      | (.frame, frame, queue) => s.deliver frame queue
      | (.heartbeat, frame, queue) => { s with queue, frame, handed := s.handed ++ [.heartbeat] }
      | (.timeout, frame, queue) | (.closed, frame, queue) => { s with queue, frame } := by
    rw [← h.queue, ← h.frame]
    rfl
  rw [happly] at hrun
  revert hrun
  unfold LatestFrameQueue.waitFor
  split_ifs with hpending hheartbeat hclosed
  · intro hrun
    refine ⟨_, hrun, ⟨rfl, rfl, h.published, fun _ ↦ ?_⟩, .inl rfl⟩
    simp
  · intro hrun
    refine ⟨_, hrun, ⟨rfl, rfl, h.published, fun hgot ↦ ?_⟩, .inl rfl⟩
    simpa [delivered] using h.got hgot
  · intro hrun
    refine ⟨_, hrun, ⟨rfl, rfl, h.published, fun hgot ↦ h.got (.inr ?_)⟩, .inl rfl⟩
    rcases hgot with hpoint | hgot
    · cases hpoint
    · exact hgot
  · intro _
    simp only [StreamSession.received]
    split_ifs with hrefresh
    · rw [Bool.and_eq_true, Bool.and_eq_true] at hrefresh
      have hgot := h.got (.inr hrefresh.1.2)
      exact Serves.encodeCurrentFrame ⟨h.queue, h.frame, h.published, h.got⟩ hinv hgot frames
    · exact ⟨s, .refl, ⟨h.queue, h.frame, h.published, h.got⟩, .inl rfl⟩

/-- The worker in the `TakePending` loop. -/
theorem Serves.takePending (h : s.Serves u) (hinv : s.Inv) (hpoint : u.point = .replacing)
    (hstep : u.step frames .takePending = some u') :
    ∃ t, Run s t ∧ t.Serves u' ∧ t.EncodesLast u u' := by
  have hrun := run_apply s .takePending
  simp only [StreamSession.step, if_pos hpoint, LatestFrameQueue.takePending] at hstep
  split_ifs at hstep with hpending <;> cases hstep
  · have happly : s.apply .takePending =
        s.deliver u.queue.pending { u.queue with pending := {}, hasPending := false } := by
      simp only [apply, LatestFrameQueue.takePending, h.queue, hpending]
      rfl
    rw [happly] at hrun
    refine ⟨_, hrun, ⟨rfl, rfl, h.published, fun _ ↦ ?_⟩, .inl rfl⟩
    simp
  · have hgot := h.got (.inl hpoint)
    have hserves : s.Serves { u with hasFrame := true, point := .waiting } :=
      ⟨h.queue, h.frame, h.published, fun _ ↦ hgot⟩
    exact hserves.encodeCurrentFrame hinv hgot frames

/-- The queue of a session goes on having a history. -/
theorem Serves.step (h : s.Serves u) (hinv : s.Inv) {event : SessionEvent}
    (hstep : u.step frames event = some u') : ∃ t, Run s t ∧ t.Serves u' ∧ t.EncodesLast u u' := by
  cases event with
  | publish frame =>
      refine ⟨_, run_apply s (.publish frame), ?_⟩
      have hqueue := congrArg (fun q ↦ q.publish frame) h.queue
      simp only [StreamSession.step] at hstep
      simp only [apply]
      rw [hqueue]
      cases hpublish : u.queue.publish frame with
      | mk ok queue =>
          rw [hpublish] at hstep
          cases ok <;> cases hstep
          · exact ⟨⟨rfl, h.frame, h.published, h.got⟩, .inl rfl⟩
          · exact ⟨⟨rfl, h.frame, congrArg (· ++ [frame]) h.published, h.got⟩, .inl rfl⟩
  | publishHeartbeat =>
      cases hstep
      refine ⟨_, run_apply s .publishHeartbeat, ⟨?_, h.frame, h.published, h.got⟩, .inl rfl⟩
      exact congrArg (fun q ↦ q.publishHeartbeat.2) h.queue
  | close =>
      cases hstep
      refine ⟨_, run_apply s .close, ⟨?_, h.frame, h.published, h.got⟩, .inl rfl⟩
      exact congrArg LatestFrameQueue.close h.queue
  | stop =>
      cases hstep
      exact ⟨s, .refl, ⟨h.queue, h.frame, h.published, h.got⟩, .inl rfl⟩
  | waitFor refreshDue =>
      simp only [StreamSession.step] at hstep
      split_ifs at hstep with hpoint hstop <;> cases hstep
      · refine ⟨s, .refl, ⟨h.queue, h.frame, h.published, fun hgot ↦ h.got (.inr ?_)⟩, .inl rfl⟩
        rcases hgot with hgot | hgot
        · cases hgot
        · exact hgot
      · exact h.waitFor hinv refreshDue
  | takePending =>
      by_cases hpoint : u.point = .replacing
      · exact h.takePending hinv hpoint hstep
      · rw [StreamSession.step, if_neg hpoint] at hstep
        cases hstep
  | workerFailed =>
      simp only [StreamSession.step] at hstep
      split_ifs at hstep with hpoint
      cases hstep
      refine ⟨_, run_apply s .abort, ⟨?_, h.frame, h.published, fun hgot ↦ h.got (.inr ?_)⟩,
        .inl rfl⟩
      · exact congrArg LatestFrameQueue.abort h.queue
      · rcases hgot with hgot | hgot
        · cases hgot
        · exact hgot
  | send =>
      simp only [StreamSession.step] at hstep
      split_ifs at hstep with hsent
      cases hstep
      exact ⟨s, .refl, ⟨h.queue, h.frame, h.published, h.got⟩, .inl rfl⟩

theorem Serves.foldlM {events : List SessionEvent} (h : s.Serves u) (hinv : s.Inv)
    (hrun : events.foldlM (StreamSession.step frames) u = some u') :
    ∃ t, Run s t ∧ t.Serves u' := by
  induction events generalizing s u with
  | nil =>
      cases hrun
      exact ⟨s, .refl, h⟩
  | cons event events ih =>
      rw [List.foldlM_cons] at hrun
      obtain ⟨v, hstep, hrun⟩ := Option.bind_eq_some_iff.1 hrun
      obtain ⟨t, hst, ht, -⟩ := h.step hinv hstep
      obtain ⟨w, htw, hw⟩ := ih ht (Inv.run hst hinv) hrun
      exact ⟨w, hst.trans htw, hw⟩

/-! ## The result -/

end Handover

end SecondScreen.Host
