import Mathlib.Data.List.Infix
import SecondScreen.Client.VideoDecoder

/-!
# The output buffers of the decoder

`drainOutput` of `VideoDecoder.java` once more, with the calls that it makes on the
codec and with the count of decoded frames that it keeps.

The loop stays one buffer behind: a buffer is released, without being shown, when
the next one has been dequeued, and the last one is shown after the loop.
-/

namespace SecondScreen.Client.OutputRelease

/-! ## The loop -/

/-- A call on the codec, with what it returns or with the message of what it throws. -/
inductive CodecCall
  | dequeueOutputBuffer (timeoutUs : Int64) (outputIndex : Except String Int32)
  | releaseOutputBuffer (index : Int32) (render : Bool) (failure : Option String)

/-- The calls that have been made, and `decodedFrames` of the statistics. -/
structure Output where
  calls : List CodecCall := []
  decodedFrames : Int64 := 0

namespace Output

/-- The record with one more call. -/
def call (o : Output) (c : CodecCall) : Output := { o with calls := o.calls ++ [c] }

/-- `StreamStats.frameDecoded`. -/
def frameDecoded (o : Output) : Output := { o with decodedFrames := o.decodedFrames + 1 }

theorem calls_call (o : Output) (c : CodecCall) : (o.call c).calls = o.calls ++ [c] := rfl

@[simp]
theorem decodedFrames_call (o : Output) (c : CodecCall) :
    (o.call c).decodedFrames = o.decodedFrames := rfl

@[simp]
theorem calls_frameDecoded (o : Output) : o.frameDecoded.calls = o.calls := rfl

@[simp]
theorem decodedFrames_frameDecoded (o : Output) :
    o.frameDecoded.decodedFrames = o.decodedFrames + 1 := rfl

end Output

/-- The loop of `drainOutput`. -/
def drainLoop (firstPollTimeoutUs : Int64) (releaseFailure : Int32 → Bool → Option String)
    (firstPoll : Bool) (pendingOutputIndex : Int32) :
    List (Except String Int32) → Output → Except IOException Int32 × Output
  | [], o => (.ok pendingOutputIndex, o)
  | poll :: polls, o =>
      let timeoutUs := if firstPoll then firstPollTimeoutUs else 0
      let o := o.call (.dequeueOutputBuffer timeoutUs poll)
      match poll with
      | .error message => (.error (.io ("MediaCodec output dequeue failed: " ++ message)), o)
      | .ok outputIndex =>
          if outputIndex = infoTryAgainLater then (.ok pendingOutputIndex, o)
          else if outputIndex = infoOutputFormatChanged then
            drainLoop firstPollTimeoutUs releaseFailure false pendingOutputIndex polls o
          else if outputIndex = infoOutputBuffersChanged then
            drainLoop firstPollTimeoutUs releaseFailure false pendingOutputIndex polls o
          else if 0 ≤ outputIndex then
            if 0 ≤ pendingOutputIndex then
              let failure := releaseFailure pendingOutputIndex false
              let o := o.call (.releaseOutputBuffer pendingOutputIndex false failure)
              match failure with
              | some message =>
                  (.error (.io ("MediaCodec stale output release failed: " ++ message)), o)
              | none =>
                  drainLoop firstPollTimeoutUs releaseFailure false outputIndex polls
                    o.frameDecoded
            else drainLoop firstPollTimeoutUs releaseFailure false outputIndex polls o
          else drainLoop firstPollTimeoutUs releaseFailure false pendingOutputIndex polls o

/-- What `drainOutput` does after the loop: the buffer that is left is shown. -/
def showLast (releaseFailure : Int32 → Bool → Option String) (pendingOutputIndex : Int32)
    (o : Output) : Except IOException Unit × Output :=
  if 0 ≤ pendingOutputIndex then
    let failure := releaseFailure pendingOutputIndex true
    let o := o.call (.releaseOutputBuffer pendingOutputIndex true failure)
    match failure with
    | some message => (.error (.io ("MediaCodec output release failed: " ++ message)), o)
    | none => (.ok (), o.frameDecoded)
  else (.ok (), o)

/-- `drainOutput`. -/
def drainOutput (firstPollTimeoutUs : Int64) (a : DrainAnswers) (o : Output) :
    Except IOException Unit × Output :=
  match drainLoop firstPollTimeoutUs a.releaseFailure true (-1) a.polls o with
  | (.error e, o) => (.error e, o)
  | (.ok pendingOutputIndex, o) => showLast a.releaseFailure pendingOutputIndex o

/-! The calls are a record of what the decoder does, and change nothing of it. -/

/-- The loop ends as it does when nothing is recorded. -/
theorem drainLoop_fst (firstPollTimeoutUs : Int64)
    (releaseFailure : Int32 → Bool → Option String) (firstPoll : Bool)
    (pendingOutputIndex : Int32) (polls : List (Except String Int32)) (o : Output) :
    (drainLoop firstPollTimeoutUs releaseFailure firstPoll pendingOutputIndex polls o).1 =
      Client.drainLoop releaseFailure pendingOutputIndex polls := by
  induction polls generalizing firstPoll pendingOutputIndex o with
  | nil => rfl
  | cons poll polls ih =>
      cases poll with
      | error message => rfl
      | ok outputIndex =>
          unfold drainLoop Client.drainLoop
          by_cases hlater : outputIndex = infoTryAgainLater
          · simp only [if_pos hlater]
          · simp only [if_neg hlater]
            by_cases hformat : outputIndex = infoOutputFormatChanged
            · simp only [if_pos hformat, if_pos (Or.inl hformat), ih]
            · by_cases hbuffers : outputIndex = infoOutputBuffersChanged
              · simp only [if_neg hformat, if_pos hbuffers, if_pos (Or.inr hbuffers), ih]
              · simp only [if_neg hformat, if_neg hbuffers, if_neg (not_or.mpr ⟨hformat, hbuffers⟩)]
                by_cases hbuffer : 0 ≤ outputIndex
                · by_cases hpending : 0 ≤ pendingOutputIndex
                  · simp only [if_pos hbuffer, if_pos hpending]
                    cases hfail : releaseFailure pendingOutputIndex false with
                    | some message => rfl
                    | none => simp only [ih]
                  · simp only [if_pos hbuffer, if_neg hpending, ih]
                · simp only [if_neg hbuffer, ih]

theorem drainOutput_fst (firstPollTimeoutUs : Int64) (a : DrainAnswers) (o : Output) :
    (drainOutput firstPollTimeoutUs a o).1 = Client.drainOutput a := by
  have hloop := drainLoop_fst firstPollTimeoutUs a.releaseFailure true (-1) a.polls o
  unfold drainOutput Client.drainOutput
  rw [← hloop]
  rcases drainLoop firstPollTimeoutUs a.releaseFailure true (-1) a.polls o with ⟨r, o'⟩
  cases r with
  | error e => rfl
  | ok pendingOutputIndex =>
      simp only [showLast]
      split_ifs
      · cases a.releaseFailure pendingOutputIndex true <;> rfl
      · rfl

/-! ## What the codec sees -/

namespace CodecCall

/-- The buffer that a call returns. -/
def returned : CodecCall → Option Int32
  | .dequeueOutputBuffer _ (.ok outputIndex) => if 0 ≤ outputIndex then some outputIndex else none
  | _ => none

/-- The buffer that a call releases, and whether it is rendered. -/
def release : CodecCall → Option (Int32 × Bool)
  | .releaseOutputBuffer index render none => some (index, render)
  | _ => none

end CodecCall

/-- The buffers that the codec has returned. -/
def returned (calls : List CodecCall) : List Int32 := calls.filterMap CodecCall.returned

/-- The releases of buffers. -/
def releases (calls : List CodecCall) : List (Int32 × Bool) := calls.filterMap CodecCall.release

/-- The buffers that have been released. -/
def released (calls : List CodecCall) : List Int32 := (releases calls).map Prod.fst

/-- The buffer that the last of the calls has returned. -/
def justDequeued (calls : List CodecCall) : List Int32 :=
  (calls.getLast?.bind CodecCall.returned).toList

/-- The buffers have been released in the order in which they were returned, except for
the one that has just been dequeued and for at most one besides it. -/
def Steady (calls : List CodecCall) : Prop :=
  ∃ besides, besides.length ≤ 1 ∧
    returned calls = released calls ++ besides ++ justDequeued calls

theorem returned_concat (calls : List CodecCall) (c : CodecCall) :
    returned (calls ++ [c]) = returned calls ++ c.returned.toList := by
  simp only [returned, List.filterMap_append, List.filterMap_cons, List.filterMap_nil]
  cases c.returned <;> rfl

theorem releases_concat (calls : List CodecCall) (c : CodecCall) :
    releases (calls ++ [c]) = releases calls ++ c.release.toList := by
  simp only [releases, List.filterMap_append, List.filterMap_cons, List.filterMap_nil]
  cases c.release <;> rfl

theorem released_concat (calls : List CodecCall) (c : CodecCall) :
    released (calls ++ [c]) = released calls ++ c.release.toList.map Prod.fst := by
  rw [released, releases_concat, List.map_append]
  rfl

theorem justDequeued_concat (calls : List CodecCall) (c : CodecCall) :
    justDequeued (calls ++ [c]) = c.returned.toList := by
  simp [justDequeued]

section Calls

variable (o : Output) (timeoutUs : Int64) (poll : Except String Int32)
variable (index : Int32) (render : Bool)

theorem returned_dequeue_buffer {outputIndex : Int32} (h : 0 ≤ outputIndex) :
    returned (o.call (.dequeueOutputBuffer timeoutUs (.ok outputIndex))).calls =
      returned o.calls ++ [outputIndex] := by
  rw [Output.calls_call, returned_concat, CodecCall.returned, if_pos h]
  rfl

theorem returned_dequeue_code {outputIndex : Int32} (h : ¬0 ≤ outputIndex) :
    returned (o.call (.dequeueOutputBuffer timeoutUs (.ok outputIndex))).calls =
      returned o.calls := by
  rw [Output.calls_call, returned_concat, CodecCall.returned, if_neg h]
  exact List.append_nil _

@[simp]
theorem returned_release :
    returned (o.call (.releaseOutputBuffer index render none)).calls = returned o.calls :=
  (returned_concat ..).trans (List.append_nil _)

@[simp]
theorem releases_dequeue :
    releases (o.call (.dequeueOutputBuffer timeoutUs poll)).calls = releases o.calls :=
  (releases_concat ..).trans (List.append_nil _)

@[simp]
theorem releases_release :
    releases (o.call (.releaseOutputBuffer index render none)).calls =
      releases o.calls ++ [(index, render)] :=
  releases_concat ..

@[simp]
theorem released_dequeue :
    released (o.call (.dequeueOutputBuffer timeoutUs poll)).calls = released o.calls :=
  (released_concat ..).trans (List.append_nil _)

@[simp]
theorem released_release :
    released (o.call (.releaseOutputBuffer index render none)).calls =
      released o.calls ++ [index] :=
  released_concat ..

end Calls

theorem Steady.nil : Steady [] := ⟨[], Nat.zero_le _, rfl⟩

/-- What has been returned and not released, but for what a further call returns or
releases, is held besides. -/
theorem Steady.concat {calls : List CodecCall} {c : CodecCall} (besides : List Int32)
    (hlen : besides.length ≤ 1)
    (h : returned calls = released calls ++ c.release.toList.map Prod.fst ++ besides) :
    Steady (calls ++ [c]) :=
  ⟨besides, hlen, by rw [returned_concat, released_concat, justDequeued_concat, h]⟩

/-! ## The buffer that is held -/

/-- The buffer that `pendingOutputIndex` stands for. -/
def pendingBuffer (pendingOutputIndex : Int32) : List Int32 :=
  if 0 ≤ pendingOutputIndex then [pendingOutputIndex] else []

theorem length_pendingBuffer (pendingOutputIndex : Int32) :
    (pendingBuffer pendingOutputIndex).length ≤ 1 := by
  unfold pendingBuffer
  split_ifs
  · exact Nat.le_refl 1
  · exact Nat.zero_le 1

/-- The invariant of the loop, while no release fails: `decodedFrames` is the count
before the loop. -/
structure Lookahead (decodedFrames : Int64) (pendingOutputIndex : Int32) (o : Output) : Prop where
  steady : ∀ before, before <+: o.calls → Steady before
  /-- The pending buffer is the only one that is held. -/
  held : returned o.calls = released o.calls ++ pendingBuffer pendingOutputIndex
  /-- Once a buffer has been returned, one is pending. -/
  pending : 0 ≤ pendingOutputIndex ∨ returned o.calls = []
  stale : releases o.calls = (released o.calls).map (·, false)
  counted : o.decodedFrames = decodedFrames + Int64.ofNat (released o.calls).length

/-- A property of all that has been recorded so far holds with one more call. -/
theorem steady_call {o : Output} {c : CodecCall}
    (hsteady : ∀ before, before <+: o.calls → Steady before)
    (hcall : Steady (o.calls ++ [c])) :
    ∀ before, before <+: (o.call c).calls → Steady before := by
  intro before hbefore
  rcases List.prefix_concat_iff.mp hbefore with heq | hearlier
  · rw [heq]
    exact hcall
  · exact hsteady before hearlier

namespace Lookahead

variable {decodedFrames : Int64} {pendingOutputIndex : Int32} {o : Output}

/-- The record of one `drainOutput` starts empty. -/
theorem start (decodedFrames : Int64) :
    Lookahead decodedFrames (-1) { decodedFrames := decodedFrames } where
  steady before h := by
    rw [List.prefix_nil.mp h]
    exact Steady.nil
  held := rfl
  pending := .inr rfl
  stale := rfl
  counted := (Int64.add_zero decodedFrames).symm

/-- Whatever is dequeued, no more than the pending buffer is held besides it. -/
theorem steady_dequeue (h : Lookahead decodedFrames pendingOutputIndex o) (timeoutUs : Int64)
    (poll : Except String Int32) :
    ∀ before, before <+: (o.call (.dequeueOutputBuffer timeoutUs poll)).calls → Steady before := by
  refine steady_call h.steady (Steady.concat _ (length_pendingBuffer pendingOutputIndex) ?_)
  rw [h.held]
  exact congrArg (· ++ _) (List.append_nil _).symm

/-- A code that is not a buffer leaves what is held. -/
theorem dequeue_code (h : Lookahead decodedFrames pendingOutputIndex o) (timeoutUs : Int64)
    {outputIndex : Int32} (hcode : ¬0 ≤ outputIndex) :
    Lookahead decodedFrames pendingOutputIndex
      (o.call (.dequeueOutputBuffer timeoutUs (.ok outputIndex))) where
  steady := h.steady_dequeue timeoutUs _
  held := by rw [returned_dequeue_code _ _ hcode, released_dequeue, h.held]
  pending := by
    rw [returned_dequeue_code _ _ hcode]
    exact h.pending
  stale := by simpa using h.stale
  counted := by simpa using h.counted

/-- The first buffer is held. -/
theorem dequeue_first (h : Lookahead decodedFrames pendingOutputIndex o) (timeoutUs : Int64)
    {outputIndex : Int32} (hbuffer : 0 ≤ outputIndex) (hpending : ¬0 ≤ pendingOutputIndex) :
    Lookahead decodedFrames outputIndex
      (o.call (.dequeueOutputBuffer timeoutUs (.ok outputIndex))) where
  steady := h.steady_dequeue timeoutUs _
  held := by
    rw [returned_dequeue_buffer _ _ hbuffer, released_dequeue, h.held, pendingBuffer,
      pendingBuffer, if_neg hpending, if_pos hbuffer, List.append_nil]
  pending := .inl hbuffer
  stale := by simpa using h.stale
  counted := by simpa using h.counted

/-- A further buffer is held in place of the one before it, which is released. -/
theorem dequeue_next (h : Lookahead decodedFrames pendingOutputIndex o) (timeoutUs : Int64)
    {outputIndex : Int32} (hbuffer : 0 ≤ outputIndex) (hpending : 0 ≤ pendingOutputIndex) :
    Lookahead decodedFrames outputIndex
      ((o.call (.dequeueOutputBuffer timeoutUs (.ok outputIndex))).call
        (.releaseOutputBuffer pendingOutputIndex false none)).frameDecoded := by
  have hreturned :
      returned (o.call (.dequeueOutputBuffer timeoutUs (.ok outputIndex))).calls =
        released o.calls ++ [pendingOutputIndex] ++ [outputIndex] := by
    rw [returned_dequeue_buffer _ _ hbuffer, h.held, pendingBuffer, if_pos hpending]
  refine ⟨?_, ?_, .inl hbuffer, ?_, ?_⟩
  · -- between the two calls both buffers are held
    refine steady_call (h.steady_dequeue timeoutUs _) (Steady.concat [outputIndex] ?_ ?_)
    · exact Nat.le_refl 1
    · rw [hreturned, released_dequeue]
      rfl
  · simp [hreturned, pendingBuffer, hbuffer]
  · simpa using h.stale
  · simp [h.counted, Int64.ofNat_add, Int64.add_assoc]

end Lookahead

/-! ## The run of the loop -/

section Run

variable {firstPollTimeoutUs : Int64} {releaseFailure : Int32 → Bool → Option String}
variable {firstPoll : Bool} {pendingOutputIndex outputIndex : Int32}
variable {polls : List (Except String Int32)} {o : Output}

theorem not_code_of_buffer (h : 0 ≤ outputIndex) :
    outputIndex ≠ infoTryAgainLater ∧ outputIndex ≠ infoOutputFormatChanged ∧
      outputIndex ≠ infoOutputBuffersChanged := by
  refine ⟨?_, ?_, ?_⟩ <;>
  · rintro rfl
    exact absurd h (by decide)

/-- An iteration that gets a code other than `INFO_TRY_AGAIN_LATER`. -/
theorem drainLoop_code (hlater : outputIndex ≠ infoTryAgainLater) (hcode : ¬0 ≤ outputIndex) :
    drainLoop firstPollTimeoutUs releaseFailure firstPoll pendingOutputIndex
        (.ok outputIndex :: polls) o =
      drainLoop firstPollTimeoutUs releaseFailure false pendingOutputIndex polls
        (o.call (.dequeueOutputBuffer (if firstPoll then firstPollTimeoutUs else 0)
          (.ok outputIndex))) := by
  rw [drainLoop]
  simp only [if_neg hlater, if_neg hcode, ite_self]

/-- An iteration that gets a buffer when none is pending. -/
theorem drainLoop_first (hbuffer : 0 ≤ outputIndex) (hpending : ¬0 ≤ pendingOutputIndex) :
    drainLoop firstPollTimeoutUs releaseFailure firstPoll pendingOutputIndex
        (.ok outputIndex :: polls) o =
      drainLoop firstPollTimeoutUs releaseFailure false outputIndex polls
        (o.call (.dequeueOutputBuffer (if firstPoll then firstPollTimeoutUs else 0)
          (.ok outputIndex))) := by
  obtain ⟨hlater, hformat, hbuffers⟩ := not_code_of_buffer hbuffer
  rw [drainLoop]
  simp only [if_neg hlater, if_neg hformat, if_neg hbuffers, if_pos hbuffer, if_neg hpending]

/-- An iteration that gets a buffer when one is pending. -/
theorem drainLoop_next (hbuffer : 0 ≤ outputIndex) (hpending : 0 ≤ pendingOutputIndex)
    (hrelease : releaseFailure pendingOutputIndex false = none) :
    drainLoop firstPollTimeoutUs releaseFailure firstPoll pendingOutputIndex
        (.ok outputIndex :: polls) o =
      drainLoop firstPollTimeoutUs releaseFailure false outputIndex polls
        ((o.call (.dequeueOutputBuffer (if firstPoll then firstPollTimeoutUs else 0)
          (.ok outputIndex))).call
          (.releaseOutputBuffer pendingOutputIndex false none)).frameDecoded := by
  obtain ⟨hlater, hformat, hbuffers⟩ := not_code_of_buffer hbuffer
  rw [drainLoop]
  simp only [if_neg hlater, if_neg hformat, if_neg hbuffers, if_pos hbuffer, if_pos hpending,
    hrelease]

/-- The loop keeps its invariant, and gets the buffers among what is dequeued. -/
theorem drainLoop_lookahead (firstPollTimeoutUs : Int64) (firstPoll : Bool)
    {decodedFrames : Int64} (h : Lookahead decodedFrames pendingOutputIndex o)
    (hrelease : ∀ index render, releaseFailure index render = none) {results : List Int32}
    (hresults : infoTryAgainLater ∉ results) :
    ∃ pendingOutputIndex' o',
      drainLoop firstPollTimeoutUs releaseFailure firstPoll pendingOutputIndex
          ((results ++ [infoTryAgainLater]).map .ok) o = (.ok pendingOutputIndex', o') ∧
        Lookahead decodedFrames pendingOutputIndex' o' ∧
        returned o'.calls = returned o.calls ++ results.filter (0 ≤ ·) := by
  induction results generalizing firstPoll pendingOutputIndex o with
  | nil =>
      refine ⟨pendingOutputIndex, _, rfl, h.dequeue_code _ (by decide), ?_⟩
      rw [returned_dequeue_code _ _ (by decide)]
      exact (List.append_nil _).symm
  | cons outputIndex results ih =>
      obtain ⟨hlater, hrest⟩ := not_or.mp (mt List.mem_cons.mpr hresults)
      by_cases hbuffer : 0 ≤ outputIndex
      · rw [List.filter_cons_of_pos (by simpa using hbuffer)]
        by_cases hpending : 0 ≤ pendingOutputIndex
        · obtain ⟨p, o', hrun, hinv, hret⟩ := ih false (h.dequeue_next _ hbuffer hpending) hrest
          refine ⟨p, o', (drainLoop_next hbuffer hpending (hrelease _ _)).trans hrun, hinv, ?_⟩
          rw [hret, Output.calls_frameDecoded, returned_release,
            returned_dequeue_buffer _ _ hbuffer, List.append_assoc]
          rfl
        · obtain ⟨p, o', hrun, hinv, hret⟩ := ih false (h.dequeue_first _ hbuffer hpending) hrest
          refine ⟨p, o', (drainLoop_first hbuffer hpending).trans hrun, hinv, ?_⟩
          rw [hret, returned_dequeue_buffer _ _ hbuffer, List.append_assoc]
          rfl
      · rw [List.filter_cons_of_neg (by simpa using hbuffer)]
        obtain ⟨p, o', hrun, hinv, hret⟩ := ih false (h.dequeue_code _ hbuffer) hrest
        refine ⟨p, o', (drainLoop_code (Ne.symm hlater) hbuffer).trans hrun, hinv, ?_⟩
        rw [hret, returned_dequeue_code _ _ hbuffer]

/-- What is left to do after the loop: the pending buffer is shown. -/
theorem Lookahead.showLast {decodedFrames : Int64}
    (h : Lookahead decodedFrames pendingOutputIndex o)
    (hrelease : ∀ index render, releaseFailure index render = none) :
    ∃ o', showLast releaseFailure pendingOutputIndex o = (.ok (), o') ∧
      returned o'.calls = returned o.calls ∧
      released o'.calls = returned o.calls ∧
      releases o'.calls = (returned o.calls).dropLast.map (·, false) ++
        (returned o.calls).getLast?.toList.map (·, true) ∧
      (∀ before, before <+: o'.calls → Steady before) ∧
      o'.decodedFrames = decodedFrames + Int64.ofNat (returned o.calls).length := by
  have hheld := h.held
  by_cases hpending : 0 ≤ pendingOutputIndex
  · rw [pendingBuffer, if_pos hpending] at hheld
    refine ⟨(o.call (.releaseOutputBuffer pendingOutputIndex true none)).frameDecoded,
      ?_, ?_, ?_, ?_, ?_, ?_⟩
    · simp only [OutputRelease.showLast, if_pos hpending, hrelease]
    · simp
    · simp [hheld]
    · simp [hheld, h.stale]
    · refine steady_call h.steady (Steady.concat [] (Nat.zero_le 1) ?_)
      rw [hheld]
      exact (List.append_nil _).symm
    · simp [h.counted, hheld, Int64.ofNat_add, Int64.add_assoc]
  · have hnone := h.pending.resolve_left hpending
    have hreleased : released o.calls = [] := by
      rw [hnone] at hheld
      exact (List.append_eq_nil_iff.mp hheld.symm).1
    refine ⟨o, ?_, rfl, hreleased.trans hnone.symm, ?_, h.steady, ?_⟩
    · rw [OutputRelease.showLast, if_neg hpending]
    · rw [h.stale, hreleased, hnone]
      rfl
    · rw [h.counted, hreleased, hnone]

end Run

/-- Every buffer that a `drainOutput` gets is released once, in the order in which they
are returned, and only the last one is shown. -/
theorem drainOutput_releases (firstPollTimeoutUs : Int64) (a : DrainAnswers)
    (results : List Int32) (decodedFrames : Int64) (hresults : infoTryAgainLater ∉ results)
    (hpolls : a.polls = (results ++ [infoTryAgainLater]).map .ok)
    (hrelease : ∀ index render, a.releaseFailure index render = none) :
    ∃ o, drainOutput firstPollTimeoutUs a { decodedFrames := decodedFrames } = (.ok (), o) ∧
      returned o.calls = results.filter (0 ≤ ·) ∧
      released o.calls = results.filter (0 ≤ ·) ∧
      releases o.calls = (results.filter (0 ≤ ·)).dropLast.map (·, false) ++
        (results.filter (0 ≤ ·)).getLast?.toList.map (·, true) ∧
      (∀ before, before <+: o.calls → Steady before) ∧
      o.decodedFrames = decodedFrames + Int64.ofNat (results.filter (0 ≤ ·)).length := by
  obtain ⟨p, o', hloop, hinv, hreturned⟩ :=
    drainLoop_lookahead firstPollTimeoutUs true (Lookahead.start decodedFrames) hrelease hresults
  obtain ⟨o, hshow, hrest⟩ := hinv.showLast hrelease
  refine ⟨o, ?_, ?_⟩
  · rw [drainOutput, hpolls, hloop]
    exact hshow
  · rw [hreturned] at hrest
    exact hrest

/-- A buffer that comes back after it has been released is one more buffer. -/
theorem drainOutput_releases_again :
    ∃ o, drainOutput 0 { polls := [.ok 3, .ok (-2), .ok 5, .ok (-3), .ok 3, .ok (-1)] } {} =
        (.ok (), o) ∧
      releases o.calls = [(3, false), (5, false), (3, true)] ∧ o.decodedFrames = 3 := by
  obtain ⟨o, hrun, -, -, hreleases, -, hcount⟩ :=
    drainOutput_releases 0 { polls := [.ok 3, .ok (-2), .ok 5, .ok (-3), .ok 3, .ok (-1)] }
      [3, -2, 5, -3, 3] 0 (by decide) rfl (fun _ _ ↦ rfl)
  exact ⟨o, hrun, hreleases, hcount⟩

end SecondScreen.Client.OutputRelease
