import SecondScreen.Encoding.H264Encoder
import SecondScreen.MediaFoundation.Submissions
import SecondScreen.Nvenc.Submissions

/-!
# What the fallback keeps

The frames that `EncodeFrame` is called with are given to the backend in order, from the
call on in which the backend was made.  What is sent before the fallback and after it is therefore
a part of them without a gap, and at most the frame of that call is sent twice.
-/

namespace SecondScreen.Encoding

open SecondScreen.Conc SecondScreen.Ring Relation
open MediaFoundation (Config HRESULT checkFrame checkHr)

/-- What is sent for a frame. -/
def frameOutput (frame : CapturedFrame) : Output where
  frameId := frame.frameId
  timestampUs := frame.captureTimestampUs
  frame := some frame

/-- What NVENC sends for the frame of a call. -/
def framePacket (fps frameIndex : Nat) (frame : CapturedFrame) : Nvenc.Packet :=
  Nvenc.Pipeline.submittedPacket (frame, Nvenc.framePicture fps frame (frameIndex % 2 ^ 64))

/-- What a transform sends for the frame of a call. -/
def frameSent (c : Config) (frameIndex : Nat) (frame : CapturedFrame) : MediaFoundation.Sent where
  sample := MediaFoundation.frameSample c frameIndex frame
  metadata := (MediaFoundation.frameSample c frameIndex frame).metadata
  fallback := false

/-- What the backend has accepted and not sent. -/
def Backend.held : Backend → List Output
  | .none => []
  | .nvenc _ pipeline =>
      (pipeline.encoder.pendingSlots.map pipeline.encoder.packet).map packetOutput
  | .transform _ pipeline => (pipeline.inside.map MediaFoundation.Sample.frame).map frameOutput

variable {c : Config} {s t : H264Encoder} {frames : List CapturedFrame} {frame : CapturedFrame}

/-! ## The backend -/

/-- `encodedFrameCount_`, which NVENC is given, is less by one in a call of `EncodeFrame`. -/
def Call.counted (count : Nat) (frames : List CapturedFrame) : Call → Prop
  | .encodeFrame _ => (count + 1) % 2 ^ 64 = frames.length % 2 ^ 64
  | .drain => count = frames.length % 2 ^ 64

/-- The backend is at work with a call, or has come to the end of it. -/
def Backend.Works (c : Config) (frames : List CapturedFrame) (call : Call) : Backend → Prop
  | .none => False
  | .nvenc count pipeline => pipeline.Submits c.fps frames ∧ call.counted count frames
  | .transform async pipeline => MediaFoundation.Submits { c with async } frames pipeline

/-- The backend waits for a call. -/
def Backend.Waits (c : Config) (frames : List CapturedFrame) : Backend → Prop
  | .none => False
  | .nvenc count pipeline =>
      pipeline.Submits c.fps frames ∧ count = frames.length % 2 ^ 64 ∧
        (∃ returned, pipeline.point = .idle returned) ∧ pipeline.point ≠ .idle (some false)
  | .transform async pipeline =>
      MediaFoundation.Submits { c with async } frames pipeline ∧
        (∃ returned, pipeline.point = .idle returned) ∧ pipeline.point ≠ .idle (some false)

/-- The backend sends the frames that it is given, in order and as they were numbered. -/
def Backend.Sends (c : Config) (frames : List CapturedFrame) : Backend → Prop
  | .none => True
  | .nvenc _ pipeline => pipeline.packets <+: frames.mapIdx (framePacket c.fps)
  | .transform _ pipeline => pipeline.sends <+: frames.mapIdx (frameSent c)

/-- What is made of the first frames is a part of what is made of all. -/
theorem map_prefix_mapIdx {α β γ : Type*} {l : List α} {frames : List β} {f : α → β} {g : α → γ}
    {m : Nat → β → γ} (hfront : l.map f <+: frames)
    (h : ∀ k x, l[k]? = some x → g x = m k (f x)) : l.map g <+: frames.mapIdx m := by
  obtain ⟨rest, rfl⟩ := hfront
  rw [List.mapIdx_append]
  have hsame : l.map g = (l.map f).mapIdx m := by
    apply List.ext_getElem?
    intro k
    rw [List.getElem?_map, List.getElem?_mapIdx, List.getElem?_map, Option.map_map]
    cases hk : l[k]? with
    | none => rfl
    | some x => exact congrArg some (h k x hk)
  rw [hsame]
  exact List.prefix_append _ _

theorem prefix_mapIdx_append {α β : Type*} {m : Nat → α → β} (l rest : List α) :
    l.mapIdx m <+: (l ++ rest).mapIdx m := by
  rw [List.mapIdx_append]
  exact List.prefix_append _ _

theorem map_mapIdx {α β γ : Type*} {l : List α} {m : Nat → α → β} {f : β → γ} {g : α → γ}
    (h : ∀ k x, f (m k x) = g x) : (l.mapIdx m).map f = l.map g := by
  apply List.ext_getElem?
  intro k
  rw [List.getElem?_map, List.getElem?_mapIdx, List.getElem?_map, Option.map_map]
  exact congrArg (Option.map · _) (funext (h k))

/-- The frames that are sent are the first ones of those given. -/
theorem Backend.Sends.outputs {b : Backend} (h : b.Sends c frames) :
    b.outputs <+: frames.map frameOutput := by
  cases b with
  | none => exact List.nil_prefix
  | nvenc count p =>
      have hsame : (frames.mapIdx (framePacket c.fps)).map packetOutput = frames.map frameOutput :=
        map_mapIdx fun _ _ ↦ rfl
      rw [← hsame]
      exact List.IsPrefix.map packetOutput h
  | transform async p =>
      have hsame : (frames.mapIdx (frameSent c)).map sentOutput = frames.map frameOutput :=
        map_mapIdx fun _ _ ↦ rfl
      rw [← hsame]
      exact List.IsPrefix.map sentOutput h

/-- The packet of a submitted picture is that of its frame. -/
theorem submitted_outputs {fps : Nat} {p : Nvenc.Pipeline} (h : p.Submits fps frames) :
    (p.submitted.map Nvenc.Pipeline.submittedPacket).map packetOutput =
      (p.submitted.map Prod.fst).map frameOutput := by
  rw [List.map_map, List.map_map]
  apply List.map_congr_left
  intro x hx
  obtain ⟨k, hk, rfl⟩ := List.getElem_of_mem hx
  have hpicture := h.pictures k _ (List.getElem?_eq_getElem hk)
  unfold Function.comp packetOutput Nvenc.Pipeline.submittedPacket frameOutput
  rw [hpicture]
  rfl

/-- So is what a transform sends. -/
theorem sends_outputs {p : MediaFoundation.Pipeline} (h : ∀ x ∈ p.sends, x.Aligned) :
    p.sends.map sentOutput =
      ((p.sends.map MediaFoundation.Sent.sample).map MediaFoundation.Sample.frame).map
        frameOutput := by
  rw [List.map_map, List.map_map]
  apply List.map_congr_left
  intro x hx
  unfold Function.comp sentOutput frameOutput
  rw [(h x hx).metadata]
  rfl

/-- A call that has returned true leaves NVENC waiting for the next one. -/
theorem nvenc_waits {count : Nat} {p : Nvenc.Pipeline}
    (h : (Backend.nvenc count p).result = some (.ok true)) :
    (∃ returned, p.point = .idle returned) ∧ p.point ≠ .idle (some false) := by
  cases hpoint : p.point with
  | idle returned =>
      simp only [Backend.result, hpoint] at h
      obtain ⟨value, rfl, heq⟩ := Option.map_eq_some_iff.1 h
      cases heq
      refine ⟨⟨_, rfl⟩, ?_⟩
      rintro ⟨⟩
  | threw error =>
      simp only [Backend.result, hpoint] at h
      cases h
  | _ =>
      simp only [Backend.result, hpoint] at h
      cases h

/-- Nor does a transform do anything between two calls. -/
theorem transform_waits {async : Bool} {p : MediaFoundation.Pipeline}
    (h : (Backend.transform async p).result = some (.ok true)) :
    (∃ returned, p.point = .idle returned) ∧ p.point ≠ .idle (some false) := by
  cases hpoint : p.point with
  | idle returned =>
      simp only [Backend.result, hpoint] at h
      obtain ⟨value, rfl, heq⟩ := Option.map_eq_some_iff.1 h
      cases heq
      refine ⟨⟨_, rfl⟩, ?_⟩
      rintro ⟨⟩
  | threw error =>
      simp only [Backend.result, hpoint] at h
      cases h
  | _ =>
      simp only [Backend.result, hpoint] at h
      cases h

/-- NVENC sends what was submitted, in order. -/
theorem submits_sends {p : Nvenc.Pipeline} (h : p.Submits c.fps frames) :
    p.packets <+: frames.mapIdx (framePacket c.fps) := by
  refine h.sent.trans (map_prefix_mapIdx h.frames fun k x hx ↦ ?_)
  rw [framePacket, ← h.pictures k x hx]

/-- A transform sends what it has accepted, in order. -/
theorem accepted_sends {async : Bool} {p : MediaFoundation.Pipeline}
    (h : MediaFoundation.Submits { c with async } frames p) :
    p.sends <+: frames.mapIdx (frameSent c) := by
  have hsends : p.sends = (p.sends.map MediaFoundation.Sent.sample).map fun sample ↦
      { sample, metadata := sample.metadata, fallback := false } := by
    rw [List.map_map]
    refine (List.map_id _).symm.trans (List.map_congr_left fun x hx ↦ ?_)
    obtain ⟨hmetadata, hfallback⟩ := h.aligned x hx
    obtain ⟨sample, metadata, fallback⟩ := x
    obtain rfl : metadata = sample.metadata := hmetadata
    obtain rfl : fallback = false := hfallback
    rfl
  rw [hsends]
  refine (h.sent.map _).trans (map_prefix_mapIdx h.frames fun k x hx ↦ ?_)
  rw [frameSent]
  exact congrArg (fun sample : MediaFoundation.Sample ↦
    (⟨sample, sample.metadata, false⟩ : MediaFoundation.Sent)) (h.samples k x hx)

/-- A backend that is at work has sent the first frames of those given. -/
theorem Backend.Works.sends {call : Call} {b : Backend} (h : b.Works c frames call) :
    b.Sends c frames := by
  cases b with
  | none => exact h.elim
  | nvenc count p => exact submits_sends h.1
  | transform async p => exact accepted_sends h

/-- Between two calls every frame is sent or held. -/
theorem Backend.Waits.accounted {b : Backend} (h : b.Waits c frames) :
    b.outputs ++ b.held = frames.map frameOutput := by
  cases b with
  | none => exact h.elim
  | nvenc count p =>
      obtain ⟨hsubmits, -, ⟨returned, hpoint⟩, hnot⟩ := h
      have halive := Nvenc.Pipeline.alive_of_idle hpoint
      have hall := hsubmits.all ⟨halive, hnot⟩
      rw [hpoint] at hall
      show p.packets.map packetOutput ++ (p.encoder.pendingSlots.map _).map packetOutput = _
      rw [← List.map_append, (hsubmits.inOrder halive).1.sent, submitted_outputs hsubmits, ← hall]
      exact congrArg _ (List.append_nil _).symm
  | transform async p =>
      obtain ⟨hsubmits, ⟨returned, hpoint⟩, hnot⟩ := h
      have hrunning := MediaFoundation.running_of_idle hpoint hnot
      have hall := hsubmits.all hrunning
      rw [hpoint] at hall
      show p.sends.map sentOutput ++ (p.inside.map _).map frameOutput = _
      rw [sends_outputs hsubmits.aligned, ← List.map_append, ← List.map_append,
        ((hsubmits.inv hnot).steady hrunning.point).order, ← hall]
      exact congrArg (List.map _ ∘ List.map _) (List.append_nil _).symm

/-! ## The invariant -/

namespace H264Encoder

/-- The frames of the calls that the backend is there for. -/
def given (s : H264Encoder) : List CapturedFrame := s.calls.drop s.start

/-- The encoder has not fallen back, or it has done so once, in the call from which on the frames
are given to the backend. -/
structure Record (s : H264Encoder) : Prop where
  start_le : s.start ≤ s.calls.length
  fallback : (s.fallbacks = [] ∧ s.start = 0 ∧ s.earlier = []) ∨
    s.fallbacks = [s.start] ∧ s.hardware = false ∧ s.start < s.calls.length ∧
      s.earlier <+: (s.calls.take (s.start + 1)).map frameOutput

/-- At most the frames in the slots and the one of the call under way are not sent. -/
def Few (s : H264Encoder) : Prop :=
  ∀ count pipeline, s.backend = .nvenc count pipeline →
    s.given.length ≤ pipeline.packets.length + Nvenc.kNvencPipelineSlotCount + 1

/-- The call is that of the last frame, and the backend is at work with it. -/
def At (c : Config) (s : H264Encoder) : Point → Prop
  | .idle returned => returned = some false ∨ s.backend.Waits c s.given
  | .inside (.encodeFrame frame) =>
      s.backend.Works c s.given (.encodeFrame frame) ∧ s.calls.getLast? = some frame
  | .inside .drain =>
      s.backend.Works c s.given .drain ∧
        ∀ count pipeline, s.backend = .nvenc count pipeline → pipeline.point = .drain
  | .fallingBack frame => s.hardware = true ∧ s.calls.getLast? = some frame ∧ s.Few
  | .flushed | .threw _ => True

structure Inv (c : Config) (s : H264Encoder) : Prop where
  record : s.Record
  hardware : ∀ count pipeline, s.backend = .nvenc count pipeline → s.hardware = true
  sends : s.backend.Sends c s.given
  at_point : s.At c s.point

/-- With the hardware encoder there has been no fallback. -/
theorem Record.start_eq (h : s.Record) (hhardware : s.hardware = true) :
    s.fallbacks = [] ∧ s.start = 0 ∧ s.earlier = [] := by
  rcases h.fallback with hnone | ⟨-, hsoftware, -⟩
  · exact hnone
  · rw [hsoftware] at hhardware
    cases hhardware

/-- A further call of `EncodeFrame`. -/
theorem Record.call (h : s.Record) (frame : CapturedFrame) :
    Record { s with calls := s.calls ++ [frame] } where
  start_le := h.start_le.trans (by rw [List.length_append]; exact Nat.le_add_right _ _)
  fallback := by
    rcases h.fallback with hnone | ⟨hone, hsoftware, hlt, hearlier⟩
    · exact .inl hnone
    · refine .inr ⟨hone, hsoftware, ?_, ?_⟩
      · rw [List.length_append]
        exact hlt.trans_le (Nat.le_add_right _ _)
      · rw [List.take_append_of_le_length hlt]
        exact hearlier

theorem given_call (h : s.Record) (frame : CapturedFrame) :
    given { s with calls := s.calls ++ [frame] } = s.given ++ [frame] :=
  List.drop_append_of_le_length h.start_le

/-- What was given and not sent is in the slots or under way. -/
theorem few_of_submits {fps : Nat} {p : Nvenc.Pipeline} (h : p.Submits fps frames) :
    frames.length ≤ p.packets.length + Nvenc.kNvencPipelineSlotCount + 1 :=
  h.given_le.trans (Nat.succ_le_succ h.submitted_le)

theorem few_of_works {call : Call} (h : s.backend.Works c s.given call) : s.Few := by
  intro count pipeline hbackend
  rw [hbackend] at h
  exact few_of_submits h.1

/-- `EncodeFrame` catches an exception of the hardware encoder; any other one leaves the call. -/
theorem Inv.caught {call : Call} {error : String} (hrecord : s.Record)
    (hhardware : ∀ count pipeline, s.backend = .nvenc count pipeline → s.hardware = true)
    (hsends : s.backend.Sends c s.given)
    (hlast : ∀ frame, call = .encodeFrame frame → s.calls.getLast? = some frame)
    (hfew : s.Few) : Inv c (s.caught error call) := by
  cases call with
  | drain => exact ⟨⟨hrecord.start_le, hrecord.fallback⟩, hhardware, hsends, trivial⟩
  | encodeFrame frame =>
      refine ⟨⟨hrecord.start_le, hrecord.fallback⟩, hhardware, hsends, ?_⟩
      unfold H264Encoder.caught
      dsimp only
      split_ifs with hhard
      · exact ⟨hhard, hlast frame rfl, hfew⟩
      · trivial

/-- Where `EncodeFrame` has returned true, the backend waits for the next call. -/
theorem waits_of_encodeFrame {b : Backend} (h : b.Works c frames (.encodeFrame frame))
    (hresult : b.result = some (.ok true)) : b.count.Waits c frames := by
  cases b with
  | none => exact h.elim
  | nvenc count p => exact ⟨h.1, h.2, nvenc_waits hresult⟩
  | transform async p => exact ⟨h, transform_waits hresult⟩

/-- Where `Drain` has returned true, it does so too. -/
theorem waits_of_drain {b : Backend} (h : b.Works c frames .drain)
    (hresult : b.result = some (.ok true)) : b.Waits c frames := by
  cases b with
  | none => exact h.elim
  | nvenc count p => exact ⟨h.1, h.2, nvenc_waits hresult⟩
  | transform async p => exact ⟨h, transform_waits hresult⟩

theorem sends_count {b : Backend} (h : b.Sends c frames) : b.count.Sends c frames := by
  cases b with
  | none => trivial
  | nvenc count p => exact h
  | transform async p => exact h

/-- The backend has made some steps of a call. -/
theorem Inv.settle {call : Call} (hrecord : s.Record)
    (hhardware : ∀ count pipeline, s.backend = .nvenc count pipeline → s.hardware = true)
    (hworks : s.backend.Works c s.given call)
    (hlast : ∀ frame, call = .encodeFrame frame → s.calls.getLast? = some frame)
    (hdrain : call = .drain → s.backend.result = none →
      ∀ count pipeline, s.backend = .nvenc count pipeline → pipeline.point = .drain) :
    Inv c (s.settle call) := by
  unfold H264Encoder.settle
  split
  · next hnone =>
      refine ⟨⟨hrecord.start_le, hrecord.fallback⟩, hhardware, hworks.sends, ?_⟩
      cases call with
      | encodeFrame frame => exact ⟨hworks, hlast frame rfl⟩
      | drain => exact ⟨hworks, hdrain rfl hnone⟩
  · next value hvalue =>
      cases call with
      | encodeFrame frame =>
          refine ⟨⟨hrecord.start_le, hrecord.fallback⟩, ?_, ?_, ?_⟩
          · intro count pipeline hbackend
            cases hwas : s.backend with
            | nvenc count' pipeline' => exact hhardware _ _ hwas
            | none =>
                rw [H264Encoder.returned, hwas] at hbackend
                cases hbackend
            | transform async pipeline' =>
                rw [H264Encoder.returned, hwas] at hbackend
                cases hbackend
          · exact sends_count hworks.sends
          · cases value with
            | false => exact .inl rfl
            | true => exact .inr (waits_of_encodeFrame hworks hvalue)
      | drain =>
          refine ⟨⟨hrecord.start_le, hrecord.fallback⟩, hhardware, hworks.sends, ?_⟩
          cases value with
          | false => exact .inl rfl
          | true => exact .inr (waits_of_drain hworks hvalue)
  · exact .caught hrecord hhardware hworks.sends hlast (few_of_works hworks)

/-! ## The steps -/

/-- A frame is given to a backend that waits. -/
theorem Inv.encodeFrameOnce (hrecord : s.Record)
    (hhardware : ∀ count pipeline, s.backend = .nvenc count pipeline → s.hardware = true)
    (hwaits : s.backend.Waits c frames) (hgiven : s.given = frames ++ [frame])
    (hlast : s.calls.getLast? = some frame) {inputSample : Except String Unit}
    (hstep : s.encodeFrameOnce c frame inputSample = some t) : Inv c t := by
  have hcall (frame' : CapturedFrame) (heq : Call.encodeFrame frame = .encodeFrame frame') :
      s.calls.getLast? = some frame' := by
    cases heq
    exact hlast
  unfold H264Encoder.encodeFrameOnce at hstep
  cases hbackend : s.backend with
  | none =>
      rw [hbackend] at hwaits
      exact hwaits.elim
  | nvenc count p =>
      rw [hbackend] at hstep hwaits
      obtain ⟨hsubmits, hcount, ⟨returned, hpoint⟩, hnot⟩ := hwaits
      have hall := hsubmits.all ⟨Nvenc.Pipeline.alive_of_idle hpoint, hnot⟩
      rw [hpoint] at hall
      have hlength : p.submitted.length = frames.length := by
        rw [← hall, List.length_append, List.length_map]
        rfl
      dsimp only at hstep
      split at hstep
      · cases hstep
        refine .caught hrecord hhardware ?_ hcall ?_
        · rw [hbackend, hgiven]
          exact (submits_sends hsubmits).trans (prefix_mapIdx_append _ _)
        · intro count' p' hbackend'
          rw [hbackend] at hbackend'
          cases hbackend'
          rw [hgiven, List.length_append, ← hlength]
          exact Nat.succ_le_succ hsubmits.submitted_le
      · obtain ⟨p', hnext, rfl⟩ := Option.map_eq_some_iff.1 hstep
        rw [hcount, ← hlength] at hnext
        have hsubmits' := hsubmits.encodeFrame hnot hnext
        refine ⟨⟨hrecord.start_le, hrecord.fallback⟩, fun _ _ _ ↦ hhardware _ _ hbackend, ?_, ?_,
          hlast⟩
        · show p'.packets <+: s.given.mapIdx (framePacket c.fps)
          rw [hgiven]
          exact submits_sends hsubmits'
        · show p'.Submits c.fps s.given ∧ (count + 1) % 2 ^ 64 = s.given.length % 2 ^ 64
          rw [hgiven]
          refine ⟨hsubmits', ?_⟩
          rw [hcount, List.length_append, List.length_singleton]
          omega
  | transform async p =>
      rw [hbackend] at hstep hwaits
      obtain ⟨hsubmits, -, hnot⟩ := hwaits
      obtain ⟨p', hnext, rfl⟩ := Option.map_eq_some_iff.1 hstep
      refine .settle ⟨hrecord.start_le, hrecord.fallback⟩ ?_ ?_ hcall ?_
      · rintro _ _ ⟨⟩
      · show MediaFoundation.Submits { c with async } s.given p'
        rw [hgiven]
        exact hsubmits.encodeFrameOnce hnot hnext
      · rintro ⟨⟩

/-- `Drain` begins. -/
theorem Inv.drain (h : Inv c s) (hwaits : s.backend.Waits c s.given) {command : HRESULT}
    (hstep : s.drain c command = some t) : Inv c t := by
  have hcall (frame' : CapturedFrame) (heq : Call.drain = .encodeFrame frame') :
      s.calls.getLast? = some frame' := by cases heq
  unfold H264Encoder.drain at hstep
  cases hbackend : s.backend with
  | none =>
      rw [hbackend] at hwaits
      exact hwaits.elim
  | nvenc count p =>
      rw [hbackend] at hstep hwaits
      obtain ⟨hsubmits, hcount, -, hnot⟩ := hwaits
      obtain ⟨p', hnext, rfl⟩ := Option.map_eq_some_iff.1 hstep
      have hsubmits' := hsubmits.drain hnot hnext
      refine ⟨⟨h.record.start_le, h.record.fallback⟩, fun _ _ _ ↦ h.hardware _ _ hbackend,
        submits_sends hsubmits', ⟨hsubmits', hcount⟩, ?_⟩
      rintro _ _ ⟨⟩
      obtain ⟨-, rfl⟩ := Nvenc.Pipeline.idle_of_drain hnext
      rfl
  | transform async p =>
      rw [hbackend] at hstep hwaits
      obtain ⟨hsubmits, -, hnot⟩ := hwaits
      obtain ⟨p', hnext, rfl⟩ := Option.map_eq_some_iff.1 hstep
      refine .settle ⟨h.record.start_le, h.record.fallback⟩ ?_ (hsubmits.drain hnot hnext) hcall ?_
      · rintro _ _ ⟨⟩
      · rintro - - _ _ ⟨⟩

/-- `Flush` gives no frame and ends the use. -/
theorem Inv.flush (h : Inv c s) {command : HRESULT} (hstep : s.flush c command = some t) :
    Inv c t := by
  have hsends := h.sends
  unfold H264Encoder.flush at hstep
  cases hbackend : s.backend with
  | none =>
      rw [hbackend] at hstep
      cases hstep
  | nvenc count p =>
      rw [hbackend] at hstep hsends
      cases hstep
      exact ⟨⟨h.record.start_le, h.record.fallback⟩, fun _ _ _ ↦ h.hardware _ _ hbackend, hsends,
        trivial⟩
  | transform async p =>
      rw [hbackend] at hstep hsends
      dsimp only at hstep
      split at hstep
      · cases hstep
        refine ⟨⟨h.record.start_le, h.record.fallback⟩, ?_, hsends, trivial⟩
        rintro _ _ ⟨⟩
      · cases hstep
        refine ⟨⟨h.record.start_le, h.record.fallback⟩, ?_, hsends, trivial⟩
        rintro _ _ ⟨⟩

/-- The `catch` block leaves the frames that were given to the backend so far, and begins again
with the last one. -/
theorem Inv.fallBack (h : Inv c s) (hpoint : s.point = .fallingBack frame) {a : Answer}
    (hstep : s.fallBack c frame a = some t) : Inv c t := by
  have hat := h.at_point
  rw [hpoint] at hat
  obtain ⟨hhardware, hlast, -⟩ := hat
  obtain ⟨hnone, hstart, hearlier⟩ := h.record.start_eq hhardware
  have hcalls : s.calls = s.calls.dropLast ++ [frame] :=
    (List.dropLast_append_getLast? frame hlast).symm
  have hlength : s.calls.length = s.calls.length - 1 + 1 := by
    have hlength := congrArg List.length hcalls
    rw [List.length_append, List.length_singleton] at hlength
    omega
  have hgiven : s.given = s.calls := by rw [given, hstart, List.drop_zero]
  have hsent : s.outputs <+: (s.calls.take (s.calls.length - 1 + 1)).map frameOutput := by
    have hsent := h.sends.outputs
    rw [hgiven] at hsent
    rw [H264Encoder.outputs, hearlier, ← hlength, List.take_length]
    exact hsent
  have hdrop : s.calls.drop (s.calls.length - 1) = [] ++ [frame] := by
    rw [hcalls, List.length_append, List.length_singleton, Nat.add_sub_cancel, List.drop_left]
    rfl
  unfold H264Encoder.fallBack at hstep
  rw [hnone] at hstep
  dsimp only at hstep
  split at hstep
  · cases hstep
    refine ⟨⟨Nat.sub_le _ _, .inr ⟨rfl, rfl, Nat.lt_of_succ_le hlength.ge, hsent⟩⟩, ?_,
      trivial, trivial⟩
    rintro _ _ ⟨⟩
  · next async _ =>
    have hrecord : Record { s with
        backend := .transform async {}
        hardware := false
        start := s.calls.length - 1
        earlier := s.outputs
        fallbacks := [] ++ [s.calls.length - 1] } :=
      ⟨Nat.sub_le _ _, .inr ⟨rfl, rfl, Nat.lt_of_succ_le hlength.ge, hsent⟩⟩
    refine .encodeFrameOnce hrecord ?_ ?_ hdrop hlast hstep
    · rintro _ _ ⟨⟩
    · refine ⟨.new _, ⟨_, rfl⟩, ?_⟩
      rintro ⟨⟩

/-- One step of the backend within a call. -/
theorem Inv.pass (h : Inv c s) {call : Call} (hpoint : s.point = .inside call) {a : Answer}
    {backend : Backend} (hpass : s.pass c a = some backend) :
    Inv c (H264Encoder.settle { s with backend } call) := by
  have hat := h.at_point
  rw [hpoint] at hat
  obtain ⟨hworks, hlast⟩ : s.backend.Works c s.given call ∧
      ∀ frame, call = .encodeFrame frame → s.calls.getLast? = some frame := by
    cases call with
    | encodeFrame frame =>
        refine ⟨hat.1, ?_⟩
        rintro _ ⟨⟩
        exact hat.2
    | drain =>
        refine ⟨hat.1, ?_⟩
        rintro _ ⟨⟩
  unfold H264Encoder.pass at hpass
  cases hbackend : s.backend with
  | none =>
      rw [hbackend] at hpass
      cases hpass
  | nvenc count p =>
      rw [hbackend] at hpass hworks
      obtain ⟨p', hnext, rfl⟩ := Option.map_eq_some_iff.1 hpass
      refine .settle ⟨h.record.start_le, h.record.fallback⟩ (fun _ _ _ ↦ h.hardware _ _ hbackend)
        ⟨hworks.1.step hnext, hworks.2⟩ hlast ?_
      rintro rfl hnone _ _ ⟨⟩
      rcases Nvenc.Pipeline.drain_step (hat.2 _ _ hbackend) hnext with
        hdrain | ⟨hidle, -⟩ | hidle | ⟨error, hthrew⟩
      · exact hdrain
      · simp only [Backend.result, hidle] at hnone
        cases hnone
      · simp only [Backend.result, hidle] at hnone
        cases hnone
      · simp only [Backend.result, hthrew] at hnone
        cases hnone
  | transform async p =>
      rw [hbackend] at hpass hworks
      obtain ⟨p', hnext, rfl⟩ := Option.map_eq_some_iff.1 hpass
      refine .settle ⟨h.record.start_le, h.record.fallback⟩ ?_
        (MediaFoundation.Submits.step hworks hnext) hlast ?_
      · rintro _ _ ⟨⟩
      · rintro - - _ _ ⟨⟩

/-- The device may complete a picture at any time. -/
theorem Inv.complete (h : Inv c s) {count : Nat} {p p' : Nvenc.Pipeline}
    (hbackend : s.backend = .nvenc count p) {i : Nvenc.SlotIndex}
    (hnext : p.next c.fps (.complete i) = some p') :
    Inv c { s with backend := .nvenc count p' } := by
  have hsends := h.sends
  have hat := h.at_point
  have hsame : p'.packets = p.packets ∧ p'.point = p.point := by
    cases hnext
    exact ⟨rfl, rfl⟩
  rw [hbackend] at hsends
  refine ⟨⟨h.record.start_le, h.record.fallback⟩, fun _ _ _ ↦ h.hardware _ _ hbackend, ?_, ?_⟩
  · show p'.packets <+: _
    rw [hsame.1]
    exact hsends
  · cases hpoint : s.point with
    | idle returned =>
        rw [hpoint] at hat
        rcases hat with hfalse | hwaits
        · exact .inl hfalse
        · rw [hbackend] at hwaits
          obtain ⟨hsubmits, hcount, hidle, hnot⟩ := hwaits
          refine .inr ⟨hsubmits.complete hnext, hcount, ?_, ?_⟩
          · rw [hsame.2]
            exact hidle
          · rw [hsame.2]
            exact hnot
    | inside call =>
        rw [hpoint] at hat
        cases call with
        | encodeFrame frame =>
            obtain ⟨hworks, hlast⟩ := hat
            rw [hbackend] at hworks
            exact ⟨⟨hworks.1.complete hnext, hworks.2⟩, hlast⟩
        | drain =>
            obtain ⟨hworks, hdrain⟩ := hat
            rw [hbackend] at hworks
            refine ⟨⟨hworks.1.complete hnext, hworks.2⟩, ?_⟩
            rintro _ _ ⟨⟩
            rw [hsame.2]
            exact hdrain _ _ hbackend
    | fallingBack frame =>
        rw [hpoint] at hat
        obtain ⟨hhardware, hlast, hfew⟩ := hat
        refine ⟨hhardware, hlast, ?_⟩
        rintro _ _ ⟨⟩
        rw [hsame.1]
        exact hfew _ _ hbackend
    | flushed => trivial
    | threw error => trivial

/-- A step of the caller, of the encoder or of the device. -/
theorem Inv.next (h : Inv c s) {e : Event} (hstep : s.next c e = some t) : Inv c t := by
  have hat := h.at_point
  cases e with
  | encodeFrame frame inputSample =>
      simp only [H264Encoder.next] at hstep
      split at hstep
      · cases hstep
      · next returned hnot hpoint =>
        rw [hpoint] at hat
        have hwaits := hat.resolve_left hnot
        exact .encodeFrameOnce (h.record.call frame) h.hardware hwaits (given_call h.record frame)
          List.getLast?_concat hstep
      · cases hstep
  | drain command =>
      simp only [H264Encoder.next] at hstep
      split at hstep
      · cases hstep
      · next returned hnot hpoint =>
        rw [hpoint] at hat
        have hwaits := hat.resolve_left hnot
        exact h.drain hwaits hstep
      · cases hstep
  | flush command =>
      simp only [H264Encoder.next] at hstep
      split at hstep
      · cases hstep
      · exact h.flush hstep
      · cases hstep
  | complete i =>
      simp only [H264Encoder.next] at hstep
      split at hstep
      · next count p hbackend =>
        obtain ⟨p', hnext, rfl⟩ := Option.map_eq_some_iff.1 hstep
        exact h.complete hbackend hnext
      · cases hstep
  | step a =>
      simp only [H264Encoder.next] at hstep
      split at hstep
      · next call hpoint =>
        obtain ⟨backend, hpass, rfl⟩ := Option.map_eq_some_iff.1 hstep
        exact h.pass hpoint hpass
      · next frame hpoint => exact h.fallBack hpoint hstep
      · cases hstep

end H264Encoder

end SecondScreen.Encoding
