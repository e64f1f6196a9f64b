import Mathlib.Data.List.Perm.Subperm
import SecondScreen.Capture.Threads

/-!
# The account of the captured frames

At any time every captured frame is in one place: it was published, the conversion thread
has taken it, it is queued, or it is in a staging texture; and read in this order the
places give the frames in the order of their capture.  A BGRA buffer that is in use belongs
to one queued frame or to one of the threads.

Each thread owns a part of the state.  The conversion thread is idle when nothing is left
for it to do, and only then does the swap-chain thread publish a frame itself.
-/

namespace SecondScreen.Capture

open SecondScreen.Conc SecondScreen.Machine

/-- No operation fails, and `EnsureFrameRing` does not meet a host that restarts. -/
def succeeds : Steps := fun _ _ o w s ↦
  w.ok = true ∧
    match o with
    | .validateFrameRing => s.processor.headerValid = true
    | _ => True

instance : succeeds.Decides := fun i β o w s ↦ by
  unfold succeeds
  cases o <;> infer_instance

/-! ## Parts of the state -/

/-- What only the swap-chain thread changes. -/
structure Capturing where
  stagingTextures : Nat → Option Bytes
  bgraBuffers : Nat → Option Bytes
  bgraStop : Bool
  joinable : Bool
  frameRing : Option Nat
  frameReadyEvent : Bool
  frameMapping : Bool
  surfaces : List (Surface × Nat)
  captured : List Frame
  inStaging : List Frame
  captureBuffer : Option Nat

/-- What only the conversion thread changes. -/
structure Converter where
  converting : Option (Nat × Frame)
  conversionBuffer : Option Nat
  ended : Bool

/-- What the thread changes that publishes a frame. -/
structure Publishing where
  nextSequence : Nat
  nextFrameId : Nat
  slot : Published
  published : List Published
  sequenceTaken : Bool
  frameIdTaken : Bool

namespace Shared

variable (s : Shared)

def capturing : Capturing where
  stagingTextures := s.processor.stagingTextures
  bgraBuffers := s.processor.bgraBuffers
  bgraStop := s.processor.bgraStop
  joinable := s.processor.joinable
  frameRing := s.processor.frameRing
  frameReadyEvent := s.processor.frameReadyEvent
  frameMapping := s.processor.frameMapping
  surfaces := s.log.surfaces
  captured := s.log.captured
  inStaging := s.log.inStaging
  captureBuffer := s.log.captureBuffer

def converter : Converter where
  converting := s.log.converting
  conversionBuffer := s.log.conversionBuffer
  ended := s.processor.ended

def publishing : Publishing where
  nextSequence := s.processor.nextSequence
  nextFrameId := s.processor.nextFrameId
  slot := s.processor.slot
  published := s.log.published
  sequenceTaken := s.log.sequenceTaken
  frameIdTaken := s.log.frameIdTaken

/-- What the conversion thread has still to publish, with the buffers. -/
def toConvert : List (Nat × Frame) := s.log.converting.toList ++ s.log.queued

/-- The conversion thread has nothing to do, and holds no buffer. -/
def ConverterIdle : Prop := s.toConvert = [] ∧ s.log.conversionBuffer = none

/-- The buffers in use. -/
def held : List Nat :=
  s.log.queued.map (·.1) ++ s.log.conversionBuffer.toList ++ s.log.captureBuffer.toList

end Shared

/-- The frames are numbered in order, and the counters say which number is next. -/
structure Publishing.Numbered (p : Publishing) : Prop where
  published : ∀ k (hk : k < p.published.length),
    p.published[k].sequence = k + 1 ∧ p.published[k].frameId = k + 1
  nextSequence : p.nextSequence = p.published.length + 1 + p.sequenceTaken.toNat
  nextFrameId : p.nextFrameId = p.published.length + 1 + p.frameIdTaken.toNat

/-- A buffer holds the pixels of a frame. -/
def Holds (buffers : Nat → Option Bytes) (b : Nat) (f : Frame) : Prop :=
  ∃ bytes, buffers b = some bytes ∧ f.pixels = (List.range (4 * f.width * f.height)).map bytes

/-- How a frame is queued. -/
def queueEntry (p : Nat × Frame) : PendingBgraFrame where
  bufferIndex := p.1
  width := p.2.width
  height := p.2.height
  presentDisplayQpcTime := p.2.presentDisplayQpcTime

/-- Exactly these buffers are in use. -/
structure InUse (inUse : Nat → Bool) (held : List Nat) : Prop where
  iff : ∀ b < kBgraBuffers, inUse b = true ↔ b ∈ held
  nodup : held.Nodup
  lt : ∀ b ∈ held, b < kBgraBuffers

namespace InUse

variable {inUse : Nat → Bool} {held held' : List Nat} {b : Nat}

/-- The order in which the buffers are listed does not matter. -/
theorem perm (h : InUse inUse held) (hperm : held.Perm held') : InUse inUse held' where
  iff b hb := (h.iff b hb).trans hperm.mem_iff
  nodup := hperm.nodup_iff.1 h.nodup
  lt b hb := h.lt b (hperm.mem_iff.2 hb)

/-- A free buffer is taken. -/
theorem acquire (h : InUse inUse held) (hb : b < kBgraBuffers) (hfree : inUse b = false) :
    InUse (Function.update inUse b true) (b :: held) where
  iff c hc := by
    by_cases hcb : c = b
    · simp [hcb]
    · simp [hcb, h.iff c hc]
  nodup := by
    refine List.nodup_cons.2 ⟨fun hmem ↦ ?_, h.nodup⟩
    rw [(h.iff b hb).2 hmem] at hfree
    cases hfree
  lt := List.forall_mem_cons.2 ⟨hb, h.lt⟩

/-- A buffer is given back. -/
theorem release (h : InUse inUse (b :: held)) : InUse (Function.update inUse b false) held where
  iff c hc := by
    by_cases hcb : c = b
    · subst hcb
      simpa using (List.nodup_cons.1 h.nodup).1
    · simp [hcb, h.iff c hc]
  nodup := (List.nodup_cons.1 h.nodup).2
  lt c hc := h.lt c (List.mem_cons_of_mem b hc)

/-- No more buffers are in use than there are. -/
theorem length_le (h : InUse inUse held) : held.length ≤ kBgraBuffers := by
  have hsub : held ⊆ List.range kBgraBuffers := fun b hb ↦ List.mem_range.2 (h.lt b hb)
  simpa using (List.subperm_of_subset h.nodup hsub).length_le

end InUse

/-- Every captured frame and every buffer is accounted for. -/
structure Accounted (s : Shared) : Prop where
  account : s.log.captured =
    s.log.published.map (·.frame) ++ s.toConvert.map (·.2) ++ s.log.inStaging
  numbered : s.publishing.Numbered
  count : s.processor.bgraQueueCount = s.log.queued.length
  head : s.processor.bgraQueueHead < kBgraBuffers
  entries : ∀ k (hk : k < s.log.queued.length),
    s.processor.bgraQueue ((s.processor.bgraQueueHead + k) % kBgraBuffers) =
      queueEntry s.log.queued[k]
  inUse : InUse s.processor.bgraBufferInUse s.held
  holds : ∀ p ∈ s.toConvert, Holds s.processor.bgraBuffers p.1 p.2
  conversionBuffer : ∀ p, s.log.converting = some p → s.log.conversionBuffer = some p.1
  /-- The threads are never inside `PublishBgraFrame` at the same time. -/
  insideConversion : s.log.inside .conversion = true → s.log.converting ≠ none
  insideSwapChain : s.log.inside .swapChain = true → s.ConverterIdle
  taken : s.log.sequenceTaken = true ∨ s.log.frameIdTaken = true →
    s.log.inside .conversion = true ∨ s.log.inside .swapChain = true
  failed : s.processor.bgraFailed = false
  ended : s.processor.ended = true → s.ConverterIdle ∧ s.processor.bgraStop = true
  ring : s.toConvert ≠ [] → s.processor.frameRing ≠ none

/-- One thread at a time publishes. -/
theorem Accounted.not_both {s : Shared} (h : Accounted s) :
    ¬ (s.log.inside .swapChain = true ∧ s.log.inside .conversion = true) := by
  rintro ⟨hswap, hconv⟩
  have hidle := (h.insideSwapChain hswap).1
  have hnone := h.insideConversion hconv
  cases hc : s.log.converting with
  | none => exact hnone hc
  | some p => simp [Shared.toConvert, hc] at hidle

/-! ## The contracts -/

/-- What the conversion thread can do, as the swap-chain thread sees it. -/
structure ConverterMoves (s t : Shared) : Prop where
  capturing : t.capturing = s.capturing
  inside : t.log.inside .swapChain = s.log.inside .swapChain
  idle : s.ConverterIdle → t.ConverterIdle ∧ t.publishing = s.publishing
  ended : s.processor.ended = true → t.processor.ended = true

/-- What the swap-chain thread can do, as the conversion thread sees it. -/
structure CapturerMoves (s t : Shared) : Prop where
  converter : t.converter = s.converter
  inside : t.log.inside .conversion = s.log.inside .conversion
  buffer : ∀ b, s.log.conversionBuffer = some b →
    t.processor.bgraBuffers b = s.processor.bgraBuffers b ∧ t.publishing = s.publishing
  stopped : s.processor.bgraStop = true →
    t.processor.bgraStop = true ∧ t.log.queued = s.log.queued

namespace ConverterMoves

/-- A thread that does nothing keeps its contract. -/
theorem refl (s : Shared) : ConverterMoves s s := ⟨rfl, rfl, fun h ↦ ⟨h, rfl⟩, id⟩

/-- What a thread can do in one step it can do in many. -/
theorem trans {s t u : Shared} (h : ConverterMoves s t) (h' : ConverterMoves t u) :
    ConverterMoves s u where
  capturing := h'.capturing.trans h.capturing
  inside := h'.inside.trans h.inside
  idle hs := ⟨(h'.idle (h.idle hs).1).1, (h'.idle (h.idle hs).1).2.trans (h.idle hs).2⟩
  ended hs := h'.ended (h.ended hs)

end ConverterMoves

namespace CapturerMoves

/-- A thread that does nothing keeps its contract. -/
theorem refl (s : Shared) : CapturerMoves s s :=
  ⟨rfl, rfl, fun _ _ ↦ ⟨rfl, rfl⟩, fun h ↦ ⟨h, rfl⟩⟩

/-- What a thread can do in one step it can do in many. -/
theorem trans {s t u : Shared} (h : CapturerMoves s t) (h' : CapturerMoves t u) :
    CapturerMoves s u where
  converter := h'.converter.trans h.converter
  inside := h'.inside.trans h.inside
  buffer b hb := by
    have hb' : t.log.conversionBuffer = some b :=
      (congrArg Converter.conversionBuffer h.converter).trans hb
    obtain ⟨hbuffer, hpublishing⟩ := h.buffer b hb
    obtain ⟨hbuffer', hpublishing'⟩ := h'.buffer b hb'
    exact ⟨hbuffer'.trans hbuffer, hpublishing'.trans hpublishing⟩
  stopped hs := by
    obtain ⟨hstop, hqueued⟩ := h.stopped hs
    obtain ⟨hstop', hqueued'⟩ := h'.stopped hstop
    exact ⟨hstop', hqueued'.trans hqueued⟩

end CapturerMoves

/-- The contracts of the threads.  The host does nothing that concerns them. -/
def accountRG : Worker → RG Shared
  | .swapChain =>
      { rely := fun s t ↦ ConverterMoves s t ∧ Accounted t
        guar := fun s t ↦ CapturerMoves s t ∧ Accounted t
        rely_trans := fun h h' ↦ ⟨h.1.trans h'.1, h'.2⟩
        rely_refl := fun h ↦ ⟨.refl _, h.2⟩ }
  | .conversion =>
      { rely := fun s t ↦ CapturerMoves s t ∧ Accounted t
        guar := fun s t ↦ ConverterMoves s t ∧ Accounted t
        rely_trans := fun h h' ↦ ⟨h.1.trans h'.1, h'.2⟩
        rely_refl := fun h ↦ ⟨.refl _, h.2⟩ }
  | .host =>
      { rely := fun _ t ↦ Accounted t
        guar := fun s t ↦ CapturerMoves s t ∧ ConverterMoves s t ∧ Accounted t
        rely_trans := fun _ h ↦ h
        rely_refl := fun h ↦ h }

end SecondScreen.Capture
