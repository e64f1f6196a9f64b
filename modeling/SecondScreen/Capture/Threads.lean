import SecondScreen.Capture.SwapChainProcessor

/-!
# The threads and the host

The swap-chain thread runs `RunCore` once, the conversion thread makes one pass of its
loop after the other, and the host may restart and write the header of the ring.  Each may
move at any time.

Next to the processor the shared state holds a `Log` of what the threads did: which frames
were captured, where each of them is, and what was published.  The programs cannot read
it.
-/

namespace SecondScreen.Capture

open SecondScreen.Conc SecondScreen.Machine

inductive Worker
  | swapChain
  | conversion
  | host
deriving DecidableEq

/-- A record of what the threads did. -/
structure Log where
  /-- What the swap chain is to hand out. -/
  surfaces : List (Surface × Nat) := []
  /-- What was copied to a staging texture, in order of time. -/
  captured : List Frame := []
  /-- Those of them that were not queued or published yet. -/
  inStaging : List Frame := []
  /-- What is queued, with its buffers. -/
  queued : List (Nat × Frame) := []
  /-- What the conversion thread has taken and not published yet. -/
  converting : Option (Nat × Frame) := none
  /-- The buffers that the threads hold. -/
  conversionBuffer : Option Nat := none
  captureBuffer : Option Nat := none
  published : List Published := []
  /-- Who is inside `PublishBgraFrame`. -/
  inside : Worker → Bool := fun _ ↦ false
  /-- The view that a thread in `PublishBgraFrame` has found in `m_FrameRing`. -/
  view : Worker → Option Nat := fun _ ↦ none
  /-- The counters are already incremented for the frame that is being published. -/
  sequenceTaken : Bool := false
  frameIdTaken : Bool := false

/-- The processor and the record. -/
structure Shared where
  processor : Processor := {}
  log : Log := {}

namespace Log

/-- `PublishBgraFrame` makes no further use of the ring. -/
def leave (log : Log) (i : Worker) : Log :=
  { log with
    inside := Function.update log.inside i false
    view := Function.update log.view i none }

/-- `PublishBgraFrame` has made a frame ready and signalled it. -/
def publish (log : Log) (i : Worker) (slot : Published) : Log :=
  { log.leave i with
    published := log.published ++ [slot]
    converting := if i = .conversion then none else log.converting
    inStaging := if i = .swapChain then log.inStaging.tail else log.inStaging
    sequenceTaken := false
    frameIdTaken := false }

/-- What an operation of thread `i`, with its answer, adds to the record. -/
def step (i : Worker) : (β : Type) → CaptureOp β → β → Processor → Log → Log
  | _, .copyResource _ surface presentDisplayQpcTime, _, _, log =>
      { log with
        captured := log.captured ++ [surface.frame presentDisplayQpcTime]
        inStaging := log.inStaging ++ [surface.frame presentDisplayQpcTime] }
  | _, .acquireBgraBuffer, some b, _, log => { log with captureBuffer := some b }
  | _, .releaseBgraBuffer _, _, _, log =>
      if i = .conversion then { log with converting := none, conversionBuffer := none }
      else { log with captureBuffer := none }
  | _, .enqueueBgraFrame frame, true, _, log =>
      { log with
        queued := log.queued ++ [(frame.bufferIndex, log.inStaging.headD {})]
        inStaging := log.inStaging.tail
        captureBuffer := none }
  | _, .dequeueBgraFrame, some frame, _, log =>
      { log with
        converting := some (log.queued.headD (frame.bufferIndex, {}))
        queued := log.queued.tail
        conversionBuffer := some frame.bufferIndex }
  | _, .checkBgraBuffer _, ok, _, log =>
      { log with inside := Function.update log.inside i ok }
  | _, .checkFrameRing, ok, s, log =>
      if ok then { log with view := Function.update log.view i s.frameRing } else log.leave i
  | _, .claimFrameSlot, ok, _, log => if ok then log else log.leave i
  | _, .makeFree, _, _, log => log.leave i
  | _, .setEvent, ok, s, log => if ok then log.publish i s.slot else log
  | _, .writeNextSequence _, _, _, log => { log with sequenceTaken := true }
  | _, .writeNextFrameId _, _, _, log => { log with frameIdTaken := true }
  | _, _, _, _, log => log

end Log

/-- Which steps are considered: the operations of a thread, with what is open about
them. -/
abbrev Steps := Worker → (β : Type) → CaptureOp β → Answer → Shared → Prop

/-- All of them can be decided. -/
abbrev Steps.Decides (allow : Steps) := ∀ i β o w s, Decidable (allow i β o w s)

/-- No restriction. -/
def anyStep : Steps := fun _ _ _ _ _ ↦ True

instance : anyStep.Decides := fun _ _ _ _ _ ↦ .isTrue trivial

/-- One operation of thread `i`, with its record. -/
def captureExec (allow : Steps) [allow.Decides] (i : Worker) : Exec CaptureOp Answer Shared :=
  fun β w o s ↦
    if allow i β o w s then
      (CaptureOp.exec β w o s.processor).map fun r ↦
        (r.1, ⟨r.2, s.log.step i β o r.1 s.processor⟩)
    else none

theorem captureExec_some {allow : Steps} [allow.Decides] {i : Worker} {s u : Shared} {β : Type}
    {w : Answer} {o : CaptureOp β} {r : β} (h : captureExec allow i β w o s = some (r, u)) :
    allow i β o w s ∧ ∃ q, CaptureOp.exec β w o s.processor = some (r, q) ∧
      u = ⟨q, s.log.step i β o r s.processor⟩ := by
  unfold captureExec at h
  split_ifs at h with hallow
  obtain ⟨⟨r', q⟩, hexec, hu⟩ := Option.map_eq_some_iff.1 h
  cases hu
  exact ⟨hallow, q, hexec, rfl⟩

/-- `FrameRingHost` resets the header and writes it again. -/
def restartHost : CaptureProg Unit := do
  perform (.writeHeader false)
  perform (.writeHeader true)

/-- The two threads and the host.  A thread keeps whether it has ended. -/
def captureSystem (allow : Steps) [allow.Decides] :
    System Worker CaptureOp Answer Shared where
  Local
    | .swapChain | .conversion => Bool
    | .host => Unit
  Call
    | .swapChain => List (Surface × Nat)
    | .conversion | .host => Unit
  Result _ := Unit
  body
    | .swapChain => fun surfaces ended ↦
        if ended then return ((), true)
        else do
          runCore surfaces
          return ((), true)
    | .conversion => fun _ ended ↦
        if ended then return ((), true)
        else return ((), !(← conversionPass))
    | .host => fun _ _ ↦ do
        restartHost
        return ((), ())
  exec := captureExec allow
  enter
    | .swapChain => fun surfaces ended s ↦
        if ended then s else { s with log := { s.log with surfaces } }
    | .conversion | .host => fun _ _ s ↦ s
  leave _ _ s := s

variable (allow : Steps) [allow.Decides]

abbrev CaptureConfig := (captureSystem allow).Config

/-- Nothing has been captured, and no thread has begun. -/
def CaptureConfig.initial : CaptureConfig allow where
  shared := {}
  status
    | .swapChain | .conversion => .idle false
    | .host => .idle ()

/-- An arbitrary interleaving of the steps that are considered. -/
abbrev CaptureRun : CaptureConfig allow → CaptureConfig allow → Prop :=
  System.Run (S := captureSystem allow) fun _ _ _ _ ↦ True

/-! ## The operations on the ring -/

/-- The operations of `EnsureFrameRing` and `CloseFrameRing`. -/
def RingOperation : (β : Type) → CaptureOp β → Prop
  | _, .call _ | _, .readFrameRing | _, .readFrameReadyEvent | _, .readFrameMapping
  | _, .validateFrameRing | _, .mapViewOfFile | _, .unmapViewOfFile | _, .writeFrameRing _
  | _, .openEvent | _, .closeEvent | _, .writeFrameReadyEvent _ | _, .writeFrameMapping _ => True
  | _, _ => False

theorem RingOperation.log {β : Type} {o : CaptureOp β} {r : β} (ho : RingOperation β o) (i : Worker)
    (log : Log) (p : Processor) :
    log.step i β o r p = log := by
  cases o <;> first | exact ho.elim | rfl

/-- The operations on the handles of the event and the mapping. -/
def HandleOperation : (β : Type) → CaptureOp β → Prop
  | _, .readFrameReadyEvent | _, .readFrameMapping | _, .closeEvent
  | _, .writeFrameReadyEvent _ | _, .writeFrameMapping _ => True
  | _, _ => False

theorem closeHandles_uses : closeHandles.Uses HandleOperation := by
  have hmapping : (do
      if ← perform .readFrameMapping then
        perform (.writeFrameMapping false) : CaptureProg Unit).Uses HandleOperation :=
    ⟨trivial, fun _ ↦ Prog.Uses.ite ⟨trivial, fun _ ↦ trivial⟩ trivial⟩
  exact ⟨trivial, fun _ ↦ Prog.Uses.ite ⟨trivial, fun _ ↦ ⟨trivial, fun _ ↦ hmapping⟩⟩ hmapping⟩

theorem HandleOperation.ring {β : Type} {o : CaptureOp β} (ho : HandleOperation β o) :
    RingOperation β o := by
  cases o <;> first | exact ho.elim | trivial

theorem closeFrameRing_uses : closeFrameRing.Uses RingOperation := by
  apply Prog.Uses.bind
  · exact ⟨trivial, fun _ ↦ Prog.Uses.ite ⟨trivial, fun _ ↦ ⟨trivial, fun _ ↦ trivial⟩⟩ trivial⟩
  · exact fun _ ↦ closeHandles_uses.mono fun _ _ ho ↦ ho.ring

theorem ensureFrameRing_uses : ensureFrameRing.Uses RingOperation := by
  have hopening : openFrameRing.Uses RingOperation := by
    refine ⟨trivial, fun _ ↦ Prog.Uses.ite trivial ⟨trivial, fun _ ↦ Prog.Uses.ite trivial
      ⟨trivial, fun view ↦ ?_⟩⟩⟩
    cases view with
    | none => exact ⟨trivial, fun _ ↦ trivial⟩
    | some view =>
        refine ⟨trivial, fun _ ↦ Prog.Uses.ite ⟨trivial, fun _ ↦ ⟨trivial, fun _ ↦ trivial⟩⟩ ?_⟩
        exact ⟨trivial, fun _ ↦ ⟨trivial, fun _ ↦ ⟨trivial, fun _ ↦ trivial⟩⟩⟩
  have hready : frameRingOpen.Uses RingOperation :=
    ⟨trivial, fun _ ↦ Prog.Uses.ite trivial ⟨trivial, fun _ ↦ Prog.Uses.ite trivial
      ⟨trivial, fun _ ↦ trivial⟩⟩⟩
  refine hready.bind fun _ ↦ Prog.Uses.ite ⟨trivial, fun _ ↦ Prog.Uses.ite trivial ?_⟩ hopening
  exact closeFrameRing_uses.bind fun _ ↦ hopening

/-! ## Operations on neither the ring nor the pool -/

/-- The operations on the textures and the pixels, and those of `PublishBgraFrame`. -/
def PlainOperation : (β : Type) → CaptureOp β → Prop
  | _, .call _ | _, .readStagingTexture _ | _, .resetStagingTexture _ | _, .createTexture2D _
  | _, .copyResource _ _ _ | _, .map _ _ | _, .readBgraBuffer _ | _, .writePixel _ _ _
  | _, .readPixel _ _ | _, .waitForConversionIdle | _, .checkBgraBuffer _ | _, .checkFrameRing
  | _, .claimFrameSlot | _, .readNextSequence | _, .writeNextSequence _ | _, .readNextFrameId
  | _, .writeNextFrameId _ | _, .writeSlot _ | _, .makeReady | _, .makeFree | _, .setEvent => True
  | _, _ => False

theorem readPixels_plain (bufferIndex count n : Nat) :
    (readPixels bufferIndex count n).Uses PlainOperation := by
  induction count generalizing n with
  | zero => trivial
  | succ count ih => exact ⟨trivial, fun _ ↦ (ih (n + 1)).bind fun _ ↦ trivial⟩

theorem publishBgraFrame_plain (frame : PendingBgraFrame) :
    (publishBgraFrame frame).Uses PlainOperation := by
  unfold publishBgraFrame
  apply Prog.Uses.ite
  · trivial
  refine ⟨trivial, fun _ ↦ Prog.Uses.ite trivial ⟨trivial, fun _ ↦ Prog.Uses.ite trivial
    ⟨trivial, fun _ ↦ Prog.Uses.ite trivial ⟨trivial, fun _ ↦ Prog.Uses.ite ?_ ?_⟩⟩⟩⟩
  · exact ⟨trivial, fun _ ↦ trivial⟩
  · refine ⟨trivial, fun _ ↦ ⟨trivial, fun _ ↦ ⟨trivial, fun _ ↦ ⟨trivial, fun _ ↦ ?_⟩⟩⟩⟩
    refine (readPixels_plain _ _ _).bind fun _ ↦ ⟨trivial, fun _ ↦ ⟨trivial, fun _ ↦ ?_⟩⟩
    exact ⟨trivial, fun _ ↦ Prog.Uses.ite ⟨trivial, fun _ ↦ trivial⟩ trivial⟩

theorem resetStagingTextures_plain : resetStagingTextures.Uses PlainOperation :=
  ⟨trivial, fun _ ↦ ⟨trivial, fun _ ↦ trivial⟩⟩

theorem ensureStagingTextures_plain (m : Staging) (width height : Nat) :
    (ensureStagingTextures m width height).Uses PlainOperation := by
  unfold ensureStagingTextures
  refine Prog.Uses.bind ?_ fun _ ↦ Prog.Uses.ite trivial ?_
  · exact ⟨trivial, fun _ ↦ Prog.Uses.ite trivial ⟨trivial, fun _ ↦ trivial⟩⟩
  refine resetStagingTextures_plain.bind fun _ ↦ ⟨trivial, fun _ ↦ ⟨trivial, fun _ ↦ ?_⟩⟩
  apply Prog.Uses.ite
  · exact resetStagingTextures_plain.bind fun _ ↦ trivial
  refine ⟨trivial, fun _ ↦ Prog.Uses.ite ?_ trivial⟩
  exact resetStagingTextures_plain.bind fun _ ↦ trivial

theorem bgraBuffersReady_plain (l : List Nat) : (bgraBuffersReady l).Uses PlainOperation := by
  induction l with
  | nil => trivial
  | cons i l ih => exact ⟨trivial, fun _ ↦ ih.bind fun _ ↦ trivial⟩

theorem copyBytes_plain (bufferIndex : Nat) (source : Bytes) (count to' from' : Nat) :
    (copyBytes bufferIndex source count to' from').Uses PlainOperation := by
  induction count generalizing to' from' with
  | zero => trivial
  | succ count ih => exact ⟨trivial, fun _ ↦ ih _ _⟩

theorem copyRows_plain (bufferIndex : Nat) (mapped : MappedSubresource)
    (rowBytes count row : Nat) :
    (copyRows bufferIndex mapped rowBytes count row).Uses PlainOperation := by
  induction count generalizing row with
  | zero => trivial
  | succ count ih => exact (copyBytes_plain _ _ _ _ _).bind fun _ ↦ ih _

theorem copyMapped_plain (bufferIndex : Nat) (mapped : MappedSubresource)
    (rowBytes height : Nat) : (copyMapped bufferIndex mapped rowBytes height).Uses PlainOperation :=
  Prog.Uses.ite (copyBytes_plain _ _ _ _ _) (copyRows_plain _ _ _ _ _)

theorem failFrame_plain (m : Staging) : (failFrame m).Uses PlainOperation :=
  ⟨trivial, fun _ ↦ trivial⟩

/-! ## Small runs -/

/-- Two rows of two black pixels. -/
def smallSurface : Surface where
  width := 2
  height := 2
  pixels _ := 0

/-- A number of successful operations of a thread. -/
abbrev operations (i : Worker) (count : Nat) : (captureSystem allow).Schedule :=
  List.replicate count ⟨i, .act { rowPitch := 8 }⟩

/-- Of some small surfaces the first is published and the second queued, and the conversion
thread has found the ring. -/
abbrev convertsSecond (surfaces : Nat) : (captureSystem allow).Schedule :=
  ⟨.swapChain, .enter (List.replicate surfaces (smallSurface, 0))⟩ ::
    operations allow .swapChain 128 ++ ⟨.conversion, .enter ()⟩ :: operations allow .conversion 3

end SecondScreen.Capture
