import SecondScreen.Conc.System
import SecondScreen.Ring.Layout
import SecondScreen.Machine.Memory

/-!
# The members of a `SwapChainProcessor`

The swap-chain thread captures frames, the conversion thread publishes them.  What both
use is `Processor`, with one atomic operation for each section under `m_BgraMutex` and for
each access outside of it; a section that waits on a condition variable is possible only
when its condition holds.  What only the swap-chain thread uses is `Staging`.

Whether a function of the system or of the ring succeeds is open, and so is when the host
writes the header.  The measured durations are left out.
-/

namespace SecondScreen.Capture

open SecondScreen.Conc SecondScreen.Machine

/-! ## Frames -/

/-- `DXGI_FORMAT_B8G8R8A8_UNORM`. -/
def formatB8G8R8A8Unorm : Nat := 87

/-- A surface: its description, and its pixels row by row. -/
structure Surface where
  format : Nat := formatB8G8R8A8Unorm
  width : Nat
  height : Nat
  arraySize : Nat := 1
  mipLevels : Nat := 1
  sampleCount : Nat := 1
  pixels : Bytes

/-- What a surface shows, and when it was presented. -/
structure Frame where
  width : Nat := 0
  height : Nat := 0
  presentDisplayQpcTime : Nat := 0
  pixels : List UInt8 := []
deriving DecidableEq, Repr

/-- The frame that is captured from a surface. -/
def Surface.frame (surface : Surface) (presentDisplayQpcTime : Nat) : Frame where
  width := surface.width
  height := surface.height
  presentDisplayQpcTime
  pixels := (List.range (4 * surface.width * surface.height)).map surface.pixels

structure PendingStagingFrame where
  stagingIndex : Nat := 0
  width : Nat := 0
  height : Nat := 0
  presentDisplayQpcTime : Nat := 0
deriving DecidableEq, Repr

structure PendingBgraFrame where
  bufferIndex : Nat := 0
  width : Nat := 0
  height : Nat := 0
  presentDisplayQpcTime : Nat := 0
deriving DecidableEq, Repr

/-- What one `PublishBgraFrame` puts into its slot: the numbers, and the pixels that it
has converted. -/
structure Published where
  sequence : Nat := 0
  frameId : Nat := 0
  frame : Frame := {}
deriving DecidableEq, Repr

/-- `D3D11_MAPPED_SUBRESOURCE`. -/
structure MappedSubresource where
  rowPitch : Nat
  data : Bytes

/-! ## The members -/

/-- What the two threads share, and the view of the ring. -/
structure Processor where
  stagingTextures : Nat → Option Bytes := fun _ ↦ none
  bgraBuffers : Nat → Option Bytes := fun _ ↦ none
  bgraBufferInUse : Nat → Bool := fun _ ↦ false
  bgraQueue : Nat → PendingBgraFrame := fun _ ↦ {}
  bgraQueueHead : Nat := 0
  bgraQueueCount : Nat := 0
  bgraStop : Bool := false
  bgraFailed : Bool := false
  /-- `m_BgraThread.joinable()`. -/
  joinable : Bool := false
  /-- `ConversionThreadMain` has returned. -/
  ended : Bool := false
  nextFrameId : Nat := 1
  nextSequence : Nat := 1
  /-- `m_FrameRing`: which view it points to, unless it is null. -/
  frameRing : Option Nat := none
  /-- Whether `m_FrameReadyEvent` and `m_FrameMapping` are not null. -/
  frameReadyEvent : Bool := false
  frameMapping : Bool := false
  /-- Which view is mapped. -/
  mapped : Option Nat := none
  /-- How many views have been mapped. -/
  views : Nat := 0
  /-- The handle of the event is open. -/
  eventOpen : Bool := false
  /-- The header of the ring is as `ValidateFrameRing` wants it. -/
  headerValid : Bool := true
  /-- The slot that is being written. -/
  slot : Published := {}

/-- `m_BgraBuffers.size()`. -/
abbrev kBgraBuffers : Nat := 3

/-- `ARRAYSIZE(m_StagingTextures)`. -/
abbrev kStagingTextures : Nat := 2

/-- The condition of `WaitForConversionIdle`. -/
def Processor.conversionIdle (s : Processor) : Prop :=
  s.bgraFailed = true ∨ s.bgraQueueCount = 0 ∧ ∀ i < kBgraBuffers, s.bgraBufferInUse i = false

instance (s : Processor) : Decidable s.conversionIdle := inferInstanceAs (Decidable (_ ∨ _))

/-- The first buffer that is not in use. -/
def Processor.freeBuffer (s : Processor) : Option Nat :=
  (List.range kBgraBuffers).find? fun i ↦ s.bgraBufferInUse i = false

/-! ## Operations -/

/-- The functions of the system that do nothing here but succeed or fail. -/
inductive SystemCall
  | queryInterface
  | finishedProcessingFrame
  | openFileMapping
  | /-- A timestamp was found for the frame. -/
    timestamp
deriving DecidableEq, Repr

inductive CaptureOp : Type → Type
  | call (f : SystemCall) : CaptureOp Bool
  -- the staging textures
  | readStagingTexture (i : Nat) : CaptureOp Bool
  | resetStagingTexture (i : Nat) : CaptureOp Unit
  | createTexture2D (i : Nat) : CaptureOp Bool
  | copyResource (i : Nat) (surface : Surface) (presentDisplayQpcTime : Nat) : CaptureOp Unit
  | map (i rowBytes : Nat) : CaptureOp (Option MappedSubresource)
  -- the BGRA buffers
  | readBgraBuffer (i : Nat) : CaptureOp Bool
  | resetBgraBuffer (i : Nat) : CaptureOp Unit
  | newBgraBuffer (i : Nat) : CaptureOp Bool
  | writePixel (i n : Nat) (value : UInt8) : CaptureOp Unit
  | readPixel (i n : Nat) : CaptureOp UInt8
  | fillBgraBufferInUse : CaptureOp Unit
  | writeBgraQueueHead (value : Nat) : CaptureOp Unit
  | writeBgraQueueCount (value : Nat) : CaptureOp Unit
  -- the sections under the mutex
  | acquireBgraBuffer : CaptureOp (Option Nat)
  | releaseBgraBuffer (i : Nat) : CaptureOp Unit
  | enqueueBgraFrame (frame : PendingBgraFrame) : CaptureOp Bool
  | /-- The section of `ConversionThreadMain` that takes a frame. -/
    dequeueBgraFrame : CaptureOp (Option PendingBgraFrame)
  | /-- The section of `ConversionThreadMain` that records a failure. -/
    setBgraFailed : CaptureOp Unit
  | setBgraStop : CaptureOp Unit
  | waitForConversionIdle : CaptureOp Unit
  -- the thread
  | startThread : CaptureOp Bool
  | endThread : CaptureOp Unit
  | join : CaptureOp Unit
  -- `PublishBgraFrame`
  | /-- `m_BgraBuffers[frame.bufferIndex] == nullptr`, at its start. -/
    checkBgraBuffer (i : Nat) : CaptureOp Bool
  | /-- `m_FrameRing == nullptr`, at its start. -/
    checkFrameRing : CaptureOp Bool
  | claimFrameSlot : CaptureOp Bool
  | readNextSequence : CaptureOp Nat
  | writeNextSequence (value : Nat) : CaptureOp Unit
  | readNextFrameId : CaptureOp Nat
  | writeNextFrameId (value : Nat) : CaptureOp Unit
  | /-- The stores into the slot. -/
    writeSlot (content : Published) : CaptureOp Unit
  | /-- `InterlockedExchange(&slot->state, kSlotReady)`. -/
    makeReady : CaptureOp Unit
  | /-- `InterlockedExchange(&slot->state, kSlotFree)`. -/
    makeFree : CaptureOp Unit
  | setEvent : CaptureOp Bool
  -- the ring
  | readFrameRing : CaptureOp Bool
  | readFrameReadyEvent : CaptureOp Bool
  | readFrameMapping : CaptureOp Bool
  | validateFrameRing : CaptureOp Bool
  | mapViewOfFile : CaptureOp (Option Nat)
  | unmapViewOfFile : CaptureOp Unit
  | writeFrameRing (view : Option Nat) : CaptureOp Unit
  | openEvent : CaptureOp Bool
  | closeEvent : CaptureOp Unit
  | writeFrameReadyEvent (value : Bool) : CaptureOp Unit
  | writeFrameMapping (value : Bool) : CaptureOp Unit
  | /-- The host writes the header. -/
    writeHeader (valid : Bool) : CaptureOp Unit

/-- What is open about an operation: whether it succeeds, the pitch and the padding of a
mapped texture, and what a new buffer holds. -/
structure Answer where
  ok : Bool := true
  rowPitch : Nat := 0
  padding : Bytes := fun _ ↦ 0
  fresh : Bytes := fun _ ↦ 0

/-- The memory of a mapped texture: rows of `rowBytes` pixel bytes, each padded to the
pitch. -/
def mappedData (pixels : Bytes) (rowBytes rowPitch : Nat) (padding : Bytes) : Bytes := fun n ↦
  if n % rowPitch < rowBytes then pixels (n / rowPitch * rowBytes + n % rowPitch) else padding n

namespace CaptureOp

/-- The effect of an operation, and its answer; `none` if it is not possible now. -/
def exec : Exec CaptureOp Answer Processor
  | _, w, .call _, s => some (w.ok, s)
  | _, _, .readStagingTexture i, s => some ((s.stagingTextures i).isSome, s)
  | _, _, .resetStagingTexture i, s =>
      some ((), { s with stagingTextures := Function.update s.stagingTextures i none })
  | _, w, .createTexture2D i, s =>
      if w.ok then
        some (true, { s with
          stagingTextures := Function.update s.stagingTextures i (some w.fresh) })
      else some (false, s)
  | _, _, .copyResource i surface _, s =>
      some ((), { s with
        stagingTextures := Function.update s.stagingTextures i (some surface.pixels) })
  | _, w, .map i rowBytes, s =>
      match s.stagingTextures i with
      | some pixels =>
          if w.ok then
            if rowBytes ≤ w.rowPitch then
              some (some ⟨w.rowPitch, mappedData pixels rowBytes w.rowPitch w.padding⟩, s)
            else none
          else some (none, s)
      | none => some (none, s)
  | _, _, .readBgraBuffer i, s => some ((s.bgraBuffers i).isSome, s)
  | _, _, .resetBgraBuffer i, s =>
      some ((), { s with bgraBuffers := Function.update s.bgraBuffers i none })
  | _, w, .newBgraBuffer i, s =>
      if w.ok then
        some (true, { s with bgraBuffers := Function.update s.bgraBuffers i (some w.fresh) })
      else some (false, { s with bgraBuffers := Function.update s.bgraBuffers i none })
  | _, _, .writePixel i n value, s =>
      some ((), { s with
        bgraBuffers := Function.update s.bgraBuffers i
          ((s.bgraBuffers i).map fun bytes ↦ Function.update bytes n value) })
  | _, _, .readPixel i n, s => some (((s.bgraBuffers i).getD fun _ ↦ 0) n, s)
  | _, _, .fillBgraBufferInUse, s => some ((), { s with bgraBufferInUse := fun _ ↦ false })
  | _, _, .writeBgraQueueHead value, s => some ((), { s with bgraQueueHead := value })
  | _, _, .writeBgraQueueCount value, s => some ((), { s with bgraQueueCount := value })
  | _, _, .acquireBgraBuffer, s =>
      if s.bgraStop || s.bgraFailed then some (none, s)
      else
        match s.freeBuffer with
        | some i =>
            some (some i, { s with bgraBufferInUse := Function.update s.bgraBufferInUse i true })
        | none => none
  | _, _, .releaseBgraBuffer i, s =>
      some ((), { s with bgraBufferInUse := Function.update s.bgraBufferInUse i false })
  | _, _, .enqueueBgraFrame frame, s =>
      if s.bgraStop || s.bgraFailed || decide (kBgraBuffers ≤ s.bgraQueueCount) then
        some (false, s)
      else
        let queueIndex := (s.bgraQueueHead + s.bgraQueueCount) % kBgraBuffers
        some (true, { s with
          bgraQueue := Function.update s.bgraQueue queueIndex frame
          bgraQueueCount := s.bgraQueueCount + 1 })
  | _, _, .dequeueBgraFrame, s =>
      if s.joinable && (s.bgraStop || s.bgraFailed || decide (s.bgraQueueCount ≠ 0)) then
        if s.bgraFailed || s.bgraStop && decide (s.bgraQueueCount = 0) then some (none, s)
        else
          some (some (s.bgraQueue s.bgraQueueHead), { s with
            bgraQueueHead := (s.bgraQueueHead + 1) % kBgraBuffers
            bgraQueueCount := s.bgraQueueCount - 1 })
      else none
  | _, _, .setBgraFailed, s => some ((), { s with bgraFailed := true, bgraStop := true })
  | _, _, .setBgraStop, s => some ((), { s with bgraStop := true })
  | _, _, .waitForConversionIdle, s =>
      if s.joinable = false ∨ s.conversionIdle then some ((), s) else none
  | _, w, .startThread, s =>
      if w.ok then some (true, { s with joinable := true }) else some (false, s)
  | _, _, .endThread, s => some ((), { s with ended := true })
  | _, _, .join, s =>
      if s.joinable && !s.ended then none else some ((), { s with joinable := false })
  | _, _, .checkBgraBuffer i, s => some ((s.bgraBuffers i).isSome, s)
  | _, _, .checkFrameRing, s => some (s.frameRing.isSome, s)
  | _, w, .claimFrameSlot, s => some (w.ok, s)
  | _, _, .readNextSequence, s => some (s.nextSequence, s)
  | _, _, .writeNextSequence value, s => some ((), { s with nextSequence := value })
  | _, _, .readNextFrameId, s => some (s.nextFrameId, s)
  | _, _, .writeNextFrameId value, s => some ((), { s with nextFrameId := value })
  | _, _, .writeSlot content, s => some ((), { s with slot := content })
  | _, _, .makeReady, s => some ((), s)
  | _, _, .makeFree, s => some ((), s)
  | _, w, .setEvent, s => some (w.ok, s)
  | _, _, .readFrameRing, s => some (s.frameRing.isSome, s)
  | _, _, .readFrameReadyEvent, s => some (s.frameReadyEvent, s)
  | _, _, .readFrameMapping, s => some (s.frameMapping, s)
  | _, _, .validateFrameRing, s => some (s.headerValid, s)
  | _, w, .mapViewOfFile, s =>
      if w.ok then some (some s.views, { s with mapped := some s.views, views := s.views + 1 })
      else some (none, s)
  | _, _, .unmapViewOfFile, s => some ((), { s with mapped := none })
  | _, _, .writeFrameRing view, s => some ((), { s with frameRing := view })
  | _, w, .openEvent, s =>
      if w.ok then some (true, { s with eventOpen := true }) else some (false, s)
  | _, _, .closeEvent, s => some ((), { s with eventOpen := false })
  | _, _, .writeFrameReadyEvent value, s => some ((), { s with frameReadyEvent := value })
  | _, _, .writeFrameMapping value, s => some ((), { s with frameMapping := value })
  | _, _, .writeHeader valid, s => some ((), { s with headerValid := valid })

end CaptureOp

/-- A program of one of the threads. -/
abbrev CaptureProg := Prog CaptureOp

/-- What only the swap-chain thread uses. -/
structure Staging where
  stagingWidth : Nat := 0
  stagingHeight : Nat := 0
  stagingWriteIndex : Nat := 0
  pendingStagingFrame : PendingStagingFrame := {}
  hasPendingStagingFrame : Bool := false
  hasPublishedFrame : Bool := false
  bgraBufferBytes : Nat := 0
deriving DecidableEq, Repr

end SecondScreen.Capture
