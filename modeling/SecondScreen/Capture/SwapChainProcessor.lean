import SecondScreen.Capture.Processor

/-!
# The two threads of a `SwapChainProcessor`

The functions of `Driver.cpp` from `EnsureFrameRing` to `RunCore`.  A function that
changes the members of `Staging` returns them with its result.
-/

namespace SecondScreen.Capture

open SecondScreen.Conc SecondScreen.Machine SecondScreen.Ring

/-- Issue one operation. -/
abbrev perform {β : Type} (o : CaptureOp β) : CaptureProg β := Prog.perform o

/-! ## The frame ring -/

/-- The view, in `CloseFrameRing`. -/
def closeView : CaptureProg Unit := do
  if ← perform .readFrameRing then
    perform .unmapViewOfFile
    perform (.writeFrameRing none)

/-- The event and the mapping. -/
def closeHandles : CaptureProg Unit := do
  if ← perform .readFrameReadyEvent then
    perform .closeEvent
    perform (.writeFrameReadyEvent false)
  if ← perform .readFrameMapping then
    perform (.writeFrameMapping false)

def closeFrameRing : CaptureProg Unit := do
  closeView
  closeHandles

/-- `EnsureFrameRing` after the part that keeps an open ring. -/
def openFrameRing : CaptureProg Bool := do
  if !(← perform (.call .openFileMapping)) then return false
  if !(← perform .openEvent) then return false
  match ← perform .mapViewOfFile with
  | none =>
      perform .closeEvent
      return false
  | some view =>
      if !(← perform .validateFrameRing) then
        perform .unmapViewOfFile
        perform .closeEvent
        return false
      perform (.writeFrameMapping true)
      perform (.writeFrameReadyEvent true)
      perform (.writeFrameRing (some view))
      return true

/-- `m_FrameRing != nullptr && m_FrameMapping != nullptr && m_FrameReadyEvent != nullptr`. -/
def frameRingOpen : CaptureProg Bool := do
  if !(← perform .readFrameRing) then return false
  if !(← perform .readFrameMapping) then return false
  perform .readFrameReadyEvent

def ensureFrameRing : CaptureProg Bool := do
  if ← frameRingOpen then
    if ← perform .validateFrameRing then return true
    closeFrameRing
  openFrameRing

/-! ## Publishing -/

/-- The bytes from offset `n` of a buffer. -/
def readPixels (bufferIndex : Nat) : (count n : Nat) → CaptureProg (List UInt8)
  | 0, _ => return []
  | count + 1, n => do
      let byte ← perform (.readPixel bufferIndex n)
      return byte :: (← readPixels bufferIndex count (n + 1))

def publishBgraFrame (frame : PendingBgraFrame) : CaptureProg Bool := do
  if frame.bufferIndex ≥ kBgraBuffers then return false
  if !(← perform (.checkBgraBuffer frame.bufferIndex)) then return false
  if !(← perform .checkFrameRing) then return false
  if !(← perform .claimFrameSlot) then return false
  if !(← perform (.call .timestamp)) then
    perform .makeFree
    return false
  let sequence ← perform .readNextSequence
  perform (.writeNextSequence (sequence + 1))
  let frameId ← perform .readNextFrameId
  perform (.writeNextFrameId (frameId + 1))
  let pixels ← readPixels frame.bufferIndex (4 * frame.width * frame.height) 0
  perform (.writeSlot
    { sequence
      frameId
      frame :=
        { width := frame.width
          height := frame.height
          presentDisplayQpcTime := frame.presentDisplayQpcTime
          pixels } })
  perform .makeReady
  if !(← perform .setEvent) then
    perform .makeFree
    return false
  return true

/-! ## The swap-chain thread -/

/-- `reset` for each of the textures. -/
def resetStagingTextures : CaptureProg Unit := do
  perform (.resetStagingTexture 0)
  perform (.resetStagingTexture 1)

/-- Whether both textures are there. -/
def stagingTexturesReady : CaptureProg Bool := do
  if !(← perform (.readStagingTexture 0)) then return false
  perform (.readStagingTexture 1)

def ensureStagingTextures (m : Staging) (width height : Nat) : CaptureProg (Bool × Staging) := do
  if (← stagingTexturesReady) && m.stagingWidth = width && m.stagingHeight = height then
    return (true, m)
  resetStagingTextures
  perform .waitForConversionIdle
  let m : Staging := { m with
    stagingWidth := 0
    stagingHeight := 0
    stagingWriteIndex := 0
    hasPendingStagingFrame := false
    hasPublishedFrame := false }
  if !(← perform (.createTexture2D 0)) then
    resetStagingTextures
    return (false, m)
  if !(← perform (.createTexture2D 1)) then
    resetStagingTextures
    return (false, m)
  return (true, { m with stagingWidth := width, stagingHeight := height })

/-- Whether all buffers are there. -/
def bgraBuffersReady : List Nat → CaptureProg Bool
  | [] => return true
  | i :: rest => do
      let ready ← perform (.readBgraBuffer i)
      return ready && (← bgraBuffersReady rest)

def resetBgraBuffers : List Nat → CaptureProg Unit
  | [] => return ()
  | i :: rest => do
      perform (.resetBgraBuffer i)
      resetBgraBuffers rest

/-- Allocate the buffers; if it fails for one, all are given up. -/
def newBgraBuffers : List Nat → CaptureProg Bool
  | [] => return true
  | i :: rest => do
      if !(← perform (.newBgraBuffer i)) then
        resetBgraBuffers (List.range kBgraBuffers)
        return false
      newBgraBuffers rest

def ensureBgraBuffers (m : Staging) (width height : Nat) : CaptureProg (Bool × Staging) := do
  let requiredBytes := width * height * 4
  if requiredBytes = 0 then return (false, m)
  if (← bgraBuffersReady (List.range kBgraBuffers)) && requiredBytes ≤ m.bgraBufferBytes then
    return (true, m)
  perform .waitForConversionIdle
  resetBgraBuffers (List.range kBgraBuffers)
  perform .fillBgraBufferInUse
  perform (.writeBgraQueueHead 0)
  perform (.writeBgraQueueCount 0)
  if !(← newBgraBuffers (List.range kBgraBuffers)) then
    return (false, { m with bgraBufferBytes := 0 })
  return (true, { m with bgraBufferBytes := requiredBytes })

/-- `memcpy` into a buffer. -/
def copyBytes (bufferIndex : Nat) (source : Bytes) : (count to' from' : Nat) → CaptureProg Unit
  | 0, _, _ => return ()
  | count + 1, to', from' => do
      perform (.writePixel bufferIndex to' (source from'))
      copyBytes bufferIndex source count (to' + 1) (from' + 1)

/-- The row by row copy, from a row on. -/
def copyRows (bufferIndex : Nat) (mapped : MappedSubresource) (rowBytes : Nat) :
    (count row : Nat) → CaptureProg Unit
  | 0, _ => return ()
  | count + 1, row => do
      copyBytes bufferIndex mapped.data rowBytes (row * rowBytes) (row * mapped.rowPitch)
      copyRows bufferIndex mapped rowBytes count (row + 1)

/-- The copy of a mapped texture into a buffer. -/
def copyMapped (bufferIndex : Nat) (mapped : MappedSubresource) (rowBytes height : Nat) :
    CaptureProg Unit :=
  if mapped.rowPitch = rowBytes then copyBytes bufferIndex mapped.data (rowBytes * height) 0 0
  else copyRows bufferIndex mapped rowBytes height 0

def mapAndQueueStagingFrame (m : Staging) (frame : PendingStagingFrame) :
    CaptureProg (Bool × Staging) := do
  if frame.stagingIndex ≥ kStagingTextures then return (false, m)
  if !(← perform (.readStagingTexture frame.stagingIndex)) then return (false, m)
  let r ← ensureBgraBuffers m frame.width frame.height
  if !r.1 then return r
  match ← perform .acquireBgraBuffer with
  | none => return (false, r.2)
  | some bufferIndex =>
      let rowBytes := frame.width * 4
      match ← perform (.map frame.stagingIndex rowBytes) with
      | none =>
          perform (.releaseBgraBuffer bufferIndex)
          return (false, r.2)
      | some mapped =>
          copyMapped bufferIndex mapped rowBytes frame.height
          let bgraFrame : PendingBgraFrame :=
            { bufferIndex
              width := frame.width
              height := frame.height
              presentDisplayQpcTime := frame.presentDisplayQpcTime }
          if !m.hasPublishedFrame then
            let published ← publishBgraFrame bgraFrame
            perform (.releaseBgraBuffer bufferIndex)
            return (published, r.2)
          if !(← perform (.enqueueBgraFrame bgraFrame)) then
            perform (.releaseBgraBuffer bufferIndex)
            return (false, r.2)
          return (true, r.2)

/-- What `CaptureAndPublish` demands of a surface. -/
def Surface.accepted (surface : Surface) : Prop :=
  surface.format = formatB8G8R8A8Unorm ∧ surface.width ≠ 0 ∧ surface.height ≠ 0 ∧
    surface.width ≤ kMaxWidth ∧ surface.height ≤ kMaxHeight ∧ surface.width % 2 = 0 ∧
    surface.height % 2 = 0 ∧ surface.arraySize = 1 ∧ surface.mipLevels = 1 ∧
    surface.sampleCount = 1

instance (surface : Surface) : Decidable surface.accepted := inferInstanceAs (Decidable (_ ∧ _))

/-- `finishFrame` in `fail`. -/
def failFrame (m : Staging) : CaptureProg (Bool × Staging) := do
  let _ ← perform (.call .finishedProcessingFrame)
  return (false, m)

/-- The part of `CaptureAndPublish` that flushes the pending frame when the size of the
surface has changed. -/
def flushResized (m : Staging) (surface : Surface) : CaptureProg (Bool × Staging) := do
  if m.hasPendingStagingFrame &&
      (m.stagingWidth ≠ surface.width || m.stagingHeight ≠ surface.height) then
    let r ← mapAndQueueStagingFrame m m.pendingStagingFrame
    if !r.1 then return r
    return (true, { r.2 with hasPendingStagingFrame := false })
  return (true, m)

/-- The part of `CaptureAndPublish` after the copy. -/
def queueCaptured (m : Staging) (currentFrame : PendingStagingFrame) :
    CaptureProg (Bool × Staging) := do
  if !m.hasPublishedFrame then
    let r ← mapAndQueueStagingFrame m currentFrame
    if !r.1 then return r
    return (true, { r.2 with hasPublishedFrame := true })
  let r ←
    if m.hasPendingStagingFrame then mapAndQueueStagingFrame m m.pendingStagingFrame
    else pure (true, m)
  if !r.1 then return r
  return (true, { r.2 with pendingStagingFrame := currentFrame, hasPendingStagingFrame := true })

def captureAndPublish (m : Staging) (surface : Surface) (presentDisplayQpcTime : Nat) :
    CaptureProg (Bool × Staging) := do
  if !(← ensureFrameRing) then return ← failFrame m
  if !(← perform (.call .queryInterface)) then return ← failFrame m
  if ¬ surface.accepted then return ← failFrame m
  let r ← flushResized m surface
  if !r.1 then return ← failFrame r.2
  let r ← ensureStagingTextures r.2 surface.width surface.height
  if !r.1 then return ← failFrame r.2
  let r ← ensureBgraBuffers r.2 surface.width surface.height
  if !r.1 then return ← failFrame r.2
  let writeIndex := r.2.stagingWriteIndex
  perform (.copyResource writeIndex surface presentDisplayQpcTime)
  if !(← perform (.call .finishedProcessingFrame)) then return (false, r.2)
  queueCaptured { r.2 with stagingWriteIndex := (writeIndex + 1) % kStagingTextures }
    { stagingIndex := writeIndex
      width := surface.width
      height := surface.height
      presentDisplayQpcTime }

/-- The loop of `RunCore`: it ends when it is told to terminate, which is after the last
surface, or when a frame fails. -/
def captureLoop (m : Staging) : List (Surface × Nat) → CaptureProg Staging
  | [] => return m
  | (surface, presentDisplayQpcTime) :: rest => do
      let r ← captureAndPublish m surface presentDisplayQpcTime
      if !r.1 then return r.2
      captureLoop r.2 rest

def stopConversionThread : CaptureProg Unit := do
  perform .setBgraStop
  perform .join

/-- `RunCore`, given the surfaces that the swap chain hands out before it is told to
terminate. -/
def runCore (surfaces : List (Surface × Nat)) : CaptureProg Unit := do
  if !(← perform .startThread) then return
  let m ← captureLoop {} surfaces
  if m.hasPendingStagingFrame then
    let _ ← mapAndQueueStagingFrame m m.pendingStagingFrame
  stopConversionThread
  closeFrameRing

/-! ## The conversion thread -/

/-- One pass of the loop of `ConversionThreadMain`: whether there is another one. -/
def conversionPass : CaptureProg Bool := do
  match ← perform .dequeueBgraFrame with
  | none =>
      perform .endThread
      return false
  | some frame =>
      if !(← publishBgraFrame frame) then
        perform .setBgraFailed
        perform (.releaseBgraBuffer frame.bufferIndex)
        perform .endThread
        return false
      perform (.releaseBgraBuffer frame.bufferIndex)
      return true

end SecondScreen.Capture
