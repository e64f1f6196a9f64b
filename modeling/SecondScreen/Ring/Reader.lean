import SecondScreen.Ring.Layout

/-!
# The consumer: `FrameRingReader`

The host's side of the frame ring, from `main.cpp`: `TryReadLatest` with the
passes it makes over the slots, and `BeginClient`.
-/

namespace SecondScreen.Ring

open SecondScreen.Conc

/-- `CapturedFrame`; the pointer and the length of `nv12` are a list of bytes. -/
structure CapturedFrame where
  nv12 : List UInt8 := []
  width : Nat := 0
  height : Nat := 0
  stride : Nat := 0
  frameId : Nat := 0
  captureTimestampUs : Nat := 0
deriving DecidableEq, Repr

/-- The private fields of `FrameRingReader`. -/
structure FrameRingReader where
  payload : List UInt8 := []
  error : String := ""
  terminal : Bool := false
  hasCachedFrame : Bool := false
  replayCachedFrame : Bool := false
  cachedWidth : Nat := 0
  cachedHeight : Nat := 0
  cachedStride : Nat := 0
  cachedFrameId : Nat := 0
  cachedCaptureTimestampUs : Nat := 0
  framesRead : Nat := 0
  framesSkipped : Nat := 0
  lastConsumedFrameId : Nat := 0
deriving DecidableEq, Repr

namespace FrameRingReader

/-- `BeginClient`. -/
def beginClient (r : FrameRingReader) (width height : Nat) : FrameRingReader :=
  { r with
    replayCachedFrame :=
      r.hasCachedFrame && r.cachedWidth == width && r.cachedHeight == height
    framesRead := 0
    framesSkipped := 0
    lastConsumedFrameId := 0 }

/-- `SetError`. -/
def setError (r : FrameRingReader) (error : String) : FrameRingReader :=
  { r with error := error, terminal := true }

/-- `SetCachedFrame`. -/
def cachedFrame (r : FrameRingReader) : CapturedFrame where
  nv12 := r.payload
  width := r.cachedWidth
  height := r.cachedHeight
  stride := r.cachedStride
  frameId := r.cachedFrameId
  captureTimestampUs := r.cachedCaptureTimestampUs

end FrameRingReader

/-- How a `TryReadLatest` call ends: the source returns `true` in the last case
only. -/
inductive Outcome
  | invalidHeader
  | noFrame
  | corruptSlot
  | frame (output : CapturedFrame)
deriving DecidableEq, Repr

/-- The header fields in the order in which they are compared. -/
def headerOrder : List HeaderField :=
  [.magic, .version, .headerSize, .slotSize, .slotCount, .maxWidth, .maxHeight, .ready]

/-- `IsValidFrameRingHeader`. -/
def isValidFrameRingHeader : List HeaderField → RingProg Bool
  | [] => return true
  | f :: rest => do
      if (← readHeader f) = headerValue f then isValidFrameRingHeader rest
      else return false

/-- The first pass: the ready slot with the greatest sequence, with that
sequence. -/
def scanNewest : List Slot → Option (Slot × Nat) → RingProg (Option (Slot × Nat))
  | [], newest => return newest
  | index :: rest, newest => do
      if (← readState index) = .ready then
        match newest with
        | none => scanNewest rest (some (index, ← readField index .sequence))
        | some (_, newestSequence) =>
            if (← readField index .sequence) > newestSequence then
              scanNewest rest (some (index, ← readField index .sequence))
            else scanNewest rest newest
      else scanNewest rest newest

/-- `ClaimReady`. -/
def claimReady (slot : Slot) : RingProg Bool := do
  return (← compareExchange slot .reading .ready) = .ready

/-- `FreeSlot`. -/
def freeSlot (slot : Slot) : RingProg Unit := exchange slot .free

/-- The second pass: whether some other ready slot is newer than the selected
one. -/
def newerReadySlot (selected : Slot) : List Slot → RingProg Bool
  | [] => return false
  | index :: rest => do
      if index = selected then newerReadySlot selected rest
      else if (← readState index) = .ready then
        if (← readField index .sequence) > (← readField selected .sequence) then return true
        else newerReadySlot selected rest
      else newerReadySlot selected rest

/-- The third pass: free the other ready slots that are older than the selected
one. -/
def purgeOlder (selected : Slot) : List Slot → RingProg Unit
  | [] => return ()
  | index :: rest => do
      if index = selected then purgeOlder selected rest
      else if (← readState index) = .ready then
        if (← readField index .sequence) < (← readField selected .sequence) then
          let _ ← compareExchange index .free .ready
          purgeOlder selected rest
        else purgeOlder selected rest
      else purgeOlder selected rest

/-- The size checks of `IsValidSlot`. -/
def validSize (width height stride : Nat) : Bool :=
  width ≠ 0 && height ≠ 0 && width % 2 == 0 && height % 2 == 0 && width ≤ kMaxWidth &&
    height ≤ kMaxHeight && width ≤ stride && stride ≤ kMaxStride

/-- The payload length that the size of a picture entails. -/
def expectedBytes (height stride : Nat) : Nat := stride * height + stride * (height / 2)

/-- `IsValidSlot`: the payload length of a valid slot. -/
def isValidSlot (slot : Slot) : RingProg (Option Nat) := do
  let width ← readField slot .width
  let height ← readField slot .height
  let stride ← readField slot .stride
  if (← readField slot .sequence) = 0 then return none
  else if (← readField slot .frameId) = 0 then return none
  else if (← readField slot .captureTimestampUs) = 0 then return none
  else if validSize width height stride = false then return none
  else if expectedBytes height stride > kMaxPayloadBytes then return none
  else if (← readField slot .payloadLength) ≠ expectedBytes height stride then return none
  else return some (expectedBytes height stride)

/-- Copy `count` payload bytes from offset `n`. -/
def readPayload (slot : Slot) : (count n : Nat) → RingProg (List UInt8)
  | 0, _ => return []
  | count + 1, n => do
      let byte ← readByte slot n
      return byte :: (← readPayload slot count (n + 1))

/-- What the selected frame adds to `framesSkipped_`. -/
def skippedBefore (lastConsumedFrameId : Nat) (slot : Slot) : RingProg Nat := do
  if lastConsumedFrameId = 0 then return 0
  else if (← readField slot .frameId) > lastConsumedFrameId + 1 then
    return (← readField slot .frameId) - lastConsumedFrameId - 1
  else return 0

/-- The end of a successful `TryReadLatest`. -/
def consumeSlot (r : FrameRingReader) (selected : Slot) (payloadLength : Nat) :
    RingProg (Outcome × FrameRingReader) := do
  let payload ← readPayload selected payloadLength 0
  let width ← readField selected .width
  let height ← readField selected .height
  let stride ← readField selected .stride
  let frameId ← readField selected .frameId
  let captureTimestampUs ← readField selected .captureTimestampUs
  let skipped ← skippedBefore r.lastConsumedFrameId selected
  let lastConsumedFrameId ← readField selected .frameId
  let r' : FrameRingReader :=
    { r with
      payload := payload
      cachedWidth := width
      cachedHeight := height
      cachedStride := stride
      cachedFrameId := frameId
      cachedCaptureTimestampUs := captureTimestampUs
      hasCachedFrame := true
      framesSkipped := r.framesSkipped + skipped
      lastConsumedFrameId := lastConsumedFrameId
      framesRead := r.framesRead + 1 }
  freeSlot selected
  return (.frame r'.cachedFrame, r')

/-- What happens to the selected slot once no newer one was seen. -/
def readSelected (r : FrameRingReader) (selected : Slot) :
    RingProg (Outcome × FrameRingReader) := do
  purgeOlder selected slotIndices
  match ← isValidSlot selected with
  | none =>
      freeSlot selected
      return (.corruptSlot, r)
  | some payloadLength => consumeSlot r selected payloadLength

/-- The attempts of `TryReadLatest`. -/
def readAttempts (r : FrameRingReader) : Nat → RingProg (Outcome × FrameRingReader)
  | 0 => return (.noFrame, r)
  | attempts + 1 => do
      match ← scanNewest slotIndices none with
      | none => return (.noFrame, r)
      | some (selected, _) =>
          if ← claimReady selected then
            if ← newerReadySlot selected slotIndices then
              freeSlot selected
              readAttempts r attempts
            else readSelected r selected
          else readAttempts r attempts

/-- `TryReadLatest`. -/
def tryReadLatest (r : FrameRingReader) : RingProg (Outcome × FrameRingReader) := do
  if ← isValidFrameRingHeader headerOrder then readAttempts r (kSlotCount * 2)
  else return (.invalidHeader, r.setError "FrameRing header validation failed")

end SecondScreen.Ring
