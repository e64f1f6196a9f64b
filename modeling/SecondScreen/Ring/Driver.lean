import SecondScreen.Nv12.Scalar
import SecondScreen.Ring.Layout

/-!
# The producer: `ClaimFrameSlot` and `PublishBgraFrame`

The driver's side of the frame ring, from `Driver.cpp`.  A `SwapChainProcessor`
owns the two counters that number the frames it publishes; both start at one and
live only as long as the processor.

The converters store each byte of the picture, so the conversion is a loop of
byte stores; it runs through the addresses in increasing order, where the
converters go block by block.  Which bytes they are is `Nv12.nv12Byte` (see
`SecondScreen.Nv12.Convert`).
-/

namespace SecondScreen.Ring

open SecondScreen.Conc SecondScreen.Machine SecondScreen.Nv12

/-! ## Clock -/

/-- `QpcToMicroseconds`.  `frequency` is what `QueryPerformanceFrequency` gives,
if it succeeds; all arithmetic is modulo `2 ^ 64`. -/
def qpcToMicroseconds (frequency : Option Int) (qpc : Nat) : Nat :=
  match frequency with
  | none => 0
  | some f =>
      if qpc = 0 ∨ f ≤ 0 then 0
      else
        let ticksPerSecond := f.toNat
        let seconds := qpc / ticksPerSecond
        let remainder := qpc % ticksPerSecond
        if seconds > uint64Max / 1000000 then uint64Max
        else (seconds * 1000000 + remainder * 1000000 % 2 ^ 64 / ticksPerSecond) % 2 ^ 64

/-- `QpcDeltaToMicroseconds`. -/
def qpcDeltaToMicroseconds (frequency : Option Int) (start stop : Nat) : Nat :=
  if start = 0 ∨ stop ≤ start then 0
  else (qpcToMicroseconds frequency stop + 2 ^ 64 - qpcToMicroseconds frequency start) % 2 ^ 64

/-! ## Inputs -/

/-- A picture size that `CaptureAndPublish` lets through. -/
structure Geometry (width height : Nat) : Prop where
  width_pos : 0 < width
  height_pos : 0 < height
  width_even : width % 2 = 0
  height_even : height % 2 = 0
  width_le : width ≤ kMaxWidth
  height_le : height ≤ kMaxHeight

/-- `PendingBgraFrame`, as `CaptureAndPublish` builds it. -/
structure PendingBgraFrame where
  bufferIndex : Nat
  width : Nat
  height : Nat
  presentDisplayQpcTime : Nat
  copyDurationUs : Nat
  mapDurationUs : Nat
  geometry : Geometry width height

/-- The rest of what one `PublishBgraFrame` call reads. -/
structure PublishEnv where
  /-- `m_BgraBuffers`. -/
  bgraBuffers : Fin 3 → Option Bytes
  /-- Whether `m_FrameRing` is not null. -/
  mapped : Bool
  frequency : Option Int
  /-- What `QueryPerformanceCounter` gives, if it succeeds. -/
  nowQpc : Option Nat
  convertStartQpc : Nat
  convertEndQpc : Nat
  /-- Whether `SetEvent(m_FrameReadyEvent)` succeeds. -/
  setEvent : Bool

/-- `m_BgraBuffers[frame.bufferIndex]`, unless the index is out of range or the
buffer is null. -/
def PublishEnv.buffer (env : PublishEnv) (frame : PendingBgraFrame) : Option Bytes :=
  if h : frame.bufferIndex < 3 then env.bgraBuffers ⟨frame.bufferIndex, h⟩ else none

/-- The timestamp of a frame: its present time, or the time of the call. -/
def PublishEnv.timestampUs (env : PublishEnv) (frame : PendingBgraFrame) : Nat :=
  let captureTimestampUs := qpcToMicroseconds env.frequency frame.presentDisplayQpcTime
  if captureTimestampUs = 0 then
    match env.nowQpc with
    | some qpc => qpcToMicroseconds env.frequency qpc
    | none => 0
  else captureTimestampUs

/-- The counters of a `SwapChainProcessor`. -/
structure SwapChainProcessor where
  nextFrameId : Nat := 1
  nextSequence : Nat := 1
deriving DecidableEq, Repr

/-- The counters after one more published frame. -/
def SwapChainProcessor.bump (m : SwapChainProcessor) : SwapChainProcessor :=
  { nextFrameId := m.nextFrameId + 1, nextSequence := m.nextSequence + 1 }

/-! ## `ClaimFrameSlot` -/

/-- The first pass of an attempt: take a free slot. -/
def claimFree : List Slot → RingProg (Option Slot)
  | [] => return none
  | index :: rest => do
      if (← compareExchange index .writing .free) = .free then return some index
      else claimFree rest

/-- The second pass of an attempt: look for the ready slot with the smallest
sequence. -/
def findOldest : List Slot → Option Slot → Nat → RingProg (Option Slot)
  | [], oldestIndex, _ => return oldestIndex
  | index :: rest, oldestIndex, oldestSequence => do
      if (← readState index) = .ready then
        if (← readField index .sequence) < oldestSequence then
          findOldest rest (some index) (← readField index .sequence)
        else findOldest rest oldestIndex oldestSequence
      else findOldest rest oldestIndex oldestSequence

/-- Attempts to claim a slot. -/
def claimAttempts : Nat → RingProg (Option Slot)
  | 0 => return none
  | attempts + 1 => do
      match ← claimFree slotIndices with
      | some slot => return some slot
      | none =>
          match ← findOldest slotIndices none uint64Max with
          | some oldestIndex =>
              if (← compareExchange oldestIndex .writing .ready) = .ready then
                return some oldestIndex
              else claimAttempts attempts
          | none => claimAttempts attempts

/-- `ClaimFrameSlot`; `none` is the null pointer. -/
def claimFrameSlot : RingProg (Option Slot) := claimAttempts (kSlotCount + 1)

/-! ## `PublishBgraFrame` -/

/-- The values of the plain fields of a published slot. -/
def slotFields (m : SwapChainProcessor) (frame : PendingBgraFrame) (timestampUs : Nat) :
    SlotField → Nat
  | .sequence => m.nextSequence
  | .frameId => m.nextFrameId
  | .captureTimestampUs => timestampUs
  | .width => frame.width
  | .height => frame.height
  | .stride => frame.width
  | .payloadLength => frame.width * frame.height * 3 / 2

/-- The order in which the fields are written. -/
def fieldOrder : List SlotField :=
  [.sequence, .frameId, .captureTimestampUs, .width, .height, .stride, .payloadLength]

/-- Write the given fields in order. -/
def writeFields (slot : Slot) (value : SlotField → Nat) : List SlotField → RingProg Unit
  | [] => return ()
  | f :: rest => do
      writeField slot f (value f)
      writeFields slot value rest

/-- Store `count` payload bytes from offset `n`. -/
def writePayload (slot : Slot) (bytes : Bytes) : (count n : Nat) → RingProg Unit
  | 0, _ => return ()
  | count + 1, n => do
      writeByte slot n (bytes n)
      writePayload slot bytes count (n + 1)

/-- The accounting at the end of a conversion. -/
def addTelemetryTotals (frame : PendingBgraFrame) (env : PublishEnv) : RingProg Unit := do
  addTelemetry .copyTotalUs frame.copyDurationUs
  addTelemetry .mapTotalUs frame.mapDurationUs
  addTelemetry .convertTotalUs
    (qpcDeltaToMicroseconds env.frequency env.convertStartQpc env.convertEndQpc)
  addTelemetry .framesPublished 1

/-- The bytes that the converter stores. -/
def pictureBytes (source : Bytes) (frame : PendingBgraFrame) : Bytes :=
  nv12Byte source (4 * frame.width) frame.width frame.height

/-- `PublishBgraFrame`: whether it succeeded, and the processor's counters after
it. -/
def publishBgraFrame (m : SwapChainProcessor) (frame : PendingBgraFrame) (env : PublishEnv) :
    RingProg (Bool × SwapChainProcessor) :=
  match env.buffer frame, env.mapped with
  | some source, true => do
      match ← claimFrameSlot with
      | none => return (false, m)
      | some slot =>
          let timestampUs := env.timestampUs frame
          if timestampUs = 0 then
            exchange slot .free
            return (false, m)
          else
            writeFields slot (slotFields m frame timestampUs) fieldOrder
            writePayload slot (pictureBytes source frame)
              (slotFields m frame timestampUs .payloadLength) 0
            addTelemetryTotals frame env
            exchange slot .ready
            if env.setEvent then return (true, m.bump)
            else
              exchange slot .free
              return (false, m.bump)
  | _, _ => return (false, m)

end SecondScreen.Ring
