import Mathlib.Logic.Function.Basic
import SecondScreen.Ring.Reader

/-!
# The NVENC pipeline

`EncodeFrame` and `Drain` of `NvencH264Encoder`, with `PollOutput` and `WaitForOutput`.
Both loop for as long as the encoder is busy or an output is not there yet, so the
encoder is a machine that makes one pass of the innermost loop at a time.  What the NVENC
functions and the socket answer is open, and so is when the device signals a completion
event.

The completion events are those that `CreateEventW` makes for them: a wait that succeeds
resets the event.

The row copies into the input buffer and the timing statistics are left out.
-/

namespace SecondScreen.Nvenc

open SecondScreen.Ring

abbrev NvencStatus := UInt32

def kNvencSuccess : NvencStatus := 0
def kNvencLockBusy : NvencStatus := 13
def kNvencNeedMoreInput : NvencStatus := 17
def kNvencEncoderBusy : NvencStatus := 18

abbrev kNvencPipelineSlotCount : Nat := 3

instance : NeZero kNvencPipelineSlotCount := ⟨Nat.succ_ne_zero 2⟩

abbrev SlotIndex := Fin kNvencPipelineSlotCount

/-- `NvencStatusText`. -/
def nvencStatusText (status : NvencStatus) : String :=
  if status = kNvencSuccess then "success"
  else if status = 8 then "invalid parameter"
  else if status = 9 then "invalid call"
  else if status = 10 then "out of memory"
  else if status = 11 then "encoder not initialized"
  else if status = kNvencLockBusy then "lock busy"
  else if status = 12 then "unsupported parameter"
  else if status = 15 then "invalid version"
  else if status = 17 then "need more input"
  else if status = 18 then "encoder busy"
  else if status = 20 then "generic failure"
  else "status " ++ toString status.toNat

/-- `%08X`. -/
def hex8 (n : UInt32) : String :=
  let digits := (Nat.toDigits 16 n.toNat).map Char.toUpper
  String.ofList (List.replicate (8 - digits.length) '0' ++ digits)

/-- What `CheckNvenc` throws. -/
def nvencError (operation : String) (status : NvencStatus) : String :=
  operation ++ " failed (0x" ++ hex8 status ++ ": " ++ nvencStatusText status ++ ")"

structure FrameMetadata where
  frameId : Nat := 0
  timestampUs : Nat := 0
deriving DecidableEq, Repr

/-- What `encodePicture` is given to encode: the pixels in the input buffer, and how. -/
structure Picture where
  input : Option CapturedFrame
  frameIdx : UInt32
  inputTimeStamp : Nat
  forceIdr : Bool
deriving DecidableEq, Repr

/-- `PipelineSlot`: whose pixels are in the input buffer, whose access unit is in the
bitstream buffer or will be, and whether the completion event is signalled. -/
structure PipelineSlot where
  inputBuffer : Option CapturedFrame := none
  bitstreamBuffer : Option Picture := none
  completionEvent : Bool := false
  metadata : FrameMetadata := {}
  submitted : Bool := false
deriving DecidableEq, Repr

structure NvencH264Encoder where
  slots : SlotIndex → PipelineSlot := fun _ ↦ {}
  pendingSlots : List SlotIndex := []
  nextSlot : SlotIndex := 0
  readyOutputs : Nat := 0

/-- What `SendAnnexB` is called with. -/
structure Packet where
  frameId : Nat
  timestampUs : Nat
  bitstream : Option Picture
deriving DecidableEq, Repr

inductive OutputPollResult
  | notReady
  | sent
  | failed
deriving DecidableEq, Repr

/-- What one `PollOutput` is answered. -/
structure PollAnswer where
  /-- The error of `WaitForSingleObject`, if it fails. -/
  waitFailed : Option String := none
  lockBitstream : NvencStatus := kNvencSuccess
  sendAnnexB : Except String Bool := .ok true
  unlockBitstream : NvencStatus := kNvencSuccess

namespace NvencH264Encoder

/-- Replace one slot. -/
def setSlot (e : NvencH264Encoder) (i : SlotIndex) (s : PipelineSlot) : NvencH264Encoder :=
  { e with slots := Function.update e.slots i s }

/-- The packet of a slot. -/
def packet (e : NvencH264Encoder) (i : SlotIndex) : Packet where
  frameId := (e.slots i).metadata.frameId
  timestampUs := (e.slots i).metadata.timestampUs
  bitstream := (e.slots i).bitstreamBuffer

/-- `PollOutput`: what it returns or throws, the encoder after it, and what it has given
to `SendAnnexB`; `none` while it waits. -/
def pollOutput (wait : Bool) (a : PollAnswer) (e : NvencH264Encoder) :
    Option (Except String OutputPollResult × NvencH264Encoder × List Packet) :=
  match e.pendingSlots with
  | [] => some (.ok .notReady, e, [])
  | slotIndex :: pendingSlots =>
      if e.readyOutputs = 0 then some (.ok .notReady, e, [])
      else
        match a.waitFailed with
        | some error => some (.error error, e, [])
        | none =>
            let slot := e.slots slotIndex
            if slot.completionEvent = false then
              if wait then none else some (.ok .notReady, e, [])
            else
              let waited := e.setSlot slotIndex { slot with completionEvent := false }
              if a.lockBitstream = kNvencLockBusy then some (.ok .notReady, waited, [])
              else if a.lockBitstream ≠ kNvencSuccess then
                some (.error (nvencError "NvEncLockBitstream" a.lockBitstream), waited, [])
              else
                match a.sendAnnexB with
                | .error error => some (.error error, waited, [e.packet slotIndex])
                | .ok sent =>
                    if a.unlockBitstream ≠ kNvencSuccess then
                      some (.error (nvencError "NvEncUnlockBitstream" a.unlockBitstream), waited,
                        [e.packet slotIndex])
                    else
                      some (.ok (if sent then .sent else .failed),
                        { e.setSlot slotIndex
                            { slot with completionEvent := false, submitted := false } with
                          -- the counter is a `size_t`
                          readyOutputs := (e.readyOutputs + 2 ^ 64 - 1) % 2 ^ 64
                          pendingSlots },
                        [e.packet slotIndex])

end NvencH264Encoder

/-! ## The machine -/

/-- Where the encoder is: between two calls, or at the head of a loop. -/
inductive Point
  | /-- Between two calls, the last of which has returned this. -/
    idle (returned : Option Bool)
  | /-- `EncodeFrame`, `while (pendingSlots_.size() >= kNvencPipelineSlotCount)`. -/
    makeRoom (frame : CapturedFrame) (frameIndex : Nat)
  | /-- `WaitForOutput`, called there. -/
    waitForOutput (frame : CapturedFrame) (frameIndex : Nat)
  | /-- `while (encodeStatus == kNvencEncoderBusy)`. -/
    encode (frame : CapturedFrame) (frameIndex : Nat) (slotIndex : SlotIndex)
  | /-- The `PollOutput` in that loop. -/
    busy (frame : CapturedFrame) (frameIndex : Nat) (slotIndex : SlotIndex)
  | /-- The loop at the end of `EncodeFrame`. -/
    retire
  | /-- `Drain`. -/
    drain
  | threw (error : String)
deriving DecidableEq

/-- The encoder, and beside it a record of what has happened. -/
structure Pipeline where
  encoder : NvencH264Encoder := {}
  point : Point := .idle none
  /-- The frames that `EncodeFrame` has submitted, with the pictures that `encodePicture`
  has accepted for them. -/
  submitted : List (CapturedFrame × Picture) := []
  /-- What `SendAnnexB` was called with. -/
  packets : List Packet := []
  /-- What `encodePicture` has answered, unless it was busy. -/
  statuses : List NvencStatus := []
  /-- The slots whose picture was pending at the last `kNvencSuccess`. -/
  due : SlotIndex → Bool := fun _ ↦ false
  /-- The slots whose picture is complete. -/
  completed : SlotIndex → Bool := fun _ ↦ false

/-- What one pass of a loop is answered. -/
structure Answer where
  lockInput : NvencStatus := kNvencSuccess
  /-- The pitch of the input buffer, if it is mapped. -/
  pitch : Option Nat := some (2 ^ 32 - 1)
  unlockInput : NvencStatus := kNvencSuccess
  encodePicture : NvencStatus := kNvencSuccess
  poll : PollAnswer := {}

inductive Move
  | encodeFrame (frame : CapturedFrame) (frameIndex : Nat)
  | drain
  | /-- The device signals the completion event of a slot. -/
    complete (i : SlotIndex)
  | step (a : Answer)

/-- The picture that `EncodeFrame` submits. -/
def picture (fps : Nat) (slot : PipelineSlot) (frameIndex : Nat) : Picture where
  input := slot.inputBuffer
  frameIdx := .ofNat frameIndex
  inputTimeStamp := frameIndex * 10000000 % 2 ^ 64 / fps
  forceIdr := frameIndex % max 1 (fps / 4) = 0

namespace Pipeline

/-- A pass that ends in `PollOutput`. -/
def polled (p : Pipeline) (wait : Bool) (a : PollAnswer) (next : OutputPollResult → Point) :
    Option Pipeline :=
  (p.encoder.pollOutput wait a).map fun
    | (.ok result, encoder, packets) =>
        { p with encoder, packets := p.packets ++ packets, point := next result }
    | (.error error, encoder, packets) =>
        { p with encoder, packets := p.packets ++ packets, point := .threw error }

/-- The part of `EncodeFrame` that fills the input buffer of the next slot. -/
def fill (p : Pipeline) (frame : CapturedFrame) (frameIndex : Nat) (a : Answer) : Pipeline :=
  let slotIndex := p.encoder.nextSlot
  if a.lockInput ≠ kNvencSuccess then
    { p with point := .threw (nvencError "NvEncLockInputBuffer" a.lockInput) }
  else if a.pitch.all (· < frame.width) then
    { p with point := .threw "NvEncLockInputBuffer returned invalid pitch" }
  else
    let p := { p with
      encoder := p.encoder.setSlot slotIndex
        { p.encoder.slots slotIndex with inputBuffer := some frame } }
    if a.unlockInput ≠ kNvencSuccess then
      { p with point := .threw (nvencError "NvEncUnlockInputBuffer" a.unlockInput) }
    else { p with point := .encode frame frameIndex slotIndex }

/-- What `EncodeFrame` does with a picture that was accepted. -/
def accept (fps : Nat) (p : Pipeline) (frame : CapturedFrame) (frameIndex : Nat)
    (slotIndex : SlotIndex) (status : NvencStatus) : Pipeline :=
  let slot := p.encoder.slots slotIndex
  let e := p.encoder.setSlot slotIndex
    { slot with
      bitstreamBuffer := some (picture fps slot frameIndex)
      metadata := { frameId := frame.frameId, timestampUs := frame.captureTimestampUs }
      submitted := true }
  let pendingSlots := e.pendingSlots ++ [slotIndex]
  { p with
    encoder :=
      { e with
        pendingSlots
        nextSlot := slotIndex + 1
        readyOutputs :=
          if status = kNvencNeedMoreInput then e.readyOutputs
          else (e.readyOutputs + 1) % 2 ^ 64 }
    point := if status = kNvencNeedMoreInput then .idle (some true) else .retire
    submitted := p.submitted ++ [(frame, picture fps slot frameIndex)]
    statuses := p.statuses ++ [status]
    due :=
      if status = kNvencNeedMoreInput then Function.update p.due slotIndex false
      else fun i ↦ pendingSlots.contains i
    completed := Function.update p.completed slotIndex false }

def next (fps : Nat) (p : Pipeline) : Move → Option Pipeline
  | .encodeFrame frame frameIndex =>
      match p.point with
      | .idle _ => some { p with point := .makeRoom frame frameIndex }
      | _ => none
  | .drain =>
      match p.point with
      | .idle _ => some { p with point := .drain }
      | _ => none
  | .complete i =>
      some { p with
        encoder := p.encoder.setSlot i { p.encoder.slots i with completionEvent := true }
        completed := Function.update p.completed i true }
  | .step a =>
      match p.point with
      | .idle _ | .threw _ => none
      | .makeRoom frame frameIndex =>
          if kNvencPipelineSlotCount ≤ p.encoder.pendingSlots.length then
            some { p with point := .waitForOutput frame frameIndex }
          else some (p.fill frame frameIndex a)
      | .waitForOutput frame frameIndex =>
          if p.encoder.pendingSlots = [] then some { p with point := .makeRoom frame frameIndex }
          else
            p.polled true a.poll fun
              | .notReady => .waitForOutput frame frameIndex
              | .sent => .makeRoom frame frameIndex
              | .failed => .idle (some false)
      | .encode frame frameIndex slotIndex =>
          if a.encodePicture = kNvencEncoderBusy then
            some { p with point := .busy frame frameIndex slotIndex }
          else if a.encodePicture ≠ kNvencSuccess ∧ a.encodePicture ≠ kNvencNeedMoreInput then
            some { p with point := .threw (nvencError "NvEncEncodePicture" a.encodePicture) }
          else some (p.accept fps frame frameIndex slotIndex a.encodePicture)
      | .busy frame frameIndex slotIndex =>
          p.polled false a.poll fun
            | .notReady | .sent => .encode frame frameIndex slotIndex
            | .failed => .idle (some false)
      | .retire =>
          p.polled false a.poll fun
            | .notReady => .idle (some true)
            | .sent => .retire
            | .failed => .idle (some false)
      | .drain =>
          if p.encoder.pendingSlots = [] then some { p with point := .idle (some true) }
          else
            p.polled true a.poll fun
              | .notReady | .sent => .drain
              | .failed => .idle (some false)

end Pipeline

end SecondScreen.Nvenc
