import SecondScreen.Nvenc.Encoder

/-!
# The Media Foundation path

`EncodeFrameOnce` and `Drain` of `H264Encoder` without NVENC, with `WaitForInput`,
`DrainAvailableEvents`, `ProcessAsyncEvent` and `PumpOutput`.  Their loops go on for as long as
the transform has events or output, so the encoder is a machine that makes one pass of
the innermost loop at a time.

What the transform answers is open.  It holds the samples that it has accepted, and a
`ProcessOutput` that succeeds gives the output of the first of them.
-/

namespace SecondScreen.MediaFoundation

open SecondScreen.Ring

abbrev HRESULT := UInt32

/-- `FAILED`. -/
def failed (hr : HRESULT) : Bool := 0x80000000 ≤ hr

def S_OK : HRESULT := 0
def MF_E_NOTACCEPTING : HRESULT := 0xC00D36B5
def MF_E_TRANSFORM_STREAM_CHANGE : HRESULT := 0xC00D6D61
def MF_E_TRANSFORM_NEED_MORE_INPUT : HRESULT := 0xC00D6D72

/-- What `ThrowHr` throws; `hresultText` is what the system calls the error. -/
def hrError (hresultText : HRESULT → String) (operation : String) (hr : HRESULT) : String :=
  operation ++ " failed (0x" ++ Nvenc.hex8 hr ++ "): " ++ hresultText hr

/-- `StreamConfig`, and what `ConfigureTransform` has found out about the transform. -/
structure Config where
  width : Nat
  height : Nat
  fps : Nat
  async : Bool
  hresultText : HRESULT → String := fun _ ↦ "unknown error"

structure FrameMetadata where
  frameId : Nat
  timestampUs : Nat
deriving DecidableEq, Repr

/-- An input sample, with the frame that its buffer was filled from. -/
structure Sample where
  frame : CapturedFrame
  sampleTime : Nat
  sampleDuration : Nat
deriving DecidableEq, Repr

def Sample.metadata (sample : Sample) : FrameMetadata where
  frameId := sample.frame.frameId
  timestampUs := sample.frame.captureTimestampUs

/-- The fields of `H264Encoder`. -/
structure H264Encoder where
  pendingFrames : List FrameMetadata := []
  outputBufferSize : UInt32 := 0
  encodedFrameCount : Nat := 0
  drainComplete : Bool := false
  pendingInputRequests : UInt32 := 0
deriving DecidableEq, Repr

/-! ## What is asked of the transform -/

/-- A type that `GetOutputAvailableType` offers. -/
structure OfferedType where
  /-- It is H.264 video. -/
  h264 : Bool
  /-- `MFGetAttributeSize`, if it succeeds. -/
  frameSize : Option (Nat × Nat)
  /-- `SetOutputType` succeeds. -/
  accepted : Bool
  /-- `GetOutputStreamInfo` after that: `cbSize`. -/
  streamInfo : Except HRESULT UInt32

/-- What `SendSample` is answered. -/
structure SendAnswer where
  convertToContiguousBuffer : HRESULT := S_OK
  lock : HRESULT := S_OK
  sendAnnexB : Bool := true
  unlock : HRESULT := S_OK

/-- What one pass of `PumpOutput` is answered. -/
structure OutputAnswer where
  getOutputStreamInfo : HRESULT := S_OK
  /-- The transform provides the samples itself. -/
  provideSample : Bool := false
  createMemoryBuffer : HRESULT := S_OK
  createSample : HRESULT := S_OK
  addBuffer : HRESULT := S_OK
  processOutput : HRESULT := S_OK
  /-- `pSample` is not null after `ProcessOutput`. -/
  provided : Bool := true
  /-- The types that the transform offers after a stream change, up to an error. -/
  offered : List (Except HRESULT OfferedType) := []
  nowMicros : Nat := 0
  sendSample : SendAnswer := {}

inductive MediaEventType
  | unknown
  | needInput
  | haveOutput
  | drainComplete

/-- What one pass of `ProcessAsyncEvent` is answered. -/
inductive EventAnswer
  | /-- `MF_E_NO_EVENTS_AVAILABLE`. -/
    noEvents
  | /-- `GetEvent` fails otherwise. -/
    getEvent (hr : HRESULT)
  | event (getStatus eventStatus getType : HRESULT) (eventType : MediaEventType)

/-- What one pass of a loop is answered. -/
structure Answer where
  processInput : HRESULT := S_OK
  output : OutputAnswer := {}
  event : EventAnswer := .noEvents

/-! ## `RenegotiateOutputType` and `SendSample` -/

section Parts

variable (c : Config)

def checkHr (operation : String) (hr : HRESULT) : Except String Unit :=
  if failed hr then .error (hrError c.hresultText operation hr) else .ok ()

/-- `RenegotiateOutputType`: the new `outputBufferSize_`. -/
def renegotiateOutputType : List (Except HRESULT OfferedType) → Except String UInt32
  | [] => .error "H.264 encoder offered no usable H.264 output type after stream change"
  | .error hr :: _ =>
      .error (hrError c.hresultText
        "H.264 encoder GetOutputAvailableType after stream change" hr)
  | .ok outputType :: types =>
      if outputType.h264 = false then renegotiateOutputType types
      else if outputType.frameSize.any (· ≠ (c.width, c.height)) then renegotiateOutputType types
      else if outputType.accepted then
        match outputType.streamInfo with
        | .error hr =>
            .error (hrError c.hresultText
              "H.264 encoder GetOutputStreamInfo after stream change" hr)
        | .ok cbSize => .ok (max cbSize (UInt32.ofNat (c.width * c.height)))
      else renegotiateOutputType types

/-- `SendSample`: whether it has called `SendAnnexB`, and what it returns or throws. -/
def sendSample (a : SendAnswer) : Bool × Except String Bool :=
  match checkHr c "convert H.264 output to contiguous buffer" a.convertToContiguousBuffer with
  | .error error => (false, .error error)
  | .ok () =>
      match checkHr c "lock H.264 output buffer" a.lock with
      | .error error => (false, .error error)
      | .ok () =>
          (true, (checkHr c "unlock H.264 output buffer" a.unlock).map fun () ↦ a.sendAnnexB)

/-- What `PumpOutput` does before `ProcessOutput`. -/
def prepareOutput (a : OutputAnswer) : Except String Unit := do
  checkHr c "H.264 encoder GetOutputStreamInfo" a.getOutputStreamInfo
  if a.provideSample then pure ()
  else
    checkHr c "MFCreateMemoryBuffer(encoder output)" a.createMemoryBuffer
    checkHr c "MFCreateSample(encoder output)" a.createSample
    checkHr c "attach encoder output buffer" a.addBuffer

/-- The checks at the beginning of `EncodeFrameOnce`; a frame without bytes is one whose
pointer is null. -/
def checkFrame (frame : CapturedFrame) : Except String Unit :=
  if frame.nv12 = [] ∨ frame.width ≠ c.width ∨ frame.height ≠ c.height ∨
      frame.stride < frame.width ∨ frame.width % 2 ≠ 0 ∨ frame.height % 2 ≠ 0 then
    .error "FrameRing frame geometry does not match encoder configuration"
  else
    let sourceYBytes := frame.stride * frame.height
    let sourceBytes := sourceYBytes + frame.stride * (frame.height / 2)
    if frame.nv12.length ≠ sourceBytes then
      .error "FrameRing frame payload length changed after validation"
    else .ok ()

end Parts

/-! ## The machine -/

/-- The loops that call `ProcessAsyncEvent`. -/
inductive EventLoop
  | /-- `WaitForInput`. -/
    waitForInput (sample : Sample)
  | /-- `DrainAvailableEvents`. -/
    available
  | /-- `while (!drainComplete_)`. -/
    draining
deriving DecidableEq

/-- The places from which `PumpOutput` is called. -/
inductive PumpCall
  | /-- `EncodeFrameOnce`, before it repeats `ProcessInput`. -/
    refused (sample : Sample)
  | /-- `return PumpOutput(writer)`. -/
    last
  | /-- `ProcessAsyncEvent`. -/
    haveOutput (loop : EventLoop)
deriving DecidableEq

/-- Where the encoder is: between two calls, before a `ProcessInput`, or at the head of a loop. -/
inductive Point
  | /-- Between two calls, the last of which has returned this. -/
    idle (returned : Option Bool)
  | submit (sample : Sample)
  | /-- The second `ProcessInput` of `EncodeFrameOnce`. -/
    submitAgain (sample : Sample)
  | events (loop : EventLoop)
  | pump (call : PumpCall)
  | threw (error : String)
deriving DecidableEq

/-- What `SendAnnexB` was called with, whose output it was, and whether the metadata are
the fallback. -/
structure Sent where
  sample : Sample
  metadata : FrameMetadata
  fallback : Bool
deriving DecidableEq, Repr

/-- The encoder and the transform, and beside them a record of what has happened. -/
structure Pipeline where
  encoder : H264Encoder := {}
  point : Point := .idle none
  /-- What the transform has accepted and not yet put out. -/
  inside : List Sample := []
  /-- All that it has accepted. -/
  accepted : List Sample := []
  sends : List Sent := []
deriving DecidableEq

inductive Move
  | /-- The call, and whether the input sample can be made. -/
    encodeFrameOnce (frame : CapturedFrame) (inputSample : Except String Unit)
  | /-- The call, and `MFT_MESSAGE_COMMAND_DRAIN`. -/
    drain (command : HRESULT)
  | step (a : Answer)

/-- Where the machine goes on when `PumpOutput` returns true. -/
def PumpCall.return : PumpCall → Point
  | .refused sample => .submitAgain sample
  | .last => .idle (some true)
  | .haveOutput loop => .events loop

namespace Pipeline

variable (c : Config) (p : Pipeline)

/-- `EncodeFrameOnce`, up to the first `WaitForInput` or `ProcessInput`. -/
def encodeFrameOnce (frame : CapturedFrame) (inputSample : Except String Unit) : Pipeline :=
  match checkFrame c frame with
  | .error error => { p with point := .threw error }
  | .ok () =>
      match inputSample with
      | .error error => { p with point := .threw error }
      | .ok () =>
          let sample : Sample :=
            { frame
              sampleTime := p.encoder.encodedFrameCount * 10000000 % 2 ^ 64 / c.fps
              sampleDuration := 10000000 / c.fps }
          { p with
            encoder :=
              { p.encoder with
                encodedFrameCount := (p.encoder.encodedFrameCount + 1) % 2 ^ 64 }
            point := if c.async then .events (.waitForInput sample) else .submit sample }

/-- `Drain`. -/
def drain (command : HRESULT) : Pipeline :=
  match checkHr c "H.264 encoder drain" command with
  | .error error => { p with point := .threw error }
  | .ok () =>
      if c.async then
        { p with
          encoder := { p.encoder with drainComplete := false }
          point := .events .draining }
      else { p with point := .pump .last }

/-- The transform accepts a sample. -/
def accept (sample : Sample) (point : Point) : Pipeline :=
  { p with inside := p.inside ++ [sample], accepted := p.accepted ++ [sample], point }

/-- The `push_back` and the first `ProcessInput`. -/
def submit (sample : Sample) (inputResult : HRESULT) : Pipeline :=
  let p := { p with
    encoder :=
      { p.encoder with pendingFrames := p.encoder.pendingFrames ++ [sample.metadata] } }
  if c.async then
    match checkHr c "hardware H.264 encoder ProcessInput" inputResult with
    | .error error => { p with point := .threw error }
    | .ok () => p.accept sample (.events .available)
  else if inputResult = MF_E_NOTACCEPTING then { p with point := .pump (.refused sample) }
  else
    match checkHr c "H.264 encoder ProcessInput" inputResult with
    | .error error => { p with point := .threw error }
    | .ok () => p.accept sample (.pump .last)

/-- The second `ProcessInput`. -/
def submitAgain (sample : Sample) (inputResult : HRESULT) : Pipeline :=
  match checkHr c "H.264 encoder ProcessInput after output" inputResult with
  | .error error => { p with point := .threw error }
  | .ok () => p.accept sample (.pump .last)

/-- `SendSample` with the output of a sample, which the transform no longer holds. -/
def send (call : PumpCall) (sample : Sample) (inside : List Sample) (a : OutputAnswer) :
    Pipeline :=
  let (metadata, pendingFrames, fallback) :=
    match p.encoder.pendingFrames with
    | metadata :: pendingFrames => (metadata, pendingFrames, false)
    | [] => (⟨0, a.nowMicros⟩, [], true)
  let (called, result) := sendSample c a.sendSample
  { p with
    encoder := { p.encoder with pendingFrames }
    inside
    sends := if called then p.sends ++ [⟨sample, metadata, fallback⟩] else p.sends
    point := match result with
      | .error error => .threw error
      | .ok true => .pump call
      | .ok false => .idle (some false) }

/-- One pass of `PumpOutput`; `none` if the transform has no output to give. -/
def pump (call : PumpCall) (a : OutputAnswer) : Option Pipeline :=
  match prepareOutput c a with
  | .error error => some { p with point := .threw error }
  | .ok () =>
      if a.processOutput = MF_E_TRANSFORM_NEED_MORE_INPUT then
        some { p with point := call.return }
      else if a.processOutput = MF_E_TRANSFORM_STREAM_CHANGE then
        match renegotiateOutputType c a.offered with
        | .error error => some { p with point := .threw error }
        | .ok outputBufferSize =>
            some { p with
              encoder := { p.encoder with outputBufferSize }
              point := if c.async then call.return else .pump call }
      else
        match checkHr c "H.264 encoder ProcessOutput" a.processOutput with
        | .error error => some { p with point := .threw error }
        | .ok () =>
            match p.inside with
            | [] => none
            | sample :: inside =>
                if a.provideSample && !a.provided then
                  some { p with
                    inside
                    point := .threw "H.264 encoder ProcessOutput returned no sample" }
                else some (p.send c call sample inside a)

/-- `ProcessAsyncEvent`, and what its loop does with the result. -/
def processAsyncEvent (loop : EventLoop) (a : EventAnswer) : Pipeline :=
  match a with
  | .noEvents =>
      { p with
        point := match loop with
          | .available => .idle (some true)
          | _ => .events loop }
  | .getEvent hr =>
      { p with point := .threw (hrError c.hresultText "hardware encoder GetEvent" hr) }
  | .event getStatus eventStatus getType eventType =>
      match (do
        checkHr c "hardware encoder event status" getStatus
        checkHr c "hardware encoder event" eventStatus
        checkHr c "hardware encoder event type" getType : Except String Unit) with
      | .error error => { p with point := .threw error }
      | .ok () =>
          match eventType with
          | .unknown => { p with point := .events loop }
          | .needInput =>
              { p with
                encoder :=
                  { p.encoder with pendingInputRequests := p.encoder.pendingInputRequests + 1 }
                point := .events loop }
          | .haveOutput => { p with point := .pump (.haveOutput loop) }
          | .drainComplete =>
              { p with
                encoder := { p.encoder with drainComplete := true }
                point := .events loop }

/-- One pass of a loop around `ProcessAsyncEvent`. -/
def event (loop : EventLoop) (a : EventAnswer) : Pipeline :=
  match loop with
  | .waitForInput sample =>
      if p.encoder.pendingInputRequests = 0 then p.processAsyncEvent c loop a
      else
        { p with
          encoder := { p.encoder with pendingInputRequests := p.encoder.pendingInputRequests - 1 }
          point := .submit sample }
  | .available => p.processAsyncEvent c loop a
  | .draining =>
      if p.encoder.drainComplete then { p with point := .events .available }
      else p.processAsyncEvent c loop a

def next (c : Config) (p : Pipeline) : Move → Option Pipeline
  | .encodeFrameOnce frame inputSample =>
      match p.point with
      | .idle _ => some (p.encodeFrameOnce c frame inputSample)
      | _ => none
  | .drain command =>
      match p.point with
      | .idle _ => some (p.drain c command)
      | _ => none
  | .step a =>
      match p.point with
      | .idle _ | .threw _ => none
      | .submit sample => some (p.submit c sample a.processInput)
      | .submitAgain sample => some (p.submitAgain c sample a.processInput)
      | .events loop => some (p.event c loop a.event)
      | .pump call => p.pump c call a.output

end Pipeline

end SecondScreen.MediaFoundation
