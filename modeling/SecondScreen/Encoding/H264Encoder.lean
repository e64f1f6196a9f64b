import SecondScreen.MediaFoundation.Encoder

/-!
# The encoder and what it encodes with

`Initialize`, `EncodeFrame`, `Drain` and `Flush` of `H264Encoder`.  It encodes with NVENC if
that can be had, else with a hardware transform, else with the software transform, and it falls
back to the last one if it throws while it encodes a frame with one of the others.

The two paths of `EncodeFrameOnce` and `Drain` are the machines of NVENC and of Media
Foundation.  Open is, beside what these are answered, what can be had and what can be configured.

No call is made after one that has returned false or thrown, nor after `Flush`, as the worker makes
none.  A transform puts out one output for each sample that it has accepted, in their order.
-/

namespace SecondScreen.Encoding

open SecondScreen.Ring
open MediaFoundation (Config HRESULT checkFrame checkHr)

/-- What `SendAnnexB` is called with: the metadata, and whose pixels are encoded in the payload. -/
structure Output where
  frameId : Nat
  timestampUs : Nat
  frame : Option CapturedFrame
deriving DecidableEq

/-- `nvenc_` with `encodedFrameCount_`, or `transform_` with `async_` and the other fields. -/
inductive Backend
  | none
  | nvenc (encodedFrameCount : Nat) (pipeline : Nvenc.Pipeline)
  | transform (async : Bool) (pipeline : MediaFoundation.Pipeline)

/-- A call that is under way in the backend. -/
inductive Call
  | encodeFrame (frame : CapturedFrame)
  | drain
deriving DecidableEq

inductive Point
  | /-- Between two calls, the last of which has returned this. -/
    idle (returned : Option Bool)
  | inside (call : Call)
  | /-- In the `catch` block of `EncodeFrame`. -/
    fallingBack (frame : CapturedFrame)
  | flushed
  | threw (error : String)
deriving DecidableEq

/-- The encoder, and beside it a record of what has happened. -/
structure H264Encoder where
  backend : Backend := .none
  hardware : Bool := false
  point : Point := .idle none
  /-- The frames that `EncodeFrame` was called with. -/
  calls : List CapturedFrame := []
  /-- How many of these were not given to the backend, as it was not there yet. -/
  start : Nat := 0
  /-- What was sent before that. -/
  earlier : List Output := []
  /-- The calls in which the encoder has fallen back. -/
  fallbacks : List Nat := []

def packetOutput (packet : Nvenc.Packet) : Output where
  frameId := packet.frameId
  timestampUs := packet.timestampUs
  frame := packet.bitstream.bind Nvenc.Picture.input

def sentOutput (sent : MediaFoundation.Sent) : Output where
  frameId := sent.metadata.frameId
  timestampUs := sent.metadata.timestampUs
  frame := some sent.sample.frame

namespace Backend

/-- What the backend has sent. -/
def outputs : Backend → List Output
  | .none => []
  | .nvenc _ pipeline => pipeline.packets.map packetOutput
  | .transform _ pipeline => pipeline.sends.map sentOutput

/-- What a call has returned or thrown: `none` while it is under way. -/
def result : Backend → Option (Except String Bool)
  | .none => Option.none
  | .nvenc _ pipeline =>
      match pipeline.point with
      | .idle returned => returned.map .ok
      | .threw error => some (.error error)
      | _ => Option.none
  | .transform _ pipeline =>
      match pipeline.point with
      | .idle returned => returned.map .ok
      | .threw error => some (.error error)
      | _ => Option.none

/-- `++encodedFrameCount_` after `EncodeFrame` of NVENC. -/
def count : Backend → Backend
  | .nvenc encodedFrameCount pipeline => .nvenc ((encodedFrameCount + 1) % 2 ^ 64) pipeline
  | backend => backend

end Backend

/-! ## `Initialize` -/

/-- What `Initialize` is answered: what throws, or whether a transform is asynchronous. -/
structure InitializeAnswer where
  /-- The media types can be made. -/
  mediaTypes : Except String Unit := .ok ()
  nvenc : Except String Unit := .ok ()
  /-- The hardware transforms that `MFTEnumEx` finds, if it does not fail. -/
  hardware : Option (List (Except String Bool)) := some []
  software : Except String Bool := .ok false

/-- `TryInitializeHardware` takes the first transform that it can configure. -/
def tryInitializeHardware : List (Except String Bool) → Option Bool
  | [] => none
  | .ok async :: _ => some async
  | .error _ :: activations => tryInitializeHardware activations

/-- `Initialize`. -/
def initializeEncoder (a : InitializeAnswer) : H264Encoder :=
  match a.mediaTypes with
  | .error error => { point := .threw error }
  | .ok () =>
      match a.nvenc with
      | .ok () => { backend := .nvenc 0 {}, hardware := true }
      | .error _ =>
          match a.hardware.bind tryInitializeHardware with
          | some async => { backend := .transform async {}, hardware := true }
          | none =>
              match a.software with
              | .ok async => { backend := .transform async {} }
              | .error error => { point := .threw error }

/-! ## The machine -/

/-- What one step is answered. -/
structure Answer where
  nvenc : Nvenc.Answer := {}
  transform : MediaFoundation.Answer := {}
  /-- `InitializeSoftware`. -/
  software : Except String Bool := .ok false
  /-- Whether the input sample can be made after that. -/
  inputSample : Except String Unit := .ok ()

inductive Event
  | encodeFrame (frame : CapturedFrame) (inputSample : Except String Unit)
  | drain (command : HRESULT)
  | flush (command : HRESULT)
  | /-- The device signals the completion event of a slot. -/
    complete (i : Nvenc.SlotIndex)
  | step (a : Answer)

namespace H264Encoder

variable (c : Config) (s : H264Encoder)

def outputs : List Output := s.earlier ++ s.backend.outputs

/-- An exception comes out of `EncodeFrameOnce` or `Drain`. -/
def caught (error : String) : Call → H264Encoder
  | .encodeFrame frame =>
      { s with point := if s.hardware then .fallingBack frame else .threw error }
  | .drain => { s with point := .threw error }

def returned (value : Bool) : Call → H264Encoder
  | .encodeFrame _ => { s with backend := s.backend.count, point := .idle (some value) }
  | .drain => { s with point := .idle (some value) }

/-- Go on with a call, if the backend has not come to its end. -/
def settle (call : Call) : H264Encoder :=
  match s.backend.result with
  | none => { s with point := .inside call }
  | some (.ok value) => s.returned value call
  | some (.error error) => s.caught error call

/-- `EncodeFrameOnce`, up to the first loop. -/
def encodeFrameOnce (frame : CapturedFrame) (inputSample : Except String Unit) :
    Option H264Encoder :=
  match s.backend with
  | .none => none
  | .nvenc encodedFrameCount pipeline =>
      match checkFrame c frame with
      | .error error => some (s.caught error (.encodeFrame frame))
      | .ok () =>
          (pipeline.next c.fps (.encodeFrame frame encodedFrameCount)).map fun pipeline ↦
            { s with
              backend := .nvenc encodedFrameCount pipeline
              point := .inside (.encodeFrame frame) }
  | .transform async pipeline =>
      (pipeline.next { c with async } (.encodeFrameOnce frame inputSample)).map fun pipeline ↦
        settle { s with backend := .transform async pipeline } (.encodeFrame frame)

def drain (command : HRESULT) : Option H264Encoder :=
  match s.backend with
  | .none => none
  | .nvenc encodedFrameCount pipeline =>
      (pipeline.next c.fps .drain).map fun pipeline ↦
        { s with backend := .nvenc encodedFrameCount pipeline, point := .inside .drain }
  | .transform async pipeline =>
      (pipeline.next { c with async } (.drain command)).map fun pipeline ↦
        settle { s with backend := .transform async pipeline } .drain

def flush (command : HRESULT) : Option H264Encoder :=
  match s.backend with
  | .none => none
  | .nvenc _ _ => some { s with point := .flushed }
  | .transform async pipeline =>
      match checkHr c "H.264 encoder flush" command with
      | .error error => some { s with point := .threw error }
      | .ok () =>
          some { s with
            backend := .transform async
              { pipeline with encoder := { pipeline.encoder with pendingFrames := [] } }
            point := .flushed }

/-- The `catch` block of `EncodeFrame`. -/
def fallBack (frame : CapturedFrame) (a : Answer) : Option H264Encoder :=
  let s := { s with
    hardware := false
    start := s.calls.length - 1
    earlier := s.outputs
    fallbacks := s.fallbacks ++ [s.calls.length - 1] }
  match a.software with
  | .error error => some { s with backend := .none, point := .threw error }
  | .ok async =>
      encodeFrameOnce c { s with backend := .transform async {} } frame a.inputSample

/-- One pass of a loop of the backend. -/
def pass (a : Answer) : Option Backend :=
  match s.backend with
  | .none => none
  | .nvenc encodedFrameCount pipeline =>
      (pipeline.next c.fps (.step a.nvenc)).map (.nvenc encodedFrameCount)
  | .transform async pipeline =>
      (pipeline.next { c with async } (.step a.transform)).map (.transform async)

/-- One step.  Those that use the encoder do not call it again once a call has returned false. -/
def next (c : Config) (s : H264Encoder) : Event → Option H264Encoder
  | .encodeFrame frame inputSample =>
      match s.point with
      | .idle (some false) => none
      | .idle _ => encodeFrameOnce c { s with calls := s.calls ++ [frame] } frame inputSample
      | _ => none
  | .drain command =>
      match s.point with
      | .idle (some false) => none
      | .idle _ => s.drain c command
      | _ => none
  | .flush command =>
      match s.point with
      | .idle (some false) => none
      | .idle _ => s.flush c command
      | _ => none
  | .complete i =>
      match s.backend with
      | .nvenc encodedFrameCount pipeline =>
          (pipeline.next c.fps (.complete i)).map fun pipeline ↦
            { s with backend := .nvenc encodedFrameCount pipeline }
      | _ => none
  | .step a =>
      match s.point with
      | .inside call => (s.pass c a).map fun backend ↦ settle { s with backend } call
      | .fallingBack frame => s.fallBack c frame a
      | _ => none

end H264Encoder

end SecondScreen.Encoding
