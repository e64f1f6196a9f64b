import Mathlib.Data.List.Basic

/-!
# The decoder of the client

`VideoDecoder.java`: `findNalUnit`, and `decode` with the recovery that it makes
when a frame id shows that frames are missing.

What `MediaCodec` answers is given as data: a call of `decode` comes with the
answers to the operations that it performs.
-/

namespace SecondScreen.Client

/-- The exceptions that the client throws. -/
inductive IOException
  | io (message : String)
  | eof (message : String)
  | protocol (message : String)
deriving DecidableEq

/-- `EncodedFrame`. -/
structure EncodedFrame where
  frameId : Int64
  captureTimestampUs : Int64
  receivedNanos : Int64
  randomAccess : Bool
  heartbeat : Bool
  control : Bool
  controlType : Int32
  controlPayload : List UInt8
  accessUnit : List UInt8
deriving DecidableEq

/-! ## NAL units -/

/-- The byte at an index that is known to be in range. -/
def byteAt (accessUnit : List UInt8) (index : Nat) : UInt8 := accessUnit.getD index 0

/-- The length of the start code at an index, or zero. -/
def startCodeLength (accessUnit : List UInt8) (start : Nat) : Nat :=
  let a := byteAt accessUnit
  if a start = 0 ∧ a (start + 1) = 0 ∧ a (start + 2) = 1 then 3
  else if a start = 0 ∧ a (start + 1) = 0 ∧ a (start + 2) = 0 ∧ a (start + 3) = 1 then 4
  else 0

/-- The inner loop of `findNalUnit`: the next start code, or the last three bytes. -/
def nextStartCode (accessUnit : List UInt8) (next : Nat) : Nat :=
  if next + 3 < accessUnit.length ∧ startCodeLength accessUnit next = 0 then
    nextStartCode accessUnit (next + 1)
  else next
termination_by accessUnit.length - next

/-- Where the NAL unit that starts at an index ends. -/
def nalEnd (accessUnit : List UInt8) (nalStart : Nat) : Nat :=
  let next := nextStartCode accessUnit nalStart
  if next + 3 < accessUnit.length then next else accessUnit.length

theorem le_nextStartCode (accessUnit : List UInt8) (next : Nat) :
    next ≤ nextStartCode accessUnit next := by
  induction next using nextStartCode.induct accessUnit with
  | case1 next h ih =>
      rw [nextStartCode, if_pos h]
      omega
  | case2 next h =>
      have heq : nextStartCode accessUnit next = next := by rw [nextStartCode, if_neg h]
      exact Nat.le_of_eq heq.symm

theorem lt_nalEnd {accessUnit : List UInt8} {start : Nat} (h : start + 4 < accessUnit.length)
    (hcode : startCodeLength accessUnit start ≠ 0) :
    start < nalEnd accessUnit (start + startCodeLength accessUnit start) := by
  have hle := le_nextStartCode accessUnit (start + startCodeLength accessUnit start)
  unfold nalEnd
  simp only
  split_ifs <;> omega

/-- The loop of `findNalUnit`, from an index. -/
def findNalUnitFrom (accessUnit : List UInt8) (requestedType start : Nat) : Option (List UInt8) :=
  if _h : start + 4 < accessUnit.length then
    if _hcode : startCodeLength accessUnit start = 0 then
      findNalUnitFrom accessUnit requestedType (start + 1)
    else
      let nalStart := start + startCodeLength accessUnit start
      let nalEnd := nalEnd accessUnit nalStart
      if nalStart < nalEnd ∧ (byteAt accessUnit nalStart &&& 0x1f).toNat = requestedType then
        some ([0, 0, 0, 1] ++ (accessUnit.drop nalStart).take (nalEnd - nalStart))
      else findNalUnitFrom accessUnit requestedType nalEnd
  else none
termination_by accessUnit.length - start
decreasing_by
  · omega
  · have := lt_nalEnd _h _hcode
    omega

/-- `findNalUnit`. -/
def findNalUnit (accessUnit : List UInt8) (requestedType : Nat) : Option (List UInt8) :=
  findNalUnitFrom accessUnit requestedType 0

/-! ## The codec -/

/-- The answers that a `drainOutput` gets: those of `dequeueOutputBuffer` until it
answers `INFO_TRY_AGAIN_LATER`, and the failure of `releaseOutputBuffer`, if any,
for a buffer and whether it is to be rendered. -/
structure DrainAnswers where
  polls : List (Except String Int32) := []
  releaseFailure : Int32 → Bool → Option String := fun _ _ ↦ none

/-- The answers that a `decode` gets. -/
structure CodecAnswers where
  before : DrainAnswers := {}
  /-- `dequeueInputBuffer`; negative if there is no buffer. -/
  inputIndex : Except String Int32
  /-- The capacity of what `getInputBuffer` returns, if it is not null. -/
  capacity : Option Nat
  nanoTime : Int64 := 0
  queueFailure : Option String := none
  after : DrainAnswers := {}

def infoTryAgainLater : Int32 := -1
def infoOutputFormatChanged : Int32 := -2
def infoOutputBuffersChanged : Int32 := -3

/-- The loop of `drainOutput`, with the output buffer that is still to be shown.
Each newer buffer has the one before it released without being shown. -/
def drainLoop (releaseFailure : Int32 → Bool → Option String) (pendingOutputIndex : Int32) :
    List (Except String Int32) → Except IOException Int32
  | [] => .ok pendingOutputIndex
  | .error message :: _ => .error (.io ("MediaCodec output dequeue failed: " ++ message))
  | .ok outputIndex :: polls =>
      if outputIndex = infoTryAgainLater then .ok pendingOutputIndex
      else if outputIndex = infoOutputFormatChanged ∨ outputIndex = infoOutputBuffersChanged then
        drainLoop releaseFailure pendingOutputIndex polls
      else if 0 ≤ outputIndex then
        if 0 ≤ pendingOutputIndex then
          match releaseFailure pendingOutputIndex false with
          | some message => .error (.io ("MediaCodec stale output release failed: " ++ message))
          | none => drainLoop releaseFailure outputIndex polls
        else drainLoop releaseFailure outputIndex polls
      else drainLoop releaseFailure pendingOutputIndex polls

/-- `drainOutput`. -/
def drainOutput (a : DrainAnswers) : Except IOException Unit :=
  match drainLoop a.releaseFailure (-1) a.polls with
  | .error e => .error e
  | .ok pendingOutputIndex =>
      if 0 ≤ pendingOutputIndex then
        match a.releaseFailure pendingOutputIndex true with
        | some message => .error (.io ("MediaCodec output release failed: " ++ message))
        | none => .ok ()
      else .ok ()

/-! ## Decoding -/

/-- The fields of a `VideoDecoder` that change. -/
structure VideoDecoder where
  /-- Whether there is a codec. -/
  started : Bool := false
  lastPresentationTimeUs : Int64 := 0
  lastFrameId : Int64 := -1
  waitingForRandomAccess : Bool := false
deriving DecidableEq

/-- What `decode` does: the decoder after it, the access unit that it has queued
to the codec, and what it returns or throws. -/
structure Decoded where
  decoder : VideoDecoder
  queued : Option (List UInt8) := none
  result : Except IOException Bool

namespace VideoDecoder

/-- Whether the id of a frame shows that frames are missing before it. -/
def gap (d : VideoDecoder) (frame : EncodedFrame) : Bool :=
  0 ≤ d.lastFrameId && d.lastFrameId + 1 < frame.frameId

/-- The part of `decode` that hands a frame to the codec. -/
def submit (d : VideoDecoder) (frame : EncodedFrame) (a : CodecAnswers) : Decoded :=
  match drainOutput a.before with
  | .error e => { decoder := d, result := .error e }
  | .ok () =>
      match a.inputIndex with
      | .error message =>
          { decoder := d, result := .error (.io ("MediaCodec input dequeue failed: " ++ message)) }
      | .ok inputIndex =>
          if inputIndex < 0 then { decoder := d, result := .ok false }
          else
            match a.capacity with
            | none =>
                { decoder := d, result := .error (.io "MediaCodec returned a null input buffer") }
            | some capacity =>
                if frame.accessUnit.length > capacity then
                  { decoder := d
                    result := .error (.io ("H.264 access unit is " ++
                      toString frame.accessUnit.length ++ " bytes; decoder input capacity is " ++
                      toString capacity)) }
                else
                  match a.queueFailure with
                  | some message =>
                      { decoder := d
                        result := .error (.io ("MediaCodec input queue failed: " ++ message)) }
                  | none =>
                      let nowUs := a.nanoTime / 1000
                      let presentationTimeUs := max (d.lastPresentationTimeUs + 1) nowUs
                      { decoder := { d with lastPresentationTimeUs := presentationTimeUs }
                        queued := some frame.accessUnit
                        result := (drainOutput a.after).map fun _ ↦ true }

/-- `decode`. -/
def decode (d : VideoDecoder) (frame : EncodedFrame) (a : CodecAnswers) : Decoded :=
  if d.started = false then
    { decoder := d, result := .error (.io "H.264 decoder is not started") }
  else
    let waiting := d.waitingForRandomAccess || d.gap frame
    let d := { d with lastFrameId := frame.frameId, waitingForRandomAccess := waiting }
    if waiting && !frame.randomAccess then { decoder := d, result := .ok false }
    else
      let d := if frame.randomAccess then { d with waitingForRandomAccess := false } else d
      d.submit frame a

end VideoDecoder

end SecondScreen.Client
