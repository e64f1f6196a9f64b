import SecondScreen.Client.VideoDecoder
import SecondScreen.Machine.ByteOrder

/-!
# The receiver of the client

`readPacket` and `dispatchControl` of `StreamReceiver.java`, over an input stream
that hands out its bytes in arbitrary portions.
-/

namespace SecondScreen.Client

open SecondScreen.Machine

/-! ## The input stream -/

/-- An input stream, by the portions in which its bytes become available; a portion
may be empty. -/
abbrev InputStream := List (List UInt8)

/-- `InputStream.read` for at most `length` bytes; `none` at the end of the stream,
where Java returns `-1`. -/
def InputStream.read (length : Nat) : InputStream → Option (List UInt8 × InputStream)
  | [] => none
  | portion :: input =>
      if portion.length ≤ length then some (portion, input)
      else some (portion.take length, portion.drop length :: input)

theorem InputStream.read_decreasing {length : Nat} {input rest : InputStream} {bytes : List UInt8}
    (h : input.read length = some (bytes, rest)) :
    bytes.length ≤ length ∧
      (rest.length < input.length ∨ rest.length = input.length ∧ bytes.length = length) := by
  cases input with
  | nil => cases h
  | cons portion input =>
      rw [InputStream.read] at h
      split at h
      · next hle =>
        cases h
        exact ⟨hle, .inl (Nat.lt_succ_self _)⟩
      · next hgt =>
        cases h
        have hlen : (portion.take length).length = length := by
          rw [List.length_take]
          omega
        exact ⟨hlen.le, .inr ⟨rfl, hlen⟩⟩

/-- `readFully`, with the bytes read so far. -/
def readFully (length : Nat) (buffer : List UInt8) (input : InputStream) :
    Except IOException (List UInt8 × InputStream) :=
  if buffer.length < length then
    match _h : input.read (length - buffer.length) with
    | none =>
        .error (.eof ("Stream ended after " ++ toString buffer.length ++ " of " ++
          toString length ++ " packet bytes"))
    | some (bytes, rest) => readFully length (buffer ++ bytes) rest
  else .ok (buffer, input)
termination_by (input.length, length - buffer.length)
decreasing_by
  obtain ⟨-, hlt | ⟨heq, hlen⟩⟩ := InputStream.read_decreasing _h
  · exact Prod.Lex.left _ _ hlt
  · rw [heq, List.length_append]
    exact Prod.Lex.right _ (by omega)

/-! ## Packets -/

def HEADER_BYTES : Nat := 24
def MAGIC : Int32 := 0x31565353
def CONTROL_LENGTH_FLAG : Int32 := 0x80000000
def CURSOR_CONTROL_TYPE : Int32 := 1
def CURSOR_PAYLOAD_BYTES : Nat := 32
def MAX_ACCESS_UNIT_BYTES : Nat := 16 * 1024 * 1024

/-- An `int` as `String.format` writes it for `%08x`. -/
def hexInt (v : Int32) : String :=
  let digit (n : Nat) : Char := if n < 10 then Char.ofNat (48 + n) else Char.ofNat (87 + n)
  String.ofList ((List.range 8).map fun i ↦ digit (v.toUInt32.toNat / 16 ^ (7 - i) % 16))

/-- `readPacket`, at the time that `System.nanoTime` gives. -/
def readPacket (nanoTime : Int64) (input : InputStream) :
    Except IOException (EncodedFrame × InputStream) :=
  match readFully HEADER_BYTES [] input with
  | .error e => .error e
  | .ok (header, input) =>
      let magic := getInt header 0
      let rawLength := getInt header 4
      let control := rawLength &&& CONTROL_LENGTH_FLAG ≠ 0
      let unsignedLength := (rawLength &&& ~~~CONTROL_LENGTH_FLAG).toUInt32.toNat
      let frameId := getLong header 8
      let captureTimestampUs := getLong header 16
      if magic ≠ MAGIC then
        .error (.protocol ("Invalid SSV1 packet magic 0x" ++ hexInt magic ++ " (expected 0x" ++
          hexInt MAGIC ++ ")"))
      else if unsignedLength > MAX_ACCESS_UNIT_BYTES then
        .error (.protocol ("Invalid SSV1 access-unit length: " ++ toString unsignedLength ++
          " (maximum " ++ toString MAX_ACCESS_UNIT_BYTES ++ ")"))
      else if unsignedLength = 0 then
        if frameId ≠ 0 then
          .error (.protocol ("Invalid SSV1 heartbeat frame ID: " ++ toString frameId))
        else
          .ok ({ frameId, captureTimestampUs
                 receivedNanos := nanoTime
                 randomAccess := false
                 heartbeat := true
                 control := false
                 controlType := 0
                 controlPayload := []
                 accessUnit := [] }, input)
      else
        match readFully unsignedLength [] input with
        | .error e => .error e
        | .ok (payload, input) =>
            if control then
              if payload.length < 4 then
                .error (.protocol "Control packet is missing its type")
              else
                .ok ({ frameId, captureTimestampUs
                       receivedNanos := nanoTime
                       randomAccess := false
                       heartbeat := false
                       control := true
                       controlType := getInt payload 0
                       controlPayload := payload.drop 4
                       accessUnit := [] }, input)
            else
              .ok ({ frameId, captureTimestampUs
                     receivedNanos := nanoTime
                     randomAccess := (findNalUnit payload 5).isSome
                     heartbeat := false
                     control := false
                     controlType := 0
                     controlPayload := []
                     accessUnit := payload }, input)

/-- `readPacket` once for each of the given times. -/
def readPackets : List Int64 → InputStream → Except IOException (List EncodedFrame × InputStream)
  | [], input => .ok ([], input)
  | nanoTime :: times, input =>
      match readPacket nanoTime input with
      | .error e => .error e
      | .ok (frame, input) =>
          match readPackets times input with
          | .error e => .error e
          | .ok (frames, input) => .ok (frame :: frames, input)

/-- `CursorState`. -/
structure CursorState where
  visible : Bool
  x : Int32
  y : Int32
  width : Int32
  height : Int32
  sequence : Int64
deriving DecidableEq

/-- `dispatchControl`: what it gives to the listener, if anything. -/
def dispatchControl (frame : EncodedFrame) : Except IOException (Option CursorState) :=
  let payload := frame.controlPayload
  if frame.controlType ≠ CURSOR_CONTROL_TYPE then .ok none
  else if payload.length ≠ CURSOR_PAYLOAD_BYTES then
    .error (.protocol ("Invalid cursor control payload length: " ++ toString payload.length))
  else
    let version := getInt payload 0
    let visible : Bool := getInt payload 4 ≠ 0
    let x := getInt payload 8
    let y := getInt payload 12
    let width := getInt payload 16
    let height := getInt payload 20
    let sequence := getLong payload 24
    if version ≠ 1 ∨ width ≤ 0 ∨ height ≤ 0 ∨ width > 16384 ∨ height > 16384 then
      .error (.protocol "Invalid cursor control state")
    else .ok (some { visible, x, y, width, height, sequence })

end SecondScreen.Client
