import SecondScreen.Conc.Program
import SecondScreen.Machine.ByteOrder

/-!
# The packet writer of the host

`PacketWriter` of `main.cpp`.  Its calls are programs over the operations that
other threads can observe: taking and releasing the mutex, reading the clock, and
`select` and `send` on the socket.  The two socket operations are answered by the
environment.

A call ends with `ok`, or with the text that it leaves in `error_`.
-/

namespace SecondScreen.Wire

open SecondScreen.Conc SecondScreen.Machine

/-- `kPacketMagic`, the bytes `SSV1`. -/
def kPacketMagic : UInt32 := 0x31565353
def kControlLengthFlag : UInt32 := 0x80000000
def kCursorControlType : UInt32 := 1
def kCursorControlVersion : UInt32 := 1
def kClientSendTimeoutMs : Nat := 2000

/-- `std::numeric_limits<uint32_t>::max()`. -/
def maxUint32 : Nat := 2 ^ 32 - 1

/-- `std::numeric_limits<int>::max()`. -/
def maxInt : Nat := 2 ^ 31 - 1

/-! ## The socket -/

/-- What `select` reports. -/
inductive Selected
  | ready
  | timeout
  | error (code : Int) (text : String)

/-- What `send` reports: how many bytes it took, or `SOCKET_ERROR` and the error
that `WSAGetLastError` then gives. -/
inductive Sent
  | accepted (count : Nat)
  | error (code : Int) (text : String)

/-- The atomic operations of a call. -/
inductive WireOp : Type → Type
  | lock : WireOp Unit
  | unlock : WireOp Unit
  | nowMicros : WireOp UInt64
  | select : WireOp Selected
  | send (chunk : List UInt8) : WireOp Sent

/-- Success, or the text of `error_`. -/
abbrev SendResult := Except String Unit

/-! ## Bytes -/

/-- `WriteLe32`. -/
def writeLe32 (value : UInt32) : List UInt8 := leBytes 4 value.toNat

/-- `WriteLe64`. -/
def writeLe64 (value : UInt64) : List UInt8 := leBytes 8 value.toNat

/-- The header that `SendPacketLocked` builds. -/
def packetHeader (encodedLength : UInt32) (frameId timestampUs : UInt64) : List UInt8 :=
  writeLe32 kPacketMagic ++ writeLe32 encodedLength ++ writeLe64 frameId ++ writeLe64 timestampUs

/-- The payload that `SendCursor` builds. -/
def cursorPayload (visible : Bool) (x y : Int32) (width height : UInt32) (sequence : UInt64) :
    List UInt8 :=
  writeLe32 kCursorControlType ++ writeLe32 kCursorControlVersion ++
    writeLe32 (if visible then 1 else 0) ++ writeLe32 x.toUInt32 ++ writeLe32 y.toUInt32 ++
    writeLe32 width ++ writeLe32 height ++ writeLe64 sequence

/-- `HasAnnexBStartCode`. -/
def hasAnnexBStartCode : List UInt8 → Bool
  | 0 :: 0 :: 1 :: _ => true
  | 0 :: 0 :: 0 :: 1 :: _ => true
  | _ => false

/-- The length of the start code at an index, or zero, as `ContainsNalType` finds
it. -/
def startCodeLengthAt (payload : List UInt8) (index : Nat) : Nat :=
  let a := fun i ↦ payload.getD i 0
  if a index = 0 ∧ a (index + 1) = 0 ∧ a (index + 2) = 1 then 3
  else if index + 4 ≤ payload.length ∧ a index = 0 ∧ a (index + 1) = 0 ∧ a (index + 2) = 0 ∧
      a (index + 3) = 1 then 4
  else 0

/-- The loop of `ContainsNalType`, from an index. -/
def containsNalTypeFrom (payload : List UInt8) (requestedType : UInt8) (index : Nat) : Bool :=
  if index + 3 < payload.length then
    if startCodeLengthAt payload index ≠ 0 ∧
        index + startCodeLengthAt payload index < payload.length ∧
        payload.getD (index + startCodeLengthAt payload index) 0 &&& 0x1f = requestedType then
      true
    else containsNalTypeFrom payload requestedType (index + 1)
  else false
termination_by payload.length - index

/-- `ContainsNalType`. -/
def containsNalType (payload : List UInt8) (requestedType : UInt8) : Bool :=
  containsNalTypeFrom payload requestedType 0

/-- `readLength` of `ConvertLengthPrefixed`. -/
def readLength (payload : List UInt8) (offset bytes : Nat) : Option UInt32 :=
  if offset + bytes > payload.length then none
  else some (((payload.drop offset).take bytes).foldl (fun value b ↦ value <<< 8 ||| b.toUInt32) 0)

/-- The loop of `ConvertLengthPrefixed` for one size of the length fields. -/
def convertNals (payload : List UInt8) (lengthBytes offset : Nat) (output : List UInt8) :
    Option (List UInt8) :=
  if offset < payload.length then
    match readLength payload offset lengthBytes with
    | none => none
    | some nalLength =>
        if _h : nalLength.toNat = 0 ∨ nalLength.toNat > payload.length - (offset + lengthBytes) then
          none
        else
          convertNals payload lengthBytes (offset + lengthBytes + nalLength.toNat)
            (output ++ [0, 0, 0, 1] ++ (payload.drop (offset + lengthBytes)).take nalLength.toNat)
  else if offset = payload.length ∧ output ≠ [] then some output
  else none
termination_by payload.length - offset

/-- `ConvertLengthPrefixed`. -/
def convertLengthPrefixed (payload : List UInt8) : Option (List UInt8) :=
  (convertNals payload 4 0 []).orElse fun _ ↦ convertNals payload 2 0 []

/-! ## Sending -/

section Send

variable (connected : Bool)

/-- The loop of `SendBytes`. -/
def sendLoop (data : List UInt8) : Prog WireOp SendResult :=
  if _h : data = [] then .ret (.ok ())
  else
    .act .select fun
      | .error code text =>
          .ret (.error ("select(send) failed (" ++ toString code ++ "): " ++ text))
      | .timeout =>
          .ret (.error ("send timed out after " ++ toString kClientSendTimeoutMs ++
            " ms; client stopped reading"))
      | .ready =>
          .act (.send (data.take maxInt)) fun
            | .error code text =>
                .ret (.error ("send failed (" ++ toString code ++ "): " ++ text))
            | .accepted 0 => .ret (.error "send returned zero bytes; client disconnected")
            | .accepted (sent + 1) => sendLoop (data.drop (sent + 1))
termination_by data.length
decreasing_by
  have := List.length_pos_iff.2 _h
  simp
  omega

/-- `SendBytes`; nothing is sent if `socket_` is `INVALID_SOCKET`. -/
def sendBytes (data : List UInt8) : Prog WireOp SendResult :=
  if connected then sendLoop data else .ret (.ok ())

/-- `SendPacketLocked`. -/
def sendPacketLocked (encodedLength : UInt32) (frameId timestampUs : UInt64)
    (payload : List UInt8) : Prog WireOp SendResult :=
  (sendBytes connected (packetHeader encodedLength frameId timestampUs)).bind fun
    | .error error => .ret (.error error)
    | .ok () => sendBytes connected payload

/-- `SendAccessUnitLocked`. -/
def sendAccessUnitLocked (frameId timestampUs : UInt64) (payload : List UInt8) :
    Prog WireOp SendResult :=
  if payload.length > maxUint32 then
    .ret (.error "encoded access unit exceeds uint32 packet length")
  else
    sendPacketLocked connected (UInt32.ofNat payload.length) frameId timestampUs payload

/-- `SendControlLocked`. -/
def sendControlLocked (payload : List UInt8) : Prog WireOp SendResult :=
  if payload.length > maxUint32 - kControlLengthFlag.toNat then
    .ret (.error "control packet exceeds uint32 packet length")
  else
    .act .nowMicros fun now ↦
      sendPacketLocked connected (kControlLengthFlag ||| UInt32.ofNat payload.length) 0 now payload

/-- A `std::lock_guard` around a program. -/
def lockGuard (p : Prog WireOp SendResult) : Prog WireOp SendResult :=
  .act .lock fun _ ↦ p.bind fun r ↦ .act .unlock fun _ ↦ .ret r

/-- `SendAccessUnit`. -/
def sendAccessUnit (frameId timestampUs : UInt64) (payload : List UInt8) :
    Prog WireOp SendResult :=
  lockGuard (sendAccessUnitLocked connected frameId timestampUs payload)

/-- `SendHeartbeat`. -/
def sendHeartbeat : Prog WireOp SendResult := sendAccessUnit connected 0 0 []

/-- `SendCursor`. -/
def sendCursor (visible : Bool) (x y : Int32) (width height : UInt32) (sequence : UInt64) :
    Prog WireOp SendResult :=
  lockGuard (sendControlLocked connected (cursorPayload visible x y width height sequence))

/-- A byte as `snprintf` writes it for `%02X`. -/
def hexByte (b : UInt8) : String :=
  let digit (n : Nat) : Char := if n < 10 then Char.ofNat (48 + n) else Char.ofNat (55 + n)
  String.ofList [digit (b.toNat / 16), digit (b.toNat % 16)]

/-- What `SendAnnexB` says of a payload in neither format. -/
def unrecognized (payload : List UInt8) : String :=
  "encoder returned an unrecognized H.264 access unit (" ++ toString payload.length ++
    " bytes, prefix" ++ String.join ((payload.take 16).map fun b ↦ " " ++ hexByte b) ++ ")"

/-- `SendAnnexB`. -/
def sendAnnexB (frameId timestampUs : UInt64) (payload : List UInt8) : Prog WireOp SendResult :=
  if hasAnnexBStartCode payload then sendAccessUnit connected frameId timestampUs payload
  else
    match convertLengthPrefixed payload with
    | none => lockGuard (.ret (.error (unrecognized payload)))
    | some converted => sendAccessUnit connected frameId timestampUs converted

end Send

end SecondScreen.Wire
