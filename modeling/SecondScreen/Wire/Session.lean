import SecondScreen.Conc.System
import SecondScreen.Wire.PacketWriter

/-!
# Two threads on one writer

The encode worker and the cursor thread share one `PacketWriter`.  Either may be
inside a call at any time; what the socket answers is open.

The state holds the bytes that the socket has accepted.  Beside them it records,
for each call that took the mutex, which of the bytes came from it and whether the
socket refused to take the rest, in the order in which the calls took the mutex.
Whoever holds the mutex is the thread of `current`.
-/

namespace SecondScreen.Wire

open SecondScreen.Conc

/-- The two threads. -/
inductive Thread
  | worker
  | cursor
deriving DecidableEq

/-- The calls of a `PacketWriter` that send. -/
inductive SendCall
  | annexB (frameId timestampUs : UInt64) (payload : List UInt8)
  | heartbeat
  | cursor (visible : Bool) (x y : Int32) (width height : UInt32) (sequence : UInt64)

/-- The program of a call. -/
def SendCall.body : SendCall → Prog WireOp SendResult
  | .annexB frameId timestampUs payload => sendAnnexB true frameId timestampUs payload
  | .heartbeat => sendHeartbeat true
  | .cursor visible x y width height sequence => sendCursor true visible x y width height sequence

/-! ## What a call is to send -/

/-- A packet: a header and its payload. -/
def packetBytes (encodedLength : UInt32) (frameId timestampUs : UInt64) (payload : List UInt8) :
    List UInt8 :=
  packetHeader encodedLength frameId timestampUs ++ payload

/-- The packet of an access unit, unless it is too long. -/
def accessUnitPacket (frameId timestampUs : UInt64) (payload : List UInt8) :
    Option (List UInt8) :=
  if payload.length > maxUint32 then none
  else some (packetBytes (UInt32.ofNat payload.length) frameId timestampUs payload)

/-- The packet that a call is to send, if it reads the given time from the clock;
`none` if the call is to send nothing. -/
def SendCall.packet (now : UInt64) : SendCall → Option (List UInt8)
  | .annexB frameId timestampUs payload =>
      if hasAnnexBStartCode payload then accessUnitPacket frameId timestampUs payload
      else (convertLengthPrefixed payload).bind (accessUnitPacket frameId timestampUs)
  | .heartbeat => accessUnitPacket 0 0 []
  | .cursor visible x y width height sequence =>
      let payload := cursorPayload visible x y width height sequence
      some (packetBytes (kControlLengthFlag ||| UInt32.ofNat payload.length) 0 now payload)

/-! ## The shared state -/

/-- A call that took the mutex. -/
structure Entry where
  thread : Thread
  call : SendCall
  /-- The bytes of it that the socket accepted. -/
  bytes : List UInt8 := []
  /-- Whether the socket timed out, failed or took nothing. -/
  refused : Bool := false

namespace Entry

/-- There is a packet of the call that continues what was accepted. -/
def Continues (e : Entry) (rest : List UInt8) : Prop :=
  ∃ now, e.call.packet now = some (e.bytes ++ rest)

/-- The call has sent its packet. -/
def Complete (e : Entry) : Prop := e.refused = false ∧ e.Continues []

/-- The packet was refused before its end, possibly before its first byte. -/
def Stopped (e : Entry) : Prop := e.refused = true ∧ ∃ rest, rest ≠ [] ∧ e.Continues rest

/-- The call had nothing to send. -/
def Silent (e : Entry) : Prop :=
  e.refused = false ∧ e.bytes = [] ∧ ∀ now, e.call.packet now = none

/-- What a finished call leaves. -/
def Finished (e : Entry) : Prop := e.Complete ∨ e.Stopped ∨ e.Silent

/-- The packet was cut short: refused after at least one of its bytes. -/
def Cut (e : Entry) : Prop := e.refused = true ∧ e.bytes ≠ []

instance (e : Entry) : Decidable e.Cut := inferInstanceAs (Decidable (_ ∧ _))

end Entry

/-- The socket and the record of the calls. -/
structure Shared where
  /-- The bytes that the socket has accepted. -/
  sent : List UInt8 := []
  /-- The call that each thread entered last. -/
  calls : Thread → SendCall := fun _ ↦ .heartbeat
  /-- The calls that have released the mutex. -/
  done : List Entry := []
  /-- The call that holds the mutex. -/
  current : Option Entry := none

/-- All calls that took the mutex, in that order. -/
def Shared.entries (s : Shared) : List Entry := s.done ++ s.current.toList

/-- The answers of the environment to the operation that is made next. -/
structure SocketAnswer where
  now : UInt64 := 0
  selected : Selected := .ready
  sent : Sent := .accepted 0

/-- A change of the call that holds the mutex. -/
def Shared.modifyCurrent (s : Shared) (f : Entry → Entry) : Shared :=
  { s with current := s.current.map f }

/-- The socket refuses. -/
def Shared.refuse (s : Shared) : Shared := s.modifyCurrent fun e ↦ { e with refused := true }

/-- The socket takes some bytes. -/
def Shared.accept (s : Shared) (data : List UInt8) : Shared :=
  { s.modifyCurrent fun e ↦ { e with bytes := e.bytes ++ data } with sent := s.sent ++ data }

/-- The meaning of the operations for one thread.  A lock that is held blocks, and
`send` does not take more than it is given. -/
def wireExec (i : Thread) : Exec WireOp SocketAnswer Shared
  | _, _, .lock, s =>
      if s.current.isNone then
        some ((), { s with current := some { thread := i, call := s.calls i } })
      else none
  | _, _, .unlock, s =>
      some ((), { s with done := s.entries, current := none })
  | _, w, .nowMicros, s => some (w.now, s)
  | _, w, .select, s =>
      match w.selected with
      | .ready => some (.ready, s)
      | refusal => some (refusal, s.refuse)
  | _, w, .send chunk, s =>
      match w.sent with
      | .error code text => some (.error code text, s.refuse)
      | .accepted 0 => some (.accepted 0, s.refuse)
      | .accepted (count + 1) =>
          if count + 1 ≤ chunk.length then
            some (.accepted (count + 1), s.accept (chunk.take (count + 1)))
          else none

/-- The two threads on one writer. -/
def writerSystem : System Thread WireOp SocketAnswer Shared where
  Local _ := Unit
  Call _ := SendCall
  Result _ := SendResult
  body _ call _ := call.body.bind fun r ↦ .ret (r, ())
  exec := wireExec
  enter i call _ s := { s with calls := Function.update s.calls i call }
  leave _ _ s := s

abbrev WriterConfig := writerSystem.Config

/-- A new writer on a new socket. -/
def WriterConfig.initial : WriterConfig where
  shared := {}
  status _ := .idle ()

/-- No restriction. -/
def anySchedule : writerSystem.Guard := fun _ _ _ _ ↦ True

instance (c : WriterConfig) (i : Thread) (m : writerSystem.Move i) (c' : WriterConfig) :
    Decidable (anySchedule c i m c') := .isTrue trivial

/-- Moves of one thread, by the answers that it gets. -/
def answers (i : Thread) (ws : List SocketAnswer) : writerSystem.Schedule :=
  ws.map fun w ↦ ⟨i, .act w⟩

end SecondScreen.Wire
