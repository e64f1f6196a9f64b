import SecondScreen.Conc.System
import SecondScreen.Ring.Driver
import SecondScreen.Ring.Reader

/-!
# Driver and host as two processes

The frame ring with one driver process, which publishes frames and may be given
a new swap chain between two publishes, and one host process, which calls
`TryReadLatest` and `BeginClient`.  Either may move at any time.

Next to the ring the shared state holds a `Log` of what the two processes did:
who took and released which slot, what was published in which order, and what
was delivered.  The programs cannot read it.  Ownership in particular is
recorded from the operations that a process performs, not from the state words,
so that exclusive ownership is a statement about the protocol.
-/

namespace SecondScreen.Ring

open SecondScreen.Conc SecondScreen.Machine SecondScreen.Nv12

/-- What one publish writes into its slot. -/
structure Publication where
  field : SlotField → Nat
  payload : Bytes

namespace Publication

abbrev sequence (p : Publication) : Nat := p.field .sequence
abbrev frameId (p : Publication) : Nat := p.field .frameId

/-- The slot holds what the publish wrote: all its fields and its payload. -/
def Fills (p : Publication) (s : FrameSlot) : Prop :=
  s.field = p.field ∧ ∀ n < p.field .payloadLength, s.payload n = p.payload n

/-- The frame is what the publish wrote, and nothing else. -/
def Shows (p : Publication) (f : CapturedFrame) : Prop :=
  f.frameId = p.frameId ∧ f.captureTimestampUs = p.field .captureTimestampUs ∧
    f.width = p.field .width ∧ f.height = p.field .height ∧ f.stride = p.field .stride ∧
    f.nv12 = (List.range (p.field .payloadLength)).map p.payload

/-- Published before, by the same processor. -/
def Before (p q : Publication) : Prop := p.sequence < q.sequence ∧ p.frameId < q.frameId

end Publication

/-- A record of what the two processes did. -/
structure Log where
  /-- The slots between a successful claim of the driver and its release. -/
  driverOwns : Slot → Bool := fun _ ↦ false
  /-- The slots between `ClaimReady` and `FreeSlot`. -/
  readerOwns : Slot → Bool := fun _ ↦ false
  /-- What the publish under way is to write. -/
  current : Publication := ⟨fun _ ↦ 0, fun _ ↦ 0⟩
  /-- What was made ready, in order of time. -/
  published : List Publication := []
  /-- For each slot, the place in `published` of what was last made ready there. -/
  origin : Slot → Nat := fun _ ↦ 0
  /-- The slot that the reader claimed last. -/
  selected : Slot := 0
  /-- Its sequence. -/
  claimed : Nat := 0
  /-- What `TryReadLatest` returned, in order of time, with its sequence. -/
  returned : List (Nat × CapturedFrame) := []
  /-- The sequences of the slots that `IsValidSlot` rejected. -/
  rejected : List Nat := []
  /-- The ids of the frames returned since the last `BeginClient`. -/
  session : List Nat := []
  /-- How often the clean-up freed a slot that was not older than the selected one. -/
  stalePurges : Nat := 0

/-- The ring and the record. -/
structure Shared where
  ring : FrameRing
  log : Log

namespace Log

/-- What an operation of the driver adds to the record. -/
def driverStep : (β : Type) → RingOp β → FrameRing → Log → Log
  | _, .compareExchange i _ comparand, ring, log =>
      if ring.state i = comparand then
        { log with driverOwns := Function.update log.driverOwns i true }
      else log
  | _, .exchange i .ready, _, log =>
      { log with
        driverOwns := Function.update log.driverOwns i false
        published := log.published ++ [log.current]
        origin := Function.update log.origin i log.published.length }
  | _, .exchange i _, _, log =>
      { log with driverOwns := Function.update log.driverOwns i false }
  | _, _, _, log => log

/-- What an operation of the reader adds to the record. -/
def readerStep : (β : Type) → RingOp β → FrameRing → Log → Log
  | _, .compareExchange i .reading comparand, ring, log =>
      if ring.state i = comparand then
        { log with
          readerOwns := Function.update log.readerOwns i true
          selected := i
          claimed := ring.sequence i }
      else log
  | _, .compareExchange i .free comparand, ring, log =>
      if ring.state i = comparand ∧ log.claimed ≤ ring.sequence i then
        { log with stalePurges := log.stalePurges + 1 }
      else log
  | _, .exchange i _, _, log =>
      { log with readerOwns := Function.update log.readerOwns i false }
  | _, _, _, log => log

/-- What the end of a `TryReadLatest` adds to the record. -/
def deliver (log : Log) : Outcome → Log
  | .frame f =>
      { log with
        returned := log.returned ++ [(log.claimed, f)]
        session := log.session ++ [f.frameId] }
  | .corruptSlot => { log with rejected := log.rejected ++ [log.claimed] }
  | _ => log

end Log

/-! ## The system -/

/-- The two processes. -/
inductive Side
  | driver
  | host
deriving DecidableEq

/-- What the driver can be asked to do. -/
inductive DriverCall
  | publish (frame : PendingBgraFrame) (env : PublishEnv)
  | /-- `AssignSwapChain`: a new `SwapChainProcessor` takes over. -/
    assignSwapChain

inductive DriverResult
  | publish (ok : Bool)
  | assigned
deriving DecidableEq

/-- What the host can be asked to do. -/
inductive HostCall
  | tryReadLatest
  | beginClient (width height : Nat)

inductive HostResult
  | read (outcome : Outcome)
  | began
deriving DecidableEq

/-- What a publish writes, as a function of its inputs. -/
def publication (m : SwapChainProcessor) (frame : PendingBgraFrame) (env : PublishEnv) :
    Publication where
  field := slotFields m frame (env.timestampUs frame)
  payload := pictureBytes ((env.buffer frame).getD fun _ ↦ 0) frame

/-- The program of a call of the driver. -/
def driverBody : DriverCall → SwapChainProcessor → RingProg (DriverResult × SwapChainProcessor)
  | .publish frame env, m => do
      let r ← publishBgraFrame m frame env
      return (.publish r.1, r.2)
  | .assignSwapChain, _ => return (.assigned, {})

/-- The program of a call of the host. -/
def hostBody : HostCall → FrameRingReader → RingProg (HostResult × FrameRingReader)
  | .tryReadLatest, r => do
      let r ← tryReadLatest r
      return (.read r.1, r.2)
  | .beginClient width height, r => return (.began, r.beginClient width height)

/-- One operation of the driver, with its record. -/
def driverHandler : Prog.Handler RingOp Shared := fun β o s ↦
  ((RingOp.exec β o s.ring).1, ⟨(RingOp.exec β o s.ring).2, s.log.driverStep β o s.ring⟩)

/-- One operation of the host, with its record. -/
def hostHandler : Prog.Handler RingOp Shared := fun β o s ↦
  ((RingOp.exec β o s.ring).1, ⟨(RingOp.exec β o s.ring).2, s.log.readerStep β o s.ring⟩)

/-- No operation on the ring ever blocks. -/
def driverExec : Exec RingOp Unit Shared := fun β _ o s ↦ some (driverHandler β o s)

@[inherit_doc driverExec]
def hostExec : Exec RingOp Unit Shared := fun β _ o s ↦ some (hostHandler β o s)

/-- What the start of a call of the driver adds to the record. -/
def driverEnter : DriverCall → SwapChainProcessor → Shared → Shared
  | .publish frame env, m, s => { s with log := { s.log with current := publication m frame env } }
  | .assignSwapChain, _, s => s

/-- What the end of a call of the host adds to the record. -/
def hostLeave : HostResult → Shared → Shared
  | .read outcome, s => { s with log := s.log.deliver outcome }
  | .began, s => { s with log := { s.log with session := [] } }

/-- The driver and the host on one ring. -/
def ringSystem : System Side RingOp Unit Shared where
  Local
    | .driver => SwapChainProcessor
    | .host => FrameRingReader
  Call
    | .driver => DriverCall
    | .host => HostCall
  Result
    | .driver => DriverResult
    | .host => HostResult
  body
    | .driver => driverBody
    | .host => hostBody
  exec
    | .driver => driverExec
    | .host => hostExec
  enter
    | .driver => driverEnter
    | .host => fun _ _ s ↦ s
  leave
    | .driver => fun _ s ↦ s
    | .host => hostLeave

/-- A configuration of driver and host. -/
abbrev RingConfig := ringSystem.Config

/-- The initialised ring, a new processor and a new reader. -/
def RingConfig.initial : RingConfig where
  shared := ⟨FrameRing.initial, {}⟩
  status
    | .driver => .idle ({} : SwapChainProcessor)
    | .host => .idle ({} : FrameRingReader)

/-- A restriction on the calls of the driver. -/
def driverCalls (P : DriverCall → Prop) : ringSystem.Guard := fun _ i m _ ↦
  match i, m with
  | .driver, .enter call => P call
  | _, _ => True

/-- `SetEvent` succeeds. -/
def DriverCall.EventSet : DriverCall → Prop
  | .publish _ env => env.setEvent = true
  | .assignSwapChain => True

/-- The call belongs to the life of the present `SwapChainProcessor`. -/
def DriverCall.SameProcessor : DriverCall → Prop
  | .publish _ _ => True
  | .assignSwapChain => False

/-- The call does not give up the slot it has claimed. -/
def DriverCall.HasTimestamp : DriverCall → Prop
  | .publish frame env => env.timestampUs frame ≠ 0
  | .assignSwapChain => True

instance (P : DriverCall → Prop) [dec : DecidablePred P] (c : RingConfig) (i : Side)
    (m : ringSystem.Move i) (c' : RingConfig) : Decidable (driverCalls P c i m c') :=
  match i, m with
  | .driver, .enter call => dec call
  | .driver, .act _ | .driver, .leave | .host, _ => .isTrue trivial

instance : DecidablePred DriverCall.EventSet
  | .publish _ env => inferInstanceAs (Decidable (env.setEvent = true))
  | .assignSwapChain => .isTrue trivial

instance : DecidablePred DriverCall.SameProcessor
  | .publish _ _ => .isTrue trivial
  | .assignSwapChain => .isFalse id

instance : DecidablePred DriverCall.HasTimestamp
  | .publish frame env => inferInstanceAs (Decidable (env.timestampUs frame ≠ 0))
  | .assignSwapChain => .isTrue trivial

/-! ## Schedules -/

/-- `n` operations of one side. -/
def operations (i : Side) (n : Nat) : ringSystem.Schedule := .replicate n ⟨i, .act ()⟩

/-- A call that performs `n` operations, with nothing in between. -/
def wholeCall (i : Side) (call : ringSystem.Call i) (n : Nat) : ringSystem.Schedule :=
  ⟨i, .enter call⟩ :: operations i n ++ [⟨i, .leave⟩]

/-- Where a configuration stands: which sides are idle, the sequences published,
returned and rejected, and the state words. -/
structure Summary where
  driverIdle : Bool
  hostIdle : Bool
  published : List Nat
  returned : List Nat
  rejected : List Nat
  states : List SlotState
deriving DecidableEq

def RingConfig.summary (c : RingConfig) : Summary where
  driverIdle := (c.status .driver).isIdle
  hostIdle := (c.status .host).isIdle
  published := c.shared.log.published.map Publication.sequence
  returned := c.shared.log.returned.map Prod.fst
  rejected := c.shared.log.rejected
  states := slotIndices.map c.shared.ring.state

/-- A publish of the smallest picture there is, in black. -/
def smallPublish : DriverCall :=
  .publish
    { bufferIndex := 0
      width := 2
      height := 2
      presentDisplayQpcTime := 1
      copyDurationUs := 0
      mapDurationUs := 0
      geometry := by constructor <;> decide }
    { bgraBuffers := fun _ ↦ some fun _ ↦ 0
      mapped := true
      frequency := some 1000000
      nowQpc := none
      convertStartQpc := 0
      convertEndQpc := 0
      setEvent := true }

end SecondScreen.Ring
