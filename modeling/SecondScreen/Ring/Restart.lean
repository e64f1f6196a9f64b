import SecondScreen.Ring.HostOps
import SecondScreen.Ring.KnownSlot
import SecondScreen.Ring.DriverProof

/-!
# Hosts come and go

The driver keeps the frame ring mapped while one host process ends and another
one starts.  The new host finds the mapping in place and sets it up afresh in
the constructor of `FrameRingHost`, one store after the other and without asking
the driver, which may be in the middle of a publish.

A host process may be killed after any of its operations.  The ring of the first
host is arbitrary, as are the counters of the driver.
-/

namespace SecondScreen.Ring

open SecondScreen.Conc SecondScreen.Conc.System

/-! ## `FrameRingHost` -/

/-- The stores to the parts of the ring outside the slots. -/
inductive SetupOp : Type → Type
  | writeHeader (f : HeaderField) (value : Nat) : SetupOp Unit
  | writeTelemetry (t : Telemetry) (value : Nat) : SetupOp Unit

/-- The effect of a store outside the slots. -/
def SetupOp.exec : Prog.Handler SetupOp FrameRing
  | _, .writeHeader f value, ring =>
      ((), { ring with header := Function.update ring.header f value })
  | _, .writeTelemetry t value, ring =>
      ((), { ring with telemetry := Function.update ring.telemetry t value })

/-- The operations of a host that also sets the ring up. -/
abbrev RestartOp (β : Type) : Type := RingOp β ⊕ SetupOp β

abbrev RestartProg := Prog RestartOp

/-- A program on the ring, as a program of such a host. -/
def liftRing {α : Type} (p : RingProg α) : RestartProg α := p.mapOp fun _ ↦ Sum.inl

abbrev setup (o : SetupOp Unit) : RestartProg Unit := .perform (.inr o)

/-- The words that `memset` clears: a payload is cleared byte by byte, everything
else field by field. -/
inductive RingWord
  | header (f : HeaderField)
  | telemetry (t : Telemetry)
  | state (i : Slot)
  | field (i : Slot) (f : SlotField)
  | byte (i : Slot) (n : Nat)

/-- The words of a slot, by address. -/
def slotWords (i : Slot) : List RingWord :=
  .state i :: fieldOrder.map (.field i) ++ (List.range kMaxPayloadBytes).map (.byte i)

/-- The words of the ring, by address. -/
def ringWords : List RingWord :=
  headerOrder.map .header ++
    [Telemetry.framesPublished, .copyTotalUs, .mapTotalUs, .convertTotalUs].map .telemetry ++
      slotIndices.flatMap slotWords

/-- The store that clears a word; `kSlotFree` is zero. -/
def RingWord.clear : RingWord → RestartProg Unit
  | .header f => setup (.writeHeader f 0)
  | .telemetry t => setup (.writeTelemetry t 0)
  | .state i => liftRing (exchange i .free)
  | .field i f => liftRing (writeField i f 0)
  | .byte i n => liftRing (writeByte i n 0)

/-- `memset`, in the given order. -/
def memset : List RingWord → RestartProg Unit
  | [] => return ()
  | word :: rest => do
      word.clear
      memset rest

def writeHeaders : List HeaderField → RestartProg Unit
  | [] => return ()
  | f :: rest => do
      setup (.writeHeader f (headerValue f))
      writeHeaders rest

/-- The loop that sets the state words of all slots. -/
def freeSlots : List Slot → RestartProg Unit
  | [] => return ()
  | i :: rest => do
      liftRing (exchange i .free)
      freeSlots rest

/-- The header fields in the order in which they are written, before `ready`. -/
def setupOrder : List HeaderField :=
  [.magic, .version, .headerSize, .slotSize, .slotCount, .maxWidth, .maxHeight]

/-- The constructor of `FrameRingHost`, from the `memset` on; it throws where this
answers `false`.  The order of the stores of `memset` is left open. -/
def frameRingHost (order : List RingWord) : RestartProg Bool := do
  memset order
  writeHeaders setupOrder
  freeSlots slotIndices
  setup (.writeHeader .ready (headerValue .ready))
  liftRing (isValidFrameRingHeader headerOrder)

/-! ## The system -/

/-- What happens to the host.  Each call may be cut short: the process is killed
after the given number of operations. -/
inductive HostLife
  | construct (order : List RingWord) (killed : Option Nat)
  | call (call : HostCall) (killed : Option Nat)

/-- A program, or as much of it as is performed before the process is killed. -/
def cutShort {α : Type} (killed : Option Nat) (p : RestartProg α) : RestartProg (Option α) :=
  match killed with
  | none => do return some (← p)
  | some n => p.upTo n

/-- The program of a host process; it has a reader once it has been constructed,
and there is none after it was killed. -/
def hostLifeBody : HostLife → Option FrameRingReader →
    RestartProg (Option HostResult × Option FrameRingReader)
  | .construct order killed, _ => do
      if (← cutShort killed (frameRingHost order)) = some true then return (none, some {})
      else return (none, none)
  | .call call killed, some r => do
      match ← cutShort killed (liftRing (hostBody call r)) with
      | some x => return (some x.1, some x.2)
      | none => return (none, none)
  | .call _ _, none => return (none, none)

/-- The ring and the record, and two more notes on the publish under way. -/
structure Restart where
  shared : Shared
  /-- How many payload bytes the publish under way has stored. -/
  stored : Nat := 0
  /-- Whether a host has changed one of these. -/
  clobbered : Bool := false

namespace Restart

/-- The number of payload bytes stored after an operation of the driver. -/
def storedAfter : (β : Type) → RingOp β → Restart → Nat
  | _, .compareExchange i _ comparand, s =>
      if s.shared.ring.state i = comparand then 0 else s.stored
  | _, .writeByte _ n _, _ => n + 1
  | _, _, s => s.stored

/-- The operation changes a payload byte which the publish under way has
stored. -/
def clobbers : (β : Type) → RingOp β → Restart → Bool
  | _, .writeByte i n value, s =>
      s.shared.log.driverOwns i && n < s.stored && (s.shared.ring.slots i).payload n != value
  | _, _, _ => false

end Restart

/-- One operation of the driver, with its record. -/
def restartDriverHandler : Prog.Handler RingOp Restart := fun β o s ↦
  let r := driverHandler β o s.shared
  (r.1, { s with shared := r.2, stored := s.storedAfter β o })

/-- One operation of a host, with its record. -/
def restartHostHandler : Prog.Handler RestartOp Restart := fun β o s ↦
  match o with
  | .inl o =>
      let r := hostHandler β o s.shared
      (r.1, { s with shared := r.2, clobbered := s.clobbered || s.clobbers β o })
  | .inr o =>
      let r := o.exec β s.shared.ring
      (r.1, { s with shared := { s.shared with ring := r.2 } })

def restartDriver : Exec RingOp Unit Restart := fun β _ o s ↦ some (restartDriverHandler β o s)

def restartHost : Exec RestartOp Unit Restart := fun β _ o s ↦ some (restartHostHandler β o s)

/-- The driver next to one host process after the other. -/
def restartSystem : System Side RestartOp Unit Restart where
  Local
    | .driver => SwapChainProcessor
    | .host => Option FrameRingReader
  Call
    | .driver => DriverCall
    | .host => HostLife
  Result
    | .driver => DriverResult
    | .host => Option HostResult
  body
    | .driver => fun call m ↦ liftRing (driverBody call m)
    | .host => hostLifeBody
  exec
    | .driver => fun β w o s ↦
        match o with
        | .inl o => restartDriver β w o s
        | .inr _ => none
    | .host => restartHost
  enter
    | .driver => fun call m s ↦ { s with shared := driverEnter call m s.shared }
    | .host => fun _ _ s ↦ s
  leave
    | .driver => fun _ s ↦ s
    | .host => fun result s ↦
        match result with
        | some x => { s with shared := hostLeave x s.shared }
        | none => s

abbrev RestartConfig := restartSystem.Config

/-- No host is running, the ring is as the last one has left it, and the driver
is between two publishes. -/
def RestartConfig.initial (ring : FrameRing) (m : SwapChainProcessor) : RestartConfig where
  shared := { shared := ⟨ring, {}⟩ }
  status
    | .driver => .idle (m : SwapChainProcessor)
    | .host => .idle (none : Option FrameRingReader)

/-- `SetEvent` succeeds. -/
def eventSet : restartSystem.Guard := fun _ i m _ ↦
  match i, m with
  | .driver, .enter call => DriverCall.EventSet call
  | _, _ => True

/-- `SetEvent` succeeds, and no step of a host changes a payload byte that the
publish under way has stored. -/
def keepsStored : restartSystem.Guard := fun c i m c' ↦
  eventSet c i m c' ∧ c'.shared.clobbered = false

end SecondScreen.Ring
