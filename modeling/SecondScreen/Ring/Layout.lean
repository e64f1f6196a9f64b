import Mathlib.Algebra.Ring.Nat
import Mathlib.Logic.Function.Basic
import SecondScreen.Conc.Program

/-!
# The shared frame ring

The memory of `FrameRing.h` that the driver and the host map into their address
spaces, and the atomic operations they perform on it: the `Interlocked*`
operations on the state words, and reads and writes of single plain fields.

A slot's plain fields are indexed by `SlotField`, so that there is one read and
one write operation; `reserved0` and `reserved1` are never accessed and left
out.  Sequence numbers, frame ids and timestamps are naturals: a 64-bit counter
that starts at one and is incremented once a frame does not wrap.
-/

namespace SecondScreen.Ring

open SecondScreen.Conc

def kMagic : Nat := 0x31465253
def kVersion : Nat := 1
def kReady : Nat := 1
abbrev kSlotCount : Nat := 2
def kMaxWidth : Nat := 2560
def kMaxHeight : Nat := 1600
def kMaxStride : Nat := kMaxWidth
def kMaxPayloadBytes : Nat := kMaxStride * kMaxHeight * 3 / 2

instance : NeZero kSlotCount := ⟨Nat.succ_ne_zero 1⟩

/-- `std::numeric_limits<std::uint64_t>::max()`. -/
def uint64Max : Nat := 2 ^ 64 - 1

/-- The values `kSlotFree`, `kSlotWriting`, `kSlotReady`, `kSlotReading` of a
slot's state word. -/
inductive SlotState
  | free
  | writing
  | ready
  | reading
deriving DecidableEq, Repr

/-- The plain fields of `FrameSlot`. -/
inductive SlotField
  | sequence
  | frameId
  | captureTimestampUs
  | width
  | height
  | stride
  | payloadLength
deriving DecidableEq, Repr

/-- `FrameSlot`. -/
structure FrameSlot where
  state : SlotState := .free
  field : SlotField → Nat := fun _ ↦ 0
  payload : Nat → UInt8 := fun _ ↦ 0

/-- The header fields of `FrameRing`, in the order in which they are validated. -/
inductive HeaderField
  | magic
  | version
  | headerSize
  | slotSize
  | slotCount
  | maxWidth
  | maxHeight
  | ready
deriving DecidableEq, Repr

/-- The counters of `FrameRingTelemetry`. -/
inductive Telemetry
  | framesPublished
  | copyTotalUs
  | mapTotalUs
  | convertTotalUs
deriving DecidableEq, Repr

abbrev Slot := Fin kSlotCount

/-- `FrameRing`. -/
structure FrameRing where
  header : HeaderField → Nat
  telemetry : Telemetry → Nat := fun _ ↦ 0
  slots : Slot → FrameSlot := fun _ ↦ {}

/-- What `FrameRingHost` writes into the header: `headerSize` is the offset of
the slots and `slotSize` the size of a slot. -/
def headerValue : HeaderField → Nat
  | .magic => kMagic
  | .version => kVersion
  | .headerSize => 64
  | .slotSize => 64 + kMaxPayloadBytes
  | .slotCount => kSlotCount
  | .maxWidth => kMaxWidth
  | .maxHeight => kMaxHeight
  | .ready => kReady

/-- The ring as `FrameRingHost` initialises it: all slots free. -/
def FrameRing.initial : FrameRing := { header := headerValue }

namespace FrameRing

variable (ring : FrameRing) (i j : Slot)

abbrev state : SlotState := (ring.slots i).state
abbrev sequence : Nat := (ring.slots i).field .sequence

/-- Replace one slot. -/
def setSlot (s : FrameSlot) : FrameRing := { ring with slots := Function.update ring.slots i s }

/-- Replace the state word of one slot. -/
def setState (st : SlotState) : FrameRing := ring.setSlot i { ring.slots i with state := st }

variable {ring i j}

@[simp] theorem setSlot_same (s : FrameSlot) : (ring.setSlot i s).slots i = s :=
  Function.update_self ..

@[simp] theorem setSlot_of_ne (h : j ≠ i) (s : FrameSlot) :
    (ring.setSlot i s).slots j = ring.slots j :=
  Function.update_of_ne h ..

@[simp] theorem setState_same (st : SlotState) :
    (ring.setState i st).slots i = { ring.slots i with state := st } :=
  setSlot_same _

@[simp] theorem setState_of_ne (h : j ≠ i) (st : SlotState) :
    (ring.setState i st).slots j = ring.slots j :=
  setSlot_of_ne h _

end FrameRing

/-! ## Atomic operations -/

/-- The atomic operations on the ring, with the type of their answers. -/
inductive RingOp : Type → Type
  | /-- `InterlockedCompareExchange(&slot.state, exchange, comparand)`: the old value. -/
    compareExchange (i : Slot) (exchange comparand : SlotState) : RingOp SlotState
  | /-- `InterlockedExchange(&slot.state, value)`. -/
    exchange (i : Slot) (value : SlotState) : RingOp Unit
  | /-- A read of the state word. -/
    readState (i : Slot) : RingOp SlotState
  | readField (i : Slot) (f : SlotField) : RingOp Nat
  | writeField (i : Slot) (f : SlotField) (value : Nat) : RingOp Unit
  | readByte (i : Slot) (n : Nat) : RingOp UInt8
  | writeByte (i : Slot) (n : Nat) (value : UInt8) : RingOp Unit
  | readHeader (f : HeaderField) : RingOp Nat
  | /-- `InterlockedExchangeAdd64` and `InterlockedIncrement64` on a counter. -/
    addTelemetry (t : Telemetry) (value : Nat) : RingOp Unit

namespace RingOp

/-- The effect of an operation on the ring, and its answer. -/
def exec : Prog.Handler RingOp FrameRing
  | _, .compareExchange i new comparand, ring =>
      (ring.state i, if ring.state i = comparand then ring.setState i new else ring)
  | _, .exchange i value, ring => ((), ring.setState i value)
  | _, .readState i, ring => (ring.state i, ring)
  | _, .readField i f, ring => ((ring.slots i).field f, ring)
  | _, .writeField i f value, ring =>
      ((), ring.setSlot i
        { ring.slots i with field := Function.update (ring.slots i).field f value })
  | _, .readByte i n, ring => ((ring.slots i).payload n, ring)
  | _, .writeByte i n value, ring =>
      ((), ring.setSlot i
        { ring.slots i with payload := Function.update (ring.slots i).payload n value })
  | _, .readHeader f, ring => (ring.header f, ring)
  | _, .addTelemetry t value, ring =>
      ((), { ring with
        telemetry := Function.update ring.telemetry t (ring.telemetry t + value) })

/-- No operation writes the header. -/
theorem exec_header {β : Type} (o : RingOp β) (ring : FrameRing) :
    (exec β o ring).2.header = ring.header := by
  cases o with
  | compareExchange i new comparand =>
      simp only [exec]
      split <;> rfl
  | _ => rfl

/-- The operations that change nothing. -/
def IsRead : (β : Type) → RingOp β → Prop
  | _, .readState _ | _, .readField _ _ | _, .readByte _ _ | _, .readHeader _ => True
  | _, _ => False

end RingOp

/-- A program of the driver or the host on the ring. -/
abbrev RingProg := Prog RingOp

abbrev compareExchange (i : Slot) (exchange comparand : SlotState) : RingProg SlotState :=
  .perform (.compareExchange i exchange comparand)

abbrev exchange (i : Slot) (value : SlotState) : RingProg Unit := .perform (.exchange i value)

abbrev readState (i : Slot) : RingProg SlotState := .perform (.readState i)

abbrev readField (i : Slot) (f : SlotField) : RingProg Nat := .perform (.readField i f)

abbrev writeField (i : Slot) (f : SlotField) (value : Nat) : RingProg Unit :=
  .perform (.writeField i f value)

abbrev readByte (i : Slot) (n : Nat) : RingProg UInt8 := .perform (.readByte i n)

abbrev writeByte (i : Slot) (n : Nat) (value : UInt8) : RingProg Unit :=
  .perform (.writeByte i n value)

abbrev readHeader (f : HeaderField) : RingProg Nat := .perform (.readHeader f)

abbrev addTelemetry (t : Telemetry) (value : Nat) : RingProg Unit :=
  .perform (.addTelemetry t value)

/-- `for (index = 0; index < kSlotCount; ++index)`. -/
def slotIndices : List Slot := List.finRange kSlotCount

@[simp] theorem mem_slotIndices (i : Slot) : i ∈ slotIndices := List.mem_finRange i

end SecondScreen.Ring
