import SecondScreen.Ring.Reader

/-!
# The queue of the host

`LatestFrameQueue` of `main.cpp`, which holds the newest captured frame until the
encode worker takes it.  Every method holds the mutex from beginning to end, so each is
one function of the state; `WaitFor` is that from the moment at which it stops waiting.
-/

namespace SecondScreen.Host

open SecondScreen.Ring

structure LatestFrameQueue where
  pending : CapturedFrame := {}
  hasPending : Bool := false
  heartbeatPending : Bool := false
  closed : Bool := false
  aborted : Bool := false
  droppedFrames : Nat := 0
deriving DecidableEq, Repr

namespace LatestFrameQueue

inductive Item
  | frame
  | heartbeat
  | timeout
  | closed
deriving DecidableEq, Repr

variable (q : LatestFrameQueue)

/-- `Publish`. -/
def publish (frame : CapturedFrame) : Bool × LatestFrameQueue :=
  if q.closed || q.aborted then (false, q)
  else
    (true, { q with
      pending := frame
      droppedFrames := if q.hasPending then q.droppedFrames + 1 else q.droppedFrames
      hasPending := true })

/-- `PublishHeartbeat`. -/
def publishHeartbeat : Bool × LatestFrameQueue :=
  if q.closed || q.aborted then (false, q) else (true, { q with heartbeatPending := true })

/-- `WaitFor`: the item, and what `output` is after it.  A frame is swapped with
`output`. -/
def waitFor (output : CapturedFrame) : Item × CapturedFrame × LatestFrameQueue :=
  if q.hasPending then (.frame, q.pending, { q with pending := output, hasPending := false })
  else if q.heartbeatPending then (.heartbeat, output, { q with heartbeatPending := false })
  else if q.closed || q.aborted then (.closed, output, q)
  else (.timeout, output, q)

/-- `TakePending`. -/
def takePending (output : CapturedFrame) : Bool × CapturedFrame × LatestFrameQueue :=
  if q.hasPending then (true, q.pending, { q with pending := output, hasPending := false })
  else (false, output, q)

/-- `Close`. -/
def close : LatestFrameQueue := { q with closed := true }

/-- `Abort`. -/
def abort : LatestFrameQueue :=
  { q with aborted := true, closed := true, hasPending := false, heartbeatPending := false }

end LatestFrameQueue

end SecondScreen.Host
