import SecondScreen.Client.QueueDrops
import SecondScreen.Host.LatestFrameQueue
import SecondScreen.Wire.RoundTrip

/-!
# A session of the host

The capture thread and the encode worker of `StreamClient`.  The capture thread offers
the frames that the reader delivers to the queue; the worker waits for one, replaces it
by newer ones as long as there are any, and encodes what it then has.  While nothing new
arrives it encodes the same frame again.

Frames are numbered where they are captured, and an access unit carries the number of the
frame that it was made from.
-/

namespace SecondScreen.Host

open SecondScreen.Client SecondScreen.Ring SecondScreen.Wire

/-- Where the worker is: at `WaitFor`, in the `TakePending` loop, or at its end. -/
inductive WorkerPoint
  | waiting
  | replacing
  | stopped
deriving DecidableEq, Repr

/-- The two threads of a session. -/
structure StreamSession where
  queue : LatestFrameQueue := {}
  point : WorkerPoint := .waiting
  /-- The worker's `frame` and `hasFrame`. -/
  frame : CapturedFrame := {}
  hasFrame : Bool := false
  stop : Bool := false
  stopCapture : Bool := false
  /-- What `EncodeFrame` was called with. -/
  encoded : List CapturedFrame := []
  /-- How many access units have been sent. -/
  sent : Nat := 0
  /-- What the queue has accepted. -/
  published : List CapturedFrame := []
deriving DecidableEq, Repr

inductive SessionEvent
  | publish (frame : CapturedFrame)
  | publishHeartbeat
  | close
  | stop
  | /-- `WaitFor`, and whether after it an idle refresh is due. -/
    waitFor (refreshDue : Bool)
  | takePending
  | /-- The encoder or the socket fails. -/
    workerFailed
  | /-- The encoder hands out the access unit of the next picture. -/
    send

namespace StreamSession

/-- `encodeCurrentFrame`; `frames` is the limit of the command line, if not zero. -/
def encodeCurrentFrame (frames : Nat) (s : StreamSession) : StreamSession :=
  if s.stop || s.stopCapture then s
  else
    let encoded := s.encoded ++ [s.frame]
    if frames ≠ 0 ∧ frames ≤ encoded.length then
      { s with
        encoded
        sent := encoded.length
        stopCapture := true
        queue := s.queue.abort
        point := .stopped }
    else { s with encoded }

/-- What follows `WaitFor`. -/
def received (frames : Nat) (refreshDue : Bool) (s : StreamSession) :
    LatestFrameQueue.Item × CapturedFrame × LatestFrameQueue → StreamSession
  | (.frame, frame, queue) => { s with frame, queue, point := .replacing }
  | (.heartbeat, _, queue) => { s with queue }
  | (.closed, _, queue) => { s with queue, point := .stopped }
  | (.timeout, _, queue) =>
      if frames = 0 && s.hasFrame && refreshDue then
        encodeCurrentFrame frames { s with queue }
      else { s with queue }

def step (frames : Nat) (s : StreamSession) : SessionEvent → Option StreamSession
  | .publish frame =>
      match s.queue.publish frame with
      | (true, queue) => some { s with queue, published := s.published ++ [frame] }
      | (false, queue) => some { s with queue }
  | .publishHeartbeat => some { s with queue := s.queue.publishHeartbeat.2 }
  | .close => some { s with queue := s.queue.close }
  | .stop => some { s with stop := true }
  | .waitFor refreshDue =>
      if s.point = .waiting then
        if s.stop then some { s with point := .stopped }
        else some (s.received frames refreshDue (s.queue.waitFor s.frame))
      else none
  | .takePending =>
      if s.point = .replacing then
        match s.queue.takePending {} with
        | (true, frame, queue) => some { s with frame, queue }
        | (false, _, queue) =>
            some (encodeCurrentFrame frames
              { s with queue, hasFrame := true, point := .waiting })
      else none
  | .workerFailed =>
      if s.point = .stopped then none
      else some { s with stopCapture := true, queue := s.queue.abort, point := .stopped }
  | .send => if s.sent < s.encoded.length then some { s with sent := s.sent + 1 } else none

/-- The threads in any interleaving. -/
def run (frames : Nat) (events : List SessionEvent) : Option StreamSession :=
  events.foldlM (step frames) {}

/-- The access units that the client receives: picture `k` is encoded to `payload k`, and
read at the time `now k`. -/
def units (payload : Nat → List UInt8) (now : Nat → Int64) (s : StreamSession) :
    List EncodedFrame :=
  (s.encoded.take s.sent).mapIdx fun k frame ↦
    videoFrame (now k) (.ofNat frame.frameId) (.ofNat frame.captureTimestampUs) (payload k)

/-! ## What the worker encodes -/

/-- What is encoded was published, in the order in which it was. -/
structure InOrder (s : StreamSession) : Prop where
  pending : s.queue.hasPending = true → s.published.getLast? = some s.queue.pending
  frame : s.point = .replacing ∨ s.hasFrame = true → s.frame ∈ s.published
  encoded : ∀ f ∈ s.encoded, f ∈ s.published ∧ f.frameId ≤ s.frame.frameId
  sorted : s.encoded.Pairwise fun f g ↦ f.frameId ≤ g.frameId
  sent : s.sent ≤ s.encoded.length

/-- The frame ids that the driver gives. -/
def Increasing (frames : List CapturedFrame) : Prop :=
  frames.Pairwise fun f g ↦ f.frameId < g.frameId

end StreamSession

end SecondScreen.Host
