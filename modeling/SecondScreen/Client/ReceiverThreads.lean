import SecondScreen.Client.HandshakeResponse
import SecondScreen.Client.LatestFrameQueue
import SecondScreen.Client.StreamReceiver

/-!
# The threads of a receiver

`run` of `StreamReceiver.java` with the decoder thread and the watchdog that it starts, and
any number of calls of `close` from elsewhere.  Each access to what the threads share is a
step of its own; a call of the queue, whose methods are synchronized, is one step.

What arrives and when, what `MediaCodec` answers, and whether the listener of the cursor
throws is open.  The clock of `System.nanoTime` does not wrap.
-/

namespace SecondScreen.Client.Receiving

open SecondScreen.Machine

/-! ## The data -/

def STALL_TIMEOUT_NANOS : Int := 5000000000

/-- What a thread throws. -/
inductive Throwable
  | io (e : IOException)
  | interrupted
  | /-- An exception of another class, with its message. -/
    other (message : Option String)
deriving DecidableEq

def asIOException (message : String) : Throwable → IOException
  | .io e => e
  | .interrupted | .other none => .io message
  | .other (some detail) => .io (message ++ ": " ++ detail)

/-- The fields of `StreamStats` that the watchdog looks at. -/
structure StreamStats where
  videoPacketsReceived : Nat := 0
  lastPacketReceivedNanos : Int := 0
  lastFrameReceivedNanos : Int := 0
  lastDecoderActivityNanos : Int := 0
deriving DecidableEq

/-- What the watchdog finds in the snapshot and on its clock. -/
def stallMessage (snapshot : StreamStats) (now : Int) : Option String :=
  if snapshot.lastPacketReceivedNanos = 0 ∨
      now - snapshot.lastPacketReceivedNanos > STALL_TIMEOUT_NANOS then
    some "No stream packet received for 5 seconds"
  else
    let recentVideo := snapshot.lastFrameReceivedNanos ≠ 0 ∧
      now - snapshot.lastFrameReceivedNanos ≤ STALL_TIMEOUT_NANOS
    if recentVideo ∧ snapshot.videoPacketsReceived > 1 ∧
        (snapshot.lastDecoderActivityNanos = 0 ∨
          now - snapshot.lastDecoderActivityNanos > STALL_TIMEOUT_NANOS) then
      some "Video decoder stopped processing for 5 seconds"
    else none

/-- `start` of `VideoDecoder`, with the message of the exception if the codec cannot be
configured: the decoder after it. -/
def startDecoder (info : ConnectionInfo) (failure : Option String) :
    Except IOException VideoDecoder :=
  if info.width ≤ 0 ∨ info.height ≤ 0 then
    .error (.protocol ("Host returned invalid video dimensions: " ++ toString info.width ++ "x" ++
      toString info.height))
  else
    match failure with
    | some message => .error (.io ("Unable to start H.264 MediaCodec: " ++ message))
    | none => .ok { started := true }

/-! ## The threads -/

/-- The next of `closed = true`, `queue.close()` and `closeSocket()`. -/
inductive Closing
  | flag
  | queue
  | socket
deriving DecidableEq

/-- What follows after one of the three. -/
def Closing.next {P : Type} (closing : Closing → P) (after : P) : Closing → P
  | .flag => closing .queue
  | .queue => closing .socket
  | .socket => after

/-- How `run` ends. -/
inductive RunResult
  | returned
  | threw (e : IOException)
  | /-- With an exception that is not an `IOException`. -/
    died
deriving DecidableEq

/-- A statement of `packetReceived`, with the time that it has read. -/
inductive Recording
  | count
  | readClock
  | packetStamp (now : Int)
  | frameStamp (now : Int)
deriving DecidableEq

/-- Where `run` is.  What `readVideoPacket` and the loop have in common is told apart by
`first`. -/
inductive ReaderPoint
  | idle
  | reading (first : Bool)
  | dispatching (first : Bool) (frame : EncodedFrame)
  | /-- In `heartbeatReceived`, with the time once it is read. -/
    heartbeat (first : Bool) (now : Option Int)
  | video (first : Bool) (frame : EncodedFrame) (recording : Recording)
  | /-- At `decoder.start`. -/
    starting (frame : EncodedFrame)
  | /-- At `decoderThread = new Thread`. -/
    newThread (frame : EncodedFrame)
  | /-- At `decoderThread.start()`. -/
    startingThread (frame : EncodedFrame)
  | offering (first : Bool) (frame : EncodedFrame)
  | /-- At `queue.takeDroppedFrames()`. -/
    counting (first : Bool)
  | startingWatchdog
  | /-- At `while (!closed)`. -/
    head
  | /-- At `decoderFailure.get()` in the loop. -/
    checking
  | /-- In the `catch` block. -/
    caught (e : IOException)
  | /-- In the `finally` block. -/
    closing (c : Closing)
  | interruptDecoder
  | joinDecoder
  | interruptWatchdog
  | joinWatchdog
  | /-- At `decoderFailure.get()` after the `finally` block. -/
    readFailure
  | /-- At `!stopRequested`, with the failure. -/
    reporting (failure : Option Throwable)
  | ended (result : RunResult)
deriving DecidableEq

structure Reader where
  point : ReaderPoint := .idle
  terminalError : Option IOException := none
  /-- The `finally` block is entered by an exception that is not caught. -/
  uncaught : Bool := false

/-- Where `decodeLoop` is. -/
inductive DecoderPoint
  | absent
  | head
  | taking
  | /-- In `wait()`, and whether it was notified. -/
    waiting (notified : Bool)
  | decoding (frame : EncodedFrame)
  | /-- In `stats.decoderActivity()`, with the time. -/
    stamping (frame : EncodedFrame) (now : Int)
  | submitting (frame : EncodedFrame)
  | /-- At `!stopRequested` in a `catch` block. -/
    caught (t : Throwable)
  | /-- At `decoderFailure.compareAndSet`. -/
    recording (t : Throwable)
  | closing (c : Closing)
  | releasing
  | ended
deriving DecidableEq

/-- The thread is notified, if it waits. -/
def DecoderPoint.notify : DecoderPoint → DecoderPoint
  | .waiting _ => .waiting true
  | point => point

/-- Where `watchdogLoop` is.  A snapshot reads the fields one after the other. -/
inductive WatchdogPoint
  | absent
  | head
  | sleeping
  | awake
  | readVideoPackets
  | readLastPacket (snapshot : StreamStats)
  | readLastFrame (snapshot : StreamStats)
  | readLastActivity (snapshot : StreamStats)
  | deciding (snapshot : StreamStats)
  | /-- In `failStream`. -/
    failing (message : String)
  | closing (c : Closing)
  | ended
deriving DecidableEq

/-- Where a call of `close` is. -/
inductive CloserPoint
  | stop
  | closing (c : Closing)
  | interrupt
  | returned
deriving DecidableEq

/-- What has been recorded in the statistics, each the last one first. -/
structure Times where
  packets : List Int := []
  frames : List Int := []
  activity : List Int := []
deriving DecidableEq

/-- The receiver and its threads. -/
structure Session where
  info : ConnectionInfo
  stats : StreamStats := {}
  queue : LatestFrameQueue EncodedFrame := {}
  decoderFailure : Option Throwable := none
  closed : Bool := false
  stopRequested : Bool := false
  socketClosed : Bool := false
  /-- What has arrived and was not read. -/
  input : InputStream := []
  /-- The host has closed the connection. -/
  endOfStream : Bool := false
  clock : Int := 0
  decoder : VideoDecoder := {}
  reader : Reader := {}
  decoderThread : DecoderPoint := .absent
  decoderInterrupted : Bool := false
  watchdogThread : WatchdogPoint := .absent
  watchdogInterrupted : Bool := false
  closers : List CloserPoint := []
  times : Times := {}
  /-- What had been recorded when the watchdog began its snapshot. -/
  passTimes : Times := {}

/-! ## The steps -/

/-- What a step of a thread meets. -/
inductive Answer
  | done
  | /-- The operation throws an `IOException`, or `MediaCodec` one with this message. -/
    failed (message : String)
  | /-- An exception that is not checked. -/
    threw (message : Option String)
  | /-- The answers of the codec to a `decode`. -/
    codec (answers : CodecAnswers)

namespace Session

variable (s : Session)

def readerAt (point : ReaderPoint) : Session := { s with reader := { s.reader with point } }

def decoderAt (point : DecoderPoint) : Session := { s with decoderThread := point }

def watchdogAt (point : WatchdogPoint) : Session := { s with watchdogThread := point }

/-- `notifyAll` on the queue: only the decoder thread waits there. -/
def notifyAll : Session := s.decoderAt s.decoderThread.notify

/-- Whether `offer` returns before it queues the frame. -/
def refuses (frame : EncodedFrame) : Bool :=
  s.queue.closed || MAX_PENDING_FRAMES ≤ s.queue.pending.length &&
    (s.queue.pending.head?.any EncodedFrame.randomAccess && !frame.randomAccess)

/-- `offer`, which notifies if it has queued the frame. -/
def offer (frame : EncodedFrame) : Session :=
  let t := { s with queue := s.queue.offer EncodedFrame.randomAccess frame }
  if s.refuses frame then t else t.notifyAll

/-- The next of `closed = true`, `queue.close()` and `closeSocket()`. -/
def close : Closing → Session
  | .flag => { s with closed := true }
  | .queue => ({ s with queue := s.queue.close }).notifyAll
  | .socket => { s with socketClosed := true }

/-- `decoderFailure.compareAndSet(null, t)`. -/
def compareAndSet (t : Throwable) : Session :=
  { s with decoderFailure := s.decoderFailure.or (some t) }

/-! ### `run` -/

/-- Where `readVideoPacket` and the loop go on after a packet. -/
def again (first : Bool) : ReaderPoint := if first then .reading true else .head

/-- An `IOException` in `readVideoPacket` or in the `try` block. -/
def readerThrows (first : Bool) (e : IOException) : Session :=
  s.readerAt (if first then .ended (.threw e) else .caught e)

/-- An exception there that is not an `IOException`. -/
def readerDies (first : Bool) : Session :=
  if first then s.readerAt (.ended .died)
  else { s with reader := { s.reader with point := .closing .flag, uncaught := true } }

/-- `readPacket`: `none` while it waits for what is missing. -/
def read (first : Bool) : Answer → Option Session
  | .done =>
      match readPacket (Int64.ofInt s.clock) s.input with
      | .ok (frame, input) =>
          let s := { s with input }
          some (s.readerAt
            (if frame.heartbeat then .heartbeat first none
            else if frame.control then .dispatching first frame
            else .video first frame .count))
      | .error (.eof message) =>
          if s.endOfStream then some (s.readerThrows first (.eof message)) else none
      | .error e => some (s.readerThrows first e)
  | .failed message => some (s.readerThrows first (.io message))
  | .threw _ => some (s.readerDies first)
  | .codec _ => none

/-- `dispatchControl`. -/
def dispatch (first : Bool) (frame : EncodedFrame) : Answer → Option Session
  | .done =>
      match dispatchControl frame with
      | .error e => some (s.readerThrows first e)
      | .ok _ => some (s.readerAt (again first))
  | .threw _ =>
      match dispatchControl frame with
      | .ok (some _) => some (s.readerDies first)
      | _ => none
  | .failed _ | .codec _ => none

/-- A statement of `heartbeatReceived`. -/
def recordHeartbeat (first : Bool) : Option Int → Session
  | none => s.readerAt (.heartbeat first (some s.clock))
  | some now =>
      { s.readerAt (again first) with
        stats := { s.stats with lastPacketReceivedNanos := now }
        times := { s.times with packets := now :: s.times.packets } }

/-- A statement of `packetReceived`. -/
def recordVideo (first : Bool) (frame : EncodedFrame) : Recording → Session
  | .count =>
      { s.readerAt (.video first frame .readClock) with
        stats := { s.stats with videoPacketsReceived := s.stats.videoPacketsReceived + 1 } }
  | .readClock => s.readerAt (.video first frame (.packetStamp s.clock))
  | .packetStamp now =>
      { s.readerAt (.video first frame (.frameStamp now)) with
        stats := { s.stats with lastPacketReceivedNanos := now }
        times := { s.times with packets := now :: s.times.packets } }
  | .frameStamp now =>
      { s.readerAt (if first then .starting frame else .offering false frame) with
        stats := { s.stats with lastFrameReceivedNanos := now }
        times := { s.times with frames := now :: s.times.frames } }

/-- How `run` ends when it has read this failure. -/
def report (failure : Option Throwable) : RunResult :=
  match if s.stopRequested then none else failure, s.reader.terminalError with
  | some failure, _ => .threw (asIOException "H.264 decoder stopped" failure)
  | none, some e => .threw e
  | none, none => .returned

/-- One step of `run`. -/
def readerStep (a : Answer) : ReaderPoint → Option Session
  | .idle => some (s.readerAt (.reading true))
  | .reading first => s.read first a
  | .dispatching first frame => s.dispatch first frame a
  | .heartbeat first now => some (s.recordHeartbeat first now)
  | .video first frame recording => some (s.recordVideo first frame recording)
  | .starting frame =>
      let failure := match a with
        | .failed message => some message
        | _ => none
      match startDecoder s.info failure with
      | .error e => some (s.readerAt (.ended (.threw e)))
      | .ok decoder => some ({ s with decoder }.readerAt (.newThread frame))
  | .newThread frame => some (s.readerAt (.startingThread frame))
  | .startingThread frame => some ((s.decoderAt .head).readerAt (.offering true frame))
  | .offering first frame => some ((s.offer frame).readerAt (.counting first))
  | .counting first =>
      some ({ s with queue := s.queue.takeDroppedFrames.2 }.readerAt
        (if first then .startingWatchdog else .head))
  | .startingWatchdog => some ((s.watchdogAt .head).readerAt .head)
  | .head => some (s.readerAt (if s.closed then .closing .flag else .checking))
  | .checking =>
      match s.decoderFailure with
      | some failure => some (s.readerAt (.caught (asIOException "H.264 decoder stopped" failure)))
      | none => some (s.readerAt (.reading false))
  | .caught e =>
      let terminalError := if s.stopRequested then s.reader.terminalError else some e
      some { s with reader := { s.reader with point := .closing .flag, terminalError } }
  | .closing c => some ((s.close c).readerAt (c.next .closing .interruptDecoder))
  | .interruptDecoder => some ({ s with decoderInterrupted := true }.readerAt .joinDecoder)
  -- the thread has ended, or a second has passed, or the wait is interrupted
  | .joinDecoder => some (s.readerAt .interruptWatchdog)
  | .interruptWatchdog => some ({ s with watchdogInterrupted := true }.readerAt .joinWatchdog)
  | .joinWatchdog => some (s.readerAt (if s.reader.uncaught then .ended .died else .readFailure))
  | .readFailure => some (s.readerAt (.reporting s.decoderFailure))
  | .reporting failure => some (s.readerAt (.ended (s.report failure)))
  | .ended _ => none

/-! ### `decodeLoop` -/

/-- `take`, at the head of its loop: `wait()` throws at once if the thread is interrupted. -/
def take : Session :=
  match s.queue.take with
  | some (some frame, queue) => { s with queue }.decoderAt (.decoding frame)
  | some (none, _) => s.decoderAt .releasing
  | none =>
      if s.decoderInterrupted then
        { s with decoderInterrupted := false }.decoderAt (.caught .interrupted)
      else s.decoderAt (.waiting false)

/-- What `decode` does after `decoderActivity`. -/
def submit (frame : EncodedFrame) : Answer → Option Session
  | .codec answers =>
      let d := s.decoder.decode frame answers
      let s := { s with decoder := d.decoder }
      match d.result with
      | .error e => some (s.decoderAt (.caught (.io e)))
      | .ok _ => some (s.decoderAt .head)
  | .threw message => some (s.decoderAt (.caught (.other message)))
  | .done | .failed _ => none

/-- One step of `decodeLoop`. -/
def decoderStep (a : Answer) : DecoderPoint → Option Session
  | .absent | .ended => none
  | .head => some (s.decoderAt (if s.closed then .releasing else .taking))
  | .taking => some s.take
  | .waiting notified =>
      match a with
      | .threw _ =>
          -- of a thread that is notified and interrupted, `wait()` may return or throw
          if s.decoderInterrupted then
            some ({ s with decoderInterrupted := false }.decoderAt (.caught .interrupted))
          else none
      | _ => if notified then some (s.decoderAt .taking) else none
  | .decoding frame =>
      if s.decoder.started then some (s.decoderAt (.stamping frame s.clock))
      else some (s.decoderAt (.caught (.io (.io "H.264 decoder is not started"))))
  | .stamping frame now =>
      some { s.decoderAt (.submitting frame) with
        stats := { s.stats with lastDecoderActivityNanos := now }
        times := { s.times with activity := now :: s.times.activity } }
  | .submitting frame => s.submit frame a
  | .caught t =>
      if s.stopRequested then
        some (s.decoderAt (if t = .interrupted then .releasing else .closing .flag))
      else some (s.decoderAt (.recording t))
  | .recording t =>
      some ((s.compareAndSet t).decoderAt
        (if t = .interrupted then .releasing else .closing .flag))
  | .closing c => some ((s.close c).decoderAt (c.next .closing .releasing))
  | .releasing => some ({ s with decoder := { s.decoder with started := false } }.decoderAt .ended)

/-! ### `watchdogLoop` -/

/-- One step of `watchdogLoop`. -/
def watchdogStep (a : Answer) : WatchdogPoint → Option Session
  | .absent | .ended => none
  | .head => some (s.watchdogAt (if s.closed then .ended else .sleeping))
  | .sleeping =>
      match a with
      | .threw _ =>
          if s.watchdogInterrupted then
            some ({ s with watchdogInterrupted := false }.watchdogAt .ended)
          else none
      | _ => some (s.watchdogAt .awake)
  | .awake => some (s.watchdogAt (if s.closed then .ended else .readVideoPackets))
  | .readVideoPackets =>
      some { s.watchdogAt
          (.readLastPacket { videoPacketsReceived := s.stats.videoPacketsReceived }) with
        passTimes := s.times }
  | .readLastPacket snapshot =>
      some (s.watchdogAt (.readLastFrame
        { snapshot with lastPacketReceivedNanos := s.stats.lastPacketReceivedNanos }))
  | .readLastFrame snapshot =>
      some (s.watchdogAt (.readLastActivity
        { snapshot with lastFrameReceivedNanos := s.stats.lastFrameReceivedNanos }))
  | .readLastActivity snapshot =>
      some (s.watchdogAt (.deciding
        { snapshot with lastDecoderActivityNanos := s.stats.lastDecoderActivityNanos }))
  | .deciding snapshot =>
      match stallMessage snapshot s.clock with
      | some message => some (s.watchdogAt (.failing message))
      | none => some (s.watchdogAt .head)
  | .failing message =>
      some ((s.compareAndSet (.io (.io message))).watchdogAt (.closing .flag))
  | .closing c => some ((s.close c).watchdogAt (c.next .closing .ended))

/-! ### `close` -/

def closerAt (i : Nat) (point : CloserPoint) : Session :=
  { s with closers := s.closers.set i point }

/-- One step of a call of `close`.  The field `decoderThread` is read without synchronization,
so that its thread need not be seen. -/
def closerStep (i : Nat) (seen : Bool) : CloserPoint → Option Session
  | .stop => some ({ s with stopRequested := true }.closerAt i (.closing .flag))
  | .closing c => some ((s.close c).closerAt i (c.next .closing .interrupt))
  | .interrupt =>
      some ({ s with decoderInterrupted := s.decoderInterrupted || seen }.closerAt i .returned)
  | .returned => none

end Session

/-! ### All of them -/

inductive Event
  | reader (a : Answer)
  | decoder (a : Answer)
  | watchdog (a : Answer)
  | closer (i : Nat) (seen : Bool)
  | /-- `close` is called. -/
    close
  | arrive (portion : List UInt8)
  | hangUp
  | /-- `wait()` returns without a reason. -/
    spurious

namespace Session

/-- One step. -/
def step (s : Session) : Event → Option Session
  | .reader a => s.readerStep a s.reader.point
  | .decoder a => s.decoderStep a s.decoderThread
  | .watchdog a => s.watchdogStep a s.watchdogThread
  | .closer i seen => s.closers[i]?.bind (s.closerStep i seen)
  | .close => some { s with closers := s.closers ++ [.stop] }
  | .arrive portion =>
      if s.endOfStream || s.socketClosed then none
      else some { s with input := s.input ++ [portion] }
  | .hangUp => some { s with endOfStream := true }
  | .spurious =>
      match s.decoderThread with
      | .waiting _ => some (s.decoderAt .taking)
      | _ => none

/-- One step, at a time of the clock. -/
def next (s : Session) (e : Int × Event) : Option Session :=
  if e.1 < s.clock then none else ({ s with clock := e.1 }).step e.2

end Session

end SecondScreen.Client.Receiving
