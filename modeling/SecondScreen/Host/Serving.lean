import SecondScreen.Host.JsonParser
import SecondScreen.Host.LatestFrameQueue
import SecondScreen.Host.ReadHandshake
import SecondScreen.Host.Utf8
import SecondScreen.Machine.HandleTable

/-!
# The process of the host

`main` from the making of the listener on, with `StreamClient` for each client that is
accepted, the two threads that this starts, and any number of calls of
`ConsoleControlHandler`, each on a thread of its own.  Each access to what the threads share is
a step.

Open is which handles the system gives out, when clients connect, what they send, what the
reader finds in the ring, when a call of the encoder returns, if ever, and whether it, a send or
a preparation fails.
-/

namespace SecondScreen.Host.Serving

open SecondScreen.Json SecondScreen.Machine SecondScreen.Ring

/-! ## The data -/

/-- What a socket has apart from its handle. -/
structure Socket where
  shutdown : Bool := false
  /-- The network has failed. -/
  failed : Bool := false
  /-- What has arrived and was not received. -/
  input : List Chunk := []
  /-- The other side has closed the connection. -/
  hungUp : Bool := false
  /-- How many clients wait to be accepted. -/
  backlog : Nat := 0

/-- The variables that hold a socket for others to close: `g_client` and `g_listener`. -/
inductive Slot
  | client
  | listener
deriving DecidableEq

/-- Where a call of `CloseSocket` is. -/
inductive CloseSocket
  | exchange
  | shutdown (handle : Nat)
  | closesocket (handle : Nat)
deriving DecidableEq

/-- The calls of `CloseSocket` in `main`. -/
inductive CloseSite
  | /-- After `StreamClient`. -/
    session
  | /-- After the loop. -/
    loop
  | /-- In the `catch` block. -/
    caughtListener
  | caughtClient
deriving DecidableEq

def CloseSite.slot : CloseSite → Slot
  | .session | .caughtClient => .client
  | .loop | .caughtListener => .listener

/-- Where `WaitForFrame` is. -/
inductive WaitPoint
  | /-- At `g_stop`. -/
    head
  | /-- At `externalStop`. -/
    externalStop
  | connected
  | /-- At what the reader has, or finds in the ring. -/
    reading
  | /-- At `WaitForSingleObject`. -/
    event
  | /-- At the decision whether a heartbeat is due. -/
    clock
deriving DecidableEq

/-- Where `main` is. -/
inductive MainPoint
  | create
  | storeListener
  | bind
  | listen
  | enablePrivilege
  | openRing
  | /-- At the condition of the loop. -/
    head
  | accepting
  | acceptFailed
  | storeClient
  | configure
  | /-- In `ReadHandshake`, with the line so far. -/
    receiving (line : Text)
  | /-- In `WaitForFrame`, and whether it is the first frame. -/
    waiting (first : Bool) (point : WaitPoint)
  | /-- At `SendHandshakeResponse`. -/
    responding (frame : CapturedFrame)
  | publishingFirst (frame : CapturedFrame)
  | startCursor
  | startWorker
  | /-- At `g_stop` in the condition of the capture loop, at `stopCapture`, and at
    `encodedFrames`. -/
    loopStop
  | loopCapture
  | loopFrames
  | publishing (frame : CapturedFrame)
  | publishingHeartbeat
  | closeQueue
  | joinWorker
  | stopCursor
  | joinCursor
  | storeEncoded
  | caught
  | closing (site : CloseSite) (c : CloseSocket)
  | ended
deriving DecidableEq

structure Main where
  point : MainPoint := .create
  /-- `listener`, if it is not `INVALID_SOCKET`. -/
  listener : Option Nat := none
  /-- `client`. -/
  client : Nat := 0
  /-- The place of the connection that is served. -/
  connection : Nat := 0
  encodedFrames : Nat := 0
  exitCode : Nat := 0

/-- Where the worker is. -/
inductive WorkerPoint
  | absent
  | coInitialize
  | initializeEncoder
  | head
  | waiting
  | heartbeat
  | /-- At the decision whether a refresh is due. -/
    timeout
  | /-- At `TakePending`. -/
    replacing
  | /-- In `encodeCurrentFrame`, at `g_stop`. -/
    encodeStop
  | encodeCapture
  | /-- At `EncodeFrame`. -/
    encoding
  | counting
  | /-- The frames of the command line have been encoded. -/
    draining
  | flushing
  | stopCapture
  | aborting
  | /-- At `reachedFrameLimit` in the loop. -/
    encoded
  | /-- After the loop. -/
    leaving
  | /-- In the `catch` block. -/
    caught
  | caughtCapture
  | caughtAbort
  | caughtShutdown
  | ended
deriving DecidableEq

structure Worker where
  point : WorkerPoint := .absent
  frame : CapturedFrame := {}
  hasFrame : Bool := false
  reachedFrameLimit : Bool := false

/-- Where the cursor thread is. -/
inductive CursorPoint
  | absent
  | /-- At `g_stop`, at `stopCursor`, and at `stopCapture`. -/
    head
  | stopCursor
  | stopCapture
  | polling
  | /-- The update could not be sent. -/
    failed
  | shutdown
  | sleeping
  | ended
deriving DecidableEq

/-- Where a call of `ConsoleControlHandler` is. -/
inductive HandlerPoint
  | stop
  | closing (slot : Slot) (c : CloseSocket)
  | returned
deriving DecidableEq

/-- What the threads of a session share. -/
structure StreamState where
  queue : LatestFrameQueue := {}
  stopCapture : Bool := false
  stopCursor : Bool := false
  workerFailed : Bool := false
  encodedFrames : Nat := 0

structure Process where
  /-- `frames` of the command line. -/
  frames : Nat
  /-- `g_stop`. -/
  stop : Bool := false
  client : Option Nat := none
  listener : Option Nat := none
  sockets : HandleTable Socket := []
  state : StreamState := {}
  main : Main := {}
  worker : Worker := {}
  cursor : CursorPoint := .absent
  handlers : List HandlerPoint := []
  /-- What each call of `closesocket` has closed. -/
  closes : List (Option Nat) := []

/-! ## The steps -/

/-- What a step of a thread meets. -/
inductive Answer
  | done
  | /-- The operation fails, or throws. -/
    failed
  | /-- The handle of a new socket. -/
    socket (handle : Nat)
  | frame (frame : CapturedFrame)
  | /-- The time has come. -/
    elapsed

namespace Process

variable (s : Process)

def mainAt (point : MainPoint) : Process := { s with main := { s.main with point } }

def workerAt (point : WorkerPoint) : Process := { s with worker := { s.worker with point } }

def cursorAt (cursor : CursorPoint) : Process := { s with cursor }

/-! ### Sockets -/

def slot : Slot → Option Nat
  | .client => s.client
  | .listener => s.listener

def clearSlot : Slot → Process
  | .client => { s with client := none }
  | .listener => { s with listener := none }

/-- `shutdown(handle, SD_BOTH)`. -/
def shutdown (handle : Nat) : Process :=
  { s with sockets := s.sockets.update handle fun x ↦ { x with shutdown := true } }

def closesocket (handle : Nat) : Process :=
  { s with
    sockets := s.sockets.close handle
    closes := s.closes ++ [s.sockets.resolve handle] }

/-- A step of `CloseSocket`, and what follows in it. -/
def closeSocket (slot : Slot) : CloseSocket → Process × Option CloseSocket
  | .exchange =>
      match s.slot slot with
      | none => (s, none)
      | some handle => (s.clearSlot slot, some (.shutdown handle))
  | .shutdown handle => (s.shutdown handle, some (.closesocket handle))
  | .closesocket handle => (s.closesocket handle, none)

/-- Whether what has come over the connection, or its end, can be received: `none` if the
handle names no socket, or one that fails. -/
def connection (handle : Nat) : Option Socket :=
  (s.sockets.lookup handle).filter fun x ↦ !x.shutdown && !x.failed

/-- `IsSocketConnected`. -/
def isSocketConnected (handle : Nat) : Bool :=
  (s.connection handle).any fun x ↦ !(x.input.isEmpty && x.hungUp)

/-! ### `main` -/

def frameLimit (encodedFrames : Nat) : Bool := s.frames != 0 && s.frames ≤ encodedFrames

/-- What follows after a call of `CloseSocket`. -/
def CloseSite.next : CloseSite → MainPoint
  | .session => .head
  | .loop => .ended
  | .caughtListener => .closing .caughtClient .exchange
  | .caughtClient => .ended

/-- `StreamClient` returns. -/
def leaveSession : Process := s.mainAt (.closing .session .exchange)

/-- What `StreamClient` does with a line. -/
def handshake (line : Text) : Process :=
  match isValidUtf8 line, JsonParser.parseHandshake line with
  | some true, .ok _ => s.mainAt (.waiting true .head)
  | _, _ => s.leaveSession

/-- A call of `recv` in `ReadHandshake`: `none` while nothing comes. -/
def receive (line : Text) : Option Process :=
  match s.connection s.main.client with
  | none => some s.leaveSession
  | some x =>
      match x.input with
      | [] => if x.hungUp then some s.leaveSession else none
      | chunk :: input =>
          let s := { s with
            sockets := s.sockets.update s.main.client fun x ↦ { x with input } }
          match pushBytes line chunk.bytes with
          | (line, true) => some (s.handshake line)
          | (line, false) =>
              if line.length < kMaxHandshakeBytes then some (s.mainAt (.receiving line))
              else some s.leaveSession

/-- `accept`: `none` while nobody connects. -/
def accept (listener : Nat) (a : Answer) : Option Process :=
  match s.connection listener with
  | none => some (s.mainAt .acceptFailed)
  | some x =>
      match a with
      | .socket handle =>
          if x.backlog = 0 ∨ s.sockets.openCount handle ≠ 0 then none
          else
            let sockets := s.sockets.update listener fun x ↦ { x with backlog := x.backlog - 1 }
            some { s with
              sockets := sockets.allocate handle {}
              main := { s.main with
                point := .storeClient
                client := handle
                connection := s.sockets.length } }
      | _ => none

/-- What follows if there is no frame. -/
def stopWaiting (first : Bool) : Process :=
  if first then s.leaveSession else s.mainAt .closeQueue

/-- A step of `WaitForFrame`. -/
def waitForFrame (first : Bool) (a : Answer) : WaitPoint → Process
  | .head =>
      if s.stop then s.stopWaiting first
      else s.mainAt (.waiting first (if first then .connected else .externalStop))
  | .externalStop =>
      if s.state.stopCapture then s.stopWaiting first else s.mainAt (.waiting first .connected)
  | .connected =>
      if s.isSocketConnected s.main.client then s.mainAt (.waiting first .reading)
      else s.stopWaiting first
  | .reading =>
      match a with
      | .frame frame => s.mainAt (if first then .responding frame else .publishing frame)
      | .failed => s.stopWaiting first
      | _ => s.mainAt (.waiting first .event)
  | .event =>
      match a with
      | .failed => s.stopWaiting first
      | _ => s.mainAt (.waiting first .clock)
  | .clock =>
      match a with
      | .elapsed => if first then s.leaveSession else s.mainAt .publishingHeartbeat
      | _ => s.mainAt (.waiting first .head)

/-- A preparation, which throws if it fails. -/
def prepare (next : MainPoint) : Answer → Process
  | .failed => s.mainAt .caught
  | _ => s.mainAt next

/-- One step of `main`. -/
def mainStep (a : Answer) : MainPoint → Option Process
  | .create =>
      match a with
      | .socket handle =>
          if s.sockets.openCount handle ≠ 0 then none
          else
            some { s with
              sockets := s.sockets.allocate handle {}
              main := { s.main with point := .storeListener, listener := some handle } }
      | .failed => some (s.mainAt .caught)
      | _ => none
  | .storeListener => some ({ s with listener := s.main.listener }.mainAt .bind)
  | .bind => some (s.prepare .listen a)
  | .listen => some (s.prepare .enablePrivilege a)
  | .enablePrivilege => some (s.prepare .openRing a)
  | .openRing => some (s.prepare .head a)
  | .head =>
      some (s.mainAt (if s.stop || s.frameLimit s.main.encodedFrames then .closing .loop .exchange
        else .accepting))
  | .accepting => s.main.listener.bind fun listener ↦ s.accept listener a
  | .acceptFailed =>
      some { s with
        main := { s.main with
          point := .closing .loop .exchange
          exitCode := if s.stop then s.main.exitCode else 1 } }
  | .storeClient => some ({ s with client := some s.main.client }.mainAt .configure)
  | .configure =>
      match a with
      | .failed => some (s.mainAt .caught)
      | _ => if s.sockets.openCount s.main.client = 0 then none else some (s.mainAt (.receiving []))
  | .receiving line => s.receive line
  | .waiting first point => some (s.waitForFrame first a point)
  | .responding frame =>
      match a with
      | .failed => some s.leaveSession
      | _ =>
          some ({ s with state := {}, worker := {}, cursor := .absent }.mainAt
            (.publishingFirst frame))
  | .publishingFirst frame =>
      match s.state.queue.publish frame with
      | (true, queue) => some ({ s with state := { s.state with queue } }.mainAt .startCursor)
      | (false, _) => some s.leaveSession
  | .startCursor => some ((s.cursorAt .head).mainAt .startWorker)
  | .startWorker => some ((s.workerAt .coInitialize).mainAt .loopStop)
  | .loopStop => some (s.mainAt (if s.stop then .closeQueue else .loopCapture))
  | .loopCapture => some (s.mainAt (if s.state.stopCapture then .closeQueue else .loopFrames))
  | .loopFrames =>
      some (s.mainAt (if s.frameLimit s.state.encodedFrames then .closeQueue
        else .waiting false .head))
  | .publishing frame =>
      let (accepted, queue) := s.state.queue.publish frame
      some ({ s with state := { s.state with queue } }.mainAt
        (if accepted then .loopStop else .closeQueue))
  | .publishingHeartbeat =>
      let (accepted, queue) := s.state.queue.publishHeartbeat
      some ({ s with state := { s.state with queue } }.mainAt
        (if accepted then .loopStop else .closeQueue))
  | .closeQueue =>
      some ({ s with state := { s.state with queue := s.state.queue.close } }.mainAt .joinWorker)
  | .joinWorker => if s.worker.point = .ended then some (s.mainAt .stopCursor) else none
  | .stopCursor =>
      some ({ s with state := { s.state with stopCursor := true } }.mainAt .joinCursor)
  | .joinCursor => if s.cursor = .ended then some (s.mainAt .storeEncoded) else none
  | .storeEncoded =>
      some { s with
        main := { s.main with
          point := .closing .session .exchange
          encodedFrames := s.state.encodedFrames } }
  | .caught =>
      some { s with
        main := { s.main with
          point := .closing (if s.main.listener.isSome then .caughtListener else .caughtClient)
            .exchange
          exitCode := 1 } }
  | .closing site c =>
      match s.closeSocket site.slot c with
      | (t, some c) => some (t.mainAt (.closing site c))
      | (t, none) => some (t.mainAt (CloseSite.next site))
  | .ended => none

/-! ### The worker -/

/-- An operation that throws if it fails. -/
def attempt (next : WorkerPoint) : Answer → Process
  | .failed => s.workerAt .caught
  | _ => s.workerAt next

/-- One step of the worker. -/
def workerStep (a : Answer) : WorkerPoint → Option Process
  | .absent | .ended => none
  | .coInitialize => some (s.attempt .initializeEncoder a)
  | .initializeEncoder => some (s.attempt .head a)
  | .head => some (s.workerAt (if s.stop then .leaving else .waiting))
  | .waiting =>
      let (item, frame, queue) := s.state.queue.waitFor s.worker.frame
      let point := match item with
        | .frame => .replacing
        | .heartbeat => .heartbeat
        | .timeout => .timeout
        | .closed => .leaving
      some { s with
        state := { s.state with queue }
        worker := { s.worker with point, frame } }
  | .heartbeat => some (s.attempt .head a)
  | .timeout =>
      match a with
      | .elapsed =>
          some (s.workerAt (if s.frames = 0 ∧ s.worker.hasFrame then .encodeStop else .encoded))
      | _ => some (s.workerAt .encoded)
  | .replacing =>
      match s.state.queue.takePending {} with
      | (true, frame, queue) =>
          some { s with state := { s.state with queue }, worker := { s.worker with frame } }
      | (false, _, _) =>
          some { s with worker := { s.worker with point := .encodeStop, hasFrame := true } }
  | .encodeStop => some (s.workerAt (if s.stop then .encoded else .encodeCapture))
  | .encodeCapture => some (s.workerAt (if s.state.stopCapture then .encoded else .encoding))
  | .encoding => some (s.attempt .counting a)
  | .counting =>
      let encodedFrames := s.state.encodedFrames + 1
      some ({ s with state := { s.state with encodedFrames } }.workerAt
        (if s.frameLimit encodedFrames then .draining else .encoded))
  | .draining => some (s.attempt .flushing a)
  | .flushing =>
      match a with
      | .failed => some (s.workerAt .caught)
      | _ =>
          some { s with
            worker := { s.worker with point := .stopCapture, reachedFrameLimit := true } }
  | .stopCapture =>
      some ({ s with state := { s.state with stopCapture := true } }.workerAt .aborting)
  | .aborting =>
      some ({ s with state := { s.state with queue := s.state.queue.abort } }.workerAt .encoded)
  | .encoded => some (s.workerAt (if s.worker.reachedFrameLimit then .leaving else .head))
  | .leaving =>
      if s.worker.reachedFrameLimit then some (s.workerAt .ended) else some (s.attempt .ended a)
  | .caught =>
      some ({ s with state := { s.state with workerFailed := true } }.workerAt .caughtCapture)
  | .caughtCapture =>
      some ({ s with state := { s.state with stopCapture := true } }.workerAt .caughtAbort)
  | .caughtAbort =>
      some ({ s with state := { s.state with queue := s.state.queue.abort } }.workerAt
        .caughtShutdown)
  | .caughtShutdown => some ((s.shutdown s.main.client).workerAt .ended)

/-! ### The cursor thread -/

/-- One step of the cursor thread. -/
def cursorStep (a : Answer) : CursorPoint → Option Process
  | .absent | .ended => none
  | .head => some (s.cursorAt (if s.stop then .ended else .stopCursor))
  | .stopCursor => some (s.cursorAt (if s.state.stopCursor then .ended else .stopCapture))
  | .stopCapture => some (s.cursorAt (if s.state.stopCapture then .ended else .polling))
  | .polling =>
      match a with
      | .failed => some (s.cursorAt .failed)
      | _ => some (s.cursorAt .sleeping)
  | .failed =>
      some ({ s with state := { s.state with stopCapture := true } }.cursorAt .shutdown)
  | .shutdown => some ((s.shutdown s.main.client).cursorAt .ended)
  | .sleeping => some (s.cursorAt .head)

/-! ### `ConsoleControlHandler` -/

def handlerAt (i : Nat) (point : HandlerPoint) : Process :=
  { s with handlers := s.handlers.set i point }

/-- What follows after a call of `CloseSocket`. -/
def HandlerPoint.after : Slot → HandlerPoint
  | .client => .closing .listener .exchange
  | .listener => .returned

/-- One step of a call of `ConsoleControlHandler`. -/
def handlerStep (i : Nat) : HandlerPoint → Option Process
  | .stop => some ({ s with stop := true }.handlerAt i (.closing .client .exchange))
  | .closing slot c =>
      match s.closeSocket slot c with
      | (t, some c) => some (t.handlerAt i (.closing slot c))
      | (t, none) => some (t.handlerAt i (HandlerPoint.after slot))
  | .returned => none

end Process

/-! ### All of them -/

inductive Event
  | main (a : Answer)
  | worker (a : Answer)
  | cursor (a : Answer)
  | handler (i : Nat)
  | /-- Control-C is pressed, or the console is closed. -/
    control
  | /-- Something happens to a socket: a client connects to it, sends or hangs up, or the network
    fails. -/
    connect (i : Nat)
  | arrive (i : Nat) (chunk : Chunk)
  | hangUp (i : Nat)
  | fail (i : Nat)

namespace Process

/-- The socket at a place changes. -/
def socketEvent (s : Process) (i : Nat) (f : Socket → Socket) : Process :=
  { s with sockets := s.sockets.updateAt i f }

/-- One step. -/
def next (s : Process) : Event → Option Process
  | .main a => s.mainStep a s.main.point
  | .worker a => s.workerStep a s.worker.point
  | .cursor a => s.cursorStep a s.cursor
  | .handler i => s.handlers[i]?.bind (s.handlerStep i)
  | .control => some { s with handlers := s.handlers ++ [.stop] }
  | .connect i => some (s.socketEvent i fun x ↦ { x with backlog := x.backlog + 1 })
  | .arrive i chunk =>
      some (s.socketEvent i fun x ↦
        if x.hungUp then x else { x with input := x.input ++ [chunk] })
  | .hangUp i => some (s.socketEvent i fun x ↦ { x with hungUp := true })
  | .fail i => some (s.socketEvent i fun x ↦ { x with failed := true })

/-- Before `main` makes the listener. -/
def new (frames : Nat) : Process := { frames }

end Process

end SecondScreen.Host.Serving
