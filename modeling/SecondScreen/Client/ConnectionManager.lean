import Mathlib.Logic.Function.Basic

/-!
# Connection management

`ConnectionManager.java`: any number of callers start, stop, close and reconnect, and
every start that has an effect sets off a connection loop with a token of its own, which
goes on to its end when it is superseded.  A synchronized block is one step.

Sockets are numbered in the order in which `connectSocket` returns them, receivers in
the order in which they are created.
-/

namespace SecondScreen.Client

/-- A `StreamReceiver`, with the socket that it was created with. -/
structure Receiver where
  id : Nat
  socket : Nat
deriving DecidableEq, Repr

structure ConnectionManager where
  /-- The token of the loop that the executor runs. -/
  executor : Option Nat := none
  surface : Option Nat := none
  activeSocket : Option Nat := none
  activeReceiver : Option Receiver := none
  streamStarted : Bool := false
  generation : Nat := 0
  running : Bool := false
  closed : Bool := false
deriving DecidableEq, Repr

namespace ConnectionManager

variable (m : ConnectionManager)

/-- `start`, and the token of the loop that begins. -/
def start (surface : Option Nat) (isValid : Bool) : ConnectionManager × Option Nat :=
  if surface = none ∨ isValid = false then (m, none)
  else if m.closed then (m, none)
  else if m.running then ({ m with surface }, none)
  else
    let token := m.generation + 1
    ({ m with surface, running := true, generation := token, executor := some token }, some token)

/-- `closeActiveResourcesLocked`, and the sockets that it closes. -/
def closeActiveResourcesLocked : ConnectionManager × List Nat :=
  ({ m with activeReceiver := none, activeSocket := none },
    (m.activeReceiver.map Receiver.socket).toList ++ m.activeSocket.toList)

/-- `stop`. -/
def stop : ConnectionManager × List Nat :=
  let r := closeActiveResourcesLocked
    { m with running := false, generation := m.generation + 1 }
  ({ r.1 with executor := none }, r.2)

def isCurrent (token : Nat) : Bool :=
  !m.closed && m.running && m.generation == token

def installActiveSocket (token socket : Nat) : Bool × ConnectionManager :=
  if m.closed || !m.running || m.generation != token then (false, m)
  else (true, { m with activeSocket := some socket })

def installActiveReceiver (token : Nat) (socket : Nat) (receiver : Receiver) :
    Bool × ConnectionManager :=
  if m.closed || !m.running || m.generation != token || m.activeSocket != some socket then
    (false, m)
  else (true, { m with activeReceiver := some receiver })

/-- The synchronized block of `clearActiveResources`. -/
def clearActiveResources (socket : Option Nat) (receiver : Option Receiver) : ConnectionManager :=
  let activeReceiver := if m.activeReceiver = receiver then none else m.activeReceiver
  let activeSocket := if m.activeSocket = socket then none else m.activeSocket
  { m with activeReceiver, activeSocket }

end ConnectionManager

/-! ## The connection loop -/

/-- Where `runConnectionLoop` is. -/
inductive LoopPoint
  | absent
  | /-- At `while (isCurrent(token))`. -/
    head
  | /-- In `notifyConnecting` and `connectSocket`. -/
    connecting
  | installingSocket
  | /-- At `closeQuietly(socket); return`. -/
    refused
  | handshaking
  | /-- At `isCurrent(token)` after the handshake. -/
    checking
  | creating
  | installingReceiver
  | /-- At `receiver.close(); return`. -/
    receiverRefused
  | /-- In `notifyConnected` and `receiver.run`. -/
    receiving
  | /-- In the `catch` block. -/
    failed
  | /-- In the `finally` block: at `receiver.close()`. -/
    closingReceiver
  | /-- At the synchronized block of `clearActiveResources`. -/
    clearing
  | /-- At its `closeQuietly(socket)`. -/
    closingSocket
  | /-- At `isCurrent(token)` after the `finally` block, and in `notifyDisconnected`. -/
    ended
  | /-- In `sleepBeforeReconnect`. -/
    sleeping
  | exited
deriving DecidableEq, Repr

/-- A connection loop, with the local variables of one turn. -/
structure Loop where
  point : LoopPoint := .absent
  socket : Option Nat := none
  receiver : Option Receiver := none
  /-- The `finally` block is entered by a return or an exception that is not caught. -/
  returning : Bool := false
deriving DecidableEq, Repr

/-- How what a loop does at a point ends. -/
inductive Outcome
  | done
  | /-- An exception, and whether it is one that the loop catches. -/
    thrown (caught : Bool)
deriving DecidableEq, Repr

def Loop.at (loop : Loop) (point : LoopPoint) : Loop := { loop with point }

/-- An exception in the `try` block. -/
def Loop.unwind (loop : Loop) (caught : Bool) : Loop :=
  if caught then { loop with point := .failed }
  else { loop with point := .closingReceiver, returning := true }

/-! ## The callers -/

/-- A part of a call that is one step. -/
inductive Block
  | readSurface
  | start (surface : Option Nat)
  | stop
  | /-- The synchronized block of `close`. -/
    setClosed
deriving DecidableEq, Repr

inductive Call
  | start (surface : Option Nat)
  | stop
  | close
  | reconnect
deriving DecidableEq, Repr

/-- The blocks of a call; those of `reconnect` after the first follow from what it reads. -/
def Call.blocks : Call → List Block
  | .start surface => [.start surface]
  | .stop => [.stop]
  | .close => [.setClosed, .stop]
  | .reconnect => [.readSurface]

/-! ## All of them -/

/-- That a loop has installed a socket or a receiver, with the fields at that time. -/
structure Installed where
  token : Nat
  socket : Nat
  receiver : Option Receiver
  generation : Nat
  running : Bool
deriving DecidableEq, Repr

structure Connections where
  manager : ConnectionManager := {}
  /-- What is left of each caller's call. -/
  callers : Nat → List Block := fun _ ↦ []
  loops : Nat → Loop := fun _ ↦ {}
  /-- For each socket, the loop to which `connectSocket` returned it. -/
  sockets : List Nat := []
  closedSockets : List Nat := []
  receivers : List Receiver := []
  installed : List Installed := []

inductive ConnectionEvent
  | call (caller : Nat) (call : Call)
  | /-- The next block of a call, and whether the surface it is about is valid. -/
    block (caller : Nat) (isValid : Bool)
  | loop (token : Nat) (outcome : Outcome)
  | /-- One of the receiver's threads ends and closes its socket. -/
    receiverCloses (receiver : Receiver)

namespace Connections

variable (s : Connections)

def setLoop (token : Nat) (loop : Loop) : Connections :=
  { s with loops := Function.update s.loops token loop }

/-- A block of a call, after which `rest` is left of it. -/
def blockStep (caller : Nat) (isValid : Bool) (rest : List Block) : Block → Connections
  | .readSurface =>
      { s with
        callers := Function.update s.callers caller (.stop :: .start s.manager.surface :: rest) }
  | .start surface =>
      let r := s.manager.start surface isValid
      { s with
        manager := r.1
        callers := Function.update s.callers caller rest
        loops := match r.2 with
          | none => s.loops
          | some token => Function.update s.loops token { point := .head } }
  | .stop =>
      let r := s.manager.stop
      { s with
        manager := r.1
        callers := Function.update s.callers caller rest
        closedSockets := s.closedSockets ++ r.2 }
  | .setClosed =>
      { s with
        manager := { s.manager with closed := true }
        callers := Function.update s.callers caller rest }

/-- One step of the loop with the token. -/
def loopStep (token : Nat) (outcome : Outcome) : Option Connections :=
  let loop := s.loops token
  match loop.point, outcome with
  | .absent, _ | .exited, _ => none
  | .head, .done =>
      if s.manager.isCurrent token then some (s.setLoop token { point := .connecting })
      else some (s.setLoop token (loop.at .exited))
  | .connecting, .done =>
      some { s with
        sockets := s.sockets ++ [token]
        loops := Function.update s.loops token
          { loop with point := .installingSocket, socket := some s.sockets.length } }
  | .installingSocket, .done =>
      loop.socket.map fun socket ↦
        match s.manager.installActiveSocket token socket with
        | (false, _) => s.setLoop token (loop.at .refused)
        | (true, manager) =>
            { s with
              manager
              loops := Function.update s.loops token (loop.at .handshaking)
              installed := s.installed ++
                [⟨token, socket, none, s.manager.generation, s.manager.running⟩] }
  | .refused, .done =>
      some { s with
        closedSockets := s.closedSockets ++ loop.socket.toList
        loops := Function.update s.loops token
          { loop with point := .closingReceiver, returning := true } }
  | .handshaking, .done => some (s.setLoop token (loop.at .checking))
  | .checking, .done =>
      if s.manager.isCurrent token then some (s.setLoop token (loop.at .creating))
      else some (s.setLoop token (loop.at .refused))
  | .creating, .done =>
      loop.socket.map fun socket ↦
        let receiver : Receiver := ⟨s.receivers.length, socket⟩
        { s with
          receivers := s.receivers ++ [receiver]
          loops := Function.update s.loops token
            { loop with point := .installingReceiver, receiver := some receiver } }
  | .installingReceiver, .done =>
      loop.receiver.map fun receiver ↦
        match s.manager.installActiveReceiver token receiver.socket receiver with
        | (false, _) => s.setLoop token (loop.at .receiverRefused)
        | (true, manager) =>
            { s with
              manager := { manager with streamStarted := true }
              loops := Function.update s.loops token (loop.at .receiving)
              installed := s.installed ++
                [⟨token, receiver.socket, some receiver, s.manager.generation,
                  s.manager.running⟩] }
  | .receiverRefused, .done =>
      some { s with
        closedSockets := s.closedSockets ++ (loop.receiver.map Receiver.socket).toList
        loops := Function.update s.loops token
          { loop with point := .closingReceiver, returning := true } }
  | .receiving, .done | .failed, .done => some (s.setLoop token (loop.at .closingReceiver))
  | .closingReceiver, .done =>
      some { s with
        closedSockets := s.closedSockets ++ (loop.receiver.map Receiver.socket).toList
        loops := Function.update s.loops token (loop.at .clearing) }
  | .clearing, .done =>
      some { s with
        manager := s.manager.clearActiveResources loop.socket loop.receiver
        loops := Function.update s.loops token (loop.at .closingSocket) }
  | .closingSocket, .done =>
      some { s with
        closedSockets := s.closedSockets ++ loop.socket.toList
        loops := Function.update s.loops token
          { point := if loop.returning then .exited else .ended } }
  | .ended, .done =>
      if s.manager.isCurrent token then some (s.setLoop token (loop.at .sleeping))
      else some (s.setLoop token (loop.at .exited))
  | .sleeping, .done =>
      if s.manager.isCurrent token then some (s.setLoop token (loop.at .head))
      else some (s.setLoop token (loop.at .exited))
  | .connecting, .thrown caught | .handshaking, .thrown caught | .creating, .thrown caught
  | .receiving, .thrown caught => some (s.setLoop token (loop.unwind caught))
  | .failed, .thrown _ =>
      some (s.setLoop token { loop with point := .closingReceiver, returning := true })
  | .ended, .thrown _ | .sleeping, .thrown _ => some (s.setLoop token (loop.at .exited))
  | .head, .thrown _ | .installingSocket, .thrown _ | .refused, .thrown _ | .checking, .thrown _
  | .installingReceiver, .thrown _ | .receiverRefused, .thrown _ | .closingReceiver, .thrown _
  | .clearing, .thrown _ | .closingSocket, .thrown _ => none

def next (s : Connections) : ConnectionEvent → Option Connections
  | .call caller call =>
      if s.callers caller = [] then
        some { s with callers := Function.update s.callers caller call.blocks }
      else none
  | .block caller isValid =>
      match s.callers caller with
      | [] => none
      | block :: rest => some (s.blockStep caller isValid rest block)
  | .loop token outcome => s.loopStep token outcome
  | .receiverCloses receiver =>
      if receiver ∈ s.receivers then
        some { s with closedSockets := s.closedSockets ++ [receiver.socket] }
      else none

end Connections

end SecondScreen.Client
