import SecondScreen.Conc.Runs

/-!
# The monitor and its swap chains

The monitor context of `Driver.cpp`: the system assigns swap chains to it and takes them away,
one call after the other, and each assignment makes a `SwapChainProcessor`, whose thread runs
beside these calls and starts the conversion thread.  Both use the members of the processor,
which is destroyed by the monitor.

Swap chains are numbered in the order in which they are assigned, processors in the order in which
they are made.  Open is what the system functions answer, and when a thread goes on.
-/

namespace SecondScreen.Monitoring

open SecondScreen.Conc

/-! ## A processor -/

/-- Where the thread of a processor is in `Run` and `RunCore`. -/
inductive RunPoint
  | /-- Before `StartConversionThread`. -/
    setDevice
  | startConversionThread
  | /-- `for (;;)`. -/
    loop
  | stopConversionThread
  | closeFrameRing
  | deleteSwapChain
  | ended
deriving DecidableEq

/-- `m_BgraThread`, which is joinable unless it is absent. -/
inductive BgraThread
  | absent
  | running
  | returned
deriving DecidableEq

structure SwapChainProcessor where
  swapChain : Option Nat
  /-- `SUCCEEDED(m_StartStatus)`. -/
  isReady : Bool := true
  thread : Option RunPoint := none
  terminateEvent : Bool := false
  bgraThread : BgraThread := .absent
  bgraStop : Bool := false
  /-- `m_FrameRing != nullptr`. -/
  frameRing : Bool := false
  destroyed : Bool := false
deriving DecidableEq

/-- What a pass of `Run` is answered. -/
inductive RunAnswer
  | /-- In the loop, `EnsureFrameRing` has left the ring open or not. -/
    goesOn (frameRing : Bool)
  | fails
  | /-- `WaitForMultipleObjects` returns for `m_TerminateEvent`. -/
    terminated

/-- What comes of a pass of `ConversionThreadMain`. -/
inductive BgraAnswer
  | published
  | failed
  | /-- It has been told to stop, and the queue is empty. -/
    stopped

/-- Where `~SwapChainProcessor` is. -/
inductive Destructor
  | setTerminateEvent
  | waitForThread
  | stopConversionThread
  | closeFrameRing
  | deleteSwapChain
deriving DecidableEq

namespace SwapChainProcessor

variable (p : SwapChainProcessor)

/-- `StopConversionThread`, in two steps; the second one is `join`, which waits. -/
def stopConversionThread : Option (SwapChainProcessor × Bool) :=
  if p.bgraStop = false then some ({ p with bgraStop := true }, false)
  else if p.bgraThread = .running then none
  else some ({ p with bgraThread := .absent }, true)

/-- One step of the thread: the processor after it, and the swap chains that are deleted. -/
def run (a : RunAnswer) : Option (SwapChainProcessor × List Nat) :=
  match p.thread with
  | none | some .ended => none
  | some .setDevice =>
      match a with
      | .goesOn _ => some ({ p with thread := some .startConversionThread }, [])
      | _ => some ({ p with thread := some .deleteSwapChain }, [])
  | some .startConversionThread =>
      match a with
      | .goesOn _ => some ({ p with bgraThread := .running, thread := some .loop }, [])
      | _ => some ({ p with thread := some .deleteSwapChain }, [])
  | some .loop =>
      match a with
      | .goesOn frameRing => some ({ p with frameRing }, [])
      | .fails => some ({ p with thread := some .stopConversionThread }, [])
      | .terminated =>
          if p.terminateEvent then
            -- the event resets itself
            some ({ p with terminateEvent := false, thread := some .stopConversionThread }, [])
          else none
  | some .stopConversionThread =>
      p.stopConversionThread.map fun
        | (p, joined) =>
            ({ p with
                thread := some (if joined then .closeFrameRing else .stopConversionThread) }, [])
  | some .closeFrameRing =>
      some ({ p with frameRing := false, thread := some .deleteSwapChain }, [])
  | some .deleteSwapChain =>
      some ({ p with swapChain := none, thread := some .ended }, p.swapChain.toList)

/-- One step of the conversion thread. -/
def runConversion : BgraAnswer → Option SwapChainProcessor
  | .published => if p.bgraThread = .running then some p else none
  | .failed =>
      if p.bgraThread = .running then
        some { p with bgraThread := .returned, bgraStop := true, terminateEvent := true }
      else none
  | .stopped =>
      if p.bgraThread = .running ∧ p.bgraStop then some { p with bgraThread := .returned }
      else none

/-- One step of the destructor: the processor after it, the swap chains that are deleted, and
where the destructor is then, unless it has come to its end. -/
def destroy : Destructor → Option (SwapChainProcessor × List Nat × Option Destructor)
  | .setTerminateEvent =>
      if p.thread = none then some (p, [], some .stopConversionThread)
      else some ({ p with terminateEvent := true }, [], some .waitForThread)
  | .waitForThread =>
      if p.thread = some .ended then some (p, [], some .stopConversionThread) else none
  | .stopConversionThread =>
      p.stopConversionThread.map fun
        | (p, joined) => (p, [], some (if joined then .closeFrameRing else .stopConversionThread))
  | .closeFrameRing => some ({ p with frameRing := false }, [], some .deleteSwapChain)
  | .deleteSwapChain =>
      some ({ p with swapChain := none, destroyed := true }, p.swapChain.toList, none)

end SwapChainProcessor

/-! ## The monitor -/

/-- What a call does when a processor has been destroyed. -/
inductive After
  | /-- `AssignSwapChain` goes on. -/
    assign (swapChain : Nat)
  | /-- `AssignSwapChain` returns that the swap chain is abandoned. -/
    abandon (swapChain : Nat)
  | unassign
  | /-- `Cleanup`. -/
    cleanup
deriving DecidableEq

/-- Where the call of the system is. -/
inductive Point
  | idle
  | destroying (i : Nat) (d : Destructor) (next : After)
  | initializeDevice (swapChain : Nat)
  | newProcessor (swapChain : Nat)
  | /-- `IsReady`, asked of the processor that was made. -/
    isReady (swapChain i : Nat)
  | /-- The context is deleted. -/
    deleted
deriving DecidableEq

/-- What one step of a call is answered. -/
structure Answer where
  /-- `Initialize` of the device. -/
  device : Bool := true
  allocated : Bool := true
  /-- The events and the cursor buffer of the processor. -/
  members : Bool := true
  createThread : Bool := true
  /-- `GetLastError`, if one of these fails. -/
  lastError : Nat := 0

/-- The monitor context with all processors that were made, and beside it a record of the swap
chains. -/
structure IndirectMonitorContext where
  processor : Option Nat := none
  processors : List SwapChainProcessor := []
  point : Point := .idle
  /-- How many swap chains were assigned. -/
  assigned : Nat := 0
  /-- The swap chains that `WdfObjectDelete` was called with. -/
  deleted : List Nat := []
  /-- Those for which the system was told that they are abandoned. -/
  abandoned : List Nat := []
deriving DecidableEq

inductive Event
  | assign
  | unassign
  | cleanup
  | step (a : Answer)
  | run (i : Nat) (a : RunAnswer)
  | runConversion (i : Nat) (a : BgraAnswer)

/-- `SwapChainProcessor`. -/
def newSwapChainProcessor (swapChain : Nat) (a : Answer) : SwapChainProcessor :=
  if a.members = false then
    -- `HRESULT_FROM_WIN32` of zero is a success
    { swapChain := some swapChain, isReady := a.lastError = 0 }
  else if a.createThread = false then { swapChain := some swapChain, isReady := a.lastError = 0 }
  else { swapChain := some swapChain, thread := some .setDevice }

namespace IndirectMonitorContext

variable (s : IndirectMonitorContext)

def after : After → IndirectMonitorContext
  | .assign swapChain => { s with point := .initializeDevice swapChain }
  | .abandon swapChain => { s with point := .idle, abandoned := s.abandoned ++ [swapChain] }
  | .unassign => { s with point := .idle }
  | .cleanup => { s with point := .deleted }

/-- `m_Processor.reset()`. -/
def reset (next : After) : IndirectMonitorContext :=
  match s.processor with
  | none => s.after next
  | some i => { s with processor := none, point := .destroying i .setTerminateEvent next }

/-- The swap chain is deleted, and the call returns that it is abandoned. -/
def abandon (swapChain : Nat) : IndirectMonitorContext :=
  { s with
    point := .idle
    deleted := s.deleted ++ [swapChain]
    abandoned := s.abandoned ++ [swapChain] }

/-- One step of a call. -/
def step (a : Answer) : Option IndirectMonitorContext :=
  match s.point with
  | .idle | .deleted => none
  | .destroying i d next =>
      match s.processors[i]? with
      | none => none
      | some p =>
          (p.destroy d).map fun
            | (p, deleted, some d) =>
                { s with
                  processors := s.processors.set i p
                  deleted := s.deleted ++ deleted
                  point := .destroying i d next }
            | (p, deleted, none) =>
                after
                  { s with
                    processors := s.processors.set i p
                    deleted := s.deleted ++ deleted } next
  | .initializeDevice swapChain =>
      if a.device then some { s with point := .newProcessor swapChain }
      else some (s.abandon swapChain)
  | .newProcessor swapChain =>
      if a.allocated then
        some { s with
          processors := s.processors ++ [newSwapChainProcessor swapChain a]
          point := .isReady swapChain s.processors.length }
      else some (s.abandon swapChain)
  | .isReady swapChain i =>
      match s.processors[i]? with
      | none => none
      | some p =>
          if p.isReady then some { s with processor := some i, point := .idle }
          else some { s with point := .destroying i .setTerminateEvent (.abandon swapChain) }

def next : Event → Option IndirectMonitorContext
  | .assign =>
      match s.point with
      | .idle => some (reset { s with assigned := s.assigned + 1 } (.assign s.assigned))
      | .deleted =>
          some { s with
            assigned := s.assigned + 1
            deleted := s.deleted ++ [s.assigned]
            abandoned := s.abandoned ++ [s.assigned] }
      | _ => none
  | .unassign =>
      match s.point with
      | .idle => some (s.reset .unassign)
      | .deleted => some s
      | _ => none
  | .cleanup =>
      match s.point with
      | .idle => some (s.reset .cleanup)
      | .deleted => some s
      | _ => none
  | .step a => s.step a
  | .run i a =>
      match s.processors[i]? with
      | none => none
      | some p =>
          (p.run a).map fun
            | (p, deleted) =>
                { s with processors := s.processors.set i p, deleted := s.deleted ++ deleted }
  | .runConversion i a =>
      match s.processors[i]? with
      | none => none
      | some p =>
          (p.runConversion a).map fun p ↦ { s with processors := s.processors.set i p }

abbrev Run : IndirectMonitorContext → IndirectMonitorContext → Prop :=
  Relation.ReflTransGen (Moves next fun _ _ ↦ True)

end IndirectMonitorContext

end SecondScreen.Monitoring
