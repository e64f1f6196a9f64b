import SecondScreen.Machine.NamedObjects
import SecondScreen.Conc.Runs

/-!
# Who shares the ring

The names of `FrameRing.h`, and the processes that use them: any number of hosts, each in the
constructor or the destructor of `FrameRingHost` or between them, and any number of swap-chain
processors of the driver, each with `EnsureFrameRing` and `CloseFrameRing`.  Each call of
the system is a step.

A host or a driver process may end at any time; the system then closes its handles one by one,
in any order.  Open is what the calls answer.
-/

namespace SecondScreen.Naming

open SecondScreen.Conc SecondScreen.Machine

/-- `kHostMutexName`, `kMappingName` and `kFrameReadyEventName`. -/
inductive Name
  | hostMutex
  | mapping
  | frameReady
deriving DecidableEq

inductive Party
  | host (i : Nat)
  | processor (i : Nat)
deriving DecidableEq

/-! ## Hosts -/

/-- Where a host is in the constructor or the destructor of `FrameRingHost`. -/
inductive HostPoint
  | createMutex
  | /-- Another host has the mutex: the handle is closed, and the constructor throws. -/
    refused
  | createMapping
  | createEvent
  | mapView
  | /-- The stores into the ring, from the `memset` on. -/
    setUp
  | /-- Between the constructor and the destructor. -/
    constructed
  | /-- The members are destroyed, after the destructor or an exception. -/
    closeEvent
  | closeMapping
  | closeMutex
  | gone
  | /-- The process has ended without that. -/
    dying
deriving DecidableEq

structure Host where
  point : HostPoint := .createMutex
  /-- The object that `ring_` is a view of, unless it is null. -/
  ring : Option Nat := none
deriving DecidableEq

/-- What a call of the system is answered. -/
structure Answer where
  succeeds : Bool := true
  /-- `ResetEvent`. -/
  resetEvent : Bool := true

namespace Host

variable (h : Host) (t : NamedObjects Party Name) (i : Nat)

/-- An exception: `ring_` is lost, and the members are destroyed. -/
def throw : Host := { point := .closeEvent }

def step (a : Answer) : Option (Host × NamedObjects Party Name) :=
  match h.point with
  | .createMutex =>
      if a.succeeds then
        match t.create (.host i) .hostMutex with
        | (t, true) => some ({ h with point := .refused }, t)
        | (t, false) => some ({ h with point := .createMapping }, t)
      else some ({ h with point := .gone }, t)
  | .refused => some ({ h with point := .gone }, t.close (.host i) .hostMutex)
  | .createMapping =>
      if a.succeeds then
        some ({ h with point := .createEvent }, (t.create (.host i) .mapping).1)
      else some (throw, t)
  | .createEvent =>
      if a.succeeds then
        match t.create (.host i) .frameReady with
        | (t, existed) =>
            if existed && !a.resetEvent then some (throw, t)
            else some ({ h with point := .mapView }, t)
      else some (throw, t)
  | .mapView =>
      if a.succeeds then
        some ({ h with point := .setUp, ring := t.objectOf (.host i) .mapping }, t)
      else some (throw, t)
  | .setUp => if a.succeeds then some ({ h with point := .constructed }, t) else some (throw, t)
  | .constructed => some ({ h with point := .closeEvent, ring := none }, t)
  | .closeEvent => some ({ h with point := .closeMapping }, t.close (.host i) .frameReady)
  | .closeMapping => some ({ h with point := .closeMutex }, t.close (.host i) .mapping)
  | .closeMutex => some ({ h with point := .gone }, t.close (.host i) .hostMutex)
  | .gone | .dying => none

end Host

/-! ## The driver -/

/-- Where a processor is in `EnsureFrameRing` or `CloseFrameRing`. -/
inductive ProcessorPoint
  | /-- The members are null. -/
    closed
  | openEvent
  | mapView
  | validate
  | /-- The members are set. -/
    opened
  | closeEvent
  | closeMapping
  | dying
deriving DecidableEq

structure Processor where
  point : ProcessorPoint := .closed
  /-- The object that it has a view of. -/
  view : Option Nat := none
deriving DecidableEq

namespace Processor

variable (p : Processor) (t : NamedObjects Party Name) (i : Nat)

def step (a : Answer) : Option (Processor × NamedObjects Party Name) :=
  match p.point with
  | .closed =>
      if a.succeeds then
        match t.openExisting (.processor i) .mapping with
        | some t => some ({ p with point := .openEvent }, t)
        | none => some (p, t)
      else some (p, t)
  | .openEvent =>
      if a.succeeds then
        match t.openExisting (.processor i) .frameReady with
        | some t => some ({ p with point := .mapView }, t)
        | none => some ({ p with point := .closeMapping }, t)
      else some ({ p with point := .closeMapping }, t)
  | .mapView =>
      if a.succeeds then
        some ({ p with point := .validate, view := t.objectOf (.processor i) .mapping }, t)
      else some ({ p with point := .closeEvent }, t)
  | .validate =>
      if a.succeeds then some ({ p with point := .opened }, t)
      else some ({ p with point := .closeEvent, view := none }, t)
  | .opened => some ({ p with point := .closeEvent, view := none }, t)
  | .closeEvent => some ({ p with point := .closeMapping }, t.close (.processor i) .frameReady)
  | .closeMapping => some ({ p with point := .closed }, t.close (.processor i) .mapping)
  | .dying => none

end Processor

/-! ## All processes -/

structure Processes where
  objects : NamedObjects Party Name := {}
  hosts : List Host := []
  processors : List Processor := []

inductive Event
  | startHost
  | startProcessor
  | host (i : Nat) (a : Answer)
  | processor (i : Nat) (a : Answer)
  | hostEnds (i : Nat)
  | driverEnds (i : Nat)
  | /-- The system closes a handle of a process that has ended. -/
    closeHandle (party : Party) (name : Name)

namespace Processes

variable (s : Processes)

def isDying : Party → Bool
  | .host i => s.hosts[i]?.any (·.point = .dying)
  | .processor i => s.processors[i]?.any (·.point = .dying)

def next : Event → Option Processes
  | .startHost => some { s with hosts := s.hosts ++ [{}] }
  | .startProcessor => some { s with processors := s.processors ++ [{}] }
  | .host i a =>
      match s.hosts[i]? with
      | none => none
      | some h =>
          (h.step s.objects i a).map fun
            | (h, objects) => { s with objects, hosts := s.hosts.set i h }
  | .processor i a =>
      match s.processors[i]? with
      | none => none
      | some p =>
          (p.step s.objects i a).map fun
            | (p, objects) => { s with objects, processors := s.processors.set i p }
  | .hostEnds i => some { s with hosts := s.hosts.set i { point := .dying } }
  | .driverEnds i => some { s with processors := s.processors.set i { point := .dying } }
  | .closeHandle party name =>
      if s.isDying party then some { s with objects := s.objects.close party name } else none

abbrev Run : Processes → Processes → Prop :=
  Relation.ReflTransGen (Moves next fun _ _ ↦ True)

end Processes

end SecondScreen.Naming
