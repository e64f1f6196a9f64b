import SecondScreen.Naming.Processes
import SecondScreen.Machine.Lists

/-!
# One host owns the ring

Only the host that has made the mutex goes on in the constructor, and it closes the mutex last.
A view lives no longer than the handle to the mapping, so that all views are views of
one mapping, and the event that the driver signals is the one that the host waits for.
-/

namespace SecondScreen.Naming

open SecondScreen.Conc SecondScreen.Machine

variable {t u : NamedObjects Party Name} {party : Party} {names names' : List Name} {name : Name}
  {view : Option Nat} {viewed : Bool}

/-- A party has handles to the names, and its view, if it has one, is that of its mapping. -/
structure Holds (t : NamedObjects Party Name) (party : Party) (names : List Name) (viewed : Bool)
    (view : Option Nat) : Prop where
  handles : ∀ name ∈ names, t.objectOf party name ≠ none
  view : view = if viewed then t.objectOf party .mapping else none

/-- Steps of other parties leave alone what a party holds. -/
theorem Holds.frame (h : Holds t party names viewed view)
    (hsame : ∀ name, u.objectOf party name = t.objectOf party name) :
    Holds u party names viewed view where
  handles name hname := by
    rw [hsame]
    exact h.handles name hname
  view := by
    rw [hsame]
    exact h.view

/-- A party that has nothing, before its first handle and after its last. -/
theorem Holds.nothing (t : NamedObjects Party Name) (party : Party) :
    Holds t party [] false none where
  handles _ hname := by cases hname
  view := rfl

theorem mem_of_all (h : names'.all names.contains = true) (hname : name ∈ names') :
    name ∈ names :=
  List.contains_iff_mem.1 (List.all_eq_true.1 h name hname)

/-- The view and some of the names may be forgotten. -/
theorem Holds.unmapped (h : Holds t party names viewed view)
    (hsub : names'.all names.contains = true) : Holds t party names' false none where
  handles name hname := h.handles name (mem_of_all hsub hname)
  view := rfl

/-- `MapViewOfFile`: the view is of the mapping whose handle the party has. -/
theorem Holds.mapped (h : Holds t party names viewed view) :
    Holds t party names true (t.objectOf party .mapping) where
  handles := h.handles
  view := rfl

theorem Holds.same (h : Holds t party names false view) : view = none := h.view

/-- A name that the party creates is one more that it has a handle to. -/
theorem Holds.create (h : Holds t party names false view) (name : Name) :
    Holds (t.create party name).1 party (name :: names) false view where
  handles name' hname := by
    by_cases hsame : name = name'
    · subst hsame
      exact NamedObjects.objectOf_create_self
    · rw [NamedObjects.objectOf_create_ne fun hboth ↦ hsame hboth.2]
      refine h.handles name' ?_
      rcases List.mem_cons.1 hname with rfl | hname
      · exact absurd rfl hsame
      · exact hname
  view := h.view

/-- So is a name that it opens. -/
theorem Holds.openExisting (h : Holds t party names false view)
    (hopen : t.openExisting party name = some u) : Holds u party (name :: names) false view where
  handles name' hname := by
    by_cases hsame : name = name'
    · subst hsame
      exact NamedObjects.objectOf_openExisting_self hopen
    · rw [NamedObjects.objectOf_openExisting_ne hopen fun hboth ↦ hsame hboth.2]
      refine h.handles name' ?_
      rcases List.mem_cons.1 hname with rfl | hname
      · exact absurd rfl hsame
      · exact hname
  view := h.view

/-- Closing one name leaves the handles to the others; the view has to be gone before. -/
theorem Holds.close (h : Holds t party names false view)
    (hsub : names'.all names.contains = true) (hname : names'.contains name = false) :
    Holds (t.close party name) party names' false view where
  handles name' hmem := by
    rw [NamedObjects.objectOf_close_ne]
    · exact h.handles name' (mem_of_all hsub hmem)
    · rintro ⟨-, rfl⟩
      rw [List.contains_iff_mem.2 hmem] at hname
      cases hname
  view := h.view

/-! ## One step of a party -/

/-- The handles that a host has for sure. -/
def HostPoint.held : HostPoint → List Name
  | .createMutex | .refused | .gone | .dying => []
  | .createMapping | .closeEvent | .closeMapping | .closeMutex => [.hostMutex]
  | .createEvent => [.mapping, .hostMutex]
  | .mapView | .setUp | .constructed => [.frameReady, .mapping, .hostMutex]

def HostPoint.hasView : HostPoint → Bool
  | .setUp | .constructed => true
  | _ => false

/-- The host has made the mutex and not closed it. -/
def HostPoint.owns (p : HostPoint) : Bool := p.held.contains .hostMutex

def ProcessorPoint.held : ProcessorPoint → List Name
  | .closed | .dying => []
  | .openEvent | .closeEvent | .closeMapping => [.mapping]
  | .mapView | .validate | .opened => [.frameReady, .mapping]

def ProcessorPoint.hasView : ProcessorPoint → Bool
  | .validate | .opened => true
  | _ => false

def Host.Ok (h : Host) (t : NamedObjects Party Name) (i : Nat) : Prop :=
  Holds t (.host i) h.point.held h.point.hasView h.ring

def Processor.Ok (p : Processor) (t : NamedObjects Party Name) (i : Nat) : Prop :=
  Holds t (.processor i) p.point.held p.point.hasView p.view

/-- What a step of a party does to the handles. -/
structure Handles (party : Party) (t u : NamedObjects Party Name) : Prop where
  agree : t.Agree → u.Agree
  others : ∀ other, other ≠ party → ∀ name, u.objectOf other name = t.objectOf other name

theorem Handles.same (party : Party) (t : NamedObjects Party Name) : Handles party t t :=
  ⟨id, fun _ _ _ ↦ rfl⟩

/-- Creating a name gives no other party a handle, nor takes one away. -/
theorem Handles.create (party : Party) (name : Name) (t : NamedObjects Party Name) :
    Handles party t (t.create party name).1 :=
  ⟨NamedObjects.Agree.create, fun _ hother _ ↦
    NamedObjects.objectOf_create_ne fun hboth ↦ hother hboth.1.symm⟩

theorem Handles.openExisting (hopen : t.openExisting party name = some u) : Handles party t u :=
  ⟨fun h ↦ h.openExisting hopen, fun _ hother _ ↦
    NamedObjects.objectOf_openExisting_ne hopen fun hboth ↦ hother hboth.1.symm⟩

/-- A party closes its own handle only. -/
theorem Handles.close (party : Party) (name : Name) (t : NamedObjects Party Name) :
    Handles party t (t.close party name) :=
  ⟨NamedObjects.Agree.close, fun _ hother _ ↦
    NamedObjects.objectOf_close_ne fun hboth ↦ hother hboth.1.symm⟩

/-- What a step of a host does. -/
structure HostStep (i : Nat) (h h' : Host) (t u : NamedObjects Party Name) : Prop where
  handles : Handles (.host i) t u
  ok : h'.Ok u i
  owns : h'.point.owns = true → h.point.owns = true ∨ ∀ party, t.objectOf party .hostMutex = none

/-- One call of a host keeps what it holds, and only `CreateMutex` that finds no mutex makes it an
owner. -/
theorem Host.Ok.step {h h' : Host} {i : Nat} (hok : h.Ok t i) {a : Answer}
    (hstep : h.step t i a = some (h', u)) : HostStep i h h' t u := by
  obtain ⟨point, ring⟩ := h
  cases point with
  | createMutex =>
      obtain rfl : ring = none := Holds.same hok
      simp only [Host.step] at hstep
      split_ifs at hstep
      · split at hstep
        · next t' hcreate =>
          cases hstep
          have hhandles := Handles.create (.host i) .hostMutex t
          rw [hcreate] at hhandles
          exact ⟨hhandles, .nothing _ _, by rintro ⟨⟩⟩
        · next t' hcreate =>
          cases hstep
          have hhandles := Handles.create (.host i) .hostMutex t
          have hcreated := Holds.create hok .hostMutex
          have hnew := NamedObjects.objectOf_of_new (congrArg Prod.snd hcreate)
          rw [hcreate] at hhandles hcreated
          exact ⟨hhandles, hcreated, fun _ ↦ .inr hnew⟩
      · cases hstep
        exact ⟨.same _ _, .nothing _ _, by rintro ⟨⟩⟩
  | refused =>
      obtain rfl : ring = none := Holds.same hok
      cases hstep
      exact ⟨.close _ _ _, .nothing _ _, by rintro ⟨⟩⟩
  | createMapping =>
      simp only [Host.step] at hstep
      split_ifs at hstep
      · cases hstep
        exact ⟨.create _ _ _, Holds.create hok _, fun _ ↦ .inl rfl⟩
      · cases hstep
        exact ⟨.same _ _, Holds.unmapped hok rfl, fun _ ↦ .inl rfl⟩
  | createEvent =>
      have hhandles := Handles.create (.host i) .frameReady t
      have hcreated := Holds.create hok .frameReady
      simp only [Host.step] at hstep
      split_ifs at hstep
      · cases hstep
        exact ⟨hhandles, Holds.unmapped hcreated rfl, fun _ ↦ .inl rfl⟩
      · cases hstep
        exact ⟨hhandles, hcreated, fun _ ↦ .inl rfl⟩
      · cases hstep
        exact ⟨.same _ _, Holds.unmapped hok rfl, fun _ ↦ .inl rfl⟩
  | mapView =>
      simp only [Host.step] at hstep
      split_ifs at hstep
      · cases hstep
        exact ⟨.same _ _, Holds.mapped hok, fun _ ↦ .inl rfl⟩
      · cases hstep
        exact ⟨.same _ _, Holds.unmapped hok rfl, fun _ ↦ .inl rfl⟩
  | setUp =>
      simp only [Host.step] at hstep
      split_ifs at hstep
      · cases hstep
        exact ⟨.same _ _, hok, fun _ ↦ .inl rfl⟩
      · cases hstep
        exact ⟨.same _ _, Holds.unmapped hok rfl, fun _ ↦ .inl rfl⟩
  | constructed =>
      cases hstep
      exact ⟨.same _ _, Holds.unmapped hok rfl, fun _ ↦ .inl rfl⟩
  | closeEvent =>
      cases hstep
      exact ⟨.close _ _ _, Holds.close hok rfl rfl, fun _ ↦ .inl rfl⟩
  | closeMapping =>
      cases hstep
      exact ⟨.close _ _ _, Holds.close hok rfl rfl, fun _ ↦ .inl rfl⟩
  | closeMutex =>
      cases hstep
      exact ⟨.close _ _ _, Holds.close hok rfl rfl, by rintro ⟨⟩⟩
  | gone => cases hstep
  | dying => cases hstep

/-- One call of a processor keeps what it holds. -/
theorem Processor.Ok.step {p p' : Processor} {i : Nat} (hok : p.Ok t i) {a : Answer}
    (hstep : p.step t i a = some (p', u)) : Handles (.processor i) t u ∧ p'.Ok u i := by
  obtain ⟨point, view⟩ := p
  cases point with
  | closed =>
      simp only [Processor.step] at hstep
      split_ifs at hstep
      · split at hstep
        · next t' hopen =>
          cases hstep
          exact ⟨.openExisting hopen, Holds.openExisting hok hopen⟩
        · cases hstep
          exact ⟨.same _ _, hok⟩
      · cases hstep
        exact ⟨.same _ _, hok⟩
  | openEvent =>
      simp only [Processor.step] at hstep
      split_ifs at hstep
      · split at hstep
        · next t' hopen =>
          cases hstep
          exact ⟨.openExisting hopen, Holds.openExisting hok hopen⟩
        · cases hstep
          exact ⟨.same _ _, hok⟩
      · cases hstep
        exact ⟨.same _ _, hok⟩
  | mapView =>
      obtain rfl : view = none := Holds.same hok
      simp only [Processor.step] at hstep
      split_ifs at hstep
      · cases hstep
        exact ⟨.same _ _, Holds.mapped hok⟩
      · cases hstep
        exact ⟨.same _ _, Holds.unmapped hok rfl⟩
  | validate =>
      simp only [Processor.step] at hstep
      split_ifs at hstep
      · cases hstep
        exact ⟨.same _ _, hok⟩
      · cases hstep
        exact ⟨.same _ _, Holds.unmapped hok rfl⟩
  | opened =>
      cases hstep
      exact ⟨.same _ _, Holds.unmapped hok rfl⟩
  | closeEvent =>
      cases hstep
      exact ⟨.close _ _ _, Holds.close hok rfl rfl⟩
  | closeMapping =>
      cases hstep
      exact ⟨.close _ _ _, Holds.close hok rfl rfl⟩
  | dying => cases hstep

/-! ## All processes -/

namespace Processes

variable {s s' : Processes} {i : Nat}

structure Inv (s : Processes) : Prop where
  agree : s.objects.Agree
  hosts : ∀ (i : Nat) h, s.hosts[i]? = some h → h.Ok s.objects i
  processors : ∀ (i : Nat) p, s.processors[i]? = some p → p.Ok s.objects i
  single : ∀ (i j : Nat) h h', s.hosts[i]? = some h → s.hosts[j]? = some h' →
    h.point.owns = true → h'.point.owns = true → i = j

/-- The mutex exists as long as its owner has not closed it. -/
theorem owner_has {h : Host} (hok : h.Ok t i) (howns : h.point.owns = true) :
    t.objectOf (.host i) .hostMutex ≠ none :=
  hok.handles _ (List.contains_iff_mem.1 howns)

/-- A step of a host keeps the invariant; a new owner has seen that nobody had the mutex. -/
theorem Inv.host (hinv : Inv s) {h h' : Host} (hget : s.hosts[i]? = some h)
    (hstep : HostStep i h h' s.objects u) :
    Inv { s with objects := u, hosts := s.hosts.set i h' } where
  agree := hstep.handles.agree hinv.agree
  hosts j k hk := by
    rcases getElem?_set_cases hk with ⟨rfl, rfl⟩ | ⟨hne, hk⟩
    · exact hstep.ok
    · refine (hinv.hosts j k hk).frame (hstep.handles.others _ ?_)
      rintro ⟨⟩
      exact hne rfl
  processors j p hp := by
    refine (hinv.processors j p hp).frame (hstep.handles.others _ ?_)
    rintro ⟨⟩
  single := by
    -- whoever has made the mutex has kept all others from making it
    have hmade (howns : h'.point.owns = true) (j : Nat) (k : Host) (hk : s.hosts[j]? = some k)
        (hkowns : k.point.owns = true) : i = j := by
      rcases hstep.owns howns with hbefore | hnew
      · exact hinv.single i j h k hget hk hbefore hkowns
      · exact absurd (hnew _) (owner_has (hinv.hosts j k hk) hkowns)
    intro j j' k k' hk hk' hkowns hkowns'
    rcases getElem?_set_cases hk with ⟨rfl, rfl⟩ | ⟨-, hold⟩
    · rcases getElem?_set_cases hk' with ⟨rfl, -⟩ | ⟨-, hold'⟩
      · rfl
      · exact hmade hkowns j' k' hold' hkowns'
    · rcases getElem?_set_cases hk' with ⟨rfl, rfl⟩ | ⟨-, hold'⟩
      · exact (hmade hkowns' j k hold hkowns).symm
      · exact hinv.single j j' k k' hold hold' hkowns hkowns'

/-- A step of a processor keeps the invariant, for no processor has the mutex. -/
theorem Inv.processor (hinv : Inv s) {p' : Processor}
    (hhandles : Handles (.processor i) s.objects u) (hok : p'.Ok u i) :
    Inv { s with objects := u, processors := s.processors.set i p' } where
  agree := hhandles.agree hinv.agree
  hosts j k hk := by
    refine (hinv.hosts j k hk).frame (hhandles.others _ ?_)
    rintro ⟨⟩
  processors j k hk := by
    rcases getElem?_set_cases hk with ⟨rfl, rfl⟩ | ⟨hne, hk⟩
    · exact hok
    · refine (hinv.processors j k hk).frame (hhandles.others _ ?_)
      rintro ⟨⟩
      exact hne rfl
  single := hinv.single

theorem Inv.startHost (hinv : Inv s) : Inv { s with hosts := s.hosts ++ [{}] } where
  agree := hinv.agree
  hosts j k hk := by
    rcases getElem?_concat_cases hk with hk | ⟨-, rfl⟩
    · exact hinv.hosts j k hk
    · exact .nothing _ _
  processors := hinv.processors
  single j j' k k' hk hk' hkowns hkowns' := by
    rcases getElem?_concat_cases hk with hk | ⟨-, rfl⟩
    · rcases getElem?_concat_cases hk' with hk' | ⟨-, rfl⟩
      · exact hinv.single j j' k k' hk hk' hkowns hkowns'
      · cases hkowns'
    · cases hkowns

theorem Inv.startProcessor (hinv : Inv s) :
    Inv { s with processors := s.processors ++ [{}] } where
  agree := hinv.agree
  hosts := hinv.hosts
  processors j k hk := by
    rcases getElem?_concat_cases hk with hk | ⟨-, rfl⟩
    · exact hinv.processors j k hk
    · exact .nothing _ _
  single := hinv.single

/-- The end of a process closes nothing yet. -/
theorem hostStep_dying (h : Host) (t : NamedObjects Party Name) :
    HostStep i h { point := .dying } t t where
  handles := .same _ _
  ok := .nothing _ _
  owns howns := by cases howns

/-- The system closes a handle of a process that has ended. -/
theorem Inv.closeHandle (hinv : Inv s) (hdying : s.isDying party = true) (name : Name) :
    Inv { s with objects := s.objects.close party name } where
  agree := (Handles.close party name s.objects).agree hinv.agree
  hosts j k hk := by
    have hok := hinv.hosts j k hk
    by_cases hsame : Party.host j = party
    · subst hsame
      have hany : s.hosts[j]?.any (fun k ↦ k.point = .dying) = true := hdying
      rw [show s.hosts[j]? = some k from hk] at hany
      have hpoint : k.point = .dying := of_decide_eq_true hany
      unfold Host.Ok at hok ⊢
      rw [hpoint] at hok ⊢
      rw [hok.same]
      exact .nothing _ _
    · exact hok.frame ((Handles.close party name s.objects).others _ hsame)
  processors j k hk := by
    have hok := hinv.processors j k hk
    by_cases hsame : Party.processor j = party
    · subst hsame
      have hany : s.processors[j]?.any (fun k ↦ k.point = .dying) = true := hdying
      rw [show s.processors[j]? = some k from hk] at hany
      have hpoint : k.point = .dying := of_decide_eq_true hany
      unfold Processor.Ok at hok ⊢
      rw [hpoint] at hok ⊢
      rw [hok.same]
      exact .nothing _ _
    · exact hok.frame ((Handles.close party name s.objects).others _ hsame)
  single := hinv.single

/-- One step of any host or processor, the system closing a handle of a dead one included. -/
theorem Inv.next (hinv : Inv s) {e : Event} (hnext : s.next e = some s') : Inv s' := by
  cases e with
  | startHost =>
      cases hnext
      exact hinv.startHost
  | startProcessor =>
      cases hnext
      exact hinv.startProcessor
  | host i a =>
      simp only [Processes.next] at hnext
      split at hnext
      · cases hnext
      · next h hget =>
        obtain ⟨⟨h', objects⟩, hstep, rfl⟩ := Option.map_eq_some_iff.1 hnext
        exact hinv.host hget ((hinv.hosts i h hget).step hstep)
  | processor i a =>
      simp only [Processes.next] at hnext
      split at hnext
      · cases hnext
      · next p hget =>
        obtain ⟨⟨p', objects⟩, hstep, rfl⟩ := Option.map_eq_some_iff.1 hnext
        obtain ⟨hhandles, hok⟩ := (hinv.processors i p hget).step hstep
        exact hinv.processor hhandles hok
  | hostEnds i =>
      cases hnext
      cases hget : s.hosts[i]? with
      | none =>
          rw [List.set_eq_of_length_le (List.getElem?_eq_none_iff.1 hget)]
          exact hinv
      | some h => exact hinv.host hget (hostStep_dying h s.objects)
  | driverEnds i =>
      cases hnext
      exact hinv.processor (.same _ _) (.nothing _ _)
  | closeHandle party name =>
      simp only [Processes.next] at hnext
      split_ifs at hnext with hdying
      cases hnext
      exact hinv.closeHandle hdying name

theorem Inv.new : Inv {} where
  agree := .new
  hosts i h hget := by cases hget
  processors i p hget := by cases hget
  single i j h h' hget := by cases hget

/-- The invariant holds in every run, from no processes at all. -/
theorem Inv.run (h : Run {} s) : Inv s :=
  run_preserves (fun h ⟨_, _, hnext⟩ ↦ h.next hnext) .new h

/-! ## The result -/

/-- The object of a view is that of the handle to the mapping. -/
theorem Holds.objectOf_view {o : Nat} (h : Holds t party names viewed (some o)) :
    viewed = true ∧ t.objectOf party .mapping = some o := by
  have hview := h.view
  cases viewed with
  | false => cases hview
  | true => exact ⟨rfl, hview.symm⟩

/-- A host with a view owns the mutex and has handles to the mapping and the event. -/
theorem hasView_owns {p : HostPoint} (h : p.hasView = true) :
    p.owns = true ∧ Name.mapping ∈ p.held ∧ Name.frameReady ∈ p.held := by
  cases p with
  | setUp => decide
  | constructed => decide
  | _ => cases h

/-- **One host owns the ring.**  In any run of any number of hosts and processors, which may end
at any time, one host at most has passed the check of the mutex and not closed it, and no
other has a view of the ring.  All views are views of the same mapping, and the event that a
processor signals is the one that the host waits for. -/
theorem one_host_owns (h : Run {} s) :
    (∀ (i j : Nat) h h', s.hosts[i]? = some h → s.hosts[j]? = some h' → h.point.owns = true →
      h'.point.owns = true → i = j) ∧
    (∀ (i : Nat) h, s.hosts[i]? = some h → h.ring ≠ none → h.point.owns = true) ∧
    (∀ (i j : Nat) h p o, s.hosts[i]? = some h → s.processors[j]? = some p →
      p.view = some o → h.point.hasView = true → h.ring = some o) ∧
    (∀ (i j : Nat) p q o o', s.processors[i]? = some p → s.processors[j]? = some q →
      p.view = some o → q.view = some o' → o = o') ∧
    ∀ (i j : Nat) h p, s.hosts[i]? = some h → s.processors[j]? = some p →
      h.point.hasView = true → p.point = .opened →
        ∃ o, s.objects.objectOf (.host i) .frameReady = some o ∧
          s.objects.objectOf (.processor j) .frameReady = some o := by
  have hinv := Inv.run h
  refine ⟨hinv.single, ?_, ?_, ?_, ?_⟩
  · intro i h hget hring
    obtain ⟨o, ho⟩ := Option.ne_none_iff_exists'.1 hring
    have hok := hinv.hosts i h hget
    unfold Host.Ok at hok
    rw [ho] at hok
    exact (hasView_owns (Holds.objectOf_view hok).1).1
  · intro i j h p o hget hp hview hpoint
    have hok := hinv.hosts i h hget
    have hpok := hinv.processors j p hp
    unfold Processor.Ok at hpok
    rw [hview] at hpok
    obtain ⟨o', ho'⟩ := Option.ne_none_iff_exists'.1 (hok.handles _ (hasView_owns hpoint).2.1)
    have hring : h.ring = some o' := by
      rw [hok.view, if_pos hpoint]
      exact ho'
    rw [hring, hinv.agree.eq ho' (Holds.objectOf_view hpok).2]
  · intro i j p q o o' hp hq hpview hqview
    have hpok := hinv.processors i p hp
    have hqok := hinv.processors j q hq
    unfold Processor.Ok at hpok hqok
    rw [hpview] at hpok
    rw [hqview] at hqok
    exact hinv.agree.eq (Holds.objectOf_view hpok).2 (Holds.objectOf_view hqok).2
  · intro i j h p hget hp hpoint hopened
    have hok := hinv.hosts i h hget
    have hpok := hinv.processors j p hp
    obtain ⟨o, ho⟩ := Option.ne_none_iff_exists'.1 (hok.handles _ (hasView_owns hpoint).2.2)
    have hheld : Name.frameReady ∈ p.point.held := by
      rw [hopened]
      exact List.mem_cons_self
    obtain ⟨o', ho'⟩ := Option.ne_none_iff_exists'.1 (hpok.handles _ hheld)
    refine ⟨o, ho, ?_⟩
    rw [ho', hinv.agree.eq ho ho']

/-- A host is killed while the driver has its ring open; the next one is refused as long as the
mutex is not closed, and the one after it gets the mapping that the driver has. -/
def restarted : List Event :=
  let start (i : Nat) : List Event :=
    [.startHost, .host i {}, .host i {}, .host i {}, .host i {}, .host i {}]
  start 0 ++
    [.startProcessor, .processor 0 {}, .processor 0 {}, .processor 0 {}, .processor 0 {},
     .hostEnds 0, .closeHandle (.host 0) .mapping, .startHost, .host 1 {}, .host 1 {},
     .closeHandle (.host 0) .hostMutex, .closeHandle (.host 0) .frameReady] ++
    start 2

theorem one_host_owns_restarted : ∃ (s : Processes) (h : Host), s.hosts[2]? = some h ∧
    h.ring = some 1 ∧ ∃ o, s.objects.objectOf (.host 2) .frameReady = some o ∧
      s.objects.objectOf (.processor 0) .frameReady = some o := by
  obtain ⟨s, hrun, hhost, hprocessor⟩ : ∃ s, Run {} s ∧
      s.hosts[2]?.map Host.point = some .constructed ∧
      s.processors[0]? = some { point := .opened, view := some 1 } :=
    exists_run restarted (by decide +kernel)
  obtain ⟨h, hget, hpoint⟩ := Option.map_eq_some_iff.1 hhost
  have hview : h.point.hasView = true := by
    rw [hpoint]
    rfl
  obtain ⟨-, -, hring, -, hevent⟩ := one_host_owns hrun
  exact ⟨s, h, hget, hring 2 0 h _ 1 hget hprocessor rfl hview,
    hevent 2 0 h _ hget hprocessor hview rfl⟩

end Processes

end SecondScreen.Naming
