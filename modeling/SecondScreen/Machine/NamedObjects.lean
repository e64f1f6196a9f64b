import Mathlib.Data.List.Basic

/-!
# Named objects

Objects that a system keeps under a name as long as someone holds a handle to them.  The first
who creates a name makes the object, all others get a handle to the same one; with the last handle
the name is gone, and the next one who creates it makes a new object.

Each holder has at most one handle to a name.
-/

namespace SecondScreen.Machine

structure NamedHandle (η ν : Type) where
  holder : η
  name : ν
  object : Nat
deriving DecidableEq

structure NamedObjects (η ν : Type) where
  handles : List (NamedHandle η ν) := []
  /-- The number of the next object. -/
  nextObject : Nat := 0
deriving DecidableEq

namespace NamedObjects

variable {η ν : Type} {t u : NamedObjects η ν} {holder other : η} {name name' : ν}
  {o o' : Nat}

def give (t : NamedObjects η ν) (holder : η) (name : ν) (object : Nat) : NamedObjects η ν :=
  { t with handles := ⟨holder, name, object⟩ :: t.handles }

/-- All handles to a name are to one object. -/
def Agree (t : NamedObjects η ν) : Prop :=
  ∀ h ∈ t.handles, ∀ h' ∈ t.handles, h.name = h'.name → h.object = h'.object

theorem Agree.new : Agree ({} : NamedObjects η ν) := by
  rintro h ⟨⟩

/-- A further handle agrees if it is to the object of the others. -/
theorem Agree.give (h : t.Agree)
    (hname : ∀ handle ∈ t.handles, handle.name = name → handle.object = o) :
    (t.give holder name o).Agree := by
  intro x hx y hy hsame
  rcases List.mem_cons.1 hx with rfl | hx
  · rcases List.mem_cons.1 hy with rfl | hy
    · rfl
    · exact (hname y hy hsame.symm).symm
  · rcases List.mem_cons.1 hy with rfl | hy
    · exact hname x hx hsame
    · exact h x hx y hy hsame

variable [DecidableEq ν]

/-- The object under a name. -/
def object (t : NamedObjects η ν) (name : ν) : Option Nat :=
  (t.handles.find? fun h ↦ h.name = name).map NamedHandle.object

/-- Get a handle to the object under a name, which is made if there is none; and whether there
was one. -/
def create (t : NamedObjects η ν) (holder : η) (name : ν) : NamedObjects η ν × Bool :=
  match t.object name with
  | some object => (t.give holder name object, true)
  | none => ({ t.give holder name t.nextObject with nextObject := t.nextObject + 1 }, false)

/-- Get a handle to the object under a name, if there is one. -/
def openExisting (t : NamedObjects η ν) (holder : η) (name : ν) : Option (NamedObjects η ν) :=
  (t.object name).map fun object ↦ t.give holder name object

/-- A name that is found has a handle to its object. -/
theorem mem_of_object (h : t.object name = some o) :
    ∃ holder, (⟨holder, name, o⟩ : NamedHandle η ν) ∈ t.handles := by
  obtain ⟨handle, hfind, rfl⟩ := Option.map_eq_some_iff.1 h
  have hsome := List.find?_some hfind
  obtain rfl := of_decide_eq_true hsome
  exact ⟨handle.holder, List.mem_of_find?_eq_some hfind⟩

/-- A name that is not found has none. -/
theorem not_mem_of_object (h : t.object name = none) {handle : NamedHandle η ν}
    (hmem : handle ∈ t.handles) : handle.name ≠ name := by
  have hnone := List.find?_eq_none.1 (Option.map_eq_none_iff.1 h) handle hmem
  intro hname
  exact hnone (decide_eq_true hname)

/-- `create` makes a second object under no name. -/
theorem Agree.create (h : t.Agree) : (t.create holder name).1.Agree := by
  unfold NamedObjects.create
  cases hobject : t.object name with
  | none =>
      refine Agree.give (t := t) h ?_
      intro handle hmem hname
      exact absurd hname (not_mem_of_object hobject hmem)
  | some object =>
      obtain ⟨other, hother⟩ := mem_of_object hobject
      exact Agree.give h fun handle hmem hname ↦ h handle hmem _ hother hname

theorem Agree.openExisting (h : t.Agree) (hopen : t.openExisting holder name = some u) :
    u.Agree := by
  obtain ⟨object, hobject, rfl⟩ := Option.map_eq_some_iff.1 hopen
  obtain ⟨other, hother⟩ := mem_of_object hobject
  exact Agree.give h fun handle hmem hname ↦ h handle hmem _ hother hname

/-! ## Who has a handle -/

variable [DecidableEq η]

/-- The object to which a holder has a handle. -/
def objectOf (t : NamedObjects η ν) (holder : η) (name : ν) : Option Nat :=
  (t.handles.find? fun h ↦ h.holder = holder ∧ h.name = name).map NamedHandle.object

def close (t : NamedObjects η ν) (holder : η) (name : ν) : NamedObjects η ν :=
  { t with handles := t.handles.filter fun h ↦ ¬(h.holder = holder ∧ h.name = name) }

/-- What a holder has under a name is one of the handles. -/
theorem mem_of_objectOf (h : t.objectOf holder name = some o) :
    ⟨holder, name, o⟩ ∈ t.handles := by
  obtain ⟨handle, hfind, rfl⟩ := Option.map_eq_some_iff.1 h
  have hsome := List.find?_some hfind
  obtain ⟨rfl, rfl⟩ := of_decide_eq_true hsome
  exact List.mem_of_find?_eq_some hfind

/-- Who holds handles to a name holds them to one object. -/
theorem Agree.eq (h : t.Agree) (hone : t.objectOf holder name = some o)
    (hother : t.objectOf other name = some o') : o = o' :=
  h _ (mem_of_objectOf hone) _ (mem_of_objectOf hother) rfl

/-- Handles that are left agree. -/
theorem Agree.close (h : t.Agree) : (t.close holder name).Agree := by
  intro x hx y hy
  exact h x (List.mem_of_mem_filter hx) y (List.mem_of_mem_filter hy)

theorem objectOf_give_self : (t.give holder name o).objectOf holder name = some o := by
  unfold objectOf give
  rw [List.find?_cons_of_pos (by simp)]
  rfl

/-- A handle that is given changes nothing for other holders and other names. -/
theorem objectOf_give_ne (h : ¬(holder = other ∧ name = name')) :
    (t.give holder name o).objectOf other name' = t.objectOf other name' := by
  unfold objectOf give
  rw [List.find?_cons_of_neg (by simpa using h)]

/-- Who creates a name has a handle to it. -/
theorem objectOf_create_self : (t.create holder name).1.objectOf holder name ≠ none := by
  unfold create
  cases t.object name with
  | none =>
      intro hnone
      have hself : (t.give holder name t.nextObject).objectOf holder name = some t.nextObject :=
        objectOf_give_self
      exact Option.some_ne_none _ (hself.symm.trans hnone)
  | some object =>
      intro hnone
      rw [objectOf_give_self] at hnone
      cases hnone

theorem objectOf_create_ne (h : ¬(holder = other ∧ name = name')) :
    (t.create holder name).1.objectOf other name' = t.objectOf other name' := by
  unfold create
  cases t.object name with
  | none => exact objectOf_give_ne (t := t) h
  | some object => exact objectOf_give_ne h

/-- Who opens a name has a handle to it. -/
theorem objectOf_openExisting_self
    (hopen : t.openExisting holder name = some u) : u.objectOf holder name ≠ none := by
  obtain ⟨object, -, rfl⟩ := Option.map_eq_some_iff.1 hopen
  rw [objectOf_give_self]
  rintro ⟨⟩

theorem objectOf_openExisting_ne
    (hopen : t.openExisting holder name = some u) (h : ¬(holder = other ∧ name = name')) :
    u.objectOf other name' = t.objectOf other name' := by
  obtain ⟨object, -, rfl⟩ := Option.map_eq_some_iff.1 hopen
  exact objectOf_give_ne h

/-- A handle that is closed changes nothing for other holders and other names. -/
theorem objectOf_close_ne (h : ¬(holder = other ∧ name = name')) :
    (t.close holder name).objectOf other name' = t.objectOf other name' := by
  unfold objectOf close
  rw [List.find?_filter]
  congr 2
  funext handle
  by_cases hhandle : handle.holder = other ∧ handle.name = name'
  · obtain ⟨rfl, rfl⟩ := hhandle
    have hkept : ¬(handle.holder = holder ∧ handle.name = name) :=
      fun hboth ↦ h ⟨hboth.1.symm, hboth.2.symm⟩
    simp [hkept]
  · simp [hhandle]

/-- If a name is created anew, nobody has held a handle to it. -/
theorem objectOf_of_new (h : (t.create holder name).2 = false) (other : η) :
    t.objectOf other name = none := by
  unfold create at h
  cases hobject : t.object name with
  | some object =>
      rw [hobject] at h
      cases h
  | none =>
      cases hother : t.objectOf other name with
      | none => rfl
      | some object => exact absurd rfl (not_mem_of_object hobject (mem_of_objectOf hother))

end NamedObjects

end SecondScreen.Machine
