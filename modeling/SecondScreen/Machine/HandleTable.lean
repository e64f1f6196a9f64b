import Mathlib.Data.List.Basic
import Mathlib.Tactic.SplitIfs

/-!
# Handles that are used again

A table of what a process has opened.  An entry is named by its handle while it is open, and
its handle may be given out again as soon as it is closed; its place in the table is never used
again, so that it tells entries apart that had the same handle one after the other.
-/

namespace SecondScreen.Machine

/-- What was opened under a handle. -/
structure HandleEntry (α : Type) where
  handle : Nat
  isOpen : Bool := true
  data : α

variable {α : Type}

/-- Whether the entry is what the handle names. -/
def HandleEntry.opens (e : HandleEntry α) (h : Nat) : Bool := e.isOpen && e.handle == h

/-- The entries, in the order in which they were opened. -/
abbrev HandleTable (α : Type) := List (HandleEntry α)

namespace HandleTable

variable {t u : HandleTable α} {h h' i : Nat}

/-- The place of what the handle names. -/
def resolve (t : HandleTable α) (h : Nat) : Option Nat := t.findIdx? (·.opens h)

def lookup (t : HandleTable α) (h : Nat) : Option α := (t.find? (·.opens h)).map (·.data)

def openCount (t : HandleTable α) (h : Nat) : Nat := t.countP (·.opens h)

def allocate (t : HandleTable α) (h : Nat) (data : α) : HandleTable α :=
  t ++ [{ handle := h, data }]

def close (t : HandleTable α) (h : Nat) : HandleTable α :=
  match t with
  | [] => []
  | e :: t => if e.opens h then { e with isOpen := false } :: t else e :: close t h

/-- Change what the handle names. -/
def update (t : HandleTable α) (h : Nat) (f : α → α) : HandleTable α :=
  match t with
  | [] => []
  | e :: t => if e.opens h then { e with data := f e.data } :: t else e :: update t h f

/-- Change the entry at a place. -/
def updateAt (t : HandleTable α) (i : Nat) (f : α → α) : HandleTable α :=
  t.modify i fun e ↦ { e with data := f e.data }

/-- The handle names nothing else than the entry at this place. -/
def Names (t : HandleTable α) (h i : Nat) : Prop :=
  ∀ j e, t[j]? = some e → e.opens h = true → j = i

/-- The entry at this place was closed. -/
def ClosedAt (t : HandleTable α) (i : Nat) : Prop :=
  ∃ e, t[i]? = some e ∧ e.isOpen = false

theorem opens_iff {e : HandleEntry α} : e.opens h = true ↔ e.isOpen = true ∧ e.handle = h := by
  simp [HandleEntry.opens]

theorem openCount_cons (e : HandleEntry α) (t : HandleTable α) (h : Nat) :
    openCount (e :: t) h = openCount t h + if e.opens h then 1 else 0 := List.countP_cons ..

theorem resolve_eq_none : t.resolve h = none ↔ t.openCount h = 0 := by
  simp [resolve, openCount, List.countP_eq_zero]

theorem lookup_eq_none : t.lookup h = none ↔ t.openCount h = 0 := by
  simp [lookup, openCount, List.countP_eq_zero]

/-- What a handle resolves to is open and has this handle. -/
theorem resolve_eq_some (hresolve : t.resolve h = some i) :
    ∃ e, t[i]? = some e ∧ e.opens h = true := by
  obtain ⟨hi, hopens, -⟩ := List.findIdx?_eq_some_iff_getElem.1 hresolve
  exact ⟨t[i], List.getElem?_eq_getElem hi, hopens⟩

/-- An open handle resolves. -/
theorem exists_resolve (hcount : 0 < t.openCount h) : ∃ i, t.resolve h = some i := by
  refine Option.ne_none_iff_exists'.1 fun hnone ↦ ?_
  exact absurd (resolve_eq_none.1 hnone) (Nat.pos_iff_ne_zero.1 hcount)

/-- A handle that names an object resolves to no other one. -/
theorem Names.resolve (hnames : t.Names h i) {j : Nat} (hresolve : t.resolve h = some j) :
    j = i := by
  obtain ⟨e, hj, hopens⟩ := resolve_eq_some hresolve
  exact hnames j e hj hopens

/-- A handle that is open once names what it resolves to. -/
theorem names_of_resolve (hone : t.openCount h ≤ 1) (hresolve : t.resolve h = some i) :
    t.Names h i := by
  induction t generalizing i with
  | nil => cases hresolve
  | cons e t ih =>
      rw [openCount_cons] at hone
      rw [HandleTable.resolve, List.findIdx?_cons] at hresolve
      split_ifs at hone hresolve with hopens
      · cases hresolve
        have hzero : openCount t h = 0 := by omega
        intro j e' hj hopens'
        cases j with
        | zero => rfl
        | succ j =>
            exact absurd hopens' (List.countP_eq_zero.1 hzero e' (List.mem_of_getElem? hj))
      · obtain ⟨k, hk, rfl⟩ := Option.map_eq_some_iff.1 hresolve
        intro j e' hj hopens'
        cases j with
        | zero =>
            cases hj
            exact absurd hopens' hopens
        | succ j => exact congrArg Nat.succ (ih hone hk j e' hj hopens')

/-- A handle that is open resolves to what it names. -/
theorem Names.resolve_eq (hnames : t.Names h i) (hopen : 0 < t.openCount h) :
    t.resolve h = some i := by
  obtain ⟨j, hj⟩ := exists_resolve hopen
  rw [hj, hnames.resolve hj]

/-! ## Changes of the data -/

/-- The two tables differ in their data only. -/
def SameKeys (t u : HandleTable α) : Prop :=
  t.map (fun e ↦ (e.handle, e.isOpen)) = u.map fun e ↦ (e.handle, e.isOpen)

/-- An update through a handle changes no handle. -/
theorem sameKeys_update (t : HandleTable α) (h : Nat) (f : α → α) :
    SameKeys (t.update h f) t := by
  induction t with
  | nil => rfl
  | cons e t ih =>
      rw [update]
      split_ifs
      · rfl
      · exact congrArg (_ :: ·) ih

/-- Nor does an update at a place. -/
theorem sameKeys_updateAt (t : HandleTable α) (i : Nat) (f : α → α) :
    SameKeys (t.updateAt i f) t := by
  induction t generalizing i with
  | nil => cases i <;> rfl
  | cons e t ih =>
      cases i with
      | zero => rfl
      | succ i => exact congrArg (_ :: ·) (ih i)

/-- Entry by entry, the handles are the same and open or not alike. -/
theorem SameKeys.getElem? (hkeys : SameKeys t u) {e : HandleEntry α} (hi : t[i]? = some e) :
    ∃ e', u[i]? = some e' ∧ e'.handle = e.handle ∧ e'.isOpen = e.isOpen := by
  have hmap := congrArg (·[i]?) hkeys
  simp only [List.getElem?_map, hi, Option.map_some] at hmap
  obtain ⟨e', he', hkey⟩ := Option.map_eq_some_iff.1 hmap.symm
  exact ⟨e', he', (Prod.mk.inj hkey).1, (Prod.mk.inj hkey).2⟩

theorem SameKeys.symm (hkeys : SameKeys t u) : SameKeys u t := Eq.symm hkeys

theorem SameKeys.length (hkeys : SameKeys t u) : t.length = u.length := by
  simpa only [List.length_map] using congrArg List.length hkeys

theorem SameKeys.openCount (hkeys : SameKeys t u) (h : Nat) : t.openCount h = u.openCount h := by
  have hcount (t : HandleTable α) : t.openCount h =
      (t.map fun e ↦ (e.handle, e.isOpen)).countP fun k ↦ k.2 && k.1 == h := by
    rw [List.countP_map]
    rfl
  rw [hcount t, hcount u, hkeys]

/-- Handles name the same objects. -/
theorem SameKeys.names (hkeys : SameKeys t u) (hnames : u.Names h i) : t.Names h i := by
  intro j e hj hopens
  obtain ⟨e', he', hhandle, hisOpen⟩ := hkeys.getElem? hj
  obtain ⟨ho, hh⟩ := opens_iff.1 hopens
  exact hnames j e' he' (opens_iff.2 ⟨hisOpen.trans ho, hhandle.trans hh⟩)

/-- The same objects are closed. -/
theorem SameKeys.closedAt (hkeys : SameKeys t u) (hclosed : u.ClosedAt i) : t.ClosedAt i := by
  obtain ⟨e, he, hopen⟩ := hclosed
  obtain ⟨e', he', -, hisOpen⟩ := hkeys.symm.getElem? he
  exact ⟨e', he', hisOpen.trans hopen⟩

theorem SameKeys.closedAt_iff (hkeys : SameKeys t u) : t.ClosedAt i ↔ u.ClosedAt i :=
  ⟨hkeys.symm.closedAt, hkeys.closedAt⟩

/-! ## What a handle names -/

/-- Whatever the handle names is so. -/
def AllNamed (t : HandleTable α) (h : Nat) (P : α → Prop) : Prop :=
  ∀ e ∈ t, e.opens h = true → P e.data

/-- What all entries of a handle have, the one that is found has. -/
theorem AllNamed.lookup {P : α → Prop} (hall : t.AllNamed h P) {data : α}
    (hlookup : t.lookup h = some data) : P data := by
  obtain ⟨e, he, rfl⟩ := Option.map_eq_some_iff.1 hlookup
  have hopens := List.find?_some he
  exact hall e (List.mem_of_find?_eq_some he) hopens

/-- A change that keeps the property keeps it of everything. -/
theorem AllNamed.update {P : α → Prop} (hall : t.AllNamed h P) (h' : Nat) {f : α → α}
    (hf : ∀ data, P data → P (f data)) : (t.update h' f).AllNamed h P := by
  induction t with
  | nil => exact hall
  | cons e t ih =>
      have hrest : AllNamed t h P := fun e' he' ↦ hall e' (List.mem_cons_of_mem e he')
      rw [HandleTable.update]
      split_ifs
      · intro e' he' hopens
        rcases List.mem_cons.1 he' with rfl | he'
        · exact hf _ (hall e List.mem_cons_self hopens)
        · exact hrest e' he' hopens
      · intro e' he' hopens
        rcases List.mem_cons.1 he' with rfl | he'
        · exact hall e' List.mem_cons_self hopens
        · exact ih hrest e' he' hopens

/-- A handle that names one entry at most names the changed one. -/
theorem allNamed_update (hone : t.openCount h ≤ 1) {f : α → α} {P : α → Prop}
    (hf : ∀ data, P (f data)) : (t.update h f).AllNamed h P := by
  induction t with
  | nil => exact nofun
  | cons e t ih =>
      rw [openCount_cons] at hone
      rw [HandleTable.update]
      split_ifs at hone ⊢ with hopens
      · have hzero : openCount t h = 0 := by omega
        intro e' he' hopens'
        rcases List.mem_cons.1 he' with rfl | he'
        · exact hf e.data
        · exact absurd hopens' (List.countP_eq_zero.1 hzero e' he')
      · intro e' he' hopens'
        rcases List.mem_cons.1 he' with rfl | he'
        · exact absurd hopens' hopens
        · exact ih hone e' he' hopens'

/-! ## A new handle -/

/-- A new handle is open once more. -/
theorem openCount_allocate (t : HandleTable α) (h h' : Nat) (data : α) :
    (t.allocate h data).openCount h' = t.openCount h' + if h = h' then 1 else 0 := by
  rw [allocate, openCount, List.countP_append, List.countP_singleton]
  by_cases hh : h = h'
  · rw [if_pos hh, if_pos (opens_iff.2 ⟨rfl, hh⟩)]
    rfl
  · rw [if_neg hh, if_neg fun hopens ↦ hh (opens_iff.1 hopens).2]
    rfl

/-- An entry of the table, or the new one. -/
theorem getElem?_allocate {data : α} {e : HandleEntry α} (hi : (t.allocate h data)[i]? = some e) :
    t[i]? = some e ∨ i = t.length ∧ e = { handle := h, data } := by
  rw [allocate, List.getElem?_append] at hi
  split_ifs at hi with hlt
  · exact .inl hi
  · rw [List.getElem?_singleton] at hi
    split_ifs at hi with hzero
    cases hi
    exact .inr ⟨by omega, rfl⟩

/-- Other handles keep what they name. -/
theorem Names.allocate (hnames : t.Names h i) (hne : h' ≠ h) (data : α) :
    (t.allocate h' data).Names h i := by
  intro j e hj hopens
  rcases getElem?_allocate hj with hj | ⟨-, rfl⟩
  · exact hnames j e hj hopens
  · exact absurd (opens_iff.1 hopens).2 hne

/-- A handle that was free names what it is given to. -/
theorem names_allocate (hfree : t.openCount h = 0) (data : α) :
    (t.allocate h data).Names h t.length := by
  intro j e hj hopens
  rcases getElem?_allocate hj with hj | ⟨hj, -⟩
  · exact absurd hopens (List.countP_eq_zero.1 hfree e (List.mem_of_getElem? hj))
  · exact hj

/-- A new object is not closed. -/
theorem closedAt_allocate (t : HandleTable α) (h : Nat) (data : α) (i : Nat) :
    (t.allocate h data).ClosedAt i ↔ t.ClosedAt i := by
  constructor
  · rintro ⟨e, he, hopen⟩
    rcases getElem?_allocate he with he | ⟨-, rfl⟩
    · exact ⟨e, he, hopen⟩
    · cases hopen
  · rintro ⟨e, he, hopen⟩
    obtain ⟨hi, -⟩ := List.getElem?_eq_some_iff.1 he
    exact ⟨e, by rw [allocate, List.getElem?_append_left hi, he], hopen⟩

/-! ## Closing -/

/-- Closing a handle takes no entry away. -/
theorem length_close (t : HandleTable α) (h : Nat) : (t.close h).length = t.length := by
  induction t with
  | nil => rfl
  | cons e t ih =>
      rw [close]
      split_ifs
      · rfl
      · exact congrArg Nat.succ ih

/-- A handle that is closed is open once less. -/
theorem openCount_close (t : HandleTable α) (h h' : Nat) :
    (t.close h).openCount h' = t.openCount h' - if h = h' then 1 else 0 := by
  induction t with
  | nil =>
      rw [close]
      exact (Nat.zero_sub _).symm
  | cons e t ih =>
      rw [close]
      by_cases hopens : e.opens h = true
      · have hclosed : HandleEntry.opens { e with isOpen := false } h' = false := rfl
        rw [if_pos hopens, openCount_cons, openCount_cons, hclosed]
        by_cases hh : h = h'
        · subst hh
          rw [if_pos hopens, if_pos rfl]
          rfl
        · have hother : ¬e.opens h' = true := fun hopens' ↦
            hh ((opens_iff.1 hopens).2.symm.trans (opens_iff.1 hopens').2)
          rw [if_neg hh, if_neg hother]
          rfl
      · rw [if_neg hopens, openCount_cons, openCount_cons, ih]
        by_cases hh : h = h'
        · subst hh
          rw [if_neg hopens]
          rfl
        · rw [if_neg hh, Nat.sub_zero, Nat.sub_zero]

/-- Nothing is opened by closing, and the data stay. -/
theorem getElem?_close {e : HandleEntry α} (hi : (t.close h)[i]? = some e) :
    ∃ e', t[i]? = some e' ∧ e'.handle = e.handle ∧ e'.data = e.data ∧
      (e.isOpen = true → e'.isOpen = true) := by
  induction t generalizing i with
  | nil => cases i <;> cases hi
  | cons e' t ih =>
      rw [close] at hi
      split_ifs at hi with hopens
      · cases i with
        | zero =>
            cases hi
            exact ⟨e', rfl, rfl, rfl, nofun⟩
        | succ i => exact ⟨e, hi, rfl, rfl, id⟩
      · cases i with
        | zero =>
            cases hi
            exact ⟨e, rfl, rfl, rfl, id⟩
        | succ i => exact ih hi

/-- A handle that was closed elsewhere, or is open no more, still names nothing else. -/
theorem Names.close (hnames : t.Names h i) (h' : Nat) : (t.close h').Names h i := by
  intro j e hj hopens
  obtain ⟨e', he', hhandle, -, hisOpen⟩ := getElem?_close hj
  obtain ⟨ho, hh⟩ := opens_iff.1 hopens
  exact hnames j e' he' (opens_iff.2 ⟨hisOpen ho, hhandle.trans hh⟩)

theorem AllNamed.close {P : α → Prop} (hall : t.AllNamed h P) (h' : Nat) :
    (t.close h').AllNamed h P := by
  intro e he hopens
  obtain ⟨i, hi⟩ := List.mem_iff_getElem?.1 he
  obtain ⟨e', he', hhandle, hdata, hisOpen⟩ := getElem?_close hi
  obtain ⟨ho, hh⟩ := opens_iff.1 hopens
  rw [← hdata]
  exact hall e' (List.mem_of_getElem? he') (opens_iff.2 ⟨hisOpen ho, hhandle.trans hh⟩)

/-- What the handle named is closed, and nothing else. -/
theorem closedAt_close (hresolve : t.resolve h = some i) (j : Nat) :
    (t.close h).ClosedAt j ↔ t.ClosedAt j ∨ j = i := by
  induction t generalizing i j with
  | nil => cases hresolve
  | cons e t ih =>
      rw [resolve, List.findIdx?_cons] at hresolve
      rw [close]
      split_ifs at hresolve ⊢ with hopens
      · cases hresolve
        cases j with
        | zero => exact iff_of_true ⟨_, rfl, rfl⟩ (.inr rfl)
        | succ j => exact (or_iff_left nofun).symm
      · obtain ⟨k, hk, rfl⟩ := Option.map_eq_some_iff.1 hresolve
        cases j with
        | zero => exact (or_iff_left nofun).symm
        | succ j => exact (ih hk j).trans (or_congr Iff.rfl Nat.succ_inj.symm)

/-- What is closed is not named. -/
theorem ClosedAt.ne_of_resolve {j : Nat} (hclosed : t.ClosedAt i)
    (hresolve : t.resolve h = some j) : i ≠ j := by
  rintro rfl
  obtain ⟨e, he, hopen⟩ := hclosed
  obtain ⟨e', he', hopens⟩ := resolve_eq_some hresolve
  rw [he] at he'
  cases he'
  exact absurd (opens_iff.1 hopens).1 (by rw [hopen]; nofun)

end HandleTable

end SecondScreen.Machine
