import Mathlib.Logic.Relation
import SecondScreen.Conc.RelyGuarantee

/-!
# Interleaved processes

A `System` is a family of processes over one shared state.  Each process is
either *idle*, with its private data, or *busy* with a call, whose remaining
program it carries.  A process moves by entering a call, by performing the next
atomic operation of its call, or by leaving a finished call; any process may
move at any time, so a run of the system is an arbitrary interleaving.

The shared state may hold more than what the program can read: `enter`, `leave`
and the process's own `exec` may record who did what, so that a statement about
runs can speak of it.

`Outline` collects what rely-guarantee reasoning needs to prove about each
process on its own, and `Outline.ok_run` is the soundness of that reasoning:
every configuration a run reaches satisfies the outline.
-/

namespace SecondScreen.Conc

variable {ι : Type} {Op : Type → Type} {ω σ : Type}

/-- Processes indexed by `ι` that share a state `σ`. -/
structure System (ι : Type) (Op : Type → Type) (ω σ : Type) where
  /-- The data a process keeps from one call to the next. -/
  Local : ι → Type
  Call : ι → Type
  Result : ι → Type
  /-- The program a call runs; it ends with a result and the new private data. -/
  body : (i : ι) → Call i → Local i → Prog Op (Result i × Local i)
  exec : (i : ι) → Exec Op ω σ
  /-- What the start of a call records in the shared state. -/
  enter : (i : ι) → Call i → Local i → σ → σ
  /-- What the end of a call records in the shared state. -/
  leave : (i : ι) → Result i → σ → σ

/-- A process between two calls, or inside one. -/
inductive Status (L : Type) (P : Type 1) : Type 1
  | idle (l : L)
  | busy (p : P)

/-- Whether the process is between two calls. -/
def Status.isIdle {L : Type} {P : Type 1} : Status L P → Bool
  | .idle _ => true
  | .busy _ => false

theorem Status.isIdle_iff {L : Type} {P : Type 1} {st : Status L P} :
    st.isIdle = true ↔ ∃ l, st = .idle l := by
  cases st <;> simp [isIdle]

namespace System

variable (S : System ι Op ω σ)

/-- What remains to be done of a call. -/
abbrev Residual (i : ι) : Type 1 := Prog Op (S.Result i × S.Local i)

/-- The shared state and where each process stands. -/
structure Config where
  shared : σ
  status : (i : ι) → Status (S.Local i) (S.Residual i)

/-- What a process can do next. -/
inductive Move (i : ι)
  | enter (c : S.Call i)
  | act (w : ω)
  | leave

variable [DecidableEq ι] {S}

/-- A configuration in which process `i` has gone to a new status. -/
def Config.set (c : S.Config) (i : ι) (s : σ) (st : Status (S.Local i) (S.Residual i)) :
    S.Config :=
  ⟨s, Function.update c.status i st⟩

/-- The effect of a move, when it is possible. -/
def Config.next (c : S.Config) (i : ι) : S.Move i → Option S.Config
  | .enter call =>
      match c.status i with
      | .idle l => some (c.set i (S.enter i call l c.shared) (.busy (S.body i call l)))
      | .busy _ => none
  | .act w =>
      match c.status i with
      | .busy (.act o k) =>
          (S.exec i _ w o c.shared).map fun r ↦ c.set i r.2 (.busy (k r.1))
      | _ => none
  | .leave =>
      match c.status i with
      | .busy (.ret r) => some (c.set i (S.leave i r.1 c.shared) (.idle r.2))
      | _ => none

/-- A restriction on the moves of a run, in terms of the configurations before
and after the move. -/
abbrev Guard (S : System ι Op ω σ) := S.Config → (i : ι) → S.Move i → S.Config → Prop

/-- One step of an arbitrary interleaving whose moves meet the guard. -/
def Step (allow : S.Guard) (c c' : S.Config) : Prop :=
  ∃ (i : ι) (m : S.Move i), c.next i m = some c' ∧ allow c i m c'

/-- A run: any number of steps. -/
abbrev Run (allow : S.Guard) : S.Config → S.Config → Prop := Relation.ReflTransGen (Step allow)

/-- What holds of every configuration reached may be assumed of each step. -/
theorem Run.strengthen {allow : S.Guard} {P : S.Config → Prop} {c c' : S.Config}
    (hP : ∀ d, Run allow c d → P d) (hr : Run allow c c') :
    Run (fun d i m d' ↦ allow d i m d' ∧ P d') c c' := by
  induction hr with
  | refl => exact .refl
  | tail hr hs ih =>
      obtain ⟨i, m, hm, ha⟩ := hs
      exact ih.tail ⟨i, m, hm, ha, hP _ (hr.tail ⟨i, m, hm, ha⟩)⟩

/-- Each step of a run is a possible move. -/
theorem Run.possible {allow : S.Guard} {c c' : S.Config} (hr : Run allow c c') :
    Run (fun d i m d' ↦ allow d i m d' ∧ d.next i m = some d') c c' := by
  induction hr with
  | refl => exact .refl
  | tail _ hs ih =>
      obtain ⟨i, m, hm, ha⟩ := hs
      exact ih.tail ⟨i, m, hm, ha, hm⟩

/-- A list of moves to be made in order. -/
abbrev Schedule (S : System ι Op ω σ) := List ((i : ι) × S.Move i)

/-- Follow a schedule, if every move in it is possible and meets the guard. -/
def Config.follow (allow : S.Guard) [∀ c i m c', Decidable (allow c i m c')] (c : S.Config) :
    S.Schedule → Option S.Config
  | [] => some c
  | m :: ms => (c.next m.1 m.2).bind fun c' ↦
      if allow c m.1 m.2 c' then c'.follow allow ms else none

/-- What a schedule leads to is reached by a run. -/
theorem Config.run_of_follow {allow : S.Guard} [∀ c i m c', Decidable (allow c i m c')]
    {c c' : S.Config} {ms : S.Schedule} (hf : c.follow allow ms = some c') : Run allow c c' := by
  induction ms generalizing c with
  | nil => cases hf; exact .refl
  | cons m ms ih =>
      obtain ⟨d, hd, hd'⟩ := Option.bind_eq_some_iff.1 hf
      split at hd'
      · next ha => exact (ih hd').head ⟨m.1, m.2, hd, ha⟩
      · cases hd'

/-! ## What a move can be

Each move changes the status of one process; these are the only lemmas that
look into `Config.next`. -/

@[simp] theorem Config.set_shared (c : S.Config) (i : ι) (s : σ)
    (st : Status (S.Local i) (S.Residual i)) : (c.set i s st).shared = s := rfl

@[simp] theorem Config.set_status_same (c : S.Config) (i : ι) (s : σ)
    (st : Status (S.Local i) (S.Residual i)) : (c.set i s st).status i = st :=
  Function.update_self ..

@[simp] theorem Config.set_status_of_ne (c : S.Config) {i j : ι} (h : j ≠ i) (s : σ)
    (st : Status (S.Local i) (S.Residual i)) : (c.set i s st).status j = c.status j :=
  Function.update_of_ne h ..

theorem Config.next_enter {c c' : S.Config} {i : ι} {call : S.Call i}
    (h : c.next i (.enter call) = some c') :
    ∃ l, c.status i = .idle l ∧
      c' = c.set i (S.enter i call l c.shared) (.busy (S.body i call l)) := by
  cases hs : c.status i with
  | idle l => exact ⟨l, rfl, by simpa [next, hs] using h.symm⟩
  | busy p => simp [next, hs] at h

theorem Config.next_act {c c' : S.Config} {i : ι} {w : ω} (h : c.next i (.act w) = some c') :
    ∃ (β : Type) (o : Op β) (k : β → S.Residual i) (r : β) (s : σ),
      c.status i = .busy (.act o k) ∧ S.exec i β w o c.shared = some (r, s) ∧
        c' = c.set i s (.busy (k r)) := by
  cases hs : c.status i with
  | idle l => simp [next, hs] at h
  | busy p =>
      cases p with
      | ret a => simp [next, hs] at h
      | @act β o k =>
          simp only [next, hs, Option.map_eq_some_iff, Prod.exists] at h
          obtain ⟨r, s, he, rfl⟩ := h
          exact ⟨β, o, k, r, s, rfl, he, rfl⟩

theorem Config.next_leave {c c' : S.Config} {i : ι} (h : c.next i .leave = some c') :
    ∃ r l, c.status i = .busy (.ret (r, l)) ∧ c' = c.set i (S.leave i r c.shared) (.idle l) := by
  cases hs : c.status i with
  | idle l => simp [next, hs] at h
  | busy p =>
      cases p with
      | ret a => exact ⟨a.1, a.2, rfl, by simpa [next, hs] using h.symm⟩
      | act o k => simp [next, hs] at h

theorem Config.set_self {c : S.Config} {i : ι} {st : Status (S.Local i) (S.Residual i)}
    (h : c.status i = st) : c.set i c.shared st = c := by
  subst h
  simp [set]

theorem Config.set_set (c : S.Config) (i : ι) (s s' : σ)
    (st st' : Status (S.Local i) (S.Residual i)) :
    (c.set i s st).set i s' st' = c.set i s' st' := by
  simp [set]

/-- A process may perform the first part of its call with nothing in between. -/
theorem Run.alone {allow : S.Guard} {i : ι} {α : Type} {h : Prog.Handler Op σ}
    {P : (β : Type) → Op β → Prop} (w : ω)
    (hexec : ∀ β (o : Op β), P β o → ∀ s, S.exec i β w o s = some (h β o s))
    (ha : ∀ c c', allow c i (.act w) c') {p : Prog Op α} (hp : p.Uses P) {k : α → S.Residual i}
    {c : S.Config} (hc : c.status i = .busy (p.bind k)) {a : α} {t : σ}
    (ht : p.eval h c.shared = (a, t)) : Run allow c (c.set i t (.busy (k a))) := by
  induction p generalizing c with
  | ret b =>
      cases ht
      show Run allow c (c.set i c.shared (.busy ((Prog.ret a).bind k)))
      rw [Config.set_self hc]
  | act o k' ih =>
      have hstep : c.next i (.act w) = some (c.set i (h _ o c.shared).2
          (.busy ((k' (h _ o c.shared).1).bind k))) := by
        simp [Config.next, hc, hexec _ o hp.1]
      have hrest := ih (h _ o c.shared).1 (hp.2 _)
        (Config.set_status_same c i (h _ o c.shared).2 (.busy ((k' (h _ o c.shared).1).bind k))) ht
      rw [Config.set_set] at hrest
      exact hrest.head ⟨i, .act w, hstep, ha _ _⟩

/-! ## Proof outlines -/

/-- A rely-guarantee proof about every process of a system: an invariant of the
shared state, an assertion for each idle process, and a proof for each call. -/
structure Outline (S : System ι Op ω σ) (allow : S.Guard) where
  inv : σ → Prop
  rg : ι → RG σ
  /-- What holds of a process's private data while it is idle. -/
  idle : (i : ι) → S.Local i → σ → Prop
  inv_next : ∀ {c : S.Config} {i} {m : S.Move i} {c' : S.Config}, allow c i m c' →
    inv c.shared → (rg i).guar c.shared c'.shared → inv c'.shared
  rely_refl : ∀ (i) {s}, inv s → (rg i).rely s s
  /-- What one process promises, every other one tolerates. -/
  compat : ∀ {i j} {s t}, i ≠ j → inv s → inv t → (rg j).guar s t → (rg i).rely s t
  idle_stable : ∀ (i l), (rg i).Stable (idle i l)
  enter_ok : ∀ {c : S.Config} {i} {call : S.Call i} {c' : S.Config} {l}, inv c.shared →
    allow c i (.enter call) c' → idle i l c.shared →
    (rg i).guar c.shared (S.enter i call l c.shared) ∧
      Safe (S.exec i) (rg i)
        (fun r t ↦ (rg i).guar t (S.leave i r.1 t) ∧ idle i r.2 (S.leave i r.1 t))
        (S.body i call l) (S.enter i call l c.shared)

namespace Outline

variable {allow : S.Guard} (O : Outline S allow)

/-- What a finished call must establish. -/
abbrev Post (i : ι) (r : S.Result i × S.Local i) (t : σ) : Prop :=
  (O.rg i).guar t (S.leave i r.1 t) ∧ O.idle i r.2 (S.leave i r.1 t)

/-- The outline of a single process at its present point. -/
def StatusOk (i : ι) (s : σ) : Status (S.Local i) (S.Residual i) → Prop
  | .idle l => O.idle i l s
  | .busy p => Safe (S.exec i) (O.rg i) (O.Post i) p s

/-- A configuration that the outline describes. -/
structure Ok (c : S.Config) : Prop where
  inv : O.inv c.shared
  status : ∀ i, O.StatusOk i c.shared (c.status i)

omit [DecidableEq ι] in
/-- The others' outlines survive a step that keeps the mover's guarantee. -/
theorem StatusOk.stable {O : Outline S allow} {i : ι} {s t : σ}
    {st : Status (S.Local i) (S.Residual i)} (h : O.StatusOk i s st) (hR : (O.rg i).rely s t) :
    O.StatusOk i t st := by
  cases st with
  | idle l => exact O.idle_stable i l s t hR h
  | busy p => exact Safe.stable h hR

/-- A move of process `i` that keeps its guarantee and its own outline keeps the
outline of the whole configuration. -/
theorem Ok.set {O : Outline S allow} {c : S.Config} (h : O.Ok c) {i : ι} {m : S.Move i} {s : σ}
    {st : Status (S.Local i) (S.Residual i)} (ha : allow c i m (c.set i s st))
    (hG : (O.rg i).guar c.shared s) (hst : O.StatusOk i s st) : O.Ok (c.set i s st) := by
  have hinv : O.inv s := O.inv_next ha h.inv hG
  refine ⟨hinv, fun j ↦ ?_⟩
  by_cases hj : j = i
  · subst hj
    simpa using hst
  · rw [Config.set_status_of_ne c hj]
    exact (h.status j).stable (O.compat hj h.inv hinv hG)

/-- The mover keeps its guarantee and its own outline. -/
theorem Ok.next {O : Outline S allow} {c c' : S.Config} (h : O.Ok c) {i : ι} {m : S.Move i}
    (hm : c.next i m = some c') (ha : allow c i m c') :
    ∃ s st, c' = c.set i s st ∧ (O.rg i).guar c.shared s ∧ O.StatusOk i s st := by
  have hi := h.status i
  cases m with
  | enter call =>
      obtain ⟨l, hl, rfl⟩ := Config.next_enter hm
      rw [hl] at hi
      obtain ⟨hG, hsafe⟩ := O.enter_ok h.inv ha hi
      exact ⟨_, _, rfl, hG, hsafe⟩
  | act w =>
      obtain ⟨β, o, k, r, s, hb, he, rfl⟩ := Config.next_act hm
      rw [hb] at hi
      obtain ⟨hG, hk⟩ := hi _ (O.rely_refl i h.inv) w r s he
      exact ⟨_, _, rfl, hG, hk⟩
  | leave =>
      obtain ⟨r, l, hb, rfl⟩ := Config.next_leave hm
      rw [hb] at hi
      obtain ⟨hG, hl⟩ := hi _ (O.rely_refl i h.inv)
      exact ⟨_, _, rfl, hG, hl⟩

/-- Every step keeps the guarantee of its process. -/
theorem Ok.guar {O : Outline S allow} {c c' : S.Config} (h : O.Ok c) {i : ι} {m : S.Move i}
    (hm : c.next i m = some c') (ha : allow c i m c') : (O.rg i).guar c.shared c'.shared := by
  obtain ⟨s, st, rfl, hG, -⟩ := h.next hm ha
  exact hG

/-- Every step keeps the outline. -/
theorem Ok.step {O : Outline S allow} {c c' : S.Config} (h : O.Ok c) (hs : Step allow c c') :
    O.Ok c' := by
  obtain ⟨i, m, hm, ha⟩ := hs
  obtain ⟨s, st, rfl, hG, hst⟩ := h.next hm ha
  exact h.set ha hG hst

/-- **Soundness.**  A run from a configuration that the outline describes never
leaves it. -/
theorem ok_run {c c' : S.Config} (h : O.Ok c) (hr : Run allow c c') : O.Ok c' := by
  induction hr with
  | refl => exact h
  | tail _ hs ih => exact ih.step hs

end Outline

end System

end SecondScreen.Conc
