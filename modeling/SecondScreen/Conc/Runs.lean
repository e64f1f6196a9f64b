import Mathlib.Logic.Relation
import Mathlib.Order.WellFounded

/-!
# Runs of a machine

A machine has a state and makes one move at a time, if the move is possible.  `Moves` is
its step relation when the moves are restricted, `follow` makes given moves in order.

`Inevitable` says that a machine gets somewhere however it moves, and that it never
stops before.  `Settles` says so although only some of the moves can be relied upon.
-/

namespace SecondScreen.Conc

variable {σ μ : Type}

/-- One move that meets the guard. -/
def Moves (next : σ → μ → Option σ) (allow : σ → μ → Prop) (s t : σ) : Prop :=
  ∃ m, allow s m ∧ next s m = some t

/-- Make the moves in order, if all are possible and meet the guard. -/
def follow (next : σ → μ → Option σ) (allow : σ → μ → Prop)
    [∀ s m, Decidable (allow s m)] (s : σ) : List μ → Option σ
  | [] => some s
  | m :: ms =>
      if allow s m then (next s m).bind fun t ↦ follow next allow t ms else none

theorem run_of_follow {next : σ → μ → Option σ} {allow : σ → μ → Prop}
    [∀ s m, Decidable (allow s m)] {s t : σ} {ms : List μ}
    (h : follow next allow s ms = some t) : Relation.ReflTransGen (Moves next allow) s t := by
  induction ms generalizing s with
  | nil => cases h; exact .refl
  | cons m ms ih =>
      rw [follow] at h
      split_ifs at h with ha
      obtain ⟨u, hu, h⟩ := Option.bind_eq_some_iff.1 h
      exact (ih h).head ⟨m, ha, hu⟩

/-- What holds after the given moves holds in some state that a run reaches. -/
theorem exists_run {next : σ → μ → Option σ} {allow : σ → μ → Prop}
    [∀ s m, Decidable (allow s m)] {s : σ} (ms : List μ) {P : σ → Prop} [DecidablePred P]
    (h : (follow next allow s ms).any (fun t ↦ P t) = true) :
    ∃ t, Relation.ReflTransGen (Moves next allow) s t ∧ P t := by
  obtain ⟨t, hfollow, ht⟩ := (Option.any_eq_true ..).1 h
  exact ⟨t, run_of_follow hfollow, of_decide_eq_true ht⟩

/-- What every step preserves, a run preserves. -/
theorem run_preserves {R : σ → σ → Prop} {I : σ → Prop}
    (hstep : ∀ {s t}, I s → R s t → I t) {s t : σ} (hs : I s)
    (h : Relation.ReflTransGen R s t) : I t := by
  induction h with
  | refl => exact hs
  | tail _ hR ih => exact hstep ih hR

/-- However the machine moves, it gets to `P`. -/
inductive Inevitable (R : σ → σ → Prop) (P : σ → Prop) : σ → Prop
  | here {s : σ} (h : P s) : Inevitable R P s
  | next {s : σ} (hcan : ∃ t, R s t) (hall : ∀ t, R s t → Inevitable R P t) : Inevitable R P s

/-- However the machine moves, it gets to `P`, and as long as it has not, a move that is due can
be made.  The other moves may come at any time, or never. -/
inductive Settles (R due : σ → σ → Prop) (P : σ → Prop) : σ → Prop
  | here {s : σ} (h : P s) : Settles R due P s
  | next {s : σ} (hcan : ∃ t, due s t) (hall : ∀ t, R s t → Settles R due P t) :
      Settles R due P s

/-- A measure that every move lowers until `P` holds. -/
theorem Settles.of_measure {R due : σ → σ → Prop} {P I : σ → Prop} (measure : σ → Nat)
    (hstep : ∀ s, I s → (∃ t, due s t) ∧ ∀ t, R s t → P t ∨ I t ∧ measure t < measure s)
    {s : σ} (hs : I s) : Settles R due P s := by
  induction hm : measure s using Nat.strong_induction_on generalizing s with
  | _ n ih =>
      obtain ⟨hcan, hall⟩ := hstep s hs
      apply Settles.next hcan
      intro t hR
      rcases hall t hR with hP | ⟨hI, hlt⟩
      · exact .here hP
      · exact ih _ (hm ▸ hlt) hI rfl

/-- Where every move is due, the end is inevitable. -/
theorem Settles.inevitable {R : σ → σ → Prop} {P : σ → Prop} {s : σ} (h : Settles R R P s) :
    Inevitable R P s := by
  induction h with
  | here h => exact .here h
  | next hcan _ ih => exact .next hcan ih

theorem Inevitable.of_measure {R : σ → σ → Prop} {P I : σ → Prop} (measure : σ → Nat)
    (hstep : ∀ s, I s → (∃ t, R s t) ∧ ∀ t, R s t → P t ∨ I t ∧ measure t < measure s)
    {s : σ} (hs : I s) : Inevitable R P s :=
  (Settles.of_measure measure hstep hs).inevitable

end SecondScreen.Conc
