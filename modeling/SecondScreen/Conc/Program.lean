import Mathlib.Logic.Function.Basic

/-!
# Programs over atomic operations

A sequential program that shares memory with others is a tree: it either
returns, or issues one atomic operation and continues with the answer.  What an
operation *means* is not part of the tree, so the same program can be run alone
(`Prog.eval`), interleaved with other programs (`SecondScreen.Conc.System`), or
reasoned about against an environment (`SecondScreen.Conc.RelyGuarantee`).

Every branch of the tree is finite, since `Prog` is an inductive type: a loop of
the modelled code is a recursion of the program that builds the tree.
-/

namespace SecondScreen.Conc

/-- A sequential program whose atomic operations are drawn from `Op`: an
operation `o : Op β` is answered by a value of `β`. -/
inductive Prog (Op : Type → Type) (α : Type) : Type 1
  | /-- Return a value without touching the shared state. -/
    ret (a : α) : Prog Op α
  | /-- Issue one atomic operation and continue with its answer. -/
    act {β : Type} (o : Op β) (k : β → Prog Op α) : Prog Op α

namespace Prog

variable {Op : Type → Type} {α β γ σ : Type}

/-- Sequential composition. -/
def bind : Prog Op α → (α → Prog Op β) → Prog Op β
  | .ret a, f => f a
  | .act o k, f => .act o fun b ↦ (k b).bind f

/-- The program that issues a single operation and returns its answer. -/
def perform (o : Op α) : Prog Op α := .act o .ret

instance : Monad (Prog Op) where
  pure := .ret
  bind := Prog.bind

@[simp] theorem pure_eq (a : α) : (pure a : Prog Op α) = .ret a := rfl

@[simp] theorem bind_eq (p : Prog Op α) (f : α → Prog Op β) : p >>= f = p.bind f := rfl

@[simp] theorem ret_bind (a : α) (f : α → Prog Op β) : (ret a : Prog Op α).bind f = f a := rfl

@[simp] theorem act_bind (o : Op γ) (k : γ → Prog Op α) (f : α → Prog Op β) :
    (act o k).bind f = .act o fun b ↦ (k b).bind f := rfl

/-- Sequential composition is associative. -/
theorem bind_assoc (p : Prog Op α) (f : α → Prog Op β) (g : β → Prog Op γ) :
    (p.bind f).bind g = p.bind fun a ↦ (f a).bind g := by
  induction p with
  | ret a => rfl
  | act o k ih => exact congrArg (act o) (funext ih)

/-! ## Running alone -/

/-- The meaning of the operations when nothing else runs: each one updates the
state and is answered. -/
abbrev Handler (Op : Type → Type) (σ : Type) := (β : Type) → Op β → σ → β × σ

/-- Run a program to its end with no other program in between. -/
def eval (h : Handler Op σ) : Prog Op α → σ → α × σ
  | .ret a, s => (a, s)
  | .act o k, s => (k (h _ o s).1).eval h (h _ o s).2

@[simp] theorem eval_ret (h : Handler Op σ) (a : α) (s : σ) :
    (ret a : Prog Op α).eval h s = (a, s) := rfl

@[simp] theorem eval_act (h : Handler Op σ) (o : Op β) (k : β → Prog Op α) (s : σ) :
    (act o k).eval h s = (k (h _ o s).1).eval h (h _ o s).2 := rfl

/-- A composition runs its first program, then its second from where the first
stopped. -/
@[simp] theorem eval_bind (h : Handler Op σ) (p : Prog Op α) (f : α → Prog Op β) (s : σ) :
    (p.bind f).eval h s = (f (p.eval h s).1).eval h (p.eval h s).2 := by
  induction p generalizing s with
  | ret a => rfl
  | act o k ih => exact ih _ _

/-- Perform `n` operations with no other program in between: what is left of the
program, and the state. -/
def steps (h : Handler Op σ) : Nat → Prog Op α → σ → Prog Op α × σ
  | 0, p, s => (p, s)
  | _ + 1, .ret a, s => (.ret a, s)
  | n + 1, .act o k, s => (k (h _ o s).1).steps h n (h _ o s).2

/-! ## Restricted operations -/

/-- Every operation of the program satisfies the predicate, whatever the answers
of the operations before it. -/
def Uses (P : (β : Type) → Op β → Prop) : Prog Op α → Prop
  | .ret _ => True
  | .act o k => P _ o ∧ ∀ r, (k r).Uses P

theorem Uses.bind {P : (β : Type) → Op β → Prop} {p : Prog Op α} {f : α → Prog Op β}
    (hp : p.Uses P) (hf : ∀ a, (f a).Uses P) : (p.bind f).Uses P := by
  induction p with
  | ret a => exact hf a
  | act o k ih => exact ⟨hp.1, fun r ↦ ih r (hp.2 r)⟩

theorem Uses.mono {P P' : (β : Type) → Op β → Prop} (h : ∀ β o, P β o → P' β o)
    {p : Prog Op α} (hp : p.Uses P) : p.Uses P' := by
  induction p with
  | ret a => trivial
  | act o k ih => exact ⟨h _ o hp.1, fun r ↦ ih r (hp.2 r)⟩

theorem Uses.ite {P : (β : Type) → Op β → Prop} {c : Prop} [Decidable c] {p q : Prog Op α}
    (hp : p.Uses P) (hq : q.Uses P) : (if c then p else q).Uses P := by
  split
  · exact hp
  · exact hq

theorem uses_true (p : Prog Op α) : p.Uses fun _ _ ↦ True := by
  induction p with
  | ret a => trivial
  | act o k ih => exact ⟨trivial, ih⟩

/-- What is left of a program after some of its operations were answered. -/
inductive Leaves : Prog Op α → Prog Op α → Prop
  | refl (p : Prog Op α) : Leaves p p
  | act {γ : Type} {o : Op γ} {k : γ → Prog Op α} {q : Prog Op α} (r : γ)
      (h : Leaves (k r) q) : Leaves (.act o k) q

theorem Uses.leaves {P : (β : Type) → Op β → Prop} {p q : Prog Op α} (hp : p.Uses P)
    (h : p.Leaves q) : q.Uses P := by
  induction h with
  | refl => exact hp
  | act r _ ih => exact ih (hp.2 r)

/-- What each operation of a program preserves, the whole program preserves. -/
theorem Uses.eval {P : (β : Type) → Op β → Prop} {h : Handler Op σ} {p : Prog Op α}
    (hp : p.Uses P) (I : σ → Prop) (hP : ∀ β o, P β o → ∀ s, I s → I (h β o s).2) {s : σ}
    (hs : I s) : I (p.eval h s).2 := by
  induction p generalizing s with
  | ret a => exact hs
  | act o k ih => exact ih _ (hp.2 _) (hP _ o hp.1 s hs)

/-! ## What a program returns -/

/-- Whatever the answers are, the program returns what satisfies the predicate. -/
def Returns (P : α → Prop) : Prog Op α → Prop
  | .ret a => P a
  | .act _ k => ∀ r, (k r).Returns P

/-- It may not matter what the first program returns. -/
theorem Returns.after {P : β → Prop} {p : Prog Op α} {f : α → Prog Op β}
    (hf : ∀ a, (f a).Returns P) : (p.bind f).Returns P := by
  induction p with
  | ret a => exact hf a
  | act o k ih => exact ih

/-! ## Other operations -/

/-- The same program over other operations. -/
def mapOp {Op' : Type → Type} (ι : (β : Type) → Op β → Op' β) : Prog Op α → Prog Op' α
  | .ret a => .ret a
  | .act o k => .act (ι _ o) fun b ↦ (k b).mapOp ι

/-- At most the first `n` operations of a program, and its result if it has ended
by then. -/
def upTo : Nat → Prog Op α → Prog Op (Option α)
  | _, .ret a => .ret (some a)
  | 0, .act _ _ => .ret none
  | n + 1, .act o k => .act o fun b ↦ (k b).upTo n

end Prog

end SecondScreen.Conc
