import SecondScreen.Conc.Program

/-!
# Rely-guarantee reasoning

`Safe` says that a program, started in a given state and interleaved with an
environment that changes the state only as the *rely* allows, changes the state
itself only as the *guarantee* allows and ends in the postcondition.  It is
defined by recursion on the program, so a proof about a program follows the
program's own shape.

The rely is meant cumulatively: it relates a state to what any number of
environment steps can make of it, so it is transitive.  It is *not* required to
be reflexive everywhere, only at states that some environment step leads to;
this lets a rely carry an invariant of the shared state (`rely s s'` may say
that `s'` satisfies it).

`Triple A p Q` packages `Safe` over all states satisfying an assertion `A`, and
its rules are those of a Hoare logic whose assertions are *stable* under the
rely.
-/

namespace SecondScreen.Conc

/-- The meaning of the operations for one process: an oracle value of `ω`
resolves what the state does not determine, and `none` means that the operation
is not possible now (it blocks, or the oracle's answer is not a legal one). -/
abbrev Exec (Op : Type → Type) (ω σ : Type) := (β : Type) → ω → Op β → σ → Option (β × σ)

/-- What a process may assume of its environment and what it promises in
return. -/
structure RG (σ : Type) where
  /-- The cumulative effect of the environment. -/
  rely : σ → σ → Prop
  /-- The effect of one step of the process. -/
  guar : σ → σ → Prop
  rely_trans : ∀ {s t u : σ}, rely s t → rely t u → rely s u
  rely_refl : ∀ {s t : σ}, rely s t → rely t t

/-- An assertion that the environment cannot invalidate. -/
def RG.Stable {σ : Type} (rg : RG σ) (A : σ → Prop) : Prop := ∀ s t, rg.rely s t → A s → A t

variable {Op : Type → Type} {ω σ α β : Type}

/-- The program, started in the state, keeps the guarantee at each of its steps
and ends in the postcondition, whatever the environment does between them. -/
def Safe (exec : Exec Op ω σ) (rg : RG σ) (Q : α → σ → Prop) : Prog Op α → σ → Prop
  | .ret a, s => ∀ t, rg.rely s t → Q a t
  | .act o k, s => ∀ t, rg.rely s t → ∀ w r u, exec _ w o t = some (r, u) →
      rg.guar t u ∧ Safe exec rg Q (k r) u

namespace Safe

variable {exec : Exec Op ω σ} {rg : RG σ} {Q : α → σ → Prop} {p : Prog Op α} {s t : σ}

/-- Environment steps before the start do not matter. -/
theorem stable (h : Safe exec rg Q p s) (hR : rg.rely s t) : Safe exec rg Q p t := by
  cases p with
  | ret a => exact fun u hu ↦ h u (rg.rely_trans hR hu)
  | act o k => exact fun u hu ↦ h u (rg.rely_trans hR hu)

/-- It is enough to start after the environment has moved. -/
theorem of_rely (h : ∀ t, rg.rely s t → Safe exec rg Q p t) : Safe exec rg Q p s := by
  cases p with
  | ret a => exact fun t ht ↦ h t ht t (rg.rely_refl ht)
  | act o k => exact fun t ht ↦ h t ht t (rg.rely_refl ht)

/-- Sequential composition: the second program is safe wherever the first may
end. -/
theorem bind {f : α → Prog Op β} {Q' : β → σ → Prop}
    (h : Safe exec rg (fun a t ↦ Safe exec rg Q' (f a) t) p s) :
    Safe exec rg Q' (p.bind f) s := by
  induction p generalizing s with
  | ret a => exact of_rely h
  | act o k ih =>
      intro t ht w r u hu
      obtain ⟨hG, hk⟩ := h t ht w r u hu
      exact ⟨hG, ih r hk⟩

/-- A postcondition may be weakened. -/
theorem mono {Q' : α → σ → Prop} (hQ : ∀ a t, Q a t → Q' a t) (h : Safe exec rg Q p s) :
    Safe exec rg Q' p s := by
  induction p generalizing s with
  | ret a => exact fun t ht ↦ hQ a t (h t ht)
  | act o k ih =>
      intro t ht w r u hu
      obtain ⟨hG, hk⟩ := h t ht w r u hu
      exact ⟨hG, ih r hk⟩

/-- Two proofs about the same program hold together, against an environment that
both allow for. -/
theorem meet {rg₁ rg₂ : RG σ} {Q₁ Q₂ : α → σ → Prop}
    (hR : ∀ s t, rg.rely s t → rg₁.rely s t ∧ rg₂.rely s t)
    (hG : ∀ s t, rg₁.guar s t → rg₂.guar s t → rg.guar s t)
    (h₁ : Safe exec rg₁ Q₁ p s) (h₂ : Safe exec rg₂ Q₂ p s) :
    Safe exec rg (fun a t ↦ Q₁ a t ∧ Q₂ a t) p s := by
  induction p generalizing s with
  | ret a => exact fun t ht ↦ ⟨h₁ t (hR s t ht).1, h₂ t (hR s t ht).2⟩
  | act o k ih =>
      intro t ht w r u hu
      obtain ⟨hg₁, hk₁⟩ := h₁ t (hR s t ht).1 w r u hu
      obtain ⟨hg₂, hk₂⟩ := h₂ t (hR s t ht).2 w r u hu
      exact ⟨hG t u hg₁ hg₂, ih r hk₁ hk₂⟩

/-- Two postconditions established against the same environment hold
together; the promise is that of the first proof. -/
theorem and {rg' : RG σ} {Q' : α → σ → Prop} (hR : ∀ s t, rg.rely s t → rg'.rely s t)
    (h : Safe exec rg Q p s) (h' : Safe exec rg' Q' p s) :
    Safe exec rg (fun a t ↦ Q a t ∧ Q' a t) p s :=
  meet (fun s t ht ↦ ⟨ht, hR s t ht⟩) (fun _ _ h _ ↦ h) h h'

/-- A proof serves against an environment that does less, and for a weaker
promise. -/
theorem weaken {rg' : RG σ} (hR : ∀ s t, rg'.rely s t → rg.rely s t)
    (hG : ∀ s t, rg.guar s t → rg'.guar s t) (h : Safe exec rg Q p s) : Safe exec rg' Q p s :=
  (meet (fun s t ht ↦ ⟨hR s t ht, hR s t ht⟩) (fun s t hg _ ↦ hG s t hg) h h).mono
    fun _ _ h ↦ h.1

/-- At the end the environment may have moved for the last time. -/
theorem and_rely (h : Safe exec rg Q p s) :
    Safe exec rg (fun a t ↦ Q a t ∧ rg.rely t t) p s := by
  induction p generalizing s with
  | ret a => exact fun t ht ↦ ⟨h t ht, rg.rely_refl ht⟩
  | act o k ih =>
      intro t ht w r u hu
      obtain ⟨hg, hk⟩ := h t ht w r u hu
      exact ⟨hg, ih r hk⟩

end Safe

/-- From every state satisfying the assertion the program is safe. -/
def Triple (exec : Exec Op ω σ) (rg : RG σ) (A : σ → Prop) (p : Prog Op α)
    (Q : α → σ → Prop) : Prop := ∀ s, A s → Safe exec rg Q p s

namespace Triple

variable {exec : Exec Op ω σ} {rg : RG σ} {A A' : σ → Prop} {Q Q' : α → σ → Prop}

/-- Returning establishes whatever the assertion says of the returned value. -/
theorem ret {a : α} (hA : rg.Stable A) (hQ : ∀ s, A s → Q a s) :
    Triple exec rg A (.ret a) Q :=
  fun s hs t ht ↦ hQ t (hA s t ht hs)

/-- One operation: from any state satisfying the assertion it keeps the
guarantee and leads to a state from which the continuation is safe. -/
theorem act {o : Op β} {k : β → Prog Op α} (hA : rg.Stable A) (B : β → σ → Prop)
    (hop : ∀ s, rg.rely s s → A s → ∀ w r u, exec _ w o s = some (r, u) → rg.guar s u ∧ B r u)
    (hk : ∀ r, Triple exec rg (B r) (k r) Q) : Triple exec rg A (.act o k) Q := by
  intro s hs t ht w r u hu
  obtain ⟨hG, hB⟩ := hop t (rg.rely_refl ht) (hA s t ht hs) w r u hu
  exact ⟨hG, hk r u hB⟩

/-- Sequential composition. -/
theorem bind {p : Prog Op β} {f : β → Prog Op α} (B : β → σ → Prop)
    (hp : Triple exec rg A p B) (hf : ∀ b, Triple exec rg (B b) (f b) Q) :
    Triple exec rg A (p.bind f) Q :=
  fun s hs ↦ Safe.bind ((hp s hs).mono fun b t hb ↦ hf b t hb)

theorem ite {c : Prop} [Decidable c] {p q : Prog Op α} (hp : Triple exec rg A p Q)
    (hq : Triple exec rg A q Q) : Triple exec rg A (if c then p else q) Q := by
  split
  · exact hp
  · exact hq

/-- Consequence. -/
theorem conseq {p : Prog Op α} (h : Triple exec rg A p Q) (hA : ∀ s, A' s → A s)
    (hQ : ∀ a s, Q a s → Q' a s) : Triple exec rg A' p Q' :=
  fun s hs ↦ (h s (hA s hs)).mono hQ

/-- A fact that does not mention the state may be assumed of the program. -/
theorem of_const {p : Prog Op α} {P : Prop} (h : P → Triple exec rg A p Q) :
    Triple exec rg (fun s ↦ A s ∧ P) p Q :=
  fun s hs ↦ h hs.2 s hs.1

/-- What holds of some value may be assumed of an arbitrary one. -/
theorem of_exists {γ : Type} {A : γ → σ → Prop} {p : Prog Op α}
    (h : ∀ c, Triple exec rg (A c) p Q) : Triple exec rg (fun s ↦ ∃ c, A c s) p Q :=
  fun s ⟨c, hc⟩ ↦ h c s hc

/-- An operation that leaves the state alone keeps the assertion, and the rest
of the program may use what is known of the answer. -/
theorem read {o : Op β} {k : β → Prog Op α} (hA : rg.Stable A)
    (hG : ∀ s, rg.rely s s → rg.guar s s) (B : β → Prop)
    (hop : ∀ s, A s → ∀ w r u, exec _ w o s = some (r, u) → u = s ∧ B r)
    (hk : ∀ r, B r → Triple exec rg A (k r) Q) : Triple exec rg A (.act o k) Q := by
  refine act hA (fun r s ↦ A s ∧ B r) ?_ fun r ↦ of_const (hk r)
  intro s hs hAs w r u hu
  obtain ⟨rfl, hB⟩ := hop s hAs w r u hu
  exact ⟨hG u hs, hAs, hB⟩

end Triple

/-- One operation keeps the guarantee and leads from one assertion to another. -/
def OpTriple (exec : Exec Op ω σ) (rg : RG σ) (A : σ → Prop) (o : Op β) (B : β → σ → Prop) :
    Prop :=
  ∀ s, rg.rely s s → A s → ∀ w r u, exec β w o s = some (r, u) → rg.guar s u ∧ B r u

namespace RG

variable {rg : RG σ}

/-- Stable assertions are closed under conjunction. -/
theorem Stable.and {A B : σ → Prop} (hA : rg.Stable A) (hB : rg.Stable B) :
    rg.Stable fun s ↦ A s ∧ B s :=
  fun s t h hs ↦ ⟨hA s t h hs.1, hB s t h hs.2⟩

end RG

/-! ## Programs with restricted operations -/

/-- A program whose operations all keep the guarantee, from whatever state, is
safe. -/
theorem Safe.of_uses {exec : Exec Op ω σ} {rg : RG σ} {p : Prog Op α}
    {P : (β : Type) → Op β → Prop} (hp : p.Uses P)
    (hP : ∀ β (o : Op β), P β o → ∀ w s r u, exec β w o s = some (r, u) → rg.guar s u) (s : σ) :
    Safe exec rg (fun _ _ ↦ True) p s := by
  induction p generalizing s with
  | ret a => exact fun _ _ ↦ trivial
  | act o k ih => exact fun t _ w r u hu ↦ ⟨hP _ o hp.1 w t r u hu, ih r (hp.2 r) u⟩

/-- A program all of whose operations keep the guarantee and the assertion keeps both. -/
theorem Triple.of_preserves {exec : Exec Op ω σ} {rg : RG σ} {A : σ → Prop} {p : Prog Op α}
    {P : (β : Type) → Op β → Prop} (hp : p.Uses P) (hA : rg.Stable A)
    (hP : ∀ β (o : Op β), P β o → ∀ w s r u, rg.rely s s → A s → exec β w o s = some (r, u) →
      rg.guar s u ∧ A u) :
    Triple exec rg A p fun _ s ↦ A s := by
  induction p with
  | ret a => exact Triple.ret hA fun _ h ↦ h
  | act o k ih =>
      refine Triple.act hA (fun _ s ↦ A s) ?_ fun r ↦ ih r (hp.2 r)
      exact fun s hs hAs w r u hu ↦ hP _ o hp.1 w s r u hs hAs hu

/-- A program all of whose operations leave the state alone keeps every stable
assertion, and breaks no guarantee that allows standing still. -/
theorem Triple.of_uses {exec : Exec Op ω σ} {rg : RG σ} {A : σ → Prop} {p : Prog Op α}
    {P : (β : Type) → Op β → Prop} (hp : p.Uses P)
    (hP : ∀ β (o : Op β), P β o → ∀ w s r u, exec β w o s = some (r, u) → u = s)
    (hG : ∀ s, rg.rely s s → rg.guar s s) (hA : rg.Stable A) :
    Triple exec rg A p fun _ s ↦ A s := by
  induction p with
  | ret a => exact Triple.ret hA fun _ h ↦ h
  | act o k ih =>
      refine Triple.act hA (fun _ s ↦ A s) ?_ fun r ↦ ih r (hp.2 r)
      intro s hs hA w r u hu
      cases hP _ o hp.1 w s r u hu
      exact ⟨hG s hs, hA⟩

/-- What a program returns may be added to a proof about it. -/
theorem Prog.Returns.safe {exec : Exec Op ω σ} {rg : RG σ} {Q : α → σ → Prop} {P : α → Prop}
    {p : Prog Op α} {s : σ} (hp : p.Returns P) (h : Safe exec rg Q p s) :
    Safe exec rg (fun a t ↦ P a ∧ Q a t) p s := by
  induction p generalizing s with
  | ret a => exact fun t ht ↦ ⟨hp, h t ht⟩
  | act o k ih =>
      intro t ht w r u hu
      obtain ⟨hG, hk⟩ := h t ht w r u hu
      exact ⟨hG, ih r (hp r) hk⟩

/-! ## Programs that are cut short or lifted -/

/-- A program that is stopped in between has kept its promise up to there. -/
theorem Safe.upTo {exec : Exec Op ω σ} {rg : RG σ} {Q : α → σ → Prop} {p : Prog Op α} {s : σ}
    (h : Safe exec rg Q p s) (n : Nat) :
    Safe exec rg (fun o t ↦ ∀ a, o = some a → Q a t) (p.upTo n) s := by
  induction p generalizing n s with
  | ret a =>
      cases n <;>
      · rintro t ht _ ⟨⟩
        exact h t ht
  | act o k ih =>
      cases n with
      | zero =>
          rintro t _ _ ⟨⟩
      | succ n =>
          intro t ht w r u hu
          obtain ⟨hG, hk⟩ := h t ht w r u hu
          exact ⟨hG, ih r hk n⟩

/-- A program over part of the state serves over all of it.  `F` is what the
operations do to the rest. -/
theorem Safe.lift {Op' : Type → Type} {σ' : Type} {exec : Exec Op ω σ} {exec' : Exec Op' ω σ'}
    {rg : RG σ} {rg' : RG σ'} {Q : α → σ → Prop} {p : Prog Op α}
    {ι : (β : Type) → Op β → Op' β} {π : σ' → σ} {F : σ' → σ' → Prop}
    {P : (β : Type) → Op β → Prop} (hp : p.Uses P)
    (hexec : ∀ β (o : Op β), P β o → ∀ w s r u, exec' β w (ι β o) s = some (r, u) →
      exec β w o (π s) = some (r, π u) ∧ F s u)
    (hR : ∀ s t, rg'.rely s t → rg.rely (π s) (π t))
    (hG : ∀ s t, rg'.rely s s → rg.guar (π s) (π t) → F s t → rg'.guar s t) {s : σ'}
    (h : Safe exec rg Q p (π s)) : Safe exec' rg' (fun a t ↦ Q a (π t)) (p.mapOp ι) s := by
  induction p generalizing s with
  | ret a => exact fun t ht ↦ h (π t) (hR s t ht)
  | act o k ih =>
      intro t ht w r u hu
      obtain ⟨he, hF⟩ := hexec _ o hp.1 w t r u hu
      obtain ⟨hg, hk⟩ := h (π t) (hR s t ht) w r (π u) he
      exact ⟨hG t u (rg'.rely_refl ht) hg hF, ih r (hp.2 r) hk⟩

/-! ## Running alone -/

/-- Nothing else runs. -/
def RG.alone (σ : Type) : RG σ where
  rely := Eq
  guar _ _ := True
  rely_trans := Eq.trans
  rely_refl _ := rfl

theorem RG.alone_stable (A : σ → Prop) : (RG.alone σ).Stable A := by
  rintro s _ rfl h
  exact h

/-- A program that is safe alone ends in its postcondition when it is run alone. -/
theorem Safe.eval {h : Prog.Handler Op σ} {p : Prog Op α} {Q : α → σ → Prop} {s : σ} (w : ω)
    (hs : Safe (fun β (_ : ω) o s ↦ some (h β o s)) (RG.alone σ) Q p s) :
    Q (p.eval h s).1 (p.eval h s).2 := by
  induction p generalizing s with
  | ret a => exact hs s rfl
  | act o k ih => exact ih _ (hs s rfl w _ _ rfl).2

end SecondScreen.Conc
