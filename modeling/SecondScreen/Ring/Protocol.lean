import Mathlib.Data.List.Pairwise
import Mathlib.Data.List.Basic
import SecondScreen.Ring.Sharing

/-!
# The ring protocol

The invariant of the shared ring, and what each of the two processes may do to
it as the other one sees it.  Both are cumulative: `DriverMoves s t` says what
any number of steps of the driver can make of `s`, and likewise `HostMoves`.
Together with the invariant they are each process's rely and the other one's
guarantee.

The heart of the matter is small.  A slot that one process owns is left alone by
the other; the host never makes a slot ready and never writes a field; whatever
the driver makes ready it has just published.

Results differ in what they assume of the driver's calls, so the invariant
carries the assumptions as premises.
-/

namespace SecondScreen.Ring

open SecondScreen.Conc

/-- What is assumed of the calls of the driver. -/
structure Assumption where
  /-- All of them belong to the life of one `SwapChainProcessor`. -/
  single : Prop
  /-- None of them gives up a slot it has claimed. -/
  succeeding : Prop

/-! ## Publications in order -/

/-- Among publications in order, the sequence tells the order. -/
theorem Publication.before_of_sequence {l : List Publication} (h : l.Pairwise Publication.Before)
    {p q : Publication} (hp : p ∈ l) (hq : q ∈ l) (hlt : p.sequence < q.sequence) :
    p.Before q := by
  induction h with
  | nil => cases hp
  | @cons x l hx _ ih =>
      rcases List.mem_cons.1 hp with rfl | hp'
      · rcases List.mem_cons.1 hq with rfl | hq'
        · exact absurd hlt (lt_irrefl _)
        · exact hx q hq'
      · rcases List.mem_cons.1 hq with rfl | hq'
        · exact absurd hlt (not_lt.2 (hx p hp').1.le)
        · exact ih hp' hq'

/-- Among publications in order, the last one has the greatest sequence. -/
theorem Publication.sequence_le_last {l : List Publication} (h : l.Pairwise Publication.Before)
    {p q : Publication} (hp : p ∈ l) (hq : l.getLast? = some q) : p.sequence ≤ q.sequence := by
  obtain ⟨l', rfl⟩ := List.getLast?_eq_some_iff.1 hq
  rcases List.mem_append.1 hp with hp | hp
  · exact ((List.pairwise_append.1 h).2.2 p hp q (by simp)).1.le
  · rw [List.mem_singleton.1 hp]

/-- Among publications in order, no two have the same sequence. -/
theorem Publication.eq_of_sequence {l : List Publication} (h : l.Pairwise Publication.Before)
    {p q : Publication} (hp : p ∈ l) (hq : q ∈ l) (heq : p.sequence = q.sequence) : p = q := by
  induction h with
  | nil => cases hp
  | @cons x l hx _ ih =>
      rcases List.mem_cons.1 hp with rfl | hp'
      · rcases List.mem_cons.1 hq with rfl | hq'
        · rfl
        · exact absurd heq (hx q hq').1.ne
      · rcases List.mem_cons.1 hq with rfl | hq'
        · exact absurd heq (hx p hp').1.ne'
        · exact ih hp' hq'

/-! ## The invariant -/

/-- The invariant of the ring and its record. -/
structure Inv (a : Assumption) (s : Shared) : Prop where
  driverOwns : ∀ i, s.log.driverOwns i = true → s.ring.state i = .writing
  readerOwns : ∀ i, s.log.readerOwns i = true → s.ring.state i = .reading
  /-- A slot that is ready or being read holds one whole publication. -/
  content : ∀ i, s.ring.state i = .ready ∨ s.ring.state i = .reading →
    ∃ p ∈ s.log.published, p.Fills (s.ring.slots i)
  returned : ∀ f ∈ s.log.returned, ∃ p ∈ s.log.published, p.sequence = f.1 ∧ p.Shows f.2
  sorted : a.single → s.log.published.Pairwise Publication.Before
  /-- No two slots hold the same publication. -/
  distinct : a.single → ∀ i j, i ≠ j → s.ring.state i = .ready ∨ s.ring.state i = .reading →
    s.ring.state j = .ready ∨ s.ring.state j = .reading → s.ring.sequence i ≠ s.ring.sequence j
  /-- Whatever is ready is newer than everything delivered. -/
  newer : a.single → ∀ i, s.ring.state i = .ready → ∀ f ∈ s.log.returned, f.1 < s.ring.sequence i
  increasing : a.single →
    s.log.returned.Pairwise fun f g ↦ f.1 < g.1 ∧ f.2.frameId < g.2.frameId

/-- The newest publication is in a ready slot, or about to be superseded. -/
def NewestHeld (s : Shared) : Prop :=
  (∃ i, s.log.driverOwns i = true) ∨
    ∃ i p, s.ring.state i = .ready ∧ s.log.published.getLast? = some p ∧
      p.sequence = s.ring.sequence i

/-! ## What the driver does -/

/-- The cumulative effect of the driver. -/
structure DriverMoves (a : Assumption) (s t : Shared) : Prop where
  reading : ∀ i, s.ring.state i = .reading → t.ring.slots i = s.ring.slots i
  not_reading : ∀ i, t.ring.state i = .reading → s.ring.state i = .reading
  readerOwns : t.log.readerOwns = s.log.readerOwns
  claimed : t.log.claimed = s.log.claimed
  returned : t.log.returned = s.log.returned
  rejected : t.log.rejected = s.log.rejected
  session : t.log.session = s.log.session
  stalePurges : t.log.stalePurges = s.log.stalePurges
  published : s.log.published <+: t.log.published
  /-- A ready slot is as before, or holds a publication made in between. -/
  ready : ∀ i, t.ring.state i = .ready → t.ring.slots i = s.ring.slots i ∨
    ∃ p ∈ t.log.published.drop s.log.published.length, p.Fills (t.ring.slots i)
  /-- A slot stops being ready only to be published anew. -/
  taken : a.succeeding → ∀ i, s.ring.state i = .ready → t.ring.state i = .ready ∨ NewestHeld t
  newest : a.succeeding → NewestHeld s ∨ s.log.published ≠ t.log.published → NewestHeld t

namespace DriverMoves

variable {a : Assumption} {s t u : Shared}

theorem refl (a : Assumption) (s : Shared) : DriverMoves a s s where
  reading _ _ := rfl
  not_reading _ h := h
  readerOwns := rfl
  claimed := rfl
  returned := rfl
  rejected := rfl
  session := rfl
  stalePurges := rfl
  published := List.prefix_refl _
  ready _ _ := .inl rfl
  taken _ _ h := .inl h
  newest _ h := h.resolve_right fun h ↦ h rfl

theorem trans (h : DriverMoves a s t) (h' : DriverMoves a t u) : DriverMoves a s u where
  reading i hi := by
    have ht := h.reading i hi
    rw [h'.reading i (by simpa [FrameRing.state, ht] using hi), ht]
  not_reading i hi := h.not_reading i (h'.not_reading i hi)
  readerOwns := h'.readerOwns.trans h.readerOwns
  claimed := h'.claimed.trans h.claimed
  returned := h'.returned.trans h.returned
  rejected := h'.rejected.trans h.rejected
  session := h'.session.trans h.session
  stalePurges := h'.stalePurges.trans h.stalePurges
  published := h.published.trans h'.published
  ready i hi := by
    obtain ⟨l, hl⟩ := h.published
    obtain ⟨l', hl'⟩ := h'.published
    have hdrop : u.log.published.drop s.log.published.length = l ++ l' := by
      rw [← hl', ← hl, List.append_assoc, List.drop_left]
    have hdrop' : u.log.published.drop t.log.published.length = l' := by
      rw [← hl', List.drop_left]
    rw [hdrop]
    rcases h'.ready i hi with hu | ⟨p, hp, hu⟩
    · rw [hu]
      have ht : t.ring.state i = .ready := by simpa [FrameRing.state, hu] using hi
      refine (h.ready i ht).imp_right ?_
      rintro ⟨p, hp, hf⟩
      rw [← hl, List.drop_left] at hp
      exact ⟨p, List.mem_append_left _ hp, hf⟩
    · rw [hdrop'] at hp
      exact .inr ⟨p, List.mem_append_right _ hp, hu⟩
  taken ha i hi := by
    rcases h.taken ha i hi with ht | ht
    · exact h'.taken ha i ht
    · exact .inr (h'.newest ha (.inl ht))
  newest ha hs := by
    by_cases hst : s.log.published = t.log.published
    · rw [hst] at hs
      rcases hs with hs | hs
      · exact h'.newest ha (.inl (h.newest ha (.inl hs)))
      · exact h'.newest ha (.inr hs)
    · exact h'.newest ha (.inl (h.newest ha (.inr hst)))

/-- A publication made by the driver is newer than everything published
before. -/
theorem sequence_lt_of_mem_drop (h : DriverMoves a s t)
    (hsorted : t.log.published.Pairwise Publication.Before) {p q : Publication}
    (hp : p ∈ s.log.published) (hq : q ∈ t.log.published.drop s.log.published.length) :
    p.sequence < q.sequence := by
  obtain ⟨l, hl⟩ := h.published
  rw [← hl, List.drop_left] at hq
  rw [← hl] at hsorted
  exact ((List.pairwise_append.1 hsorted).2.2 p hp q hq).1

end DriverMoves

/-! ## What the host does -/

/-- What the host can make of a state word. -/
def SlotState.Advances (s t : SlotState) : Prop :=
  s = t ∨ (s = .ready ∧ t ≠ .writing) ∨ (s = .reading ∧ t = .free)

instance (s t : SlotState) : Decidable (s.Advances t) :=
  inferInstanceAs (Decidable (_ ∨ _ ∨ _))

theorem SlotState.Advances.refl (s : SlotState) : s.Advances s := by
  cases s <;> decide

theorem SlotState.Advances.trans {s t u : SlotState} (h : s.Advances t) (h' : t.Advances u) :
    s.Advances u := by
  revert h h'
  cases s <;> cases t <;> cases u <;> decide

/-- The cumulative effect of the host. -/
structure HostMoves (s t : Shared) : Prop where
  field : ∀ i, (t.ring.slots i).field = (s.ring.slots i).field
  payload : ∀ i, (t.ring.slots i).payload = (s.ring.slots i).payload
  state : ∀ i, (s.ring.state i).Advances (t.ring.state i)
  driverOwns : t.log.driverOwns = s.log.driverOwns
  current : t.log.current = s.log.current
  published : t.log.published = s.log.published

namespace HostMoves

variable {s t u : Shared}

theorem refl (s : Shared) : HostMoves s s where
  field _ := rfl
  payload _ := rfl
  state _ := .refl _
  driverOwns := rfl
  current := rfl
  published := rfl

theorem trans (h : HostMoves s t) (h' : HostMoves t u) : HostMoves s u where
  field i := (h'.field i).trans (h.field i)
  payload i := (h'.payload i).trans (h.payload i)
  state i := (h.state i).trans (h'.state i)
  driverOwns := h'.driverOwns.trans h.driverOwns
  current := h'.current.trans h.current
  published := h'.published.trans h.published

/-- The state of a slot that the driver writes does not change. -/
theorem state_of_writing (h : HostMoves s t) {i : Slot} (hi : s.ring.state i = .writing) :
    t.ring.state i = .writing := by
  have h' := h.state i
  rw [hi] at h'
  revert h'
  cases t.ring.state i <;> decide

end HostMoves

/-! ## The two contracts -/

/-- The host relies on the driver and promises its own moves. -/
def hostRG (a : Assumption) : RG Shared where
  rely s t := DriverMoves a s t ∧ Inv a t
  guar s t := HostMoves s t ∧ Inv a t
  rely_trans h h' := ⟨h.1.trans h'.1, h'.2⟩
  rely_refl h := ⟨.refl a _, h.2⟩

/-- The driver relies on the host and promises its own moves. -/
def driverRG (a : Assumption) : RG Shared where
  rely s t := HostMoves s t ∧ Inv a t
  guar s t := DriverMoves a s t ∧ Inv a t
  rely_trans h h' := ⟨h.1.trans h'.1, h'.2⟩
  rely_refl h := ⟨.refl _, h.2⟩

/-- Standing still is allowed to the host. -/
theorem hostRG_guar_refl (a : Assumption) (s : Shared) (h : (hostRG a).rely s s) :
    (hostRG a).guar s s := ⟨.refl s, h.2⟩

/-- Standing still is allowed to the driver. -/
theorem driverRG_guar_refl (a : Assumption) (s : Shared) (h : (driverRG a).rely s s) :
    (driverRG a).guar s s := ⟨.refl a s, h.2⟩

end SecondScreen.Ring
