import SecondScreen.Ring.Agreement
import SecondScreen.Ring.Restart

/-!
# Driver and reader next to a restart

Of the driver's publish this proof keeps what is left of it when a host may
clear any word at any time: the bytes stored so far, unless one of them has been
changed, and each field either as stored or cleared (`Storing`).  A slot made
ready like this `Resembles` the publication, and the checks of `IsValidSlot`
tell a cleared field, but not a cleared byte.

Where whatever is ready resembles a publication (`AllGood`), `TryReadLatest`
returns only what was published.
-/

namespace SecondScreen.Ring

open SecondScreen.Conc SecondScreen.Conc.System

/-- The slot holds the payload of the publication, and of its fields those that
have not been cleared. -/
def Publication.Resembles (p : Publication) (c : FrameSlot) : Prop :=
  (∀ f, c.field f = p.field f ∨ c.field f = 0) ∧
    ∀ n < p.field .payloadLength, c.payload n = p.payload n

/-- A valid slot has no cleared field. -/
theorem FrameSlot.field_ne_zero {c : FrameSlot} (h : c.validLength ≠ none) (f : SlotField) :
    c.field f ≠ 0 := by
  unfold validLength at h
  split_ifs at h with hseq hid hts hsize hmax hlen
  · exact absurd rfl h
  · exact absurd rfl h
  · exact absurd rfl h
  · exact absurd rfl h
  · exact absurd rfl h
  · exact absurd rfl h
  rw [Bool.not_eq_false] at hsize
  simp only [validSize, Bool.and_eq_true, decide_eq_true_eq] at hsize
  obtain ⟨⟨⟨⟨⟨⟨⟨hw, hh⟩, -⟩, -⟩, -⟩, -⟩, hstride⟩, -⟩ := hsize
  rw [not_not] at hlen
  cases f with
  | sequence => exact hseq
  | frameId => exact hid
  | captureTimestampUs => exact hts
  | width => exact hw
  | height => exact hh
  | stride => omega
  | payloadLength =>
      have hpos : 0 < c.field .stride * c.field .height :=
        Nat.mul_pos (by omega) (Nat.pos_of_ne_zero hh)
      rw [hlen, expectedBytes]
      omega

/-- A valid slot that resembles a publication holds it in full. -/
theorem Publication.Resembles.fills {p : Publication} {c : FrameSlot} (h : p.Resembles c)
    (hc : c.validLength ≠ none) : p.Fills c :=
  ⟨funext fun f ↦ (h.1 f).resolve_right (FrameSlot.field_ne_zero hc f), h.2⟩

/-! ## The two contracts -/

/-- What the driver does to the ring and to the record. -/
structure DriverKeeps (s t : Shared) : Prop where
  reading : ∀ i, s.ring.state i = .reading → t.ring.slots i = s.ring.slots i
  ready : ∀ i, t.ring.state i = .ready → t.ring.slots i = s.ring.slots i ∨
    ∃ p ∈ t.log.published, p.Resembles (t.ring.slots i)
  published : s.log.published ⊆ t.log.published
  returned : t.log.returned = s.log.returned

namespace DriverKeeps

variable {s t u : Shared}

theorem refl (s : Shared) : DriverKeeps s s :=
  ⟨fun _ _ ↦ rfl, fun _ _ ↦ .inl rfl, List.Subset.refl _, rfl⟩

theorem trans (h : DriverKeeps s t) (h' : DriverKeeps t u) : DriverKeeps s u where
  reading i hi := by
    have ht := h.reading i hi
    rw [h'.reading i (by rwa [FrameRing.state, ht]), ht]
  ready i hi := by
    rcases h'.ready i hi with hu | hu
    · rw [FrameRing.state, hu] at hi
      rcases h.ready i hi with ht | ⟨p, hp, ht⟩
      · exact .inl (hu.trans ht)
      · exact .inr ⟨p, h'.published hp, hu ▸ ht⟩
    · exact .inr hu
  published _ hp := h'.published (h.published hp)
  returned := h'.returned.trans h.returned

end DriverKeeps

/-- What a host does, as the driver sees it. -/
structure HostKeeps (s t : Restart) : Prop where
  field : ∀ i f, (t.shared.ring.slots i).field f = (s.shared.ring.slots i).field f ∨
    (t.shared.ring.slots i).field f = 0
  payload : t.clobbered = false → ∀ i, s.shared.log.driverOwns i = true → ∀ n < s.stored,
    (t.shared.ring.slots i).payload n = (s.shared.ring.slots i).payload n
  driverOwns : t.shared.log.driverOwns = s.shared.log.driverOwns
  current : t.shared.log.current = s.shared.log.current
  published : t.shared.log.published = s.shared.log.published
  stored : t.stored = s.stored
  clobbered : t.clobbered = false → s.clobbered = false

namespace HostKeeps

variable {s t u : Restart}

theorem refl (s : Restart) : HostKeeps s s :=
  ⟨fun _ _ ↦ .inl rfl, fun _ _ _ _ _ ↦ rfl, rfl, rfl, rfl, rfl, id⟩

theorem trans (h : HostKeeps s t) (h' : HostKeeps t u) : HostKeeps s u where
  field i f := by
    rcases h'.field i f with hu | hu
    · rw [hu]
      exact h.field i f
    · exact .inr hu
  payload hu i hi n hn := by
    rw [h'.payload hu i (h.driverOwns ▸ hi) n (h.stored ▸ hn)]
    exact h.payload (h'.clobbered hu) i hi n hn
  driverOwns := h'.driverOwns.trans h.driverOwns
  current := h'.current.trans h.current
  published := h'.published.trans h.published
  stored := h'.stored.trans h.stored
  clobbered hu := h.clobbered (h'.clobbered hu)

end HostKeeps

/-- The invariant. -/
structure Restart.Inv (s : Restart) : Prop where
  /-- A slot that the driver owns may have been freed, but nothing else. -/
  owned : ∀ i, s.shared.log.driverOwns i = true →
    s.shared.ring.state i = .writing ∨ s.shared.ring.state i = .free
  returned : ∀ f ∈ s.shared.log.returned, ∃ p ∈ s.shared.log.published, p.Shows f.2
  intact : s.clobbered = false

/-- A step of a host that changes stored bytes keeps the contract as well: such
steps are excluded later. -/
def restartRG : Side → RG Restart
  | .driver =>
      { rely := fun s t ↦ HostKeeps s t ∧ t.Inv
        guar := fun s t ↦ DriverKeeps s.shared t.shared ∧ t.Inv
        rely_trans := fun h h' ↦ ⟨h.1.trans h'.1, h'.2⟩
        rely_refl := fun h ↦ ⟨.refl _, h.2⟩ }
  | .host =>
      { rely := fun s t ↦ DriverKeeps s.shared t.shared ∧ t.Inv
        guar := fun s t ↦ HostKeeps s t ∧ (t.clobbered = false → t.Inv)
        rely_trans := fun h h' ↦ ⟨h.1.trans h'.1, h'.2⟩
        rely_refl := fun h ↦ ⟨.refl _, h.2⟩ }

/-! ## The driver -/

section Driver

variable {s u : Restart} {p : Publication} {i : Slot} {done : List SlotField} {n : Nat}

/-- An operation of the driver on slot `i`. -/
theorem Restart.Inv.driver (hs : s.Inv) (hi : s.shared.ring.state i ≠ .reading)
    (hothers : ∀ j, j ≠ i → u.shared.ring.slots j = s.shared.ring.slots j)
    (howns : ∀ j, j ≠ i → u.shared.log.driverOwns j = s.shared.log.driverOwns j)
    (howned : u.shared.log.driverOwns i = true →
      u.shared.ring.state i = .writing ∨ u.shared.ring.state i = .free)
    (hready : u.shared.ring.state i = .ready →
      ∃ p ∈ u.shared.log.published, p.Resembles (u.shared.ring.slots i))
    (hpublished : s.shared.log.published ⊆ u.shared.log.published)
    (hreturned : u.shared.log.returned = s.shared.log.returned)
    (hclobbered : u.clobbered = s.clobbered) :
    (restartRG .driver).guar s u := by
  have hstate (j : Slot) (hji : j ≠ i) : u.shared.ring.state j = s.shared.ring.state j := by
    rw [FrameRing.state, FrameRing.state, hothers j hji]
  refine ⟨⟨fun j hj ↦ hothers j ?_, fun j hj ↦ ?_, hpublished, hreturned⟩, fun j hj ↦ ?_, ?_,
    hclobbered.trans hs.intact⟩
  · rintro rfl
    exact hi hj
  · by_cases hji : j = i
    · subst hji
      exact .inr (hready hj)
    · exact .inl (hothers j hji)
  · by_cases hji : j = i
    · subst hji
      exact howned hj
    · rw [howns j hji] at hj
      rw [hstate j hji]
      exact hs.owned j hj
  · intro f hf
    rw [hreturned] at hf
    obtain ⟨q, hq, hshows⟩ := hs.returned f hf
    exact ⟨q, hpublished hq, hshows⟩

/-- The driver owns nothing. -/
def OwnsNone (s : Restart) : Prop := ∀ j, s.shared.log.driverOwns j = false

theorem OwnsNone.stable : (restartRG .driver).Stable OwnsNone := by
  intro s t h hs j
  rw [h.1.driverOwns]
  exact hs j

/-- Before the claim of a slot for the publication `p`. -/
structure Preparing (p : Publication) (s : Restart) : Prop where
  owns : OwnsNone s
  current : s.shared.log.current = p

theorem Preparing.stable (p : Publication) : (restartRG .driver).Stable (Preparing p) :=
  fun s t h hs ↦ ⟨OwnsNone.stable s t h hs.owns, h.1.current.trans hs.current⟩

/-- The driver owns slot `i`, has stored the given fields of the publication `p`,
some of which may have been cleared since, and the first `n` bytes. -/
structure Storing (p : Publication) (i : Slot) (done : List SlotField) (n : Nat) (s : Restart) :
    Prop where
  owns : ∀ j, s.shared.log.driverOwns j = decide (j = i)
  current : s.shared.log.current = p
  stored : s.stored = n
  field : ∀ f ∈ done,
    (s.shared.ring.slots i).field f = p.field f ∨ (s.shared.ring.slots i).field f = 0
  payload : ∀ k < n, (s.shared.ring.slots i).payload k = p.payload k

theorem Storing.owner (h : Storing p i done n s) : s.shared.log.driverOwns i = true := by
  simp [h.owns]

theorem Storing.stable (p : Publication) (i : Slot) (done : List SlotField) (n : Nat) :
    (restartRG .driver).Stable (Storing p i done n) := by
  rintro s t ⟨h, ht⟩ hs
  refine ⟨by rw [h.driverOwns]; exact hs.owns, h.current.trans hs.current,
    h.stored.trans hs.stored, fun f hf ↦ ?_, fun k hk ↦ ?_⟩
  · rcases h.field i f with heq | hzero
    · rw [heq]
      exact hs.field f hf
    · exact .inr hzero
  · rw [h.payload ht.intact i hs.owner k (hs.stored ▸ hk)]
    exact hs.payload k hk

/-- A slot that the driver owns is not being read. -/
theorem Storing.not_reading (h : Storing p i done n s) (hs : s.Inv) :
    s.shared.ring.state i ≠ .reading := by
  rcases hs.owned i h.owner with hi | hi <;> simp [hi]

theorem claims_restart (p : Publication) :
    ClaimOutline restartDriver (restartRG .driver) (Preparing p) fun i ↦ Storing p i [] 0 where
  stable := Preparing.stable p
  stable_taken i := Storing.stable p i [] 0
  read {β o} ho s hs hA w r u hu := by
    have hu' : u = s := by
      cases o <;> first | exact ho.elim | (cases hu; rfl)
    rw [hu']
    exact ⟨⟨.refl _, hs.2⟩, hA⟩
  take i expected he s hs hA w old u hu := by
    simp only [restartDriver, restartDriverHandler, driverHandler, RingOp.exec, Log.driverStep,
      Restart.storedAfter, Option.some.injEq, Prod.mk.injEq] at hu
    obtain ⟨rfl, rfl⟩ := hu
    by_cases hst : s.shared.ring.state i = expected
    · simp only [if_pos hst]
      constructor
      · apply hs.2.driver (i := i)
        · rcases he with rfl | rfl <;> simp [hst]
        · exact fun j hj ↦ FrameRing.setState_of_ne hj _
        · exact fun j hj ↦ Function.update_of_ne hj ..
        · exact fun _ ↦ .inl (by simp [FrameRing.state])
        · intro hr
          simp [FrameRing.state] at hr
        · exact List.Subset.refl _
        · rfl
        · rfl
      · constructor
        · intro j
          by_cases hj : j = i
          · subst hj; simp
          · simp [hj, hA.owns j]
        · exact hA.current
        · rfl
        · intro f hf
          cases hf
        · exact fun k hk ↦ absurd hk k.not_lt_zero
    · simp only [if_neg hst]
      exact ⟨⟨.refl _, hs.2⟩, hA⟩

/-- An operation of the driver that writes into its slot. -/
theorem Storing.guar (h : Storing p i done n s) (hs : s.Inv) {ring : FrameRing} (m : Nat)
    (hstate : ring.state i = s.shared.ring.state i)
    (hothers : ∀ j, j ≠ i → ring.slots j = s.shared.ring.slots j) :
    (restartRG .driver).guar s { s with shared := ⟨ring, s.shared.log⟩, stored := m } := by
  have hi := hs.owned i h.owner
  refine hs.driver (i := i) (h.not_reading hs) hothers (fun _ _ ↦ rfl) (fun _ ↦ ?_) (fun hr ↦ ?_)
    (List.Subset.refl _) rfl rfl
  · rw [hstate]
    exact hi
  · rw [hstate] at hr
    rcases hi with hi | hi <;> simp [hi] at hr

/-- Giving a slot up. -/
theorem Storing.giveUp {s : Restart} (h : Storing p i done n s) (hs : s.Inv) {u : Restart}
    {r w : Unit} (hu : restartDriver _ w (.exchange i .free) s = some (r, u)) :
    (restartRG .driver).guar s u ∧ OwnsNone u := by
  cases hu
  constructor
  · apply hs.driver (h.not_reading hs) (fun j hj ↦ FrameRing.setState_of_ne hj _)
      (fun j hj ↦ Function.update_of_ne hj ..)
    · exact fun _ ↦ .inr (by simp [driverHandler, RingOp.exec, FrameRing.state])
    · intro hr
      simp [driverHandler, RingOp.exec, FrameRing.state] at hr
    · exact List.Subset.refl _
    · rfl
    · rfl
  · intro j
    by_cases hj : j = i
    · subst hj; simp [driverHandler, Log.driverStep]
    · simp [driverHandler, Log.driverStep, hj, h.owns]

/-- The proof of a publish next to hosts that set the ring up at any time. -/
def restartPublish (m : SwapChainProcessor) (frame : PendingBgraFrame) (env : PublishEnv)
    (hset : env.setEvent = true) :
    PublishOutline restartDriver (restartRG .driver) m frame env where
  before := Preparing (publication m frame env)
  writing := Storing (publication m frame env)
  announced _ := OwnsNone
  after _ := OwnsNone
  claims := claims_restart _
  stable i done n := Storing.stable _ i done n
  stable_announced _ := OwnsNone.stable
  stable_after _ := OwnsNone.stable
  refuse _ h := h.owns
  giveUp _ i s hs hA _ _ _ hu := hA.giveUp hs.2 hu
  field i done f s hs hA w r u hu := by
    cases hu
    refine ⟨hA.guar hs.2 _ (by simp [RingOp.exec, FrameRing.state])
      fun j hj ↦ FrameRing.setSlot_of_ne hj _, hA.owns, hA.current, hA.stored, fun g hg ↦ ?_,
      fun k hk ↦ absurd hk k.not_lt_zero⟩
    by_cases hgf : g = f
    · subst hgf
      simp [driverHandler, RingOp.exec, publication]
    · simpa [driverHandler, RingOp.exec, hgf] using
        hA.field g ((List.mem_cons.1 hg).resolve_left hgf)
  byte source hsource i done n s hs hA w r u hu := by
    cases hu
    refine ⟨hA.guar hs.2 _ (by simp [RingOp.exec, FrameRing.state])
      fun j hj ↦ FrameRing.setSlot_of_ne hj _, hA.owns, hA.current, rfl, fun f hf ↦ ?_,
      fun k hk ↦ ?_⟩
    · simpa [driverHandler, RingOp.exec] using hA.field f hf
    · by_cases hkn : k = n
      · subst hkn
        simp [driverHandler, RingOp.exec, publication, hsource]
      · simpa [driverHandler, RingOp.exec, hkn] using hA.payload k (by omega)
  telemetry i done n t v s hs hA w r u hu := by
    cases hu
    exact ⟨hA.guar hs.2 _ rfl fun _ _ ↦ rfl, hA.owns, hA.current, hA.stored, hA.field, hA.payload⟩
  announce _ i s hs hA w r u hu := by
    cases hu
    have hresembles : (publication m frame env).Resembles (s.shared.ring.slots i) :=
      ⟨fun f ↦ hA.field f (by simp [mem_fieldOrder]), hA.payload⟩
    constructor
    · apply hs.2.driver (hA.not_reading hs.2) (fun j hj ↦ FrameRing.setState_of_ne hj _)
        (fun j hj ↦ Function.update_of_ne hj ..)
      · intro h
        simp [driverHandler, Log.driverStep] at h
      · refine fun _ ↦ ⟨publication m frame env, ?_, ?_⟩
        · simp [driverHandler, Log.driverStep, hA.current]
        · simpa [driverHandler, RingOp.exec, Publication.Resembles] using hresembles
      · exact List.subset_append_left _ _
      · rfl
      · rfl
    · intro j
      by_cases hj : j = i
      · subst hj; simp [driverHandler, Log.driverStep]
      · simp [driverHandler, Log.driverStep, hj, hA.owns]
  signalled _ _ _ h := h
  unsignalled h := by
    rw [hset] at h
    cases h

end Driver

/-! ## The reader -/

section Reader

/-- Whatever is ready resembles a publication. -/
def AllGood (s : Shared) : Prop :=
  ∀ i, s.ring.state i = .ready → ∃ p ∈ s.log.published, p.Resembles (s.ring.slots i)

/-- What the calls of a host do to the ring and to the record, once it is
constructed. -/
structure ReaderKeeps (s t : Shared) : Prop where
  ring : Loosens s.ring t.ring
  payload : ∀ i, (t.ring.slots i).payload = (s.ring.slots i).payload
  driverOwns : t.log.driverOwns = s.log.driverOwns
  current : t.log.current = s.log.current
  published : t.log.published = s.log.published
  returned : t.log.returned = s.log.returned

variable {s t : Shared} {i : Slot} {c : FrameSlot}

theorem ReaderKeeps.refl (s : Shared) : ReaderKeeps s s :=
  ⟨.refl _, fun _ ↦ rfl, rfl, rfl, rfl, rfl⟩

theorem ReaderKeeps.allGood (h : ReaderKeeps s t) (hs : AllGood s) : AllGood t := by
  intro i hi
  obtain ⟨p, hp, hfill⟩ := hs i (h.ring.ready hi)
  refine ⟨p, h.published ▸ hp, ?_⟩
  rw [Publication.Resembles, h.ring.field, h.payload]
  exact hfill

/-- Each operation of the reader keeps the contents of all slots. -/
theorem ReaderKeeps.hostOp {β : Type} {o : RingOp β} (ho : HostOp β o) (s : Shared) :
    ReaderKeeps s (hostHandler β o s).2 := by
  have hlog : (s.log.readerStep β o s.ring).returned = s.log.returned ∧
      (s.log.readerStep β o s.ring).driverOwns = s.log.driverOwns := by
    cases o with
    | compareExchange i x e =>
        cases x <;> dsimp only [Log.readerStep] <;> (try split) <;> exact ⟨rfl, rfl⟩
    | _ => exact ⟨rfl, rfl⟩
  have hfields := LeavesFields.hostOp ho s
  exact ⟨hfields.ring, ho.payload s.ring, hlog.2, hfields.current, hfields.published, hlog.1⟩

/-- The reader next to a driver. -/
def readerRG : RG Shared where
  rely := DriverKeeps
  guar := ReaderKeeps
  rely_trans := DriverKeeps.trans
  rely_refl _ := .refl _

theorem AllGood.stable : readerRG.Stable AllGood := by
  intro s t h hs i hi
  rcases h.ready i hi with heq | hgood
  · rw [FrameRing.state, heq] at hi
    obtain ⟨p, hp, hfill⟩ := hs i hi
    exact ⟨p, h.published hp, heq ▸ hfill⟩
  · exact hgood

/-- The host has claimed slot `i`, whose contents `c` resemble a publication. -/
structure Chosen (i : Slot) (c : FrameSlot) (s : Shared) : Prop where
  slot : s.ring.slots i = c
  reading : c.state = .reading
  resembles : ∃ p ∈ s.log.published, p.Resembles c
  good : AllGood s

theorem Chosen.stable (i : Slot) (c : FrameSlot) : readerRG.Stable (Chosen i c) := by
  intro s t h hs
  refine ⟨?_, hs.reading, ?_, AllGood.stable s t h hs.good⟩
  · rw [h.reading i (by rw [FrameRing.state, hs.slot]; exact hs.reading), hs.slot]
  · obtain ⟨p, hp, hfill⟩ := hs.resembles
    exact ⟨p, h.published hp, hfill⟩

theorem Chosen.knows (i : Slot) (c : FrameSlot) : Knows readerRG (Chosen i c) i c where
  stable := Chosen.stable i c
  guar_refl s _ := .refl s
  slot _ h := h.slot

/-- A frame returned shows a publication. -/
def Genuine (outcome : Outcome) (s : Shared) : Prop :=
  ∀ f, outcome = .frame f → ∃ p ∈ s.log.published, p.Shows f

theorem Genuine.stable (outcome : Outcome) : readerRG.Stable (Genuine outcome) := by
  intro s t h hs f hf
  obtain ⟨p, hp, hshows⟩ := hs f hf
  exact ⟨p, h.published hp, hshows⟩

/-- The end of a call that returns no frame. -/
theorem ret_noFrame {outcome : Outcome} (h : ∀ f, outcome ≠ .frame f) (r : FrameRingReader) :
    Triple hostExec readerRG AllGood (.ret (outcome, r))
      fun x s ↦ AllGood s ∧ Genuine x.1 s :=
  Triple.ret AllGood.stable fun _ hs ↦ ⟨hs, fun f hf ↦ absurd hf (h f)⟩

/-- Operations of the host keep all slots good. -/
theorem keeps_allGood {α : Type} {p : RingProg α} (hp : p.Uses HostOp) :
    Triple hostExec readerRG AllGood p fun _ ↦ AllGood := by
  apply Triple.of_preserves hp AllGood.stable
  intro β o ho w s r u _ hs hu
  cases hu
  have hkeeps := ReaderKeeps.hostOp ho s
  exact ⟨hkeeps, hkeeps.allGood hs⟩

/-- Giving the chosen slot back at the end of a call. -/
theorem freeSlot_restart {A : Shared → Prop} (hA : readerRG.Stable A) {outcome : Outcome}
    (hgood : ∀ s, A s → AllGood s ∧ Genuine outcome s) (r : FrameRingReader) :
    Triple hostExec readerRG A ((freeSlot i).bind fun _ ↦ .ret (outcome, r))
      fun x s ↦ AllGood s ∧ Genuine x.1 s := by
  refine Triple.act hA (fun _ s ↦ AllGood s ∧ Genuine outcome s) ?_ fun _ ↦
    Triple.ret (AllGood.stable.and (Genuine.stable outcome)) fun _ h ↦ h
  intro s _ hs w u t ht
  cases ht
  obtain ⟨hall, hgenuine⟩ := hgood s hs
  have hkeeps := ReaderKeeps.hostOp (o := .exchange i .free) trivial s
  refine ⟨hkeeps, hkeeps.allGood hall, fun f hf ↦ ?_⟩
  obtain ⟨p, hp, hshows⟩ := hgenuine f hf
  exact ⟨p, hkeeps.published ▸ hp, hshows⟩

variable (r : FrameRingReader)

theorem readSelected_restart (i : Slot) (c : FrameSlot) :
    Triple hostExec readerRG (Chosen i c) (readSelected r i)
      fun x s ↦ AllGood s ∧ Genuine x.1 s := by
  have hpurge : Triple hostExec readerRG (Chosen i c) (purgeOlder i slotIndices)
      fun _ ↦ Chosen i c := by
    apply Triple.of_preserves (purgeOlder_uses i slotIndices) (Chosen.stable i c)
    intro β o ho w s x u _ hs hu
    cases hu
    have hkeeps := ReaderKeeps.hostOp ho.afterClaim.hostOp s
    obtain ⟨p, hp, hresembles⟩ := hs.resembles
    exact ⟨hkeeps, (ho.slots_selected s.ring).trans hs.slot, hs.reading,
      ⟨p, hkeeps.published ▸ hp, hresembles⟩, hkeeps.allGood hs.good⟩
  refine Triple.bind _ hpurge fun _ ↦ (Chosen.knows i c).isValidSlot ?_
  cases hn : c.validLength with
  | none =>
      refine freeSlot_restart (Chosen.stable i c) (fun s h ↦ ⟨h.good, fun f hf ↦ ?_⟩) r
      cases hf
  | some n =>
      obtain ⟨rfl, -⟩ := FrameSlot.of_validLength hn
      have hvalid : c.validLength ≠ none := by
        rw [hn]
        exact Option.some_ne_none _
      apply (Chosen.knows i c).consumeSlot r
      refine freeSlot_restart (Chosen.stable i c) (fun s h ↦ ⟨h.good, fun f hf ↦ ?_⟩) _
      cases hf
      obtain ⟨p, hp, hresembles⟩ := h.resembles
      exact ⟨p, hp, (hresembles.fills hvalid).shows r⟩

/-- `ClaimReady` chooses a slot, or changes nothing. -/
theorem claimReady_restart (i : Slot) {α : Type} {Q : α → Shared → Prop} {k : Bool → RingProg α}
    (hk : ∀ c, Triple hostExec readerRG (Chosen i c) (k true) Q)
    (hk' : Triple hostExec readerRG AllGood (k false) Q) :
    Triple hostExec readerRG AllGood ((claimReady i).bind k) Q := by
  refine Triple.act AllGood.stable
    (fun old s ↦ if old = .ready then ∃ c, Chosen i c s else AllGood s) ?_ fun old ↦ ?_
  · intro s _ hs w old u hu
    have hkeeps := ReaderKeeps.hostOp (o := .compareExchange i .reading .ready) trivial s
    simp only [hostHandler, RingOp.exec] at hkeeps
    simp only [hostExec, hostHandler, RingOp.exec, Option.some.injEq, Prod.mk.injEq] at hu
    obtain ⟨rfl, rfl⟩ := hu
    refine ⟨hkeeps, ?_⟩
    by_cases hst : s.ring.state i = .ready
    · rw [if_pos hst]
      refine ⟨_, rfl, by simp [hst], ?_, hkeeps.allGood hs⟩
      obtain ⟨p, hp, hfill⟩ := hs i hst
      refine ⟨p, hkeeps.published ▸ hp, ?_⟩
      simpa [hst, Publication.Resembles] using hfill
    · rw [if_neg hst]
      exact hkeeps.allGood hs
  · by_cases hold : old = .ready
    · subst hold
      exact Triple.of_exists hk
    · simpa [hold] using hk'

theorem readAttempts_restart (n : Nat) :
    Triple hostExec readerRG AllGood (readAttempts r n) fun x s ↦ AllGood s ∧ Genuine x.1 s := by
  have hnone := @ret_noFrame .noFrame (fun _ h ↦ by cases h) r
  induction n with
  | zero => exact hnone
  | succ n ih =>
      refine Triple.bind _ (keeps_allGood ((scanNewest_uses slotIndices none).mono
        fun _ _ ↦ RingOp.IsRead.hostOp)) fun newest ↦ ?_
      cases newest with
      | none => exact hnone
      | some best =>
          refine claimReady_restart best.1 (fun c ↦ ?_) ih
          have hnewer := Triple.of_uses (newerReadySlot_uses best.1 slotIndices)
            (fun _ _ ↦ hostExec_read) (fun s _ ↦ ReaderKeeps.refl s) (Chosen.stable best.1 c)
          refine Triple.bind _ hnewer fun newer ↦ ?_
          cases newer with
          | false => exact readSelected_restart r best.1 c
          | true =>
              have hfree := keeps_allGood (p := freeSlot best.1) ⟨trivial, fun _ ↦ trivial⟩
              exact Triple.bind _ (hfree.conseq (fun _ h ↦ h.good) fun _ _ h ↦ h) fun _ ↦ ih

/-- Every frame that `TryReadLatest` returns shows a publication. -/
theorem tryReadLatest_restart :
    Triple hostExec readerRG AllGood (tryReadLatest r) fun x s ↦ AllGood s ∧ Genuine x.1 s := by
  refine Triple.bind _ (keeps_allGood ((isValidFrameRingHeader_uses headerOrder).mono
    fun _ _ ↦ RingOp.IsRead.hostOp)) fun valid ↦ ?_
  cases valid with
  | true => exact readAttempts_restart r (kSlotCount * 2)
  | false => exact ret_noFrame (fun _ h ↦ by cases h) _

/-- What a call of the host ends in. -/
def CallDone (x : HostResult × FrameRingReader) (s : Shared) : Prop :=
  AllGood s ∧ ∀ outcome, x.1 = .read outcome → Genuine outcome s

theorem hostBody_restart (call : HostCall) :
    Triple hostExec readerRG AllGood (hostBody call r) CallDone := by
  cases call with
  | tryReadLatest =>
      refine Triple.bind _ (tryReadLatest_restart r) fun x ↦ ?_
      refine Triple.ret (AllGood.stable.and (Genuine.stable x.1)) fun s h ↦ ⟨h.1, ?_⟩
      rintro _ ⟨⟩
      exact h.2
  | beginClient width height =>
      refine Triple.ret AllGood.stable fun s h ↦ ⟨h, ?_⟩
      rintro _ ⟨⟩

theorem hostBody_uses (call : HostCall) : (hostBody call r).Uses HostOp := by
  cases call with
  | tryReadLatest => exact (tryReadLatest_uses r).bind fun _ ↦ trivial
  | beginClient width height => trivial

end Reader

end SecondScreen.Ring
