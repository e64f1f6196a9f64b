import SecondScreen.Ring.HostOps
import SecondScreen.Ring.KnownSlot
import SecondScreen.Ring.Protocol

/-!
# The host keeps its contract

`hostBody_triple` is the proof of `TryReadLatest` and `BeginClient` against any
driver.  The assertion of `TryReadLatest` is `Selected`: from `ClaimReady` on,
the host owns one slot, whose contents stay as they were.

Three things are carried through the passes over the slots.  The slots passed by
the clean-up hold nothing older than the selected one (`Holding.purged`), so that
deliveries keep increasing.  The counters of the session add up (`Accounted`).
And the newest publication is not lost (`Kept`), as long as the clean-up frees no
slot that is not older than the selected one.
-/

namespace SecondScreen.Ring

open SecondScreen.Conc

variable {a : Assumption} {s t u : Shared} {i j : Slot}

/-! ## One operation at a time -/

/-- What the host can make ready or being read was so before. -/
theorem SlotState.Advances.held {s t : SlotState} (h : s.Advances t)
    (ht : t = .ready ∨ t = .reading) : s = .ready ∨ s = .reading := by
  revert h ht
  cases s <;> cases t <;> decide

/-- The host makes nothing ready. -/
theorem SlotState.Advances.eq_ready {s t : SlotState} (h : s.Advances t) (ht : t = .ready) :
    s = .ready := by
  revert h ht
  cases s <;> cases t <;> decide

/-- The host's moves keep the invariant, if they keep the record of what the host
owns in step with the ring. -/
theorem HostMoves.inv (h : HostMoves s u) (hs : Inv a s)
    (howns : ∀ i, u.log.readerOwns i = true → u.ring.state i = .reading)
    (hret : u.log.returned = s.log.returned) : Inv a u where
  driverOwns i hi := h.state_of_writing (hs.driverOwns i (h.driverOwns ▸ hi))
  readerOwns := howns
  content i hi := by
    obtain ⟨p, hp, hf⟩ := hs.content i ((h.state i).held hi)
    exact ⟨p, h.published ▸ hp, by rw [Publication.Fills, h.field, h.payload]; exact hf⟩
  returned := by rw [hret, h.published]; exact hs.returned
  sorted := by rw [h.published]; exact hs.sorted
  distinct ha i j hij hi hj := by
    rw [FrameRing.sequence, FrameRing.sequence, h.field, h.field]
    exact hs.distinct ha i j hij ((h.state i).held hi) ((h.state j).held hj)
  newer ha i hi f hf := by
    rw [FrameRing.sequence, h.field]
    exact hs.newer ha i ((h.state i).eq_ready hi) f (hret ▸ hf)
  increasing := by rw [hret]; exact hs.increasing

/-- What an operation of the host on slot `i` can do. -/
structure HostStep (i : Slot) (s u : Shared) : Prop where
  others : ∀ j, j ≠ i → u.ring.slots j = s.ring.slots j
  field : (u.ring.slots i).field = (s.ring.slots i).field
  payload : (u.ring.slots i).payload = (s.ring.slots i).payload
  state : (s.ring.state i).Advances (u.ring.state i)
  owns_others : ∀ j, j ≠ i → u.log.readerOwns j = s.log.readerOwns j
  owns : u.log.readerOwns i = true → u.ring.state i = .reading
  log : u.log = { s.log with
    readerOwns := u.log.readerOwns, selected := u.log.selected, claimed := u.log.claimed,
    stalePurges := u.log.stalePurges }
  stalePurges : s.log.stalePurges ≤ u.log.stalePurges

namespace HostStep

theorem published_eq (h : HostStep i s u) : u.log.published = s.log.published :=
  (congrArg Log.published h.log :)

theorem returned_eq (h : HostStep i s u) : u.log.returned = s.log.returned :=
  (congrArg Log.returned h.log :)

theorem rejected_eq (h : HostStep i s u) : u.log.rejected = s.log.rejected :=
  (congrArg Log.rejected h.log :)

theorem session_eq (h : HostStep i s u) : u.log.session = s.log.session :=
  (congrArg Log.session h.log :)

theorem moves (h : HostStep i s u) : HostMoves s u where
  field j := by
    by_cases hji : j = i
    · subst hji; exact h.field
    · rw [h.others j hji]
  payload j := by
    by_cases hji : j = i
    · subst hji; exact h.payload
    · rw [h.others j hji]
  state j := by
    by_cases hji : j = i
    · subst hji; exact h.state
    · rw [FrameRing.state, FrameRing.state, h.others j hji]
      exact .refl _
  driverOwns := (congrArg Log.driverOwns h.log :)
  current := (congrArg Log.current h.log :)
  published := h.published_eq

/-- The host's operations keep its contract. -/
theorem guar (h : HostStep i s u) (hs : Inv a s) : (hostRG a).guar s u := by
  refine ⟨h.moves, h.moves.inv hs (fun j hj ↦ ?_) h.returned_eq⟩
  by_cases hji : j = i
  · subst hji; exact h.owns hj
  · rw [h.owns_others j hji] at hj
    simpa [FrameRing.state, h.others j hji] using hs.readerOwns j hj

/-- `ClaimReady`, when it succeeds. -/
theorem claim (hi : s.ring.state i = .ready) :
    HostStep i s ⟨s.ring.setState i .reading, { s.log with
      readerOwns := Function.update s.log.readerOwns i true, selected := i,
      claimed := s.ring.sequence i }⟩ where
  others j hj := FrameRing.setState_of_ne hj _
  field := by simp
  payload := by simp
  state := by simp [FrameRing.state, SlotState.Advances, hi]
  owns_others j hj := Function.update_of_ne hj ..
  owns _ := by simp [FrameRing.state]
  log := rfl
  stalePurges := le_rfl

/-- `FreeSlot`, on a slot that the host owns. -/
theorem free (hs : Inv a s) (hi : s.log.readerOwns i = true) :
    HostStep i s ⟨s.ring.setState i .free,
      { s.log with readerOwns := Function.update s.log.readerOwns i false }⟩ where
  others j hj := FrameRing.setState_of_ne hj _
  field := by simp
  payload := by simp
  state := .inr (.inr ⟨hs.readerOwns i hi, by simp [FrameRing.state]⟩)
  owns_others j hj := Function.update_of_ne hj ..
  owns h := by simp at h
  log := rfl
  stalePurges := le_rfl

/-- The clean-up of a ready slot. -/
theorem purge (hs : Inv a s) (hi : s.ring.state i = .ready) :
    HostStep i s ⟨s.ring.setState i .free,
      s.log.readerStep _ (.compareExchange i .free .ready) s.ring⟩ := by
  have hlog : s.log.readerStep _ (.compareExchange i .free .ready) s.ring =
      { s.log with stalePurges :=
        (s.log.readerStep _ (.compareExchange i .free .ready) s.ring).stalePurges } := by
    simp only [Log.readerStep]
    split <;> rfl
  rw [hlog]
  refine ⟨fun j hj ↦ FrameRing.setState_of_ne hj _, by simp, by simp, ?_, fun _ _ ↦ rfl, fun h ↦ ?_,
    rfl, ?_⟩
  · simp [FrameRing.state, SlotState.Advances, hi]
  · have := hs.readerOwns i h
    simp [hi] at this
  · simp only [Log.readerStep]
    split <;> simp

/-- An operation on slot `i` loses sight of the newest publication only if it was
there. -/
theorem newestHeld (h : HostStep i s u) (hs : NewestHeld s) : NewestHeld u ∨
    s.ring.state i = .ready ∧ ∃ p, s.log.published.getLast? = some p ∧
      p.sequence = s.ring.sequence i := by
  rcases hs with ⟨j, hj⟩ | ⟨j, p, hj, hp, hseq⟩
  · exact .inl (.inl ⟨j, h.moves.driverOwns ▸ hj⟩)
  · by_cases hji : j = i
    · subst hji
      exact .inr ⟨hj, p, hp, hseq⟩
    · refine .inl (.inr ⟨j, p, ?_, h.published_eq ▸ hp, ?_⟩)
      · rwa [FrameRing.state, h.others j hji]
      · rwa [FrameRing.sequence, h.others j hji]

end HostStep

/-! ## What is not lost -/

/-- The newest publication has been returned or rejected, or can still be read,
or it is the one of sequence `extra`. -/
def Kept (a : Assumption) (extra : Option Nat) (s : Shared) : Prop :=
  a.succeeding → a.single → s.log.stalePurges = 0 →
    ∀ p, s.log.published.getLast? = some p →
      p.sequence ∈ s.log.returned.map Prod.fst ∨ p.sequence ∈ s.log.rejected ∨
        NewestHeld s ∨ extra = some p.sequence

/-- The publication of sequence `n` is not the newest one, or is about to be
superseded. -/
def Superseded (n : Nat) (s : Shared) : Prop :=
  NewestHeld s ∨ ∀ p, s.log.published.getLast? = some p → n < p.sequence

theorem Kept.stable (extra : Option Nat) : (hostRG a).Stable (Kept a extra) := by
  rintro s t ⟨h, -⟩ hs ha hsingle hst p hp
  by_cases hpub : s.log.published = t.log.published
  · rw [h.stalePurges] at hst
    rw [h.returned, h.rejected]
    exact (hs ha hsingle hst p (hpub ▸ hp)).imp_right
      (.imp_right (.imp_left fun hn ↦ h.newest ha (.inl hn)))
  · exact .inr (.inr (.inl (h.newest ha (.inr hpub))))

theorem Superseded.stable (n : Nat) :
    (hostRG a).Stable fun s ↦ a.succeeding → Superseded n s := by
  rintro s t ⟨h, -⟩ hs ha
  by_cases hpub : s.log.published = t.log.published
  · exact (hs ha).imp (fun hn ↦ h.newest ha (.inl hn)) fun hn p hp ↦ hn p (hpub ▸ hp)
  · exact .inl (h.newest ha (.inr hpub))

/-- An operation on slot `i` keeps the newest publication, unless it was there. -/
theorem Kept.step {extra extra' : Option Nat} (h : HostStep i s u) (hs : Kept a extra s)
    (hextra : a.succeeding → a.single → u.log.stalePurges = 0 → ∀ p,
      s.log.published.getLast? = some p → extra = some p.sequence →
        NewestHeld s ∨ extra' = some p.sequence)
    (hi : a.succeeding → a.single → u.log.stalePurges = 0 → ∀ p,
      s.log.published.getLast? = some p → s.ring.state i = .ready →
        p.sequence = s.ring.sequence i → extra' = some p.sequence) : Kept a extra' u := by
  intro ha hsingle hst p hp
  rw [h.published_eq] at hp
  have held : NewestHeld s → NewestHeld u ∨ extra' = some p.sequence := by
    intro hn
    refine (h.newestHeld hn).imp_right ?_
    rintro ⟨hr, q, hq, hseq⟩
    cases hp.symm.trans hq
    exact hi ha hsingle hst p hp hr hseq
  rw [h.returned_eq, h.rejected_eq]
  rcases hs ha hsingle (Nat.le_zero.1 (hst ▸ h.stalePurges)) p hp with h' | h' | h' | h'
  · exact .inl h'
  · exact .inr (.inl h')
  · exact .inr (.inr (held h'))
  · rcases hextra ha hsingle hst p hp h' with hn | hn
    · exact .inr (.inr (held hn))
    · exact .inr (.inr (.inr hn))

/-! ## Assertions -/

/-- The counters of the present session. -/
structure Accounted (r : FrameRingReader) (log : Log) : Prop where
  delivered : ∀ id ∈ log.session, ∃ f ∈ log.returned, f.2.frameId = id
  pos : ∀ id ∈ log.session, id ≠ 0
  last : r.lastConsumedFrameId = log.session.getLast?.getD 0
  empty : log.session = [] → r.framesRead = 0 ∧ r.framesSkipped = 0
  total : ∀ first last, log.session.head? = some first → log.session.getLast? = some last →
    first ≤ last ∧ r.framesRead + r.framesSkipped = last - first + 1

/-- Between two calls of the host. -/
structure HostIdle (a : Assumption) (r : FrameRingReader) (s : Shared) : Prop where
  owns : ∀ j, s.log.readerOwns j = false
  accounted : a.single → Accounted r s.log
  kept : Kept a none s

theorem Accounted.congr {r : FrameRingReader} {l l' : Log} (h : Accounted r l)
    (hret : l'.returned = l.returned) (hses : l'.session = l.session) : Accounted r l' where
  delivered := by rw [hret, hses]; exact h.delivered
  pos := by rw [hses]; exact h.pos
  last := by rw [hses]; exact h.last
  empty := by rw [hses]; exact h.empty
  total := by rw [hses]; exact h.total

theorem HostIdle.stable (r : FrameRingReader) : (hostRG a).Stable (HostIdle a r) := fun s t h hs ↦
  { owns := by rw [h.1.readerOwns]; exact hs.owns
    accounted := fun ha ↦ (hs.accounted ha).congr h.1.returned h.1.session
    kept := Kept.stable none s t h hs.kept }

/-- What the host knows once it has claimed a slot with contents `c`, and passed
by the slots in `done`. -/
structure Holding (a : Assumption) (r : FrameRingReader) (c : FrameSlot) (done : List Slot)
    (s : Shared) : Prop where
  content : ∃ p ∈ s.log.published, p.Fills c
  claimed : s.log.claimed = c.field .sequence
  newest : a.single → ∀ f ∈ s.log.returned, f.1 < c.field .sequence
  accounted : a.single → Accounted r s.log
  kept : Kept a (some (c.field .sequence)) s
  purged : a.single → ∀ j ∈ done, s.ring.state j = .ready →
    c.field .sequence < s.ring.sequence j

/-- A slot that is ready is as before, or newer than everything published
before. -/
theorem DriverMoves.ready_or_newer (h : DriverMoves a s t) (ht : Inv a t) (ha : a.single)
    {c : FrameSlot} (hc : ∃ p ∈ s.log.published, p.Fills c) (hj : t.ring.state j = .ready) :
    t.ring.slots j = s.ring.slots j ∨ c.field .sequence < t.ring.sequence j := by
  refine (h.ready j hj).imp_right ?_
  rintro ⟨q, hq, hfq⟩
  obtain ⟨p, hp, hfp⟩ := hc
  rw [hfp.1, FrameRing.sequence, hfq.1]
  exact h.sequence_lt_of_mem_drop (ht.sorted ha) hp hq

theorem Holding.stable (r : FrameRingReader) (c : FrameSlot) (done : List Slot) :
    (hostRG a).Stable (Holding a r c done) := by
  intro s t h hs
  refine ⟨?_, h.1.claimed.trans hs.claimed, by rw [h.1.returned]; exact hs.newest,
    fun ha ↦ (hs.accounted ha).congr h.1.returned h.1.session,
    Kept.stable _ s t h hs.kept, fun ha j hj hr ↦ ?_⟩
  · obtain ⟨p, hp, hf⟩ := hs.content
    exact ⟨p, h.1.published.subset hp, hf⟩
  · rcases h.1.ready_or_newer h.2 ha hs.content hr with heq | hlt
    · rw [FrameRing.state, heq] at hr
      rw [FrameRing.sequence, heq]
      exact hs.purged ha j hj hr
    · exact hlt

/-- The host owns slot `i`, with contents `c`. -/
structure Selected (a : Assumption) (r : FrameRingReader) (i : Slot) (c : FrameSlot)
    (done : List Slot) (s : Shared) : Prop where
  owns : ∀ j, s.log.readerOwns j = decide (j = i)
  slot : s.ring.slots i = c
  reading : c.state = .reading
  holding : Holding a r c done s

theorem Selected.stable (r : FrameRingReader) (i : Slot) (c : FrameSlot) (done : List Slot) :
    (hostRG a).Stable (Selected a r i c done) := by
  intro s t h hs
  refine ⟨by rw [h.1.readerOwns]; exact hs.owns, ?_, hs.reading,
    Holding.stable r c done s t h hs.holding⟩
  rw [h.1.reading i (by rw [FrameRing.state, hs.slot]; exact hs.reading), hs.slot]

theorem Selected.owner {r : FrameRingReader} {c : FrameSlot} {done : List Slot}
    (h : Selected a r i c done s) : s.log.readerOwns i = true := by
  simp [h.owns]

/-- The host has given the slot back. -/
def Released (a : Assumption) (r : FrameRingReader) (c : FrameSlot) (done : List Slot)
    (s : Shared) : Prop :=
  (∀ j, s.log.readerOwns j = false) ∧ Holding a r c done s

theorem Released.stable (r : FrameRingReader) (c : FrameSlot) (done : List Slot) :
    (hostRG a).Stable (Released a r c done) := fun s t h hs ↦
  ⟨by rw [h.1.readerOwns]; exact hs.1, Holding.stable r c done s t h hs.2⟩

section Proof

variable (r : FrameRingReader)

/-! ## Reads -/

/-- The host knows the contents of the slot that it owns. -/
theorem Selected.knows (i : Slot) (c : FrameSlot) (done : List Slot) :
    Knows (hostRG a) (Selected a r i c done) i c where
  stable := Selected.stable r i c done
  guar_refl := hostRG_guar_refl a
  slot _ h := h.slot

/-! ## The passes over the slots -/

/-- The claim of a slot, when it succeeds. -/
theorem HostIdle.select {r : FrameRingReader} (h : HostIdle a r s) (hs : Inv a s)
    (hi : s.ring.state i = .ready) :
    Selected a r i { s.ring.slots i with state := .reading } [] ⟨s.ring.setState i .reading,
      { s.log with
        readerOwns := Function.update s.log.readerOwns i true, selected := i,
        claimed := s.ring.sequence i }⟩ where
  owns j := by
    by_cases hj : j = i
    · subst hj; simp
    · simp [hj, h.owns j]
  slot := by simp
  reading := rfl
  holding :=
    { content := hs.content i (.inl hi)
      claimed := rfl
      newest := fun ha ↦ hs.newer ha i hi
      accounted := fun ha ↦ (h.accounted ha).congr rfl rfl
      kept := by
        refine Kept.step (HostStep.claim hi) h.kept (fun _ _ _ p _ he ↦ by cases he) ?_
        intro _ _ _ p _ _ hp
        exact congrArg some hp.symm
      purged := fun _ _ hj ↦ by cases hj }

theorem claimReady_triple {α : Type} {Q : α → Shared → Prop} (i : Slot) {k : Bool → RingProg α}
    (hk : ∀ c, Triple hostExec (hostRG a) (Selected a r i c []) (k true) Q)
    (hk' : Triple hostExec (hostRG a) (HostIdle a r) (k false) Q) :
    Triple hostExec (hostRG a) (HostIdle a r) ((claimReady i).bind k) Q := by
  refine Triple.act (HostIdle.stable r)
    (fun old s ↦ if old = .ready then ∃ c, Selected a r i c [] s else HostIdle a r s) ?_ ?_
  · intro s hs hA w old u hu
    simp only [hostExec, hostHandler, RingOp.exec, Log.readerStep, Option.some.injEq,
      Prod.mk.injEq] at hu
    obtain ⟨rfl, rfl⟩ := hu
    by_cases hst : s.ring.state i = .ready
    · simp only [if_pos hst]
      exact ⟨(HostStep.claim hst).guar hs.2, _, hA.select hs.2 hst⟩
    · simp only [if_neg hst]
      exact ⟨hostRG_guar_refl a s hs, hA⟩
  · intro old
    by_cases hold : old = .ready
    · subst hold
      exact Triple.of_exists hk
    · simpa [hold] using hk'

/-- The second pass finds only what has superseded the selected slot. -/
theorem newerReadySlot_triple (i : Slot) (c : FrameSlot) (l : List Slot) :
    Triple hostExec (hostRG a) (Selected a r i c []) (newerReadySlot i l) fun b s ↦
      Selected a r i c [] s ∧
        (b = true → a.single → a.succeeding → Superseded (c.field .sequence) s) := by
  induction l with
  | nil => exact Triple.ret (Selected.stable r i c []) fun s h ↦ ⟨h, fun h ↦ by cases h⟩
  | cons j l ih =>
      rw [newerReadySlot]
      split
      · exact ih
      · -- a slot seen ready still is, or has been taken to be published anew
        refine Triple.act (Selected.stable r i c []) (fun st s ↦ Selected a r i c [] s ∧
          (st = .ready → a.succeeding → s.ring.state j = .ready ∨ NewestHeld s)) ?_ fun st ↦ ?_
        · intro s hs hA w st u hu
          cases hu
          exact ⟨hostRG_guar_refl a s hs, hA, fun h _ ↦ .inl h⟩
        · simp only [Prog.ret_bind]
          split
          case isFalse => exact ih.conseq (fun _ h ↦ h.1) fun _ _ h ↦ h
          next hst =>
            have hseen : (hostRG a).Stable fun s ↦ st = .ready → a.succeeding →
                s.ring.state j = .ready ∨ NewestHeld s := by
              intro s t h hs hst ha
              rcases hs hst ha with hr | hn
              · exact h.1.taken ha j hr
              · exact .inr (h.1.newest ha (.inl hn))
            refine Triple.act ((Selected.stable r i c []).and hseen)
              (fun v s ↦ Selected a r i c [] s ∧ (c.field .sequence < v → a.single →
                a.succeeding → Superseded (c.field .sequence) s)) ?_ fun v ↦ ?_
            · rintro s hs ⟨hA, hj⟩ w v u hu
              cases hu
              refine ⟨hostRG_guar_refl a s hs, hA, fun hlt hsingle ha ↦ ?_⟩
              rcases hj hst ha with hr | hn
              · obtain ⟨p, hp, hf⟩ := hs.2.content j (.inl hr)
                refine .inr fun q hq ↦ lt_of_lt_of_le ?_
                  (Publication.sequence_le_last (hs.2.sorted hsingle) hp hq)
                simpa [Publication.sequence, RingOp.exec, hf.1] using hlt
              · exact .inl hn
            · have hstable : (hostRG a).Stable fun s ↦ c.field .sequence < v → a.single →
                  a.succeeding → Superseded (c.field .sequence) s :=
                fun s t h hs hlt hsingle ↦ Superseded.stable _ s t h (hs hlt hsingle)
              simp only [Prog.ret_bind]
              refine Knows.readField ⟨(Selected.stable r i c []).and hstable, hostRG_guar_refl a,
                fun _ h ↦ h.1.slot⟩ .sequence ?_
              simp only [Prog.ret_bind]
              split
              · next hlt =>
                exact Triple.ret ((Selected.stable r i c []).and hstable)
                  fun s h ↦ ⟨h.1, fun _ ↦ h.2 hlt⟩
              · exact ih.conseq (fun _ h ↦ h.1) fun _ _ h ↦ h

/-- The clean-up takes a slot that it has seen with sequence `v`. -/
theorem Selected.purge {r : FrameRingReader} {c : FrameSlot} {done : List Slot}
    (h : Selected a r i c done s) (hs : Inv a s) (hji : j ≠ i) (hj : s.ring.state j = .ready) :
    Selected a r i c (j :: done) ⟨s.ring.setState j .free,
      s.log.readerStep _ (.compareExchange j .free .ready) s.ring⟩ := by
  have hstep := HostStep.purge hs hj
  have howns : (s.log.readerStep _ (.compareExchange j .free .ready) s.ring).readerOwns =
      s.log.readerOwns := by
    simp only [Log.readerStep]
    split <;> rfl
  have hclaimed : (s.log.readerStep _ (.compareExchange j .free .ready) s.ring).claimed =
      s.log.claimed := by
    simp only [Log.readerStep]
    split <;> rfl
  refine ⟨by rw [howns]; exact h.owns, (hstep.others i hji.symm).trans h.slot, h.reading, ?_,
    hclaimed.trans h.holding.claimed, ?_, ?_, ?_, ?_⟩
  · rw [hstep.published_eq]
    exact h.holding.content
  · rw [hstep.returned_eq]
    exact h.holding.newest
  · exact fun ha ↦ (h.holding.accounted ha).congr hstep.returned_eq hstep.session_eq
  · -- an older slot does not hold the newest publication
    refine h.holding.kept.step hstep (fun _ _ _ _ _ he ↦ .inr he) ?_
    intro _ ha hst p hp _ hseq
    have hlt : s.ring.sequence j < c.field .sequence := by
      by_contra hle
      rw [← h.holding.claimed] at hle
      simp [Log.readerStep, hj, not_lt.1 hle] at hst
    obtain ⟨q, hq, hf⟩ := h.holding.content
    have hle := Publication.sequence_le_last (hs.sorted ha) hq hp
    rw [Publication.sequence, ← hf.1] at hle
    omega
  · intro ha k hk hr
    by_cases hkj : k = j
    · subst hkj; simp [FrameRing.state] at hr
    · rw [FrameRing.state, hstep.others k hkj] at hr
      rw [FrameRing.sequence, hstep.others k hkj]
      exact h.holding.purged ha k ((List.mem_cons.1 hk).resolve_left hkj) hr

/-- The slots passed by the clean-up hold nothing older than the selected one. -/
theorem Selected.pass {r : FrameRingReader} {c : FrameSlot} {done : List Slot}
    (h : Selected a r i c done s)
    (hj : a.single → s.ring.state j = .ready → c.field .sequence < s.ring.sequence j) :
    Selected a r i c (j :: done) s where
  owns := h.owns
  slot := h.slot
  reading := h.reading
  holding := { h.holding with
    purged := fun ha k hk hr ↦ by
      rcases List.mem_cons.1 hk with rfl | hk
      · exact hj ha hr
      · exact h.holding.purged ha k hk hr }

/-- The third pass. -/
theorem purgeOlder_triple (i : Slot) (c : FrameSlot) (l done : List Slot) :
    Triple hostExec (hostRG a) (Selected a r i c done) (purgeOlder i l) fun _ ↦
      Selected a r i c (l.reverse ++ done) := by
  induction l generalizing done with
  | nil => exact Triple.ret (Selected.stable r i c done) fun s h ↦ h
  | cons j l ih =>
      rw [purgeOlder, List.reverse_cons, List.append_assoc, List.singleton_append]
      split
      · next hji =>
        refine (ih (j :: done)).conseq (fun s h ↦ h.pass fun _ hr ↦ ?_) fun _ _ h ↦ h
        rw [FrameRing.state, hji, h.slot, h.reading] at hr
        cases hr
      next hji =>
      refine Triple.act (Selected.stable r i c done) (fun st s ↦ Selected a r i c done s ∧
        (st ≠ .ready → Selected a r i c (j :: done) s)) ?_ fun st ↦ ?_
      · intro s hs hA w st u hu
        cases hu
        exact ⟨hostRG_guar_refl a s hs, hA, fun hst ↦ hA.pass fun _ hr ↦ absurd hr hst⟩
      simp only [Prog.ret_bind]
      split
      case isFalse hst => exact (ih (j :: done)).conseq (fun _ h ↦ h.2 hst) fun _ _ h ↦ h
      -- the slot keeps the sequence that is read, or gets one greater than the selected slot's
      refine Triple.conseq (Triple.act (Selected.stable r i c done)
        (fun v s ↦ Selected a r i c done s ∧ (a.single → s.ring.state j = .ready →
          s.ring.sequence j = v ∧ v ≠ c.field .sequence ∨
            c.field .sequence < s.ring.sequence j)) ?_ fun v ↦ ?_) (fun _ h ↦ h.1) fun _ _ h ↦ h
      · intro s hs hA w v u hu
        cases hu
        refine ⟨hostRG_guar_refl a s hs, hA, fun ha hr ↦ .inl ⟨rfl, ?_⟩⟩
        have hreading : s.ring.state i = .reading := by rw [FrameRing.state, hA.slot, hA.reading]
        have hne := hs.2.distinct ha j i hji (.inl hr) (.inr hreading)
        rwa [FrameRing.sequence, FrameRing.sequence, hA.slot] at hne
      have hseen : (hostRG a).Stable fun s ↦ Selected a r i c done s ∧
          (a.single → s.ring.state j = .ready → s.ring.sequence j = v ∧ v ≠ c.field .sequence ∨
            c.field .sequence < s.ring.sequence j) := by
        intro s t h hs
        refine ⟨Selected.stable r i c done s t h hs.1, fun ha hr ↦ ?_⟩
        rcases h.1.ready_or_newer h.2 ha hs.1.holding.content hr with heq | hlt
        · rw [FrameRing.state, heq] at hr
          rw [FrameRing.sequence, heq]
          exact hs.2 ha hr
        · exact .inr hlt
      simp only [Prog.ret_bind]
      refine Knows.readField ⟨hseen, hostRG_guar_refl a, fun _ h ↦ h.1.slot⟩ .sequence ?_
      simp only [Prog.ret_bind]
      split
      · refine Triple.act hseen (fun _ ↦ Selected a r i c (j :: done)) ?_ fun _ ↦ ih (j :: done)
        intro s hs hA w old u hu
        simp only [hostExec, hostHandler, RingOp.exec, Option.some.injEq, Prod.mk.injEq] at hu
        obtain ⟨rfl, rfl⟩ := hu
        by_cases hr : s.ring.state j = .ready
        · rw [if_pos hr]
          exact ⟨(HostStep.purge hs.2 hr).guar hs.2, hA.1.purge hs.2 hji hr⟩
        · have hlog : s.log.readerStep _ (.compareExchange j .free .ready) s.ring = s.log := by
            simp [Log.readerStep, hr]
          rw [if_neg hr, hlog]
          exact ⟨hostRG_guar_refl a s hs, hA.1.pass fun _ h ↦ absurd h hr⟩
      · next hge =>
        refine (ih (j :: done)).conseq (fun s h ↦ h.1.pass fun ha hr ↦ ?_) fun _ _ h ↦ h
        rcases h.2 ha hr with ⟨hv, hne⟩ | hlt
        · omega
        · exact hlt

/-! ## The selected slot -/

/-- What `FreeSlot` leaves. -/
theorem Selected.release {r : FrameRingReader} {c : FrameSlot} {done : List Slot}
    (h : Selected a r i c done s) (hs : Inv a s) :
    Released a r c done ⟨s.ring.setState i .free,
      { s.log with readerOwns := Function.update s.log.readerOwns i false }⟩ := by
  have hh := h.holding
  refine ⟨fun j ↦ ?_, hh.content, hh.claimed, hh.newest, fun ha ↦ (hh.accounted ha).congr rfl rfl,
    ?_, fun ha j hj hr ↦ ?_⟩
  · by_cases hji : j = i
    · subst hji; simp
    · simp [hji, h.owns]
  · refine hh.kept.step (HostStep.free hs h.owner) (fun _ _ _ _ _ he ↦ .inr he) ?_
    intro _ _ _ _ _ hr
    rw [hs.readerOwns i h.owner] at hr
    cases hr
  · by_cases hji : j = i
    · subst hji; simp [FrameRing.state] at hr
    · simp only [FrameRing.state, FrameRing.setState_of_ne hji] at hr
      simpa [FrameRing.sequence, hji] using hh.purged ha j hj hr

theorem freeSlot_triple {α : Type} {Q : α → Shared → Prop} (i : Slot) {c : FrameSlot}
    {done : List Slot} {k : Unit → RingProg α}
    (hk : Triple hostExec (hostRG a) (Released a r c done) (k ()) Q) :
    Triple hostExec (hostRG a) (Selected a r i c done) ((freeSlot i).bind k) Q := by
  refine Triple.act (Selected.stable r i c done) (fun _ ↦ Released a r c done) ?_ fun _ ↦ hk
  intro s hs hA w x u hu
  cases hu
  exact ⟨(HostStep.free hs.2 hA.owner).guar hs.2, hA.release hs.2⟩

/-- Giving a superseded slot back loses nothing. -/
theorem Released.idle {r : FrameRingReader} {c : FrameSlot} {done : List Slot}
    (h : Released a r c done s)
    (hsup : a.single → a.succeeding → Superseded (c.field .sequence) s) : HostIdle a r s where
  owns := h.1
  accounted := h.2.accounted
  kept ha hsingle hst p hp := by
    rcases h.2.kept ha hsingle hst p hp with h' | h' | h' | h'
    · exact .inl h'
    · exact .inr (.inl h')
    · exact .inr (.inr (.inl h'))
    · rcases hsup hsingle ha with hn | hlt
      · exact .inr (.inr (.inl hn))
      · exact absurd (Option.some.inj h') (hlt p hp).ne

/-- Giving a slot back that something newer was seen next to. -/
theorem freeSlot_superseded {α : Type} {Q : α → Shared → Prop} (i : Slot) {c : FrameSlot}
    {done : List Slot} {k : Unit → RingProg α}
    (hk : Triple hostExec (hostRG a) (HostIdle a r) (k ()) Q) :
    Triple hostExec (hostRG a) (fun s ↦ Selected a r i c done s ∧
        (a.single → a.succeeding → Superseded (c.field .sequence) s))
      ((freeSlot i).bind k) Q := by
  refine Triple.act ((Selected.stable r i c done).and fun s t h hs hsingle ↦
    Superseded.stable _ s t h (hs hsingle)) (fun _ ↦ HostIdle a r) ?_ fun _ ↦ hk
  rintro s hs ⟨hA, hsup⟩ w x u hu
  cases hu
  have hstep := HostStep.free hs.2 hA.owner
  refine ⟨hstep.guar hs.2, (hA.release hs.2).idle fun hsingle ha ↦ ?_⟩
  refine (hsup hsingle ha).imp (fun hn ↦ (hstep.newestHeld hn).resolve_right ?_) id
  rintro ⟨hr, -⟩
  rw [hs.2.readerOwns i hA.owner] at hr
  cases hr

/-- How a call of `TryReadLatest` leaves the ring and the reader, before the
record of its outcome. -/
def Finished (a : Assumption) : Outcome → FrameRingReader → Shared → Prop
  | .frame f, r', s => ∃ r c, Released a r c slotIndices.reverse s ∧ c.field .frameId ≠ 0 ∧
      r' = r.consume c ∧ f = r'.cachedFrame
  | .corruptSlot, r', s => ∃ c, Released a r' c slotIndices.reverse s
  | _, r', s => HostIdle a r' s

theorem Finished.stable (o : Outcome) (r : FrameRingReader) :
    (hostRG a).Stable (Finished a o r) := by
  intro s t h hs
  cases o with
  | frame f =>
      obtain ⟨r, c, hc, hrest⟩ := hs
      exact ⟨r, c, Released.stable r c _ s t h hc, hrest⟩
  | corruptSlot =>
      obtain ⟨c, hc⟩ := hs
      exact ⟨c, Released.stable r c _ s t h hc⟩
  | invalidHeader => exact HostIdle.stable r s t h hs
  | noFrame => exact HostIdle.stable r s t h hs

theorem consumeSlot_triple (i : Slot) (c : FrameSlot) (hid : c.field .frameId ≠ 0) :
    Triple hostExec (hostRG a) (Selected a r i c slotIndices.reverse)
      (consumeSlot r i (c.field .payloadLength)) fun x ↦ Finished a x.1 x.2 :=
  (Selected.knows r i c _).consumeSlot r <| freeSlot_triple r i <|
    Triple.ret (Released.stable r c _) fun _ h ↦ ⟨r, c, h, hid, rfl, rfl⟩

theorem readSelected_triple (i : Slot) (c : FrameSlot) :
    Triple hostExec (hostRG a) (Selected a r i c []) (readSelected r i)
      fun x ↦ Finished a x.1 x.2 := by
  have hpurge := purgeOlder_triple (a := a) r i c slotIndices []
  rw [List.append_nil] at hpurge
  refine Triple.bind _ hpurge fun _ ↦ (Selected.knows r i c _).isValidSlot ?_
  cases hn : c.validLength with
  | none => exact freeSlot_triple r i <| Triple.ret (Released.stable r c _) fun s h ↦ ⟨c, h⟩
  | some n =>
      obtain ⟨rfl, hid⟩ := FrameSlot.of_validLength hn
      exact consumeSlot_triple r i c hid

/-! ## The call -/

theorem readAttempts_triple (n : Nat) :
    Triple hostExec (hostRG a) (HostIdle a r) (readAttempts r n) fun x ↦ Finished a x.1 x.2 := by
  have hnone : Triple hostExec (hostRG a) (HostIdle a r) (.ret (.noFrame, r))
      fun x : Outcome × FrameRingReader ↦ Finished a x.1 x.2 :=
    Triple.ret (HostIdle.stable r) fun _ h ↦ h
  induction n with
  | zero => exact hnone
  | succ n ih =>
      refine Triple.bind _ (Triple.of_uses (scanNewest_uses slotIndices none)
        (fun _ _ ↦ hostExec_read) (hostRG_guar_refl a) (HostIdle.stable r)) fun newest ↦ ?_
      cases newest with
      | none => exact hnone
      | some best =>
          refine claimReady_triple r best.1 (fun c ↦ ?_) ih
          refine Triple.bind _ (newerReadySlot_triple r best.1 c slotIndices) fun newer ↦ ?_
          cases newer with
          | false => exact (readSelected_triple r best.1 c).conseq (fun _ h ↦ h.1) fun _ _ h ↦ h
          | true =>
              exact (freeSlot_superseded r best.1 ih).conseq (fun _ h ↦ ⟨h.1, h.2 rfl⟩)
                fun _ _ h ↦ h

theorem tryReadLatest_triple :
    Triple hostExec (hostRG a) (HostIdle a r) (tryReadLatest r) fun x ↦ Finished a x.1 x.2 := by
  refine Triple.bind _ (Triple.of_uses (isValidFrameRingHeader_uses headerOrder)
    (fun _ _ ↦ hostExec_read) (hostRG_guar_refl a) (HostIdle.stable r)) fun valid ↦ ?_
  cases valid with
  | true => exact readAttempts_triple r (kSlotCount * 2)
  | false =>
      refine Triple.ret (HostIdle.stable r) fun s h ↦ ⟨h.owns, fun ha ↦ ?_, h.kept⟩
      have hacc := h.accounted ha
      exact ⟨hacc.delivered, hacc.pos, hacc.last, hacc.empty, hacc.total⟩

end Proof

/-! ## Delivery -/

/-- Recording the outcome changes nothing that the driver sees. -/
theorem HostMoves.leave (x : HostResult) (s : Shared) : HostMoves s (hostLeave x s) := by
  rcases x with (_ | _ | _ | _) | _ <;>
    exact ⟨fun _ ↦ rfl, fun _ ↦ rfl, fun _ ↦ .refl _, rfl, rfl, rfl⟩

/-- One more frame, with an id greater than those before, keeps the accounts. -/
theorem Accounted.consume {r : FrameRingReader} {log : Log} (h : Accounted r log) {c : FrameSlot}
    (hid : c.field .frameId ≠ 0) (hlt : ∀ id ∈ log.session, id < c.field .frameId) :
    Accounted (r.consume c) (log.deliver (.frame (r.consume c).cachedFrame)) where
  delivered id hmem := by
    rcases List.mem_append.1 hmem with hmem | hmem
    · obtain ⟨f, hf, hfid⟩ := h.delivered id hmem
      exact ⟨f, List.mem_append_left _ hf, hfid⟩
    · exact ⟨_, List.mem_append_right _ (List.mem_singleton_self _),
        (List.mem_singleton.1 hmem).symm⟩
  pos id hmem := by
    rcases List.mem_append.1 hmem with hmem | hmem
    · exact h.pos id hmem
    · rw [List.mem_singleton.1 hmem]
      exact hid
  last := by simp [Log.deliver, FrameRingReader.consume, FrameRingReader.cachedFrame]
  empty he := by simp [Log.deliver] at he
  total first last hfirst hlast := by
    have hl : c.field .frameId = last := by
      simpa [Log.deliver, FrameRingReader.consume, FrameRingReader.cachedFrame] using hlast
    subst hl
    simp only [FrameRingReader.consume, FrameRingReader.skips, h.last]
    cases hs : log.session.getLast? with
    | none =>
        have hnil := List.getLast?_eq_none_iff.1 hs
        have hf : c.field .frameId = first := by
          simpa [Log.deliver, hnil, FrameRingReader.consume, FrameRingReader.cachedFrame]
            using hfirst
        obtain ⟨hread, hskipped⟩ := h.empty hnil
        simp [hread, hskipped, ← hf]
    | some l =>
        have hmem := List.mem_of_getLast? hs
        have hpos := h.pos l hmem
        have hl := hlt l hmem
        have hf : log.session.head? = some first := by
          rw [← hfirst]
          exact (List.head?_append_of_ne_nil _ (List.ne_nil_of_mem hmem)).symm
        have htotal := h.total first l hf hs
        simp only [Option.getD_some, hpos, if_false]
        refine ⟨by omega, ?_⟩
        split <;> omega

/-- Handing a frame over keeps the invariant, and leaves the host idle. -/
theorem Released.deliver_frame {r : FrameRingReader} {c : FrameSlot}
    (h : Released a r c slotIndices.reverse s) (hs : Inv a s) (hid : c.field .frameId ≠ 0) :
    Inv a (hostLeave (.read (.frame (r.consume c).cachedFrame)) s) ∧
      HostIdle a (r.consume c) (hostLeave (.read (.frame (r.consume c).cachedFrame)) s) := by
  obtain ⟨howns, hh⟩ := h
  obtain ⟨p, hp, hfill⟩ := hh.content
  have hseq : p.sequence = s.log.claimed := by
    rw [hh.claimed, Publication.sequence, hfill.1]
  have hpid : p.frameId = c.field .frameId := by rw [Publication.frameId, hfill.1]
  have hbefore : a.single → ∀ f ∈ s.log.returned, f.1 < s.log.claimed ∧
      f.2.frameId < c.field .frameId := by
    intro ha f hf
    obtain ⟨q, hq, hqseq, hqshows⟩ := hs.returned f hf
    have hlt := hh.newest ha f hf
    refine ⟨hh.claimed ▸ hlt, ?_⟩
    rw [hqshows.1, ← hpid]
    refine (Publication.before_of_sequence (hs.sorted ha) hq hp ?_).2
    rwa [hqseq, hseq, hh.claimed]
  refine ⟨⟨hs.driverOwns, hs.readerOwns, hs.content, ?_, hs.sorted, hs.distinct, ?_, ?_⟩,
    howns, ?_, ?_⟩
  · intro f hf
    rcases List.mem_append.1 hf with hf | hf
    · exact hs.returned f hf
    · rw [List.mem_singleton.1 hf]
      exact ⟨p, hp, hseq, hfill.shows r⟩
  · intro ha i hi f hf
    rcases List.mem_append.1 hf with hf | hf
    · exact hs.newer ha i hi f hf
    · rw [List.mem_singleton.1 hf]
      exact hh.claimed ▸ hh.purged ha i (by simp) hi
  · intro ha
    refine List.pairwise_append.2 ⟨hs.increasing ha, List.pairwise_singleton _ _, ?_⟩
    intro f hf g hg
    rw [List.mem_singleton.1 hg]
    exact hbefore ha f hf
  · intro ha
    refine (hh.accounted ha).consume hid fun id hmem ↦ ?_
    obtain ⟨f, hf, rfl⟩ := (hh.accounted ha).delivered id hmem
    exact (hbefore ha f hf).2
  · intro ha hsingle hst q hq
    rcases hh.kept ha hsingle hst q hq with h' | h' | h' | h'
    · refine .inl ?_
      simp only [hostLeave, Log.deliver, List.map_append]
      exact List.mem_append_left _ h'
    · exact .inr (.inl h')
    · exact .inr (.inr (.inl h'))
    · refine .inl ?_
      simp [hostLeave, Log.deliver, hh.claimed, Option.some.inj h']

/-- Dropping a corrupt slot keeps the invariant, and leaves the host idle. -/
theorem Released.deliver_corrupt {r : FrameRingReader} {c : FrameSlot} {done : List Slot}
    (h : Released a r c done s) (hs : Inv a s) :
    Inv a (hostLeave (.read .corruptSlot) s) ∧ HostIdle a r (hostLeave (.read .corruptSlot) s) := by
  obtain ⟨howns, hh⟩ := h
  refine ⟨⟨hs.driverOwns, hs.readerOwns, hs.content, hs.returned, hs.sorted, hs.distinct, hs.newer,
    hs.increasing⟩, howns, fun ha ↦ (hh.accounted ha).congr rfl rfl, ?_⟩
  intro ha hsingle hst q hq
  rcases hh.kept ha hsingle hst q hq with h' | h' | h' | h'
  · exact .inl h'
  · exact .inr (.inl (List.mem_append_left _ h'))
  · exact .inr (.inr (.inl h'))
  · refine .inr (.inl (List.mem_append_right _ ?_))
    rw [List.mem_singleton, hh.claimed]
    exact (Option.some.inj h').symm

/-- What a finished call of the host establishes. -/
def Delivered (a : Assumption) (x : HostResult × FrameRingReader) (s : Shared) : Prop :=
  (hostRG a).guar s (hostLeave x.1 s) ∧ HostIdle a x.2 (hostLeave x.1 s)

theorem Finished.delivered {o : Outcome} {r : FrameRingReader} (h : Finished a o r s)
    (hs : Inv a s) : Delivered a (.read o, r) s := by
  cases o with
  | frame f =>
      obtain ⟨r, c, hc, hid, rfl, rfl⟩ := h
      obtain ⟨hinv, hidle⟩ := hc.deliver_frame hs hid
      exact ⟨⟨.leave _ s, hinv⟩, hidle⟩
  | corruptSlot =>
      obtain ⟨c, hc⟩ := h
      obtain ⟨hinv, hidle⟩ := hc.deliver_corrupt hs
      exact ⟨⟨.leave _ s, hinv⟩, hidle⟩
  | invalidHeader => exact ⟨⟨.leave _ s, hs⟩, h⟩
  | noFrame => exact ⟨⟨.leave _ s, hs⟩, h⟩

/-- **Each call of the host keeps its contract**, against any driver. -/
theorem hostBody_triple (call : HostCall) (r : FrameRingReader) :
    Triple hostExec (hostRG a) (HostIdle a r) (hostBody call r) (Delivered a) := by
  cases call with
  | tryReadLatest =>
      refine Triple.bind _ (tryReadLatest_triple r) fun x s hx t ht ↦ ?_
      exact (Finished.stable x.1 x.2 s t ht hx).delivered ht.2
  | beginClient width height =>
      intro s h t ht
      have h := HostIdle.stable r s t ht h
      refine ⟨⟨.leave _ t, ?_⟩, h.owns, fun _ ↦ ?_, h.kept⟩
      · exact ⟨ht.2.driverOwns, ht.2.readerOwns, ht.2.content, ht.2.returned, ht.2.sorted,
          ht.2.distinct, ht.2.newer, ht.2.increasing⟩
      · exact ⟨fun _ h ↦ (by cases h), fun _ h ↦ (by cases h), rfl, fun _ ↦ ⟨rfl, rfl⟩,
          fun _ _ h ↦ (by cases h)⟩

end SecondScreen.Ring
