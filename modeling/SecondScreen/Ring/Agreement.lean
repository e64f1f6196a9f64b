import SecondScreen.Ring.Ownership
import SecondScreen.Ring.SlotLayout

/-!
# Nothing that is published is rejected

Whatever the driver makes ready is valid to the host, in every run; this needs
no more of the host than that it writes into no slot (`layoutOutline`).  When
`SetEvent` succeeds, no slot changes while it is read, so that the host finds
what was made ready and rejects nothing (`agreementOutline`).
-/

namespace SecondScreen.Ring

open SecondScreen.Conc SecondScreen.Conc.System

/-! ## Whatever is ready is valid -/

/-- All slots that are ready, and all that ever were, hold valid fields. -/
structure LaidOut (s : Shared) : Prop where
  ready : ∀ i, s.ring.state i = .ready → SlotLayout (s.ring.slots i).field
  published : ∀ p ∈ s.log.published, SlotLayout p.field

/-- What the host does, as far as the driver's proof is concerned. -/
structure LeavesFields (s t : Shared) : Prop where
  ring : Loosens s.ring t.ring
  current : t.log.current = s.log.current
  published : t.log.published = s.log.published

namespace LeavesFields

variable {s t u : Shared}

theorem refl (s : Shared) : LeavesFields s s := ⟨.refl _, rfl, rfl⟩

theorem trans (h : LeavesFields s t) (h' : LeavesFields t u) : LeavesFields s u :=
  ⟨h.ring.trans h'.ring, h'.current.trans h.current, h'.published.trans h.published⟩

theorem laidOut (h : LeavesFields s t) (hs : LaidOut s) : LaidOut t where
  ready i hi := by
    rw [h.ring.field i]
    exact hs.ready i (h.ring.ready hi)
  published := by
    rw [h.published]
    exact hs.published

end LeavesFields

/-- An operation on slot `i` that leaves all slots valid which are ready then. -/
theorem LaidOut.step {s u : Shared} {i : Slot} (h : LaidOut s)
    (hothers : ∀ j, j ≠ i → u.ring.slots j = s.ring.slots j)
    (hi : u.ring.state i = .ready → SlotLayout (u.ring.slots i).field)
    (hpublished : ∀ p ∈ u.log.published, p ∈ s.log.published ∨ SlotLayout p.field) : LaidOut u where
  ready j hj := by
    by_cases hji : j = i
    · subst hji
      exact hi hj
    · rw [FrameRing.state, hothers j hji] at hj
      rw [hothers j hji]
      exact h.ready j hj
  published p hp := (hpublished p hp).elim (h.published p) id

/-- The host leaves the fields alone, and the driver keeps the slots valid. -/
def layoutRG : Side → RG Shared
  | .driver =>
      { rely := LeavesFields
        guar := fun s t ↦ LaidOut s → LaidOut t
        rely_trans := LeavesFields.trans
        rely_refl := fun _ ↦ .refl _ }
  | .host =>
      { rely := fun _ _ ↦ True
        guar := LeavesFields
        rely_trans := fun _ _ ↦ trivial
        rely_refl := fun _ ↦ trivial }

/-! ## The driver -/

section Driver

variable {p : Publication} {i : Slot}

/-- The slot is claimed, and the given fields of the publication are written. -/
structure Prepared (p : Publication) (i : Slot) (done : List SlotField) (s : Shared) : Prop where
  current : s.log.current = p
  notReady : s.ring.state i ≠ .ready
  field : ∀ f ∈ done, (s.ring.slots i).field f = p.field f

theorem Prepared.stable (p : Publication) (i : Slot) (done : List SlotField) :
    (layoutRG .driver).Stable (Prepared p i done) := by
  intro s t h hs
  refine ⟨h.current.trans hs.current, fun hr ↦ hs.notReady (h.ring.ready hr), fun f hf ↦ ?_⟩
  rw [h.ring.field]
  exact hs.field f hf

theorem current_stable (p : Publication) :
    (layoutRG .driver).Stable fun s ↦ s.log.current = p :=
  fun _ _ h hs ↦ h.current.trans hs

/-- An operation on slot `i` that publishes nothing and leaves the slot not ready. -/
theorem LaidOut.quiet {s u : Shared} (h : LaidOut s)
    (hothers : ∀ j, j ≠ i → u.ring.slots j = s.ring.slots j) (hi : u.ring.state i ≠ .ready)
    (hpublished : u.log.published = s.log.published) : LaidOut u :=
  h.step hothers (fun hr ↦ absurd hr hi) fun _ hp ↦ .inl (hpublished ▸ hp)

theorem claims_layout (p : Publication) :
    ClaimOutline driverExec (layoutRG .driver) (fun s ↦ s.log.current = p)
      fun i ↦ Prepared p i [] where
  stable := current_stable p
  stable_taken i := Prepared.stable p i []
  read ho s _ hs w r u hu := by
    obtain rfl := driverExec_read ho w s r u hu
    exact ⟨id, hs⟩
  take i expected _ s _ hs w old u hu := by
    simp only [driverExec, driverHandler, RingOp.exec, Log.driverStep, Option.some.injEq,
      Prod.mk.injEq] at hu
    obtain ⟨rfl, rfl⟩ := hu
    by_cases hst : s.ring.state i = expected
    · simp only [if_pos hst]
      refine ⟨fun h ↦ h.quiet (fun j hj ↦ FrameRing.setState_of_ne hj _) ?_ rfl, hs, ?_, ?_⟩
      · simp [FrameRing.state]
      · simp [FrameRing.state]
      · intro f hf
        cases hf
    · simp only [if_neg hst]
      exact ⟨id, hs⟩

/-- Storing into a claimed slot. -/
theorem Prepared.write {done done' : List SlotField} {o : RingOp Unit}
    (hring : ∀ ring : FrameRing, (∀ j, j ≠ i → (RingOp.exec _ o ring).2.slots j = ring.slots j) ∧
      (RingOp.exec _ o ring).2.state i = ring.state i)
    (hlog : ∀ ring (log : Log), log.driverStep _ o ring = log)
    (hfield : ∀ ring : FrameRing, (∀ f ∈ done, (ring.slots i).field f = p.field f) →
      ∀ f ∈ done', ((RingOp.exec _ o ring).2.slots i).field f = p.field f) :
    OpTriple driverExec (layoutRG .driver) (Prepared p i done) o fun _ ↦ Prepared p i done' := by
  intro s _ hs w r u hu
  simp only [driverExec, driverHandler, Option.some.injEq, Prod.mk.injEq, hlog] at hu
  obtain ⟨-, rfl⟩ := hu
  obtain ⟨hothers, hstate⟩ := hring s.ring
  have hnotReady : (RingOp.exec _ o s.ring).2.state i ≠ .ready := by
    rw [hstate]
    exact hs.notReady
  exact ⟨fun h ↦ h.quiet hothers hnotReady rfl, hs.current, hnotReady, hfield s.ring hs.field⟩

/-- Giving a slot back. -/
theorem exchange_free_layout (i : Slot) {A : Shared → Prop} {B : Prop} (hB : B) :
    OpTriple driverExec (layoutRG .driver) A (.exchange i .free) fun _ _ ↦ B := by
  intro s _ _ w r u hu
  cases hu
  refine ⟨fun h ↦ h.quiet (i := i) (fun j hj ↦ FrameRing.setState_of_ne hj _) ?_ rfl, hB⟩
  simp [RingOp.exec, FrameRing.state]

/-- The counters start at one. -/
def SwapChainProcessor.Counting (m : SwapChainProcessor) : Prop :=
  m.nextSequence ≠ 0 ∧ m.nextFrameId ≠ 0

/-- The proof that a publish makes only valid slots ready. -/
def layoutPublish (m : SwapChainProcessor) (frame : PendingBgraFrame) (env : PublishEnv)
    (hm : m.Counting) : PublishOutline driverExec (layoutRG .driver) m frame env where
  before s := s.log.current = publication m frame env
  writing i done _ := Prepared (publication m frame env) i done
  announced _ _ := True
  after r _ := r.2.Counting
  claims := claims_layout _
  stable i done _ := Prepared.stable _ i done
  stable_announced _ _ _ _ h := h
  stable_after _ _ _ _ h := h
  refuse _ _ := hm
  giveUp _ i := exchange_free_layout i hm
  field i done f := by
    apply Prepared.write
    · exact fun ring ↦
        ⟨fun j hj ↦ FrameRing.setSlot_of_ne hj _, by simp [RingOp.exec, FrameRing.state]⟩
    · exact fun _ _ ↦ rfl
    · intro ring hring g hg
      by_cases hgf : g = f
      · subst hgf; simp [RingOp.exec, publication]
      · simpa [RingOp.exec, hgf] using hring g ((List.mem_cons.1 hg).resolve_left hgf)
  byte _ _ i done n := by
    apply Prepared.write
    · exact fun ring ↦
        ⟨fun j hj ↦ FrameRing.setSlot_of_ne hj _, by simp [RingOp.exec, FrameRing.state]⟩
    · exact fun _ _ ↦ rfl
    · intro ring hring f hf
      simpa [RingOp.exec] using hring f hf
  telemetry _ _ _ _ _ := Prepared.write (fun _ ↦ ⟨fun _ _ ↦ rfl, rfl⟩) (fun _ _ ↦ rfl) fun _ h ↦ h
  announce hts i s _ hs w r u hu := by
    cases hu
    have hlayout := slotLayout_slotFields m frame env hm.1 hm.2 hts
    have hfield : (s.ring.slots i).field = (publication m frame env).field :=
      funext fun f ↦ hs.field f (by simp [mem_fieldOrder])
    refine ⟨fun h ↦ h.step (i := i) (fun j hj ↦ FrameRing.setState_of_ne hj _) (fun _ ↦ ?_) ?_,
      trivial⟩
    · simpa [RingOp.exec, hfield, publication] using hlayout
    · intro q hq
      refine (List.mem_append.1 hq).imp_right fun hq ↦ ?_
      rw [List.mem_singleton.1 hq, hs.current]
      exact hlayout
  signalled _ _ _ _ := ⟨Nat.succ_ne_zero _, Nat.succ_ne_zero _⟩
  unsignalled _ i := exchange_free_layout i ⟨Nat.succ_ne_zero _, Nat.succ_ne_zero _⟩

/-- Each publish keeps the slots valid, and the counters at one or more. -/
theorem publish_layout (m : SwapChainProcessor) (frame : PendingBgraFrame) (env : PublishEnv)
    (hm : m.Counting) :
    Triple driverExec (layoutRG .driver) (fun s ↦ s.log.current = publication m frame env)
      (publishBgraFrame m frame env) fun r _ ↦ r.2.Counting :=
  (layoutPublish m frame env hm).triple

end Driver

/-! ## All runs -/

theorem LeavesFields.leave (x : HostResult) (s : Shared) : LeavesFields s (hostLeave x s) := by
  rcases x with (_ | _ | _ | _) | _ <;> exact ⟨.refl _, rfl, rfl⟩

/-- An operation of the host leaves the fields alone. -/
theorem LeavesFields.hostOp {β : Type} {o : RingOp β} (ho : HostOp β o) (s : Shared) :
    LeavesFields s (hostHandler β o s).2 := by
  have hlog : ((s.log.readerStep β o s.ring).current = s.log.current) ∧
      (s.log.readerStep β o s.ring).published = s.log.published := by
    cases o with
    | compareExchange i x e =>
        cases x <;> dsimp only [Log.readerStep] <;> (try split) <;> exact ⟨rfl, rfl⟩
    | _ => exact ⟨rfl, rfl⟩
  exact ⟨ho.loosens s.ring, hlog.1, hlog.2⟩

/-- Outline of all runs: what is ready is valid. -/
def layoutOutline (allow : ringSystem.Guard) : Outline ringSystem allow where
  inv := LaidOut
  rg := layoutRG
  idle
    | .driver => fun m _ ↦ SwapChainProcessor.Counting m
    | .host => fun _ _ ↦ True
  inv_next {c i m c'} _ hinv hG := by
    cases i with
    | driver => exact hG hinv
    | host => exact LeavesFields.laidOut hG hinv
  rely_refl i s _ := by
    cases i
    · exact LeavesFields.refl s
    · trivial
  compat {i j s t} hij _ _ h := by
    cases i <;> cases j <;> first | exact absurd rfl hij | exact h | trivial
  idle_stable i l := by
    cases i <;> exact fun _ _ _ h ↦ h
  enter_ok {c i call c' l} hinv ha hidle := by
    cases i with
    | driver =>
        cases call with
        | assignSwapChain =>
            exact ⟨id, fun t _ ↦ ⟨id, Nat.one_ne_zero, Nat.one_ne_zero⟩⟩
        | publish frame env =>
            refine ⟨fun h ↦ ⟨h.ready, h.published⟩, ?_⟩
            refine ((publish_layout l frame env hidle _ rfl).mono ?_).bind
            exact fun r t ht u hu ↦ ⟨id, ht⟩
    | host =>
        refine ⟨LeavesFields.refl _, ?_⟩
        cases call with
        | beginClient width height =>
            exact fun t _ ↦ ⟨LeavesFields.leave .began t, trivial⟩
        | tryReadLatest =>
            have hread :
                Safe hostExec (layoutRG .host) (fun _ _ ↦ True) (tryReadLatest l) c.shared := by
              apply Safe.of_uses (tryReadLatest_uses l)
              intro β o ho w s r u hu
              cases hu
              exact LeavesFields.hostOp ho s
            refine (hread.mono ?_).bind
            exact fun r t _ u _ ↦ ⟨LeavesFields.leave (.read r.1) u, trivial⟩

theorem laidOut_run {allow : ringSystem.Guard} {c : RingConfig}
    (hrun : Run allow RingConfig.initial c) : LaidOut c.shared := by
  have hinitial : (layoutOutline allow).Ok RingConfig.initial := by
    refine ⟨⟨fun i hi ↦ ?_, fun p hp ↦ ?_⟩, fun i ↦ ?_⟩
    · cases hi
    · cases hp
    · cases i
      · exact ⟨Nat.one_ne_zero, Nat.one_ne_zero⟩
      · trivial
  exact ((layoutOutline allow).ok_run hinitial hrun).inv

/-! ## The host rejects nothing -/

section Host

variable {a : Assumption} {s : Shared}

/-- The host may rely on valid slots as well. -/
def soundRG (a : Assumption) : RG Shared where
  rely s t := (hostRG a).rely s t ∧ LaidOut t
  guar := (hostRG a).guar
  rely_trans h h' := ⟨(hostRG a).rely_trans h.1 h'.1, h'.2⟩
  rely_refl h := ⟨(hostRG a).rely_refl h.1, h.2⟩

/-- What is proved of the host against any driver holds here, where the slots are
valid at the end too. -/
theorem sound_of_triple {α : Type} {A : Shared → Prop} {p : RingProg α} {Q : α → Shared → Prop}
    (h : Triple hostExec (hostRG a) A p Q) :
    Triple hostExec (soundRG a) A p fun x s ↦ Q x s ∧ LaidOut s := by
  intro s hs
  have hsound : Safe hostExec (soundRG a) Q p s := (h s hs).weaken (fun _ _ h ↦ h.1) fun _ _ h ↦ h
  exact hsound.and_rely.mono fun x t ht ↦ ⟨ht.1, ht.2.2⟩

theorem HostIdle.stable_sound (r : FrameRingReader) :
    (soundRG a).Stable fun s ↦ HostIdle a r s ∧ LaidOut s :=
  fun s t h hs ↦ ⟨HostIdle.stable r s t h.1 hs.1, h.2⟩

/-- A slot that the host has claimed is valid, as all publications are. -/
theorem Selected.valid {r : FrameRingReader} {i : Slot} {c : FrameSlot} {done : List Slot}
    (h : Selected a r i c done s) (hs : LaidOut s) : c.validLength ≠ none := by
  obtain ⟨p, hp, hfill⟩ := h.holding.content
  have hlayout := hs.published p hp
  rw [← hfill.1] at hlayout
  rw [hlayout.validLength]
  exact Option.some_ne_none _

variable (r : FrameRingReader)

/-- A valid slot is not rejected. -/
theorem readSelected_accepts (i : Slot) {c : FrameSlot} (hc : c.validLength ≠ none) :
    Triple hostExec (hostRG a) (Selected a r i c []) (readSelected r i)
      fun x _ ↦ x.1 ≠ .corruptSlot := by
  have hpurge := purgeOlder_triple (a := a) r i c slotIndices []
  rw [List.append_nil] at hpurge
  refine Triple.bind _ hpurge fun _ ↦ (Selected.knows r i c _).isValidSlot ?_
  obtain ⟨n, hn⟩ := Option.ne_none_iff_exists'.1 hc
  obtain ⟨rfl, -⟩ := FrameSlot.of_validLength hn
  rw [hn]
  apply (Selected.knows r i c _).consumeSlot r
  apply freeSlot_triple r i
  refine Triple.ret (Released.stable r c _) fun _ _ h ↦ ?_
  cases h

theorem readAttempts_accepts (n : Nat) :
    Triple hostExec (soundRG a) (fun s ↦ HostIdle a r s ∧ LaidOut s) (readAttempts r n)
      fun x _ ↦ x.1 ≠ .corruptSlot := by
  have hnone : Triple hostExec (soundRG a) (fun s ↦ HostIdle a r s ∧ LaidOut s)
      (.ret (.noFrame, r)) fun x : Outcome × FrameRingReader ↦ fun _ ↦ x.1 ≠ .corruptSlot := by
    refine Triple.ret (HostIdle.stable_sound r) fun _ _ h ↦ ?_
    cases h
  induction n with
  | zero => exact hnone
  | succ n ih =>
      have hscan := sound_of_triple (Triple.of_uses (scanNewest_uses slotIndices none)
        (fun _ _ ↦ hostExec_read) (hostRG_guar_refl a) (HostIdle.stable r))
      refine Triple.bind _ (hscan.conseq (fun _ h ↦ h.1) fun _ _ h ↦ h) fun newest ↦ ?_
      cases newest with
      | none => exact hnone
      | some best =>
          have hclaim : Triple hostExec (hostRG a) (HostIdle a r) (claimReady best.1) fun b s ↦
              (b = true → ∃ c, Selected a r best.1 c [] s) ∧ (b = false → HostIdle a r s) := by
            show Triple _ _ _ ((claimReady best.1).bind .ret) _
            refine claimReady_triple r best.1 (fun c ↦ ?_) ?_
            · refine Triple.ret (Selected.stable r best.1 c []) fun s h ↦ ⟨fun _ ↦ ⟨c, h⟩, ?_⟩
              rintro ⟨⟩
            · refine Triple.ret (HostIdle.stable r) fun s h ↦ ⟨?_, fun _ ↦ h⟩
              rintro ⟨⟩
          refine Triple.bind _ ((sound_of_triple hclaim).conseq (fun _ h ↦ h.1) fun _ _ h ↦ h)
            fun claimed ↦ ?_
          cases claimed with
          | false => exact ih.conseq (fun s h ↦ ⟨h.1.2 rfl, h.2⟩) fun _ _ h ↦ h
          | true =>
              rintro s ⟨hs, hlaid⟩
              obtain ⟨c, hc⟩ := hs.1 rfl
              have hvalid := hc.valid hlaid
              refine (Triple.bind _ (sound_of_triple (newerReadySlot_triple r best.1 c slotIndices))
                fun newer ↦ ?_) s hc
              cases newer with
              | false =>
                  exact (sound_of_triple (readSelected_accepts r best.1 hvalid)).conseq
                    (fun _ h ↦ h.1.1) fun _ _ h ↦ h.1
              | true =>
                  have hfree : Triple hostExec (hostRG a) (fun s ↦ Selected a r best.1 c [] s ∧
                      (a.single → a.succeeding → Superseded (c.field .sequence) s))
                      (freeSlot best.1) fun _ ↦ HostIdle a r :=
                    freeSlot_superseded r best.1 (Triple.ret (HostIdle.stable r) fun _ h ↦ h)
                  exact Triple.bind _ ((sound_of_triple hfree).conseq
                    (fun _ h ↦ ⟨h.1.1, h.1.2 rfl⟩) fun _ _ h ↦ h) fun _ ↦ ih

/-- **`TryReadLatest` meets no corrupt slot.** -/
theorem tryReadLatest_accepts :
    Triple hostExec (soundRG a) (fun s ↦ HostIdle a r s ∧ LaidOut s) (tryReadLatest r)
      fun x _ ↦ x.1 ≠ .corruptSlot := by
  have hheader := sound_of_triple (Triple.of_uses (isValidFrameRingHeader_uses headerOrder)
    (fun _ _ ↦ hostExec_read) (hostRG_guar_refl a) (HostIdle.stable r))
  refine Triple.bind _ (hheader.conseq (fun _ h ↦ h.1) fun _ _ h ↦ h) fun valid ↦ ?_
  cases valid with
  | true => exact readAttempts_accepts r (kSlotCount * 2)
  | false =>
      refine Triple.ret (HostIdle.stable_sound r) fun _ _ h ↦ ?_
      cases h

end Host

/-! ## Runs in which the event is set -/

section Rejections

variable {a : Assumption}

/-- Nothing is recorded as rejected. -/
def rejectedRG : RG Shared where
  rely _ _ := True
  guar s t := t.log.rejected = s.log.rejected
  rely_trans _ _ := trivial
  rely_refl _ := trivial

/-- No operation of the host records a rejection. -/
theorem hostHandler_rejected {β : Type} (o : RingOp β) (s : Shared) :
    (hostHandler β o s).2.log.rejected = s.log.rejected := by
  show (s.log.readerStep β o s.ring).rejected = _
  cases o with
  | compareExchange i x e =>
      cases x <;> dsimp only [Log.readerStep] <;> (try split) <;> rfl
  | _ => rfl

/-- The contract of a host that rejects nothing. -/
def acceptRG (a : Assumption) : RG Shared where
  rely := (soundRG a).rely
  guar s t := (hostRG a).guar s t ∧ t.log.rejected = s.log.rejected
  rely_trans := (soundRG a).rely_trans
  rely_refl := (soundRG a).rely_refl

/-- A call of the host rejects nothing. -/
theorem hostBody_accepts {s : Shared} (call : HostCall) (r : FrameRingReader) (hlaid : LaidOut s)
    (hs : HostIdle a r s) :
    Safe hostExec (acceptRG a)
      (fun x t ↦ (acceptRG a).guar t (hostLeave x.1 t) ∧ HostIdle a x.2 (hostLeave x.1 t))
      (hostBody call r) s := by
  have hcontract : Safe hostExec (soundRG a) (Delivered a) (hostBody call r) s :=
    (hostBody_triple call r s hs).weaken (fun _ _ h ↦ h.1) fun _ _ h ↦ h
  have haccepts : Safe hostExec (soundRG a) (fun x _ ↦ x.1 ≠ .read .corruptSlot)
      (hostBody call r) s := by
    cases call with
    | beginClient width height =>
        intro t _ h
        cases h
    | tryReadLatest =>
        refine ((tryReadLatest_accepts r s ⟨hs, hlaid⟩).mono ?_).bind
        intro x _ hx _ _ h
        apply hx
        injection h
  have hrecord : Safe hostExec rejectedRG (fun _ _ ↦ True) (hostBody call r) s := by
    cases call with
    | beginClient width height => exact fun _ _ ↦ trivial
    | tryReadLatest =>
        refine ((Safe.of_uses (tryReadLatest_uses r) ?_ s).mono ?_).bind
        · intro β o _ w s x u hu
          cases hu
          exact hostHandler_rejected o s
        · exact fun _ _ _ _ _ ↦ trivial
  have hboth := hcontract.and (fun _ _ h ↦ h) haccepts
  have hall : Safe hostExec (acceptRG a)
      (fun x t ↦ (Delivered a x t ∧ x.1 ≠ .read .corruptSlot) ∧ True) (hostBody call r) s := by
    refine Safe.meet ?_ ?_ hboth hrecord
    · exact fun _ _ h ↦ ⟨h, trivial⟩
    · exact fun _ _ h h' ↦ ⟨h, h'⟩
  refine hall.mono ?_
  rintro ⟨x, r'⟩ t ⟨⟨hdelivered, hcorrupt⟩, -⟩
  refine ⟨⟨hdelivered.1, ?_⟩, hdelivered.2⟩
  rcases x with (_ | _ | _ | _) | _
  · rfl
  · rfl
  · exact absurd rfl hcorrupt
  · rfl
  · rfl

/-- Outline of the runs in which all published slots are known to be valid. -/
def agreementOutline (a : Assumption) {allow : ringSystem.Guard}
    (hallow : ∀ c i m c', allow c i m c' → driverCalls a.Admits c i m c' ∧ LaidOut c'.shared) :
    Outline ringSystem allow where
  inv s := (Inv a s ∧ LaidOut s) ∧ s.log.rejected = []
  rg
    | .driver => driverRG a
    | .host => acceptRG a
  idle
    | .driver => DriverIdle a
    | .host => HostIdle a
  inv_next {c i m c'} ha hinv hG := by
    have hlaid := (hallow _ _ _ _ ha).2
    cases i
    · exact ⟨⟨hG.2, hlaid⟩, hG.1.rejected.trans hinv.2⟩
    · exact ⟨⟨hG.1.2, hlaid⟩, hG.2.trans hinv.2⟩
  rely_refl i s h := by
    cases i
    · exact ⟨.refl s, h.1.1⟩
    · exact ⟨⟨.refl a s, h.1.1⟩, h.1.2⟩
  compat {i j s t} hij _ ht h := by
    cases i <;> cases j <;> first | exact absurd rfl hij | skip
    · exact h.1
    · exact ⟨h, ht.1.2⟩
  idle_stable i l := by
    cases i
    · exact DriverIdle.stable l
    · exact fun s t h ↦ HostIdle.stable l s t h.1
  enter_ok {c i call c' l} hinv ha hidle := by
    cases i with
    | driver =>
        exact ⟨⟨.enter call l c.shared, hinv.1.1.enter call l⟩,
          driverBody_safe call l (hallow _ _ _ _ ha).1 hidle⟩
    | host => exact ⟨⟨⟨.refl _, hinv.1.1⟩, rfl⟩, hostBody_accepts call l hinv.1.2 hidle⟩

theorem rejected_run {allow : ringSystem.Guard}
    (hallow : ∀ c i m c', allow c i m c' → driverCalls DriverCall.EventSet c i m c')
    {c : RingConfig} (hrun : Run allow RingConfig.initial c) : c.shared.log.rejected = [] := by
  have hstrong := Run.strengthen (P := fun d ↦ LaidOut d.shared) (fun _ ↦ laidOut_run) hrun
  have hadmits : ∀ (c : RingConfig) i (m : ringSystem.Move i) c',
      allow c i m c' ∧ LaidOut c'.shared →
        driverCalls (Assumption.Admits ⟨False, False⟩) c i m c' ∧ LaidOut c'.shared := by
    rintro c i m c' ⟨ha, hlaid⟩
    refine ⟨?_, hlaid⟩
    have hset := hallow c i m c' ha
    rcases i with _ | _ <;> rcases m with _ | _ | _
    · exact ⟨hset, False.elim, False.elim⟩
    all_goals trivial
  have hok := ringOutline_initial (a := ⟨False, False⟩) (fun c i m c' h ↦ (hadmits c i m c' h).1)
  have hinitial : (agreementOutline ⟨False, False⟩ hadmits).Ok RingConfig.initial := by
    refine ⟨⟨⟨hok.inv, @laidOut_run allow _ .refl⟩, rfl⟩, fun i ↦ ?_⟩
    cases i with
    | driver => exact hok.status .driver
    | host => exact hok.status .host
  exact ((agreementOutline ⟨False, False⟩ hadmits).ok_run hinitial hstrong).inv.2

end Rejections

/-! ## The agreement -/

/-- The host accepts slot `i`: `IsValidSlot` answers the payload length that is
stored, which is the size of the payload to all who compute it. -/
structure Accepted (ring : FrameRing) (i : Slot) : Prop where
  valid : (isValidSlot i).eval RingOp.exec ring =
    (some ((ring.slots i).field .payloadLength), ring)
  sizes : SizesAgree ((ring.slots i).field .width) ((ring.slots i).field .height)
    ((ring.slots i).field .payloadLength)
  stride : (ring.slots i).field .stride = (ring.slots i).field .width
  /-- No field is cut, as long as the counters are not. -/
  untruncated : (ring.slots i).field .sequence < 2 ^ 64 → (ring.slots i).field .frameId < 2 ^ 64 →
    ∀ f, (ring.slots i).field f < 2 ^ f.bits

theorem SlotLayout.accepted {ring : FrameRing} {i : Slot} (h : SlotLayout (ring.slots i).field) :
    Accepted ring i where
  valid := by rw [eval_isValidSlot, h.validLength]
  sizes := h.payloadLength ▸ h.geometry.sizesAgree
  stride := h.stride
  untruncated := h.field_lt

/-- **Driver and host agree on the slots.**  In every run, each slot that is ready
is accepted by the host, and all sizes of its payload agree; and if `SetEvent`
succeeds in the run, the host has rejected no slot as corrupt. -/
theorem ready_accepted {allow : ringSystem.Guard} {c : RingConfig}
    (hrun : Run allow RingConfig.initial c) :
    (∀ i, c.shared.ring.state i = .ready → Accepted c.shared.ring i) ∧
      ((∀ c i m c', allow c i m c' → driverCalls DriverCall.EventSet c i m c') →
        c.shared.log.rejected = []) :=
  ⟨fun i hi ↦ ((laidOut_run hrun).ready i hi).accepted, fun hallow ↦ rejected_run hallow hrun⟩

/-- One frame published, and ready. -/
theorem ready_accepted_one_frame : ∃ c : RingConfig,
    Run (driverCalls DriverCall.EventSet) RingConfig.initial c ∧ c.shared.ring.state 0 = .ready ∧
      (∀ i, c.shared.ring.state i = .ready → Accepted c.shared.ring i) ∧
        ((∀ c i m c', driverCalls DriverCall.EventSet c i m c' →
          driverCalls DriverCall.EventSet c i m c') → c.shared.log.rejected = []) := by
  have hfollow : (RingConfig.initial.follow (driverCalls DriverCall.EventSet)
      (wholeCall .driver smallPublish 19)).map (fun c ↦ c.shared.ring.state 0) = some .ready := by
    decide +kernel
  obtain ⟨c, hc, hready⟩ := Option.map_eq_some_iff.1 hfollow
  have hr := Config.run_of_follow hc
  exact ⟨c, hr, hready, ready_accepted hr⟩

end SecondScreen.Ring
