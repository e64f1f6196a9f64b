import SecondScreen.Ring.RestartProof

/-!
# Torn frames

The constructor of `FrameRingHost` next to a publish, and runs of one host after
the other.

The `memset` may clear payload bytes that the driver has stored while it leaves
the fields alone, since it comes by the fields first; the driver then makes the
slot ready, and the host returns a frame with a hole (`torn_after_restart`).  As
long as that does not happen, all frames are whole (`restart_not_torn`).
-/

namespace SecondScreen.Ring

open SecondScreen.Conc SecondScreen.Conc.System

/-! ## The constructor -/

section Constructor

variable {s u : Restart}

/-- An operation of a host that writes no slot but to clear or free it. -/
theorem Restart.Inv.host (hs : s.Inv) (hkeeps : HostKeeps s u)
    (hstate : ∀ i, s.shared.ring.state i ≠ .ready →
      u.shared.ring.state i = s.shared.ring.state i ∨ u.shared.ring.state i = .free)
    (hreturned : u.shared.log.returned = s.shared.log.returned) : (restartRG .host).guar s u := by
  refine ⟨hkeeps, fun hclobbered ↦ ⟨fun i hi ↦ ?_, fun f hf ↦ ?_, hclobbered⟩⟩
  · have howned := hs.owned i (hkeeps.driverOwns ▸ hi)
    have hready : s.shared.ring.state i ≠ .ready := by
      rcases howned with h | h <;> simp [h]
    rcases hstate i hready with h | h
    · rwa [h]
    · exact .inr h
  · rw [hreturned] at hf
    rw [hkeeps.published]
    exact hs.returned f hf

/-- A store to slot `i` of which the record takes no notice. -/
theorem Restart.Inv.store (hs : s.Inv) {o : RingOp Unit} {w : Unit} {r : Unit}
    (hu : restartHost _ w (.inl o) s = some (r, u)) {i : Slot}
    (ho : o = .exchange i .free ∨ (∃ f, o = .writeField i f 0) ∨ ∃ n, o = .writeByte i n 0) :
    (restartRG .host).guar s u ∧
      ∀ j, j ≠ i → u.shared.ring.slots j = s.shared.ring.slots j := by
  cases hu
  rcases ho with rfl | ⟨f, rfl⟩ | ⟨n, rfl⟩
  · refine ⟨hs.host ⟨fun j g ↦ .inl ?_, fun _ j _ n _ ↦ ?_, rfl, rfl, rfl, rfl, ?_⟩
      (fun j _ ↦ ?_) rfl, fun j hj ↦ FrameRing.setState_of_ne hj _⟩
    · by_cases hj : j = i
      · subst hj; simp [hostHandler, RingOp.exec]
      · simp [hostHandler, RingOp.exec, hj]
    · by_cases hj : j = i
      · subst hj; simp [hostHandler, RingOp.exec]
      · simp [hostHandler, RingOp.exec, hj]
    · simp [Restart.clobbers]
    · by_cases hj : j = i
      · subst hj; simp [hostHandler, RingOp.exec, FrameRing.state]
      · simp [hostHandler, RingOp.exec, FrameRing.state, hj]
  · refine ⟨hs.host ⟨fun j g ↦ ?_, fun _ j _ n _ ↦ ?_, rfl, rfl, rfl, rfl, ?_⟩
      (fun j _ ↦ .inl ?_) rfl, fun j hj ↦ FrameRing.setSlot_of_ne hj _⟩
    · by_cases hj : j = i
      · subst hj
        by_cases hg : g = f
        · subst hg; simp [hostHandler, RingOp.exec]
        · simp [hostHandler, RingOp.exec, hg]
      · simp [hostHandler, RingOp.exec, hj]
    · by_cases hj : j = i
      · subst hj; simp [hostHandler, RingOp.exec]
      · simp [hostHandler, RingOp.exec, hj]
    · simp [Restart.clobbers]
    · by_cases hj : j = i
      · subst hj; simp [hostHandler, RingOp.exec, FrameRing.state]
      · simp [hostHandler, RingOp.exec, FrameRing.state, hj]
  · refine ⟨hs.host ⟨fun j g ↦ .inl ?_, fun hc j hj k hk ↦ ?_, rfl, rfl, rfl, rfl, ?_⟩
      (fun j _ ↦ .inl ?_) rfl, fun j hj ↦ FrameRing.setSlot_of_ne hj _⟩
    · by_cases hj : j = i
      · subst hj; simp [hostHandler, RingOp.exec]
      · simp [hostHandler, RingOp.exec, hj]
    · -- a byte that is stored and cleared was zero already
      simp only [Bool.or_eq_false_iff, Restart.clobbers, Bool.and_eq_false_iff,
        decide_eq_false_iff_not, bne_eq_false_iff_eq] at hc
      by_cases hji : j = i
      · subst hji
        by_cases hkn : k = n
        · subst hkn
          have hzero : (s.shared.ring.slots j).payload k = 0 := by
            rcases hc.2 with (h | h) | h
            · rw [hj] at h
              cases h
            · exact absurd hk h
            · exact h
          simp [hostHandler, RingOp.exec, hzero]
        · simp [hostHandler, RingOp.exec, hkn]
      · simp [hostHandler, RingOp.exec, hji]
    · simp only [Bool.or_eq_false_iff]
      exact fun h ↦ h.1
    · by_cases hj : j = i
      · subst hj; simp [hostHandler, RingOp.exec, FrameRing.state]
      · simp [hostHandler, RingOp.exec, FrameRing.state, hj]

/-- A store outside the slots. -/
theorem Restart.Inv.setup (hs : s.Inv) {o : SetupOp Unit} {w : Unit} {r : Unit}
    (hu : restartHost _ w (.inr o) s = some (r, u)) :
    (restartRG .host).guar s u ∧ u.shared.ring.slots = s.shared.ring.slots ∧
      u.shared.log = s.shared.log := by
  have hslots : u.shared.ring.slots = s.shared.ring.slots := by
    cases hu
    cases o <;> rfl
  have hlog : u.shared.log = s.shared.log := by
    cases hu
    rfl
  have hrest : u.stored = s.stored ∧ u.clobbered = s.clobbered := by
    cases hu
    exact ⟨rfl, rfl⟩
  refine ⟨hs.host ⟨fun i f ↦ .inl ?_, fun _ i _ n _ ↦ ?_, ?_, ?_, ?_, hrest.1, ?_⟩
    (fun i _ ↦ .inl ?_) ?_, hslots, hlog⟩
  · rw [hslots]
  · rw [hslots]
  · rw [hlog]
  · rw [hlog]
  · rw [hlog]
  · rw [hrest.2]
    exact id
  · rw [FrameRing.state, FrameRing.state, hslots]
  · rw [hlog]

theorem trivial_stable : (restartRG .host).Stable fun _ ↦ True := fun _ _ _ h ↦ h

theorem memset_triple (order : List RingWord) :
    Triple restartHost (restartRG .host) (fun _ ↦ True) (memset order) fun _ _ ↦ True := by
  induction order with
  | nil => exact Triple.ret trivial_stable fun _ h ↦ h
  | cons word rest ih =>
      refine Triple.bind (fun _ _ ↦ True) ?_ fun _ ↦ ih
      have hret : Triple restartHost (restartRG .host) (fun _ ↦ True) (.ret ()) fun _ _ ↦ True :=
        Triple.ret trivial_stable fun _ h ↦ h
      cases word with
      | header f | telemetry t =>
          refine Triple.act trivial_stable (fun _ _ ↦ True) ?_ fun _ ↦ hret
          exact fun s hs _ w r u hu ↦ ⟨(hs.2.setup hu).1, trivial⟩
      | state i =>
          refine Triple.act trivial_stable (fun _ _ ↦ True) ?_ fun _ ↦ hret
          exact fun s hs _ w r u hu ↦ ⟨(hs.2.store hu (.inl rfl)).1, trivial⟩
      | field i f =>
          refine Triple.act trivial_stable (fun _ _ ↦ True) ?_ fun _ ↦ hret
          exact fun s hs _ w r u hu ↦ ⟨(hs.2.store hu (.inr (.inl ⟨f, rfl⟩))).1, trivial⟩
      | byte i n =>
          refine Triple.act trivial_stable (fun _ _ ↦ True) ?_ fun _ ↦ hret
          exact fun s hs _ w r u hu ↦ ⟨(hs.2.store hu (.inr (.inr ⟨n, rfl⟩))).1, trivial⟩

theorem writeHeaders_triple (l : List HeaderField) :
    Triple restartHost (restartRG .host) (fun _ ↦ True) (writeHeaders l) fun _ _ ↦ True := by
  induction l with
  | nil => exact Triple.ret trivial_stable fun _ h ↦ h
  | cons f l ih =>
      refine Triple.act trivial_stable (fun _ _ ↦ True) ?_ fun _ ↦ ih
      exact fun s hs _ w r u hu ↦ ⟨(hs.2.setup hu).1, trivial⟩

/-- The given slots are good. -/
def GoodOn (done : List Slot) (s : Restart) : Prop :=
  ∀ i ∈ done, s.shared.ring.state i = .ready →
    ∃ p ∈ s.shared.log.published, p.Resembles (s.shared.ring.slots i)

theorem GoodOn.stable (done : List Slot) : (restartRG .host).Stable (GoodOn done) := by
  rintro s t ⟨h, -⟩ hs i hi hr
  rcases h.ready i hr with heq | hgood
  · rw [FrameRing.state, heq] at hr
    obtain ⟨p, hp, hfill⟩ := hs i hi hr
    exact ⟨p, h.published hp, heq ▸ hfill⟩
  · exact hgood

/-- A slot that has been freed is good, and stays so. -/
theorem freeSlots_triple (l done : List Slot) :
    Triple restartHost (restartRG .host) (GoodOn done) (freeSlots l)
      fun _ ↦ GoodOn (l.reverse ++ done) := by
  induction l generalizing done with
  | nil => exact Triple.ret (GoodOn.stable done) fun _ h ↦ h
  | cons i l ih =>
      rw [List.reverse_cons, List.append_assoc, List.singleton_append]
      refine Triple.act (GoodOn.stable done) (fun _ ↦ GoodOn (i :: done)) ?_ fun _ ↦ ih (i :: done)
      intro s hs hA w r u hu
      obtain ⟨hguar, hothers⟩ := hs.2.store hu (i := i) (.inl rfl)
      refine ⟨hguar, fun j hj hr ↦ ?_⟩
      by_cases hji : j = i
      · subst hji
        cases hu
        simp [hostHandler, RingOp.exec, FrameRing.state] at hr
      · rw [FrameRing.state, hothers j hji] at hr
        rw [hothers j hji, hguar.1.published]
        exact hA j ((List.mem_cons.1 hj).resolve_left hji) hr

end Constructor

/-! ## Runs -/

section Runs

variable {s : Restart}

/-- A program of the reader, as a program of a host process. -/
theorem liftRing_reader {α : Type} {p : RingProg α} {Q : α → Shared → Prop} (hp : p.Uses HostOp)
    (h : Safe hostExec readerRG Q p s.shared) :
    Safe restartHost (restartRG .host) (fun a t ↦ Q a t.shared) (liftRing p) s := by
  refine Safe.lift (F := fun s u ↦ u.stored = s.stored ∧ u.clobbered = s.clobbered) hp ?_ ?_ ?_ h
  · intro β o ho w s r u hu
    cases hu
    have hclobbers : s.clobbers β o = false := by
      cases o <;> first | exact ho.elim | rfl
    exact ⟨rfl, rfl, by rw [hclobbers, Bool.or_false]⟩
  · exact fun _ _ h ↦ h.1
  · rintro s t hs hkeeps ⟨hstored, hclobbered⟩
    apply hs.2.host
    · refine ⟨fun i f ↦ .inl ?_, fun _ i _ n _ ↦ ?_, hkeeps.driverOwns, hkeeps.current,
        hkeeps.published, hstored, fun h ↦ hclobbered ▸ h⟩
      · rw [hkeeps.ring.field]
      · rw [hkeeps.payload]
    · intro i hi
      rcases hkeeps.ring.state i with h | h | ⟨h, -⟩
      · exact .inl h.symm
      · exact .inr h
      · exact absurd h hi
    · exact hkeeps.returned

theorem allGood_stable : (restartRG .host).Stable fun s ↦ AllGood s.shared :=
  fun s t h hs ↦ AllGood.stable s.shared t.shared h.1 hs

/-- Where the constructor ends, all slots are good. -/
theorem frameRingHost_triple (order : List RingWord) :
    Triple restartHost (restartRG .host) (fun _ ↦ True) (frameRingHost order)
      fun _ s ↦ AllGood s.shared := by
  refine Triple.bind _ (memset_triple order) fun _ ↦ Triple.bind _ (writeHeaders_triple setupOrder)
    fun _ ↦ Triple.bind (fun _ s ↦ AllGood s.shared) ?_ fun _ ↦ ?_
  · refine (freeSlots_triple slotIndices []).conseq (fun s _ i hi ↦ ?_) fun _ s h i ↦ ?_
    · cases hi
    · exact h i (by simp)
  · refine Triple.act allGood_stable (fun _ s ↦ AllGood s.shared) ?_ fun _ s hs ↦ ?_
    · intro s hs hA w r u hu
      obtain ⟨hguar, hslots, hlog⟩ := hs.2.setup hu
      refine ⟨hguar, fun i hi ↦ ?_⟩
      rw [FrameRing.state, hslots] at hi
      rw [hslots, hlog]
      exact hA i hi
    · have huses := (isValidFrameRingHeader_uses headerOrder).mono fun _ _ ↦ RingOp.IsRead.hostOp
      exact liftRing_reader huses (keeps_allGood huses s.shared hs)

/-- A process that is killed has kept the contract up to there. -/
theorem cutShort_safe {α : Type} {p : RestartProg α} {Q : α → Restart → Prop}
    (hQ : ∀ a, (restartRG .host).Stable (Q a)) (h : Safe restartHost (restartRG .host) Q p s)
    (killed : Option Nat) :
    Safe restartHost (restartRG .host) (fun o t ↦ ∀ a, o = some a → Q a t)
      (cutShort killed p) s := by
  cases killed with
  | some n => exact h.upTo n
  | none =>
      refine (h.mono ?_).bind
      rintro a t ht u hu _ ⟨⟩
      exact hQ a t u hu ht

/-- Recording what a call has returned. -/
theorem CallDone.leave {x : HostResult × FrameRingReader} (h : CallDone x s.shared) (hs : s.Inv) :
    (restartRG .host).guar s { s with shared := hostLeave x.1 s.shared } ∧
      AllGood (hostLeave x.1 s.shared) := by
  obtain ⟨hgood, hgenuine⟩ := h
  have hring : (hostLeave x.1 s.shared).ring = s.shared.ring := by
    rcases x with ⟨_ | _, r⟩ <;> rfl
  have hfields := LeavesFields.leave x.1 s.shared
  have howns : (hostLeave x.1 s.shared).log.driverOwns = s.shared.log.driverOwns := by
    rcases x with ⟨(_ | _ | _ | _) | _, r⟩ <;> rfl
  refine ⟨⟨⟨fun i f ↦ .inl ?_, fun _ i _ n _ ↦ ?_, howns, hfields.current, hfields.published,
      rfl, id⟩,
    fun hclobbered ↦ ⟨fun i hi ↦ ?_, fun f hf ↦ ?_, hclobbered⟩⟩, fun i hi ↦ ?_⟩
  · rw [hring]
  · rw [hring]
  · rw [howns] at hi
    rw [hring]
    exact hs.owned i hi
  · rw [hfields.published]
    rcases x with ⟨(_ | _ | _ | g) | _, r⟩
    · exact hs.returned f hf
    · exact hs.returned f hf
    · exact hs.returned f hf
    · rcases List.mem_append.1 hf with hf | hf
      · exact hs.returned f hf
      · rw [List.mem_singleton.1 hf]
        exact hgenuine _ rfl g rfl
    · exact hs.returned f hf
  · rw [hring] at hi ⊢
    rw [hfields.published]
    exact hgood i hi

/-- Between two calls of a host that has been constructed, all slots are good. -/
def Constructed (r : Option FrameRingReader) (s : Restart) : Prop := r ≠ none → AllGood s.shared

theorem Constructed.stable (r : Option FrameRingReader) :
    (restartRG .host).Stable (Constructed r) :=
  fun s t h hs hr ↦ allGood_stable s t h (hs hr)

/-- What a host process does keeps its contract. -/
theorem hostLifeBody_safe (life : HostLife) (r : Option FrameRingReader) (hr : Constructed r s) :
    Safe restartHost (restartRG .host)
      (fun x t ↦ (restartRG .host).guar t (restartSystem.leave .host x.1 t) ∧
        Constructed x.2 (restartSystem.leave .host x.1 t)) (hostLifeBody life r) s := by
  have hnone (t : Restart) (ht : t.Inv) (r' : Option FrameRingReader) (hr' : Constructed r' t) :
      (restartRG .host).guar t (restartSystem.leave .host none t) ∧
        Constructed r' (restartSystem.leave .host none t) :=
    ⟨⟨.refl t, fun _ ↦ ht⟩, hr'⟩
  have hdead (t : Restart) : Constructed none t := fun h ↦ absurd rfl h
  cases life with
  | construct order killed =>
      have hconstruct := cutShort_safe (fun _ ↦ allGood_stable)
        (frameRingHost_triple order s trivial) killed
      refine (hconstruct.mono ?_).bind
      intro o t ht
      show Safe _ _ _ (if o = some true then _ else _) _
      split
      · next ho =>
        intro u hu
        exact hnone u hu.2 _ fun _ ↦ allGood_stable t u hu (ht true ho)
      · exact fun u hu ↦ hnone u hu.2 _ (hdead u)
  | call call killed =>
      cases r with
      | none => exact fun t ht ↦ hnone t ht.2 _ (hdead t)
      | some r =>
          have hstable (x : HostResult × FrameRingReader) :
              (restartRG .host).Stable fun t ↦ CallDone x t.shared := fun t u h ht ↦
            ⟨allGood_stable t u h ht.1,
              fun outcome hx ↦ Genuine.stable outcome _ _ h.1 (ht.2 outcome hx)⟩
          have hcall := cutShort_safe hstable (liftRing_reader (hostBody_uses r call)
            (hostBody_restart r call s.shared (hr (Option.some_ne_none r)))) killed
          refine (hcall.mono ?_).bind
          intro o t ht
          cases o with
          | none => exact fun u hu ↦ hnone u hu.2 _ (hdead u)
          | some x =>
              intro u hu
              have hdone := (hstable x t u hu (ht x rfl)).leave hu.2
              exact ⟨hdone.1, fun _ ↦ hdone.2⟩

theorem driverEnter_keeps (call : DriverCall) (m : SwapChainProcessor) (hs : s.Inv) :
    (restartRG .driver).guar s { s with shared := driverEnter call m s.shared } := by
  cases call with
  | assignSwapChain => exact ⟨.refl _, hs⟩
  | publish frame env => exact ⟨⟨fun _ _ ↦ rfl, fun _ _ ↦ .inl rfl, fun _ h ↦ h, rfl⟩,
      hs.owned, hs.returned, hs.intact⟩

/-- A call of the driver keeps its contract. -/
theorem driverBody_restart (call : DriverCall) (m : SwapChainProcessor) (hcall : call.EventSet)
    (hs : OwnsNone s) :
    Safe (restartSystem.exec .driver) (restartRG .driver)
      (fun _ t ↦ (restartRG .driver).guar t t ∧ OwnsNone t) (liftRing (driverBody call m))
      { s with shared := driverEnter call m s.shared } := by
  have hbody : Safe restartDriver (restartRG .driver)
      (fun (_ : DriverResult × SwapChainProcessor) t ↦ (restartRG .driver).guar t t ∧ OwnsNone t)
      (driverBody call m) { s with shared := driverEnter call m s.shared } := by
    cases call with
    | assignSwapChain =>
        exact fun t ht ↦ ⟨⟨.refl _, ht.2⟩, OwnsNone.stable s t ht hs⟩
    | publish frame env =>
        have hbefore : Preparing (publication m frame env)
            { s with shared := driverEnter (.publish frame env) m s.shared } := ⟨hs, rfl⟩
        refine (((restartPublish m frame env hcall).triple _ hbefore).mono ?_).bind
        exact fun r t ht u hu ↦ ⟨⟨.refl _, hu.2⟩, OwnsNone.stable t u hu ht⟩
  refine Safe.lift (ι := fun _ ↦ Sum.inl) (π := id) (F := fun _ _ ↦ True) (Prog.uses_true _)
    ?_ ?_ ?_ hbody
  · exact fun _ _ _ _ _ _ _ h ↦ ⟨h, trivial⟩
  · exact fun _ _ h ↦ h
  · exact fun _ _ _ h _ ↦ h

/-- The proof outline of the driver and the hosts. -/
def restartOutline : Outline restartSystem keepsStored where
  inv := Restart.Inv
  rg := restartRG
  idle
    | .driver => fun _ ↦ OwnsNone
    | .host => Constructed
  inv_next {c i m c'} ha _ hG := by
    cases i
    · exact hG.2
    · exact hG.2 ha.2
  rely_refl i s h := by
    cases i
    · exact ⟨HostKeeps.refl s, h⟩
    · exact ⟨DriverKeeps.refl _, h⟩
  compat {i j s t} hij _ ht h := by
    cases i <;> cases j <;> first | exact absurd rfl hij | skip
    · exact ⟨h.1, ht⟩
    · exact h
  idle_stable i l := by
    cases i
    · exact OwnsNone.stable
    · exact Constructed.stable l
  enter_ok {c i call c' l} hinv ha hidle := by
    cases i with
    | driver => exact ⟨driverEnter_keeps call l hinv, driverBody_restart call l ha.1 hidle⟩
    | host => exact ⟨⟨.refl _, fun _ ↦ hinv⟩, hostLifeBody_safe call l hidle⟩

/-- **No restart shows a torn frame**, in a run in which no host ever changes a
payload byte that the publish under way has stored: whatever the ring was like
before, and wherever the hosts were killed, every frame that `TryReadLatest` has
returned shows what one and the same publish wrote. -/
theorem restart_not_torn {ring : FrameRing} {m : SwapChainProcessor} {c : RestartConfig}
    (hrun : Run keepsStored (RestartConfig.initial ring m) c) :
    ∀ f ∈ c.shared.shared.log.returned, ∃ p ∈ c.shared.shared.log.published, p.Shows f.2 := by
  have hinitial : restartOutline.Ok (RestartConfig.initial ring m) := by
    refine ⟨⟨fun i hi ↦ ?_, fun f hf ↦ ?_, rfl⟩, fun i ↦ ?_⟩
    · cases hi
    · cases hf
    · cases i
      · exact fun _ ↦ rfl
      · exact fun h ↦ absurd rfl h
  exact (restartOutline.ok_run hinitial hrun).inv.returned

end Runs

/-! ## A host alone -/

instance (c : RestartConfig) (i : Side) (m : restartSystem.Move i) (c' : RestartConfig) :
    Decidable (eventSet c i m c') :=
  match i, m with
  | .driver, .enter call => (inferInstance : DecidablePred DriverCall.EventSet) call
  | .driver, .act _ | .driver, .leave | .host, _ => .isTrue trivial

instance (p : Publication) (f : CapturedFrame) : Decidable (p.Shows f) :=
  inferInstanceAs (Decidable (_ ∧ _ ∧ _ ∧ _ ∧ _ ∧ _))

/-- The word is clear, and the record does not notice that it is cleared. -/
def RingWord.IsClear : RingWord → Restart → Prop
  | .header f, s => s.shared.ring.header f = 0
  | .telemetry t, s => s.shared.ring.telemetry t = 0
  | .state i, s => s.shared.ring.state i = .free ∧ s.shared.log.readerOwns i = false
  | .field i f, s => (s.shared.ring.slots i).field f = 0
  | .byte i n, s => (s.shared.ring.slots i).payload n = 0

theorem FrameRing.setSlot_self {ring : FrameRing} {i : Slot} {s : FrameSlot}
    (h : ring.slots i = s) : ring.setSlot i s = ring := by
  subst h
  simp [FrameRing.setSlot]

/-- Clearing what is clear changes nothing. -/
theorem RingWord.eval_clear {word : RingWord} {s : Restart} (h : word.IsClear s) :
    word.clear.eval restartHostHandler s = ((), s) := by
  cases word with
  | header f =>
      have hupdate : Function.update s.shared.ring.header f 0 = s.shared.ring.header :=
        Function.update_eq_self_iff.2 h.symm
      simp [RingWord.clear, Prog.perform, restartHostHandler, SetupOp.exec, hupdate]
  | telemetry t =>
      have hupdate : Function.update s.shared.ring.telemetry t 0 = s.shared.ring.telemetry :=
        Function.update_eq_self_iff.2 h.symm
      simp [RingWord.clear, Prog.perform, restartHostHandler, SetupOp.exec, hupdate]
  | state i =>
      have hslot : s.shared.ring.setState i .free = s.shared.ring := by
        apply FrameRing.setSlot_self
        rw [← h.1]
      have howns : Function.update s.shared.log.readerOwns i false = s.shared.log.readerOwns :=
        Function.update_eq_self_iff.2 h.2.symm
      simp [RingWord.clear, liftRing, Prog.mapOp, Prog.perform, restartHostHandler, hostHandler,
        RingOp.exec, Log.readerStep, Restart.clobbers, hslot, howns]
  | field i f =>
      have hupdate : Function.update (s.shared.ring.slots i).field f 0 =
          (s.shared.ring.slots i).field := Function.update_eq_self_iff.2 h.symm
      have hslot := FrameRing.setSlot_self (s := s.shared.ring.slots i) rfl
      simp [RingWord.clear, liftRing, Prog.mapOp, Prog.perform, restartHostHandler, hostHandler,
        RingOp.exec, Log.readerStep, Restart.clobbers, hupdate, hslot]
  | byte i n =>
      have hupdate : Function.update (s.shared.ring.slots i).payload n 0 =
          (s.shared.ring.slots i).payload := Function.update_eq_self_iff.2 h.symm
      have hzero : (s.shared.ring.slots i).payload n = 0 := h
      have hslot := FrameRing.setSlot_self (s := s.shared.ring.slots i) rfl
      simp [RingWord.clear, liftRing, Prog.mapOp, Prog.perform, restartHostHandler, hostHandler,
        RingOp.exec, Log.readerStep, Restart.clobbers, hupdate, hslot, hzero]

theorem eval_memset {words : List RingWord} {s : Restart} (h : ∀ word ∈ words, word.IsClear s) :
    (memset words).eval restartHostHandler s = ((), s) := by
  induction words with
  | nil => rfl
  | cons word rest ih =>
      have hfirst := RingWord.eval_clear (h word List.mem_cons_self)
      have hrest := ih fun w hw ↦ h w (List.mem_cons_of_mem _ hw)
      show (word.clear.bind fun _ ↦ memset rest).eval _ s = _
      rw [Prog.eval_bind, hfirst]
      exact hrest

theorem memset_append (a b : List RingWord) :
    memset (a ++ b) = (memset a).bind fun _ ↦ memset b := by
  induction a with
  | nil => rfl
  | cons word a ih =>
      show word.clear.bind (fun _ ↦ memset (a ++ b)) = _
      rw [ih]
      exact (Prog.bind_assoc _ _ _).symm

/-- What is left of the constructor after the `memset`. -/
def afterMemset : RestartProg (Option HostResult × Option FrameRingReader) := do
  writeHeaders setupOrder
  freeSlots slotIndices
  setup (.writeHeader .ready (headerValue .ready))
  if some (← liftRing (isValidFrameRingHeader headerOrder)) = some true then
    return (none, some {})
  else return (none, none)

theorem hostLifeBody_construct (order : List RingWord) (r : Option FrameRingReader) :
    hostLifeBody (.construct order none) r = (memset order).bind fun _ ↦ afterMemset := by
  simp only [hostLifeBody, cutShort, frameRingHost, afterMemset, Prog.bind_eq, Prog.pure_eq,
    Prog.bind_assoc, Prog.ret_bind]

/-! ## Runs that restart -/

/-- Where the two sides stand. -/
def restartConfig (s : Restart)
    (driver : Status SwapChainProcessor (restartSystem.Residual .driver))
    (host : Status (Option FrameRingReader) (restartSystem.Residual .host)) : RestartConfig where
  shared := s
  status
    | .driver => driver
    | .host => host

section Schedules

variable {s : Restart} {driver : Status SwapChainProcessor (restartSystem.Residual .driver)}
  {host : Status (Option FrameRingReader) (restartSystem.Residual .host)} {α : Type}

theorem restartConfig_host (t : Restart)
    (host' : Status (Option FrameRingReader) (restartSystem.Residual .host)) :
    (restartConfig s driver host).set .host t host' = restartConfig t driver host' := by
  simp only [restartConfig, Config.set]
  congr 1
  funext i
  cases i <;> rfl

theorem restartConfig_driver (t : Restart)
    (driver' : Status SwapChainProcessor (restartSystem.Residual .driver)) :
    (restartConfig s driver host).set .driver t driver' = restartConfig t driver' host := by
  simp only [restartConfig, Config.set]
  congr 1
  funext i
  cases i <;> rfl

/-- The host performs the first part of its call. -/
theorem run_host {p : RestartProg α} {k : α → restartSystem.Residual .host} {a : α} {t : Restart}
    (ht : p.eval restartHostHandler s = (a, t)) :
    Run eventSet (restartConfig s driver (.busy (p.bind k)))
      (restartConfig t driver (.busy (k a))) := by
  rw [← restartConfig_host t (.busy (k a))]
  apply Run.alone (P := fun _ _ ↦ True) () _ (fun _ _ ↦ trivial) p.uses_true rfl ht
  exact fun _ _ _ _ ↦ rfl

/-- The driver performs `n` operations of its call. -/
theorem run_driver (n : Nat) (p : RingProg (DriverResult × SwapChainProcessor)) :
    Run eventSet (restartConfig s (.busy (liftRing p)) host)
      (restartConfig (p.steps restartDriverHandler n s).2
        (.busy (liftRing (p.steps restartDriverHandler n s).1)) host) := by
  induction n generalizing s p with
  | zero => exact .refl
  | succ n ih =>
      cases p with
      | ret a => exact .refl
      | act o k =>
          have hnext : (restartConfig s (.busy (liftRing (.act o k))) host).next .driver (.act ()) =
              some (restartConfig (restartDriverHandler _ o s).2
                (.busy (liftRing (k (restartDriverHandler _ o s).1))) host) :=
            congrArg some (restartConfig_driver _ _)
          exact Relation.ReflTransGen.head ⟨.driver, .act (), hnext, trivial⟩ (ih _)

end Schedules

/-! ## A restart in the middle of a publish -/

/-- A word behind the first payload byte of the ring. -/
def RingWord.IsBehind : RingWord → Prop
  | .header _ | .telemetry _ => False
  | .state i | .field i _ => i = 1
  | .byte i n => i = 1 ∨ 0 < n

theorem slotWords_behind (word : RingWord) (h : word ∈ slotWords 1) : word.IsBehind := by
  rw [slotWords, List.cons_append, List.mem_cons, List.mem_append] at h
  rcases h with rfl | h | h
  · rfl
  · obtain ⟨f, -, rfl⟩ := List.mem_map.1 h
    rfl
  · obtain ⟨n, -, rfl⟩ := List.mem_map.1 h
    exact .inl rfl

theorem range_of_pos {n : Nat} (h : 0 < n) :
    ∃ rest, List.range n = 0 :: rest ∧ ∀ k ∈ rest, 0 < k := by
  obtain ⟨k, rfl⟩ : ∃ k, n = k + 1 := ⟨n - 1, by omega⟩
  refine ⟨(List.range k).map Nat.succ, List.range_succ_eq_map, fun m hm ↦ ?_⟩
  obtain ⟨j, -, rfl⟩ := List.mem_map.1 hm
  exact Nat.succ_pos j

theorem ringWords_split : ∃ before after,
    ringWords = headerOrder.map .header ++ (before ++ .byte 0 0 :: after) ∧
      ∀ word ∈ after, word.IsBehind := by
  obtain ⟨rest, hrest, hpos⟩ := range_of_pos (show 0 < kMaxPayloadBytes by decide)
  have hslots : slotIndices = [0, 1] := rfl
  have hzero : slotWords 0 =
      .state 0 :: fieldOrder.map (.field 0) ++ .byte 0 0 :: rest.map (.byte 0) := by
    rw [slotWords, hrest, List.map_cons]
  refine ⟨[Telemetry.framesPublished, .copyTotalUs, .mapTotalUs, .convertTotalUs].map .telemetry ++
    .state 0 :: fieldOrder.map (.field 0), rest.map (.byte 0) ++ slotWords 1, ?_, ?_⟩
  · rw [ringWords, hslots, List.flatMap_cons, List.flatMap_cons, List.flatMap_nil, hzero]
    generalize slotWords 1 = words
    simp only [List.append_assoc, List.cons_append, List.append_nil]
  · intro word hword
    rcases List.mem_append.1 hword with h | h
    · obtain ⟨n, hn, rfl⟩ := List.mem_map.1 h
      exact .inr (hpos n hn)
    · exact slotWords_behind word h

/-- The state after a `memset` of an initialised ring. -/
def Restart.cleared : Restart := { shared := ⟨{ header := fun _ ↦ 0 }, {}⟩ }

theorem eval_memset_headers : (memset (headerOrder.map .header)).eval restartHostHandler
    { shared := ⟨FrameRing.initial, {}⟩ } = ((), Restart.cleared) := by
  simp only [headerOrder, List.map_cons, List.map_nil, memset, RingWord.clear, Prog.perform,
    Prog.bind_eq, Prog.pure_eq, Prog.act_bind, Prog.ret_bind, Prog.eval_act, Prog.eval_ret,
    restartHostHandler, SetupOp.exec, Restart.cleared, FrameRing.initial]
  congr 4
  funext f
  cases f <;> rfl

theorem isClear_cleared (word : RingWord) : word.IsClear Restart.cleared := by
  cases word with
  | state i => exact ⟨rfl, rfl⟩
  | _ => rfl

theorem eval_memset_ringWords : (memset ringWords).eval restartHostHandler
    { shared := ⟨FrameRing.initial, {}⟩ } = ((), Restart.cleared) := by
  obtain ⟨before, after, hwords, -⟩ := ringWords_split
  rw [hwords, memset_append, Prog.eval_bind, eval_memset_headers]
  exact eval_memset fun word _ ↦ isClear_cleared word

theorem initial_eq : RestartConfig.initial FrameRing.initial {} =
    restartConfig { shared := ⟨FrameRing.initial, {}⟩ } (.idle ({} : SwapChainProcessor))
      (.idle (none : Option FrameRingReader)) := by
  simp only [RestartConfig.initial, restartConfig]
  congr

/-- A host starts on an initialised ring. -/
theorem run_construct : Run eventSet (RestartConfig.initial FrameRing.initial {})
    (restartConfig { shared := ⟨FrameRing.initial, {}⟩ } (.idle ({} : SwapChainProcessor))
      (.busy (hostLifeBody (.construct ringWords none) none))) := by
  rw [initial_eq]
  exact .single ⟨.host, .enter (.construct ringWords none),
    congrArg some (restartConfig_host _ _), trivial⟩

/-- What was changed once stays recorded. -/
theorem clobbered_of_step {c c' : RestartConfig} (hs : Step eventSet c c')
    (h : c'.shared.clobbered = false) : c.shared.clobbered = false := by
  obtain ⟨i, m, hm, -⟩ := hs
  cases m with
  | enter call =>
      obtain ⟨l, -, rfl⟩ := Config.next_enter hm
      cases i <;> exact h
  | act w =>
      obtain ⟨β, o, k, r, s, -, he, rfl⟩ := Config.next_act hm
      cases i with
      | driver =>
          cases o with
          | inl o =>
              cases he
              exact h
          | inr o => cases he
      | host =>
          cases o with
          | inl o =>
              cases he
              exact (Bool.or_eq_false_iff.1 h).1
          | inr o =>
              cases he
              exact h
  | leave =>
      obtain ⟨r, l, -, rfl⟩ := Config.next_leave hm
      cases i with
      | driver => exact h
      | host => cases r <;> exact h

theorem keepsStored_of_run {c c' : RestartConfig} (hr : Run eventSet c c')
    (h : c'.shared.clobbered = false) : Run keepsStored c c' := by
  induction hr with
  | refl => exact .refl
  | tail _ hs ih =>
      obtain ⟨i, m, hm, ha⟩ := hs
      exact (ih (clobbered_of_step ⟨i, m, hm, ha⟩ h)).tail ⟨i, m, hm, ha, h⟩

/-- The host sets up the rest of the ring, the driver finishes its publish, and
the host reads. -/
def publishAndRead : restartSystem.Schedule :=
  .replicate 18 ⟨.host, .act ()⟩ ++ [⟨.host, .leave⟩] ++
    .replicate 10 ⟨.driver, .act ()⟩ ++ [⟨.driver, .leave⟩] ++
    [⟨.host, .enter (.call .tryReadLatest none)⟩] ++
    .replicate 34 ⟨.host, .act ()⟩ ++ [⟨.host, .leave⟩]

/-- The host has cleared the ring, and the driver begins a publish before the state
words are set. -/
def publishAcrossRestart : restartSystem.Schedule :=
  [⟨.driver, .enter smallPublish⟩] ++ .replicate 9 ⟨.driver, .act ()⟩ ++ publishAndRead

theorem restart_not_torn_overlap : ∃ c : RestartConfig,
    c.shared.shared.log.returned.length = 1 ∧
      ∀ f ∈ c.shared.shared.log.returned, ∃ p ∈ c.shared.shared.log.published, p.Shows f.2 := by
  have hstart := run_construct
  rw [hostLifeBody_construct] at hstart
  have hcleared := hstart.trans (run_host eval_memset_ringWords)
  have hlast : ((restartConfig Restart.cleared (.idle ({} : SwapChainProcessor))
      (.busy afterMemset)).follow eventSet publishAcrossRestart).any
        (fun c ↦ c.shared.shared.log.returned.length = 1 ∧ c.shared.clobbered = false) = true := by
    decide +kernel
  obtain ⟨c, hfollow, hc⟩ := (Option.any_eq_true ..).1 hlast
  obtain ⟨hlength, hkept⟩ := of_decide_eq_true hc
  have hrun := hcleared.trans (Config.run_of_follow hfollow)
  exact ⟨c, hlength, restart_not_torn (keepsStored_of_run hrun hkept)⟩

/-- A publish under way on the cleared ring: it has claimed the first slot and has
stored the fields and the first byte of the payload. -/
def publishUnderWay : RingProg (DriverResult × SwapChainProcessor) × Restart :=
  (driverBody smallPublish {}).steps restartDriverHandler 9
    { Restart.cleared with shared := driverEnter smallPublish {} Restart.cleared.shared }

/-- The state in which the host has cleared this byte. -/
def Restart.wiped : Restart :=
  (restartHostHandler _ (.inl (.writeByte 0 0 0)) publishUnderWay.2).2

theorem wiped_payload :
    (Restart.wiped.shared.ring.slots 0).payload =
      Function.update (Function.update (fun _ ↦ 0) 0 16) 0 0 := by
  rfl

theorem RingWord.IsBehind.isClear {word : RingWord} (h : word.IsBehind) :
    word.IsClear Restart.wiped := by
  cases word with
  | header f => cases h
  | telemetry t => cases h
  | state i =>
      cases (h : i = 1)
      exact ⟨rfl, rfl⟩
  | field i f =>
      cases (h : i = 1)
      rfl
  | byte i n =>
      obtain rfl | rfl := Fin.exists_fin_two.1 ⟨i, rfl⟩
      · show (Restart.wiped.shared.ring.slots 0).payload n = 0
        have hn : n ≠ 0 := Nat.pos_iff_ne_zero.1 (h.resolve_left (by decide))
        rw [wiped_payload]
        simp [hn]
      · rfl

/-- Some frame that was returned shows no publish. -/
def Restart.Torn (s : Restart) : Prop :=
  ∃ f ∈ s.shared.log.returned, ∀ p ∈ s.shared.log.published, ¬p.Shows f.2

instance (s : Restart) : Decidable s.Torn := inferInstanceAs (Decidable (∃ f ∈ _, _))

/-- **A host that restarts in the middle of a publish can return a frame of which
it has cleared a part.** -/
theorem torn_after_restart :
    ¬∀ (ring : FrameRing) (m : SwapChainProcessor) (c : RestartConfig),
      Run eventSet (RestartConfig.initial ring m) c →
        ∀ f ∈ c.shared.shared.log.returned, ∃ p ∈ c.shared.shared.log.published, p.Shows f.2 := by
  intro hall
  obtain ⟨before, after, hwords, hafter⟩ := ringWords_split
  -- the host starts, and clears everything up to the payload of the first slot
  have hstart := run_construct
  rw [hostLifeBody_construct, hwords, memset_append, memset_append, Prog.bind_assoc] at hstart
  have hcleared := hstart.trans (run_host eval_memset_headers)
  rw [Prog.bind_assoc] at hcleared
  replace hcleared := hcleared.trans
    (run_host (eval_memset fun word _ ↦ isClear_cleared word))
  -- the driver publishes, as far as the first byte of the payload
  have hentered := hcleared.tail
    ⟨.driver, .enter smallPublish, congrArg some (restartConfig_driver _ _), rfl⟩
  have hwriting := hentered.trans (run_driver 9 (driverBody smallPublish {}))
  -- the host clears this byte and the rest
  have hwiped : (memset (.byte 0 0 :: after)).eval restartHostHandler publishUnderWay.2 =
      ((), Restart.wiped) := by
    show (memset after).eval restartHostHandler Restart.wiped = _
    exact eval_memset fun word hword ↦ (hafter word hword).isClear
  have hready := hwriting.trans (run_host hwiped)
  -- both finish, and the host reads
  have hlast : ((restartConfig Restart.wiped (.busy (liftRing publishUnderWay.1))
      (.busy afterMemset)).follow eventSet publishAndRead).any (decide ·.shared.Torn) = true := by
    decide +kernel
  obtain ⟨c, hfollow, htorn⟩ := (Option.any_eq_true ..).1 hlast
  obtain ⟨f, hf, htorn⟩ := of_decide_eq_true htorn
  obtain ⟨p, hp, hshows⟩ :=
    hall _ _ _ (hready.trans (Config.run_of_follow hfollow)) f hf
  exact htorn p hp hshows

end SecondScreen.Ring
