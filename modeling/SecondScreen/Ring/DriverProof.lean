import SecondScreen.Ring.Protocol
import SecondScreen.Ring.PublishOutline

/-!
# The driver keeps its contract

`publish_triple` is the proof of `PublishBgraFrame` against any host: each of
its operations is one of the driver's moves, and a publish that succeeds appends
exactly what it was to write to the list of publications.

`DriverStep` says once what an operation of the driver can do, and
`DriverStep.guar` derives from it that the operation keeps the contract.  The
assertion of the publish is `Writing`: from the claim on, the driver owns one
slot, whose first fields and first bytes are already what is to be published.
It is stable because the host never writes a slot's contents and never touches
the state of a slot that the driver owns.
-/

namespace SecondScreen.Ring

open SecondScreen.Conc

variable {a : Assumption} {s u : Shared} {i : Slot}

/-! ## One operation at a time -/

/-- What an operation of the driver on slot `i` can do. -/
structure DriverStep (a : Assumption) (i : Slot) (s u : Shared) : Prop where
  others : ∀ j, j ≠ i → u.ring.slots j = s.ring.slots j
  not_reading : s.ring.state i ≠ .reading ∧ u.ring.state i ≠ .reading
  owns_others : ∀ j, j ≠ i → u.log.driverOwns j = s.log.driverOwns j
  owns : u.log.driverOwns i = true → u.ring.state i = .writing
  log : u.log = { s.log with
    driverOwns := u.log.driverOwns, published := u.log.published, origin := u.log.origin }
  silent : u.ring.state i ≠ .ready → u.log.published = s.log.published
  /-- What is made ready is what was to be published, in full, and newer than
  everything before. -/
  made_ready : u.ring.state i = .ready →
    u.log.published = s.log.published ++ [s.log.current] ∧
      s.log.current.Fills (u.ring.slots i) ∧
      (a.single → ∀ p ∈ s.log.published, p.Before s.log.current)
  newest : a.succeeding → u.log.driverOwns i = true ∨ u.ring.state i = .ready

namespace DriverStep

theorem published_prefix (h : DriverStep a i s u) : s.log.published <+: u.log.published := by
  by_cases hr : u.ring.state i = .ready
  · rw [(h.made_ready hr).1]
    exact List.prefix_append _ _
  · exact (h.silent hr) ▸ List.prefix_refl _

theorem state_of_ne (h : DriverStep a i s u) {j : Slot} (hj : j ≠ i) :
    u.ring.state j = s.ring.state j := by
  simp [FrameRing.state, h.others j hj]

theorem returned_eq (h : DriverStep a i s u) : u.log.returned = s.log.returned :=
  (congrArg Log.returned h.log :)

/-- After an operation of a driver that does not give up, the newest publication
is in a ready slot or about to be superseded. -/
theorem newestHeld (h : DriverStep a i s u) (ha : a.succeeding) : NewestHeld u := by
  rcases h.newest ha with ho | hr
  · exact .inl ⟨i, ho⟩
  · obtain ⟨hp, hf, -⟩ := h.made_ready hr
    exact .inr ⟨i, s.log.current, hr, by simp [hp], by rw [FrameRing.sequence, hf.1]⟩

/-- The driver's operations are moves of the driver. -/
theorem moves (h : DriverStep a i s u) : DriverMoves a s u where
  reading j hj := h.others j fun hji ↦ h.not_reading.1 (hji ▸ hj)
  not_reading j hj := by
    have hji : j ≠ i := fun hji ↦ h.not_reading.2 (hji ▸ hj)
    rwa [h.state_of_ne hji] at hj
  readerOwns := (congrArg Log.readerOwns h.log :)
  claimed := (congrArg Log.claimed h.log :)
  returned := h.returned_eq
  rejected := (congrArg Log.rejected h.log :)
  session := (congrArg Log.session h.log :)
  stalePurges := (congrArg Log.stalePurges h.log :)
  published := h.published_prefix
  ready j hj := by
    by_cases hji : j = i
    · subst hji
      obtain ⟨hp, hf, -⟩ := h.made_ready hj
      exact .inr ⟨s.log.current, by simp [hp], hf⟩
    · exact .inl (h.others j hji)
  taken ha _ _ := .inr (h.newestHeld ha)
  newest ha _ := h.newestHeld ha

/-- What is made ready is newer than what the other slots hold. -/
theorem sequence_lt (h : DriverStep a i s u) (hs : Inv a s) (ha : a.single)
    (hr : u.ring.state i = .ready) {j : Slot} (hji : j ≠ i)
    (hj : u.ring.state j = .ready ∨ u.ring.state j = .reading) :
    u.ring.sequence j < u.ring.sequence i := by
  obtain ⟨-, hfill, hnew⟩ := h.made_ready hr
  rw [h.state_of_ne hji] at hj
  obtain ⟨p, hp, hf⟩ := hs.content j hj
  have hlt := (hnew ha p hp).1
  rwa [FrameRing.sequence, FrameRing.sequence, h.others j hji, hfill.1, hf.1]

/-- The driver's operations keep the invariant. -/
theorem inv (h : DriverStep a i s u) (hs : Inv a s) : Inv a u where
  driverOwns j hj := by
    by_cases hji : j = i
    · subst hji; exact h.owns hj
    · rw [h.owns_others j hji] at hj
      rw [h.state_of_ne hji]
      exact hs.driverOwns j hj
  readerOwns j hj := by
    have hr := hs.readerOwns j ((congrFun (congrArg Log.readerOwns h.log :) j).symm.trans hj)
    rwa [h.state_of_ne fun hji ↦ h.not_reading.1 (hji ▸ hr)]
  content j hj := by
    by_cases hji : j = i
    · subst hji
      obtain ⟨hp, hf, -⟩ := h.made_ready (hj.resolve_right h.not_reading.2)
      exact ⟨s.log.current, by simp [hp], hf⟩
    · rw [h.state_of_ne hji] at hj
      rw [h.others j hji]
      obtain ⟨p, hp, hf⟩ := hs.content j hj
      exact ⟨p, h.published_prefix.subset hp, hf⟩
  returned f hf := by
    obtain ⟨p, hp, hpf⟩ := hs.returned f (h.returned_eq ▸ hf)
    exact ⟨p, h.published_prefix.subset hp, hpf⟩
  sorted ha := by
    by_cases hr : u.ring.state i = .ready
    · obtain ⟨hp, -, hnew⟩ := h.made_ready hr
      rw [hp]
      refine List.pairwise_append.2 ⟨hs.sorted ha, List.pairwise_singleton _ _, ?_⟩
      intro p hp q hq
      rw [List.mem_singleton.1 hq]
      exact hnew ha p hp
    · rw [h.silent hr]
      exact hs.sorted ha
  distinct ha j k hjk hj hk := by
    by_cases hji : j = i
    · subst hji
      exact (h.sequence_lt hs ha (hj.resolve_right h.not_reading.2) hjk.symm hk).ne'
    · by_cases hki : k = i
      · subst hki
        exact (h.sequence_lt hs ha (hk.resolve_right h.not_reading.2) hji hj).ne
      · rw [h.state_of_ne hji] at hj
        rw [h.state_of_ne hki] at hk
        rw [FrameRing.sequence, FrameRing.sequence, h.others j hji, h.others k hki]
        exact hs.distinct ha j k hjk hj hk
  newer ha j hj f hf := by
    rw [h.returned_eq] at hf
    by_cases hji : j = i
    · subst hji
      obtain ⟨-, hfill, hnew⟩ := h.made_ready hj
      obtain ⟨p, hp, hpf, -⟩ := hs.returned f hf
      rw [FrameRing.sequence, hfill.1, ← hpf]
      exact (hnew ha p hp).1
    · rw [h.state_of_ne hji] at hj
      rw [FrameRing.sequence, h.others j hji]
      exact hs.newer ha j hj f hf
  increasing ha := by
    rw [h.returned_eq]
    exact hs.increasing ha

/-- The driver's operations keep its contract. -/
theorem guar (h : DriverStep a i s u) (hs : Inv a s) : (driverRG a).guar s u :=
  ⟨h.moves, h.inv hs⟩

/-- Taking a free or a ready slot. -/
theorem claim (hi : s.ring.state i = .free ∨ s.ring.state i = .ready) :
    DriverStep a i s ⟨s.ring.setState i .writing,
      { s.log with driverOwns := Function.update s.log.driverOwns i true }⟩ where
  others j hj := FrameRing.setState_of_ne hj _
  not_reading := by
    refine ⟨?_, by simp [FrameRing.state]⟩
    rcases hi with hi | hi <;> simp [hi]
  owns_others j hj := Function.update_of_ne hj ..
  owns _ := by simp [FrameRing.state]
  log := rfl
  silent _ := rfl
  made_ready h := by simp [FrameRing.state] at h
  newest _ := .inl (Function.update_self ..)

/-- Writing into a slot that the driver owns, or leaving all slots alone while
it owns one. -/
theorem write (hs : Inv a s) (hi : s.log.driverOwns i = true) {ring : FrameRing}
    (hi' : ring.state i = .writing) (ho : ∀ j, j ≠ i → ring.slots j = s.ring.slots j) :
    DriverStep a i s ⟨ring, s.log⟩ where
  others := ho
  not_reading := ⟨by simp [hs.driverOwns i hi], by simp [hi']⟩
  owns_others _ _ := rfl
  owns _ := hi'
  log := rfl
  silent _ := rfl
  made_ready h := by simp [hi'] at h
  newest _ := .inl hi

/-- Publishing a slot that holds what is to be published. -/
theorem publish (hs : Inv a s) (hi : s.log.driverOwns i = true)
    (hfill : s.log.current.Fills (s.ring.slots i))
    (hnew : a.single → ∀ p ∈ s.log.published, p.Before s.log.current) :
    DriverStep a i s
      ⟨s.ring.setState i .ready, s.log.driverStep _ (.exchange i .ready) s.ring⟩ where
  others j hj := FrameRing.setState_of_ne hj _
  not_reading := ⟨by simp [hs.driverOwns i hi], by simp [FrameRing.state]⟩
  owns_others j hj := Function.update_of_ne hj ..
  owns h := by simp [Log.driverStep] at h
  log := rfl
  silent h := by simp [FrameRing.state] at h
  made_ready _ := ⟨rfl, by simpa [Publication.Fills] using hfill, hnew⟩
  newest _ := .inr (by simp [FrameRing.state])

/-- Giving up a slot, where that is allowed. -/
theorem abandon (hs : Inv a s) (hi : s.log.driverOwns i = true) (ha : ¬a.succeeding) :
    DriverStep a i s ⟨s.ring.setState i .free, s.log.driverStep _ (.exchange i .free) s.ring⟩ where
  others j hj := FrameRing.setState_of_ne hj _
  not_reading := ⟨by simp [hs.driverOwns i hi], by simp [FrameRing.state]⟩
  owns_others j hj := Function.update_of_ne hj ..
  owns h := by simp [Log.driverStep] at h
  log := rfl
  silent _ := rfl
  made_ready h := by simp [FrameRing.state] at h
  newest h := absurd h ha

end DriverStep

/-! ## Assertions -/

/-- Between two publishes: the driver owns nothing, and the processor's counters
are ahead of everything published. -/
structure DriverIdle (a : Assumption) (m : SwapChainProcessor) (s : Shared) : Prop where
  owns : ∀ j, s.log.driverOwns j = false
  ahead : a.single → ∀ p ∈ s.log.published, p.sequence < m.nextSequence ∧ p.frameId < m.nextFrameId

theorem DriverIdle.stable (m : SwapChainProcessor) : (driverRG a).Stable (DriverIdle a m) := by
  rintro s t ⟨h, -⟩ hs
  exact ⟨by rw [h.driverOwns]; exact hs.owns, by rw [h.published]; exact hs.ahead⟩

/-- Before the claim of a slot for the publication `p`. -/
def Claiming (a : Assumption) (m : SwapChainProcessor) (p : Publication) (s : Shared) : Prop :=
  DriverIdle a m s ∧ s.log.current = p

theorem Claiming.stable (m : SwapChainProcessor) (p : Publication) :
    (driverRG a).Stable (Claiming a m p) := by
  rintro s t h hs
  exact ⟨DriverIdle.stable m s t h hs.1, h.1.current.trans hs.2⟩

/-- The driver owns slot `i` and has written the given fields and the first `n`
bytes of the publication `p` into it. -/
structure Writing (a : Assumption) (m : SwapChainProcessor) (p : Publication) (i : Slot)
    (done : List SlotField) (n : Nat) (s : Shared) : Prop where
  owns : ∀ j, s.log.driverOwns j = decide (j = i)
  ahead : a.single → ∀ p ∈ s.log.published, p.sequence < m.nextSequence ∧ p.frameId < m.nextFrameId
  current : s.log.current = p
  field : ∀ f ∈ done, (s.ring.slots i).field f = p.field f
  payload : ∀ k < n, (s.ring.slots i).payload k = p.payload k

theorem Writing.stable (m : SwapChainProcessor) (p : Publication) (i : Slot)
    (done : List SlotField) (n : Nat) : (driverRG a).Stable (Writing a m p i done n) := by
  rintro s t ⟨h, -⟩ hs
  exact {
    owns := by rw [h.driverOwns]; exact hs.owns
    ahead := by rw [h.published]; exact hs.ahead
    current := h.current.trans hs.current
    field := by rw [h.field]; exact hs.field
    payload := by rw [h.payload]; exact hs.payload }

theorem Writing.owner {m : SwapChainProcessor} {p : Publication} {done : List SlotField} {n : Nat}
    (h : Writing a m p i done n s) : s.log.driverOwns i = true := by
  simp [h.owns]

/-- Owning exactly one slot after taking it. -/
theorem Claiming.take {m : SwapChainProcessor} {p : Publication} (h : Claiming a m p s)
    (ring : FrameRing) : Writing a m p i [] 0
      ⟨ring, { s.log with driverOwns := Function.update s.log.driverOwns i true }⟩ where
  owns j := by
    by_cases hj : j = i
    · subst hj; simp
    · simp [hj, h.1.owns j]
  ahead := h.1.ahead
  current := h.2
  field _ hf := by cases hf
  payload _ hk := absurd hk (Nat.not_lt_zero _)

/-! ## Each operation of a publish -/

/-- A read of the driver changes neither ring nor record. -/
theorem driverExec_read {β : Type} {o : RingOp β} (ho : RingOp.IsRead β o) (w : Unit) (s : Shared)
    (r : β) (u : Shared) (h : driverExec β w o s = some (r, u)) : u = s := by
  cases o <;> first | exact ho.elim | (cases h; rfl)

theorem Claiming.outline (a : Assumption) (m : SwapChainProcessor) (p : Publication) :
    ClaimOutline driverExec (driverRG a) (Claiming a m p) fun i ↦ Writing a m p i [] 0 where
  stable := Claiming.stable m p
  stable_taken i := Writing.stable m p i [] 0
  read ho s hs hA w r u hu := by
    obtain rfl := driverExec_read ho w s r u hu
    exact ⟨driverRG_guar_refl a u hs, hA⟩
  take i expected he s hs hA w old u hu := by
    simp only [driverExec, driverHandler, RingOp.exec, Log.driverStep, Option.some.injEq,
      Prod.mk.injEq] at hu
    obtain ⟨rfl, rfl⟩ := hu
    by_cases hst : s.ring.state i = expected
    · simp only [if_pos hst]
      exact ⟨(DriverStep.claim (hst ▸ he)).guar hs.2, hA.take _⟩
    · simp only [if_neg hst]
      exact ⟨driverRG_guar_refl a s hs, hA⟩

namespace Writing

variable {m : SwapChainProcessor} {p : Publication} {done : List SlotField} {n : Nat}

theorem writeField (f : SlotField) :
    OpTriple driverExec (driverRG a) (Writing a m p i done 0) (.writeField i f (p.field f))
      fun _ ↦ Writing a m p i (f :: done) 0 := by
  intro s hs hA w r u hu
  cases hu
  refine ⟨(DriverStep.write hs.2 hA.owner ?_ fun j hj ↦ FrameRing.setSlot_of_ne hj _).guar hs.2, ?_⟩
  · simpa [FrameRing.state] using hs.2.driverOwns i hA.owner
  · refine ⟨hA.owns, hA.ahead, hA.current, fun g hg ↦ ?_, fun k hk ↦ absurd hk k.not_lt_zero⟩
    by_cases hgf : g = f
    · subst hgf; simp [RingOp.exec]
    · simpa [RingOp.exec, hgf] using hA.field g ((List.mem_cons.1 hg).resolve_left hgf)

theorem writeByte :
    OpTriple driverExec (driverRG a) (Writing a m p i done n) (.writeByte i n (p.payload n))
      fun _ ↦ Writing a m p i done (n + 1) := by
  intro s hs hA w r u hu
  cases hu
  refine ⟨(DriverStep.write hs.2 hA.owner ?_ fun j hj ↦ FrameRing.setSlot_of_ne hj _).guar hs.2, ?_⟩
  · simpa [FrameRing.state] using hs.2.driverOwns i hA.owner
  · refine ⟨hA.owns, hA.ahead, hA.current, fun f hf ↦ ?_, fun k hk ↦ ?_⟩
    · simpa [RingOp.exec] using hA.field f hf
    · by_cases hkn : k = n
      · subst hkn; simp [RingOp.exec]
      · simpa [RingOp.exec, hkn] using hA.payload k (by omega)

theorem addTelemetry (t : Telemetry) (value : Nat) :
    OpTriple driverExec (driverRG a) (Writing a m p i done n) (.addTelemetry t value)
      fun _ ↦ Writing a m p i done n := by
  intro s hs hA w r u hu
  cases hu
  have hstep : DriverStep a i s ⟨(RingOp.exec _ (.addTelemetry t value) s.ring).2, s.log⟩ :=
    DriverStep.write hs.2 hA.owner (hs.2.driverOwns i hA.owner) fun _ _ ↦ rfl
  exact ⟨hstep.guar hs.2, hA.owns, hA.ahead, hA.current, hA.field, hA.payload⟩

/-- The publication that has been written in full fills its slot. -/
theorem fills (hd : ∀ f, f ∈ done) (h : Writing a m p i done (p.field .payloadLength) s) :
    p.Fills (s.ring.slots i) :=
  ⟨funext fun f ↦ h.field f (hd f), h.payload⟩

/-- Giving the slot back, where that is allowed. -/
theorem giveUp (ha : ¬a.succeeding) :
    OpTriple driverExec (driverRG a) (Writing a m p i done n) (.exchange i .free)
      fun _ ↦ DriverIdle a m := by
  intro s hs hA w r u hu
  cases hu
  refine ⟨(DriverStep.abandon hs.2 hA.owner ha).guar hs.2, fun j ↦ ?_, hA.ahead⟩
  by_cases hj : j = i
  · subst hj; simp [Log.driverStep]
  · simp [Log.driverStep, hj, hA.owns]

end Writing

/-! ## Publishing -/

theorem mem_fieldOrder (f : SlotField) : f ∈ fieldOrder := by
  cases f <;> decide

/-- Making the slot ready, once everything is written. -/
theorem Writing.announce {m : SwapChainProcessor} {frame : PendingBgraFrame} {env : PublishEnv} :
    OpTriple driverExec (driverRG a)
      (Writing a m (publication m frame env) i fieldOrder.reverse
        ((publication m frame env).field .payloadLength)) (.exchange i .ready)
      fun _ ↦ DriverIdle a m.bump := by
  intro s hs hA w r u hu
  cases hu
  have hfill := hA.fills (by simp [mem_fieldOrder])
  have hnew : a.single → ∀ p ∈ s.log.published, p.Before s.log.current := by
    intro h p hp
    rw [hA.current]
    exact hA.ahead h p hp
  refine ⟨(DriverStep.publish hs.2 hA.owner (hA.current ▸ hfill) hnew).guar hs.2, ?_, ?_⟩
  · intro j
    by_cases hj : j = i
    · subst hj; simp [Log.driverStep]
    · simp [Log.driverStep, hj, hA.owns]
  · intro h p hp
    rcases List.mem_append.1 hp with hp | hp
    · have := hA.ahead h p hp
      simp only [SwapChainProcessor.bump]
      omega
    · rw [List.mem_singleton.1 hp, hA.current]
      simp [SwapChainProcessor.bump, Publication.sequence, Publication.frameId, publication,
        slotFields]

/-- The proof of a publish, provided that it does not give its slot up where that
is not allowed, and that `SetEvent` succeeds. -/
def publishOutline (m : SwapChainProcessor) (frame : PendingBgraFrame) (env : PublishEnv)
    (hset : env.setEvent = true) (ha : a.succeeding → env.timestampUs frame ≠ 0) :
    PublishOutline driverExec (driverRG a) m frame env where
  before := Claiming a m (publication m frame env)
  writing := Writing a m (publication m frame env)
  announced _ := DriverIdle a m.bump
  after r := DriverIdle a r.2
  claims := Claiming.outline a m _
  stable i done n := Writing.stable m _ i done n
  stable_announced _ := DriverIdle.stable _
  stable_after r := DriverIdle.stable r.2
  refuse _ h := h.1
  giveUp hts _ := Writing.giveUp fun h ↦ ha h hts
  field _ _ f := Writing.writeField f
  byte source hsource i done n := by
    have h : OpTriple driverExec (driverRG a) (Writing a m (publication m frame env) i done n)
        (.writeByte i n ((publication m frame env).payload n))
        fun _ ↦ Writing a m (publication m frame env) i done (n + 1) := Writing.writeByte
    simpa only [publication, hsource, Option.getD_some] using h
  telemetry _ _ _ t value := Writing.addTelemetry t value
  announce _ _ := Writing.announce
  signalled _ _ _ h := h
  unsignalled h := by rw [hset] at h; cases h

/-- **`PublishBgraFrame` keeps the driver's contract** against any host. -/
theorem publish_triple (m : SwapChainProcessor) (frame : PendingBgraFrame) (env : PublishEnv)
    (hset : env.setEvent = true) (ha : a.succeeding → env.timestampUs frame ≠ 0) :
    Triple driverExec (driverRG a) (Claiming a m (publication m frame env))
      (publishBgraFrame m frame env) fun r ↦ DriverIdle a r.2 :=
  (publishOutline m frame env hset ha).triple

end SecondScreen.Ring
