import SecondScreen.Ring.DriverProof
import SecondScreen.Ring.HostProof

/-!
# Exclusive ownership

The proofs about the driver and about the host are put together to an outline of
the whole system, `ringOutline`, so that every configuration that a run reaches
satisfies the invariant.  The first consequence is that no slot is ever owned by
both, and that every frame delivered is the work of a single publish.
-/

namespace SecondScreen.Ring

open SecondScreen.Conc SecondScreen.Conc.System

variable {a : Assumption} {s : Shared}

/-- The calls of the driver that an assumption admits. -/
def Assumption.Admits (a : Assumption) (call : DriverCall) : Prop :=
  call.EventSet ∧ (a.single → call.SameProcessor) ∧ (a.succeeding → call.HasTimestamp)

/-- Recording what is to be published changes nothing that the host sees. -/
theorem DriverMoves.enter (call : DriverCall) (m : SwapChainProcessor) (s : Shared) :
    DriverMoves a s (driverEnter call m s) := by
  cases call with
  | assignSwapChain => exact .refl a s
  | publish frame env =>
      exact ⟨fun _ _ ↦ rfl, fun _ h ↦ h, rfl, rfl, rfl, rfl, rfl, rfl, List.prefix_refl _,
        fun _ _ ↦ .inl rfl, fun _ _ h ↦ .inl h, fun _ h ↦ h.resolve_right fun h ↦ h rfl⟩

theorem Inv.enter (h : Inv a s) (call : DriverCall) (m : SwapChainProcessor) :
    Inv a (driverEnter call m s) := by
  cases call with
  | assignSwapChain => exact h
  | publish frame env =>
      exact ⟨h.driverOwns, h.readerOwns, h.content, h.returned, h.sorted, h.distinct, h.newer,
        h.increasing⟩

/-- **Each admitted call of the driver keeps its contract**, against any host. -/
theorem driverBody_safe (call : DriverCall) (m : SwapChainProcessor) (hcall : a.Admits call)
    (hs : DriverIdle a m s) :
    Safe driverExec (driverRG a) (fun r t ↦ (driverRG a).guar t t ∧ DriverIdle a r.2 t)
      (driverBody call m) (driverEnter call m s) := by
  obtain ⟨hset, hsingle, hts⟩ := hcall
  cases call with
  | publish frame env =>
      have hclaiming :
          Claiming a m (publication m frame env) (driverEnter (.publish frame env) m s) :=
        ⟨⟨hs.owns, hs.ahead⟩, rfl⟩
      refine ((publish_triple m frame env hset hts _ hclaiming).mono ?_).bind
      intro r t ht u hu
      exact ⟨⟨.refl a u, hu.2⟩, DriverIdle.stable r.2 t u hu ht⟩
  | assignSwapChain =>
      intro t ht
      exact ⟨⟨.refl a t, ht.2⟩, (DriverIdle.stable m s t ht hs).owns, fun ha ↦ (hsingle ha).elim⟩

/-- The proof outline of driver and host. -/
def ringOutline (a : Assumption) {allow : ringSystem.Guard}
    (hallow : ∀ c i m c', allow c i m c' → driverCalls a.Admits c i m c') :
    Outline ringSystem allow where
  inv := Inv a
  rg
    | .driver => driverRG a
    | .host => hostRG a
  idle
    | .driver => DriverIdle a
    | .host => HostIdle a
  inv_next {c i m c'} _ _ hG := by
    cases i <;> exact hG.2
  rely_refl i s h := by
    cases i
    · exact ⟨.refl s, h⟩
    · exact ⟨.refl a s, h⟩
  compat {i j s t} hij _ _ h := by
    cases i <;> cases j <;> first | exact absurd rfl hij | exact h
  idle_stable i l := by
    cases i
    · exact DriverIdle.stable l
    · exact HostIdle.stable l
  enter_ok {c i call c' l} hinv ha hidle := by
    cases i with
    | driver =>
        exact ⟨⟨.enter call l c.shared, hinv.enter call l⟩,
          driverBody_safe call l (hallow _ _ _ _ ha) hidle⟩
    | host => exact ⟨⟨.refl _, hinv⟩, hostBody_triple call l _ hidle⟩

/-! ## Runs -/

/-- The initialised ring satisfies the invariant. -/
theorem Inv.initial (a : Assumption) : Inv a RingConfig.initial.shared where
  driverOwns _ h := by cases h
  readerOwns _ h := by cases h
  content _ h := by rcases h with h | h <;> cases h
  returned _ h := by cases h
  sorted _ := .nil
  distinct _ _ _ _ h := by rcases h with h | h <;> cases h
  newer _ _ h := by cases h
  increasing _ := .nil

theorem ringOutline_initial {allow : ringSystem.Guard}
    (hallow : ∀ c i m c', allow c i m c' → driverCalls a.Admits c i m c') :
    (ringOutline a hallow).Ok RingConfig.initial where
  inv := .initial a
  status
    | .driver => ⟨fun _ ↦ rfl, fun _ _ h ↦ by cases h⟩
    | .host => ⟨fun _ ↦ rfl, fun _ ↦ ⟨fun _ h ↦ (by cases h), fun _ h ↦ (by cases h), rfl,
        fun _ ↦ ⟨rfl, rfl⟩, fun _ _ h ↦ (by cases h)⟩, fun _ _ _ _ h ↦ by cases h⟩

/-- Every configuration that a run reaches satisfies the outline. -/
theorem ringOutline_run {allow : ringSystem.Guard}
    (hallow : ∀ c i m c', allow c i m c' → driverCalls a.Admits c i m c') {c : RingConfig}
    (hrun : Run allow RingConfig.initial c) : (ringOutline a hallow).Ok c :=
  (ringOutline a hallow).ok_run (ringOutline_initial hallow) hrun

/-- **No slot is owned by both sides, and no frame is mixed.**  In every
interleaving of a driver that publishes with a host that reads, no slot is owned
by the driver for writing and by the host for reading at once, and every frame
that `TryReadLatest` has returned shows what one and the same publish wrote. -/
theorem exclusive_ownership {c : RingConfig}
    (hrun : Run (driverCalls DriverCall.EventSet) RingConfig.initial c) :
    (∀ i, ¬(c.shared.log.driverOwns i = true ∧ c.shared.log.readerOwns i = true)) ∧
      ∀ f ∈ c.shared.log.returned, ∃ p ∈ c.shared.log.published, p.Shows f.2 := by
  have hallow : ∀ (c : RingConfig) i (m : ringSystem.Move i) c',
      driverCalls DriverCall.EventSet c i m c' →
        driverCalls (Assumption.Admits ⟨False, False⟩) c i m c' := by
    rintro c (_ | _) (_ | _ | _) c' h
    · exact ⟨h, False.elim, False.elim⟩
    all_goals trivial
  have hinv : Inv ⟨False, False⟩ c.shared := (ringOutline_run hallow hrun).inv
  refine ⟨fun i ⟨hd, hr⟩ ↦ ?_, fun f hf ↦ ?_⟩
  · have hw := hinv.driverOwns i hd
    rw [hinv.readerOwns i hr] at hw
    cases hw
  · obtain ⟨p, hp, -, hshows⟩ := hinv.returned f hf
    exact ⟨p, hp, hshows⟩

/-- After one frame the host is in the middle of reading a second one, and the driver in the
middle of writing a third. -/
def bothBusy : ringSystem.Schedule :=
  wholeCall .driver smallPublish 19 ++ wholeCall .host .tryReadLatest 34 ++
    wholeCall .driver smallPublish 19 ++ (⟨.host, .enter .tryReadLatest⟩ :: operations .host 12) ++
      (⟨.driver, .enter smallPublish⟩ :: operations .driver 9) ++ operations .host 8

theorem exclusive_ownership_both_busy : ∃ c : RingConfig,
    Run (driverCalls DriverCall.EventSet) RingConfig.initial c ∧
      c.shared.log.driverOwns 1 = true ∧ c.shared.log.readerOwns 0 = true ∧
        c.shared.log.returned.length = 1 ∧
          (∀ i, ¬(c.shared.log.driverOwns i = true ∧ c.shared.log.readerOwns i = true)) ∧
            ∀ f ∈ c.shared.log.returned, ∃ p ∈ c.shared.log.published, p.Shows f.2 := by
  have hfollow : (RingConfig.initial.follow (driverCalls DriverCall.EventSet) bothBusy).any
      (fun c ↦ c.shared.log.driverOwns 1 = true ∧ c.shared.log.readerOwns 0 = true ∧
        c.shared.log.returned.length = 1) = true := by
    decide +kernel
  obtain ⟨c, hc, hbusy⟩ := (Option.any_eq_true ..).1 hfollow
  obtain ⟨hdriver, hreader, hlen⟩ := of_decide_eq_true hbusy
  have hr := Config.run_of_follow hc
  exact ⟨c, hr, hdriver, hreader, hlen, exclusive_ownership hr⟩

end SecondScreen.Ring
