import SecondScreen.Ring.DriverProof
import SecondScreen.Ring.KnownSlot
import SecondScreen.Ring.ReadOutline

/-!
# When `SetEvent` fails

A publish whose `SetEvent` fails withdraws the slot that it has just made ready,
by a plain store of `kSlotFree`.  By then the host may have claimed the slot; it
is then free while it is being read, so that the next publish takes it as well
(`two_owners`).  As long as no slot is withdrawn that is being read, driver and
host leave each other's slots alone (`rollback_respects`).
-/

namespace SecondScreen.Ring

open SecondScreen.Conc SecondScreen.Conc.System

variable {s u : Shared} {i : Slot}

/-! ## Ownership and state words -/

/-- What a side owns is in the state of that side. -/
structure Held (s : Shared) : Prop where
  driverOwns : ∀ i, s.log.driverOwns i = true → s.ring.state i = .writing
  readerOwns : ∀ i, s.log.readerOwns i = true → s.ring.state i = .reading

theorem Held.exclusive (h : Held s) (i : Slot) :
    ¬(s.log.driverOwns i = true ∧ s.log.readerOwns i = true) := by
  rintro ⟨hd, hr⟩
  have hw := h.driverOwns i hd
  rw [h.readerOwns i hr] at hw
  cases hw

/-- What an operation of the driver does: it leaves a slot alone that is being
read, or frees it. -/
structure Withdraws (s u : Shared) : Prop where
  readerOwns : u.log.readerOwns = s.log.readerOwns
  driverOwns : ∀ i, u.log.driverOwns i = true → u.ring.state i = .writing
  reading : ∀ i, s.ring.state i = .reading →
    u.ring.slots i = s.ring.slots i ∨ u.ring.state i = .free ∧ u.log.driverOwns i = false

/-- What an operation of the host does: it leaves a slot alone that is being
written. -/
structure Releases (s u : Shared) : Prop where
  driverOwns : u.log.driverOwns = s.log.driverOwns
  readerOwns : ∀ i, u.log.readerOwns i = true → u.ring.state i = .reading
  writing : ∀ i, s.ring.state i = .writing → u.ring.slots i = s.ring.slots i

/-- Each side relies on the other one for what it owns itself. -/
def heldRG : Side → RG Shared
  | .driver =>
      { rely := fun s u ↦ u.log.driverOwns = s.log.driverOwns ∧ Held u
        guar := Withdraws
        rely_trans := fun h h' ↦ ⟨h'.1.trans h.1, h'.2⟩
        rely_refl := fun h ↦ ⟨rfl, h.2⟩ }
  | .host =>
      { rely := fun s u ↦ u.log.readerOwns = s.log.readerOwns ∧ Held u
        guar := Releases
        rely_trans := fun h h' ↦ ⟨h'.1.trans h.1, h'.2⟩
        rely_refl := fun h ↦ ⟨rfl, h.2⟩ }

/-! ## The driver -/

/-- The driver owns the slot. -/
def DriverHolds (i : Slot) (s : Shared) : Prop := s.log.driverOwns i = true

theorem DriverHolds.stable (i : Slot) : (heldRG .driver).Stable (DriverHolds i) := by
  intro s u h hs
  show u.log.driverOwns i = true
  rw [h.1]
  exact hs

theorem Withdraws.refl (hs : Held s) : Withdraws s s := ⟨rfl, hs.driverOwns, fun _ _ ↦ .inl rfl⟩

/-- An operation of the driver on slot `i`. -/
theorem Withdraws.of_slot (hs : Held s) (hreader : u.log.readerOwns = s.log.readerOwns)
    (hothers : ∀ j, j ≠ i → u.ring.slots j = s.ring.slots j)
    (howns : ∀ j, j ≠ i → u.log.driverOwns j = s.log.driverOwns j)
    (hi : u.log.driverOwns i = true → u.ring.state i = .writing)
    (hreading : s.ring.state i = .reading →
      u.ring.state i = .free ∧ u.log.driverOwns i = false) : Withdraws s u where
  readerOwns := hreader
  driverOwns j hj := by
    by_cases hji : j = i
    · subst hji
      exact hi hj
    · rw [howns j hji] at hj
      rw [FrameRing.state, hothers j hji]
      exact hs.driverOwns j hj
  reading j hj := by
    by_cases hji : j = i
    · subst hji
      exact .inr (hreading hj)
    · exact .inl (hothers j hji)

/-- A store into a slot that the driver owns. -/
theorem DriverHolds.write {o : RingOp Unit}
    (hring : ∀ ring : FrameRing, (∀ j, j ≠ i → (RingOp.exec _ o ring).2.slots j = ring.slots j) ∧
      (RingOp.exec _ o ring).2.state i = ring.state i)
    (hlog : ∀ ring (log : Log), log.driverStep _ o ring = log) :
    OpTriple driverExec (heldRG .driver) (DriverHolds i) o fun _ ↦ DriverHolds i := by
  intro s hheld hs w r u hu
  simp only [driverExec, driverHandler, Option.some.injEq, Prod.mk.injEq, hlog] at hu
  obtain ⟨-, rfl⟩ := hu
  obtain ⟨hothers, hstate⟩ := hring s.ring
  have hwriting := hheld.2.driverOwns i hs
  refine ⟨.of_slot hheld.2 rfl hothers (fun _ _ ↦ rfl) (fun _ ↦ hstate.trans hwriting) ?_, hs⟩
  intro hreading
  rw [hwriting] at hreading
  cases hreading

/-- Giving a slot back, whoever owns it. -/
theorem exchange_free_held (i : Slot) {A : Shared → Prop} :
    OpTriple driverExec (heldRG .driver) A (.exchange i .free) fun _ _ ↦ True := by
  intro s hheld _ w r u hu
  cases hu
  refine ⟨.of_slot (i := i) hheld.2 rfl (fun j hj ↦ FrameRing.setState_of_ne hj _) ?_ ?_ ?_,
    trivial⟩
  · exact fun j hj ↦ Function.update_of_ne hj ..
  · intro howns
    simp [Log.driverStep] at howns
  · intro _
    simp [RingOp.exec, Log.driverStep, FrameRing.state]

theorem claims_held : ClaimOutline driverExec (heldRG .driver) (fun _ ↦ True) DriverHolds where
  stable _ _ _ _ := trivial
  stable_taken := DriverHolds.stable
  read ho s hheld _ w r u hu := by
    obtain rfl := driverExec_read ho w s r u hu
    exact ⟨.refl hheld.2, trivial⟩
  take i expected he s hheld _ w old u hu := by
    simp only [driverExec, driverHandler, RingOp.exec, Log.driverStep, Option.some.injEq,
      Prod.mk.injEq] at hu
    obtain ⟨rfl, rfl⟩ := hu
    by_cases hst : s.ring.state i = expected
    · simp only [if_pos hst]
      refine ⟨.of_slot (i := i) hheld.2 rfl (fun j hj ↦ FrameRing.setState_of_ne hj _) ?_ ?_ ?_, ?_⟩
      · exact fun j hj ↦ Function.update_of_ne hj ..
      · simp [FrameRing.state]
      · intro hreading
        rcases he with rfl | rfl <;> simp [hst] at hreading
      · simp [DriverHolds]
    · simp only [if_neg hst]
      exact ⟨.refl hheld.2, trivial⟩

/-- The proof that a publish takes from the host no slot but the one it
withdraws. -/
def heldPublish (m : SwapChainProcessor) (frame : PendingBgraFrame) (env : PublishEnv) :
    PublishOutline driverExec (heldRG .driver) m frame env where
  before _ := True
  writing i _ _ := DriverHolds i
  announced _ _ := True
  after _ _ := True
  claims := claims_held
  stable i _ _ := DriverHolds.stable i
  stable_announced _ _ _ _ _ := trivial
  stable_after _ _ _ _ _ := trivial
  refuse _ _ := trivial
  giveUp _ i := exchange_free_held i
  field i _ f := DriverHolds.write (fun ring ↦
    ⟨fun j hj ↦ FrameRing.setSlot_of_ne hj _, by simp [RingOp.exec, FrameRing.state]⟩) fun _ _ ↦ rfl
  byte _ _ i _ n := DriverHolds.write (fun ring ↦
    ⟨fun j hj ↦ FrameRing.setSlot_of_ne hj _, by simp [RingOp.exec, FrameRing.state]⟩) fun _ _ ↦ rfl
  telemetry i _ _ t v := DriverHolds.write (fun _ ↦ ⟨fun _ _ ↦ rfl, rfl⟩) fun _ _ ↦ rfl
  announce _ i s hheld hs w r u hu := by
    cases hu
    have hwriting := hheld.2.driverOwns i hs
    refine ⟨.of_slot (i := i) hheld.2 rfl (fun j hj ↦ FrameRing.setState_of_ne hj _) ?_ ?_ ?_,
      trivial⟩
    · exact fun j hj ↦ Function.update_of_ne hj ..
    · intro howns
      simp [Log.driverStep] at howns
    · intro hreading
      rw [hwriting] at hreading
      cases hreading
  signalled _ _ _ _ := trivial
  unsignalled _ i := exchange_free_held i

/-! ## The host -/

/-- The host owns the slot. -/
def ReaderHolds (i : Slot) (s : Shared) : Prop := s.log.readerOwns i = true

theorem ReaderHolds.stable (i : Slot) : (heldRG .host).Stable (ReaderHolds i) := by
  intro s u h hs
  show u.log.readerOwns i = true
  rw [h.1]
  exact hs

theorem Releases.refl (hs : Held s) : Releases s s := ⟨rfl, hs.readerOwns, fun _ _ ↦ rfl⟩

/-- An operation of the host on slot `i`, which is not being written. -/
theorem Releases.of_slot {st : SlotState} {log : Log} (hs : Held s)
    (hwriting : s.ring.state i ≠ .writing)
    (hothers : ∀ j, j ≠ i → log.readerOwns j = s.log.readerOwns j)
    (hi : log.readerOwns i = true → st = .reading) (hdriver : log.driverOwns = s.log.driverOwns) :
    Releases s ⟨s.ring.setState i st, log⟩ where
  driverOwns := hdriver
  readerOwns j hj := by
    by_cases hji : j = i
    · subst hji
      simpa [FrameRing.state] using hi hj
    · rw [hothers j hji] at hj
      simpa [FrameRing.state, hji] using hs.readerOwns j hj
  writing j hj := by
    have hji : j ≠ i := fun hji ↦ hwriting (hji ▸ hj)
    exact FrameRing.setState_of_ne hji _

/-- The proof that a read leaves the driver's slots alone. -/
def heldRead : ReadOutline hostExec (heldRG .host) where
  idle _ := True
  selected := ReaderHolds
  stable _ _ _ _ := trivial
  stable_selected := ReaderHolds.stable
  read {β o} ho s hheld _ w r u hu := by
    obtain rfl := hostExec_read ho w s r u hu
    exact ⟨.refl hheld.2, trivial⟩
  cleansUp i β o ho s hheld hs w r u hu := by
    cases o with
    | compareExchange j x e =>
        cases x <;> cases e <;> first | exact ho.elim | skip
        simp only [hostExec, hostHandler, RingOp.exec, Log.readerStep, Option.some.injEq,
          Prod.mk.injEq] at hu
        obtain ⟨rfl, rfl⟩ := hu
        by_cases hready : s.ring.state j = .ready
        · have howns : s.log.readerOwns j ≠ true := fun h ↦ by
            simp [hheld.2.readerOwns j h] at hready
          simp only [if_pos hready]
          refine ⟨.of_slot hheld.2 (by simp [hready]) ?_ ?_ ?_, ?_⟩
          · exact fun k _ ↦ by split <;> rfl
          · exact fun h ↦ absurd (by split at h <;> exact h) howns
          · split <;> rfl
          · show Log.readerOwns (ite _ _ _) i = true
            split <;> exact hs
        · simp only [hready, false_and, if_false]
          exact ⟨.refl hheld.2, hs⟩
    | readState | readField | readByte | readHeader =>
        cases hu
        exact ⟨.refl hheld.2, hs⟩
    | exchange | writeField | writeByte | addTelemetry => exact ho.elim
  claim i s hheld _ w old u hu := by
    simp only [hostExec, hostHandler, RingOp.exec, Log.readerStep, Option.some.injEq,
      Prod.mk.injEq] at hu
    obtain ⟨rfl, rfl⟩ := hu
    by_cases hready : s.ring.state i = .ready
    · simp only [if_pos hready]
      refine ⟨.of_slot hheld.2 (by simp [hready]) (fun j hj ↦ Function.update_of_ne hj ..)
        (fun _ ↦ rfl) rfl, ?_⟩
      exact Function.update_self ..
    · simp only [if_neg hready]
      exact ⟨.refl hheld.2, trivial⟩
  free i s hheld hs w r u hu := by
    cases hu
    have hreading := hheld.2.readerOwns i hs
    refine ⟨.of_slot hheld.2 (by simp [hreading]) (fun j hj ↦ Function.update_of_ne hj ..)
      (fun h ↦ ?_) rfl, trivial⟩
    simp [Log.readerStep] at h

/-! ## Runs -/

/-- The slot that the driver is about to free. -/
def withdrawn : Status SwapChainProcessor (ringSystem.Residual .driver) → Option Slot
  | .busy (.act (.exchange i .free) _) => some i
  | _ => none

/-- The driver frees no slot that is being read. -/
def withdrawsUnclaimed : ringSystem.Guard := fun c i _ _ ↦
  match i with
  | .driver => ∀ j ∈ withdrawn (c.status .driver), c.shared.ring.state j ≠ .reading
  | .host => True

instance (c : RingConfig) (i : Side) (m : ringSystem.Move i) (c' : RingConfig) :
    Decidable (withdrawsUnclaimed c i m c') :=
  match i with
  | .driver => inferInstanceAs (Decidable (∀ j ∈ withdrawn (c.status .driver), _))
  | .host => .isTrue trivial

/-- A step leaves the slots alone that are in the hands of the other side. -/
def LeavesOther (c : RingConfig) (i : Side) (c' : RingConfig) : Prop :=
  match i with
  | .driver => ∀ j, c.shared.ring.state j = .reading →
      c'.shared.ring.slots j = c.shared.ring.slots j
  | .host => ∀ j, c.shared.ring.state j = .writing →
      c'.shared.ring.slots j = c.shared.ring.slots j

/-- Nothing but a store of `kSlotFree` takes a slot from the host. -/
theorem Withdraws.leavesOther {c c' : RingConfig} {m : ringSystem.Move .driver}
    (hG : Withdraws c.shared c'.shared) (hm : c.next .driver m = some c')
    (ha : withdrawsUnclaimed c .driver m c') : LeavesOther c .driver c' := by
  intro j hj
  rcases hG.reading j hj with hsame | ⟨hfree, howns⟩
  · exact hsame
  cases m with
  | enter call =>
      obtain ⟨l, -, rfl⟩ := Config.next_enter hm
      cases call <;> rfl
  | leave =>
      obtain ⟨r, l, -, rfl⟩ := Config.next_leave hm
      rfl
  | act w =>
      obtain ⟨β, o, k, r, s, hb, he, rfl⟩ := Config.next_act hm
      cases he
      -- which operation was it?
      cases o with
      | exchange i st =>
          by_cases hij : j = i
          · subst hij
            have hst : st = .free := by
              simpa [driverHandler, RingOp.exec, FrameRing.state] using hfree
            subst hst
            exact absurd hj (ha j (by rw [hb]; rfl))
          · exact FrameRing.setState_of_ne hij _
      | compareExchange i st e =>
          by_cases hstate : c.shared.ring.state i = e
          · by_cases hij : j = i
            · subst hij
              simp [Log.driverStep, hstate] at howns
            · simp [RingOp.exec, hstate, hij]
          · simp [RingOp.exec, hstate]
      | writeField i f v =>
          refine absurd hfree ?_
          by_cases hij : j = i
          · subst hij
            simp [RingOp.exec, FrameRing.state, hj]
          · simp [RingOp.exec, FrameRing.state, hij, hj]
      | writeByte i n v =>
          refine absurd hfree ?_
          by_cases hij : j = i
          · subst hij
            simp [RingOp.exec, FrameRing.state, hj]
          · simp [RingOp.exec, FrameRing.state, hij, hj]
      | readState | readField | readByte | readHeader | addTelemetry => rfl

/-- The proof outline of the runs in which no slot is withdrawn that is being
read. -/
def rollbackOutline : Outline ringSystem
    (fun c i m c' ↦ withdrawsUnclaimed c i m c' ∧ c.next i m = some c') where
  inv := Held
  rg := heldRG
  idle _ _ _ := True
  inv_next {c i m c'} ha hs hG := by
    cases i with
    | driver =>
        have hkeeps := Withdraws.leavesOther hG ha.2 ha.1
        refine ⟨hG.driverOwns, fun j hj ↦ ?_⟩
        rw [hG.readerOwns] at hj
        have hreading := hs.readerOwns j hj
        rw [FrameRing.state, hkeeps j hreading]
        exact hreading
    | host =>
        refine ⟨fun j hj ↦ ?_, hG.readerOwns⟩
        rw [hG.driverOwns] at hj
        have hwriting := hs.driverOwns j hj
        rw [FrameRing.state, hG.writing j hwriting]
        exact hwriting
  rely_refl i s h := by
    cases i <;> exact ⟨rfl, h⟩
  compat {i j s t} hij _ ht h := by
    cases i <;> cases j <;> first | exact absurd rfl hij | skip
    · exact ⟨h.driverOwns, ht⟩
    · exact ⟨h.readerOwns, ht⟩
  idle_stable _ _ _ _ _ _ := trivial
  enter_ok {c i call c' l} hs _ _ := by
    cases i with
    | driver =>
        cases call with
        | assignSwapChain => exact ⟨.refl hs, fun t ht ↦ ⟨.refl ht.2, trivial⟩⟩
        | publish frame env =>
            refine ⟨⟨rfl, hs.driverOwns, fun _ _ ↦ .inl rfl⟩, ?_⟩
            refine (((heldPublish l frame env).triple _ trivial).mono ?_).bind
            exact fun r t _ u hu ↦ ⟨.refl hu.2, trivial⟩
    | host =>
        refine ⟨.refl hs, ?_⟩
        cases call with
        | beginClient width height =>
            exact fun t ht ↦ ⟨⟨rfl, ht.2.readerOwns, fun _ _ ↦ rfl⟩, trivial⟩
        | tryReadLatest =>
            refine ((heldRead.triple l _ trivial).mono ?_).bind
            rintro ⟨outcome, r⟩ t _ u hu
            have hleave : (hostLeave (.read outcome) u).ring = u.ring := rfl
            refine ⟨⟨?_, fun j hj ↦ hu.2.readerOwns j ?_, fun _ _ ↦ rfl⟩, trivial⟩
            · cases outcome <;> rfl
            · cases outcome <;> exact hj

/-- **Driver and host leave each other's slots alone**, in every run in which no
slot is withdrawn that is being read, whether or not `SetEvent` succeeds: no slot
has two owners, no step of the driver touches a slot that is being read, and no
step of the host touches one that is being written. -/
theorem rollback_respects {c : RingConfig} (hrun : Run withdrawsUnclaimed RingConfig.initial c) :
    (∀ i, ¬(c.shared.log.driverOwns i = true ∧ c.shared.log.readerOwns i = true)) ∧
      ∀ i m c', c.next i m = some c' → withdrawsUnclaimed c i m c' → LeavesOther c i c' := by
  have hinitial : rollbackOutline.Ok RingConfig.initial :=
    ⟨⟨fun _ h ↦ (by cases h), fun _ h ↦ (by cases h)⟩, fun i ↦ by cases i <;> trivial⟩
  have hok := rollbackOutline.ok_run hinitial hrun.possible
  refine ⟨hok.inv.exclusive, fun i m c' hm ha ↦ ?_⟩
  have hG := hok.guar hm ⟨ha, hm⟩
  cases i with
  | driver => exact Withdraws.leavesOther hG hm ha
  | host => exact hG.writing

/-- A publish of the smallest picture whose `SetEvent` fails. -/
def failingPublish : DriverCall :=
  match smallPublish with
  | .publish frame env => .publish frame { env with setEvent := false }
  | .assignSwapChain => .assignSwapChain

theorem rollback_respects_unread : ∃ c : RingConfig,
    Run withdrawsUnclaimed RingConfig.initial c ∧
      c.summary = ⟨true, true, [1], [], [], [.free, .free]⟩ ∧
        ∀ i, ¬(c.shared.log.driverOwns i = true ∧ c.shared.log.readerOwns i = true) := by
  have hfollow : (RingConfig.initial.follow withdrawsUnclaimed
      (wholeCall .driver failingPublish 20)).map RingConfig.summary =
        some ⟨true, true, [1], [], [], [.free, .free]⟩ := by decide +kernel
  obtain ⟨c, hc, hsummary⟩ := Option.map_eq_some_iff.1 hfollow
  have hr := Config.run_of_follow hc
  exact ⟨c, hr, hsummary, (rollback_respects hr).1⟩

/-- The host claims a slot between the two stores of a publish whose `SetEvent`
fails, and the next publish claims it too. -/
def claimedTwice : ringSystem.Schedule :=
  ⟨.driver, .enter failingPublish⟩ :: operations .driver 19 ++
    (⟨.host, .enter .tryReadLatest⟩ :: operations .host 12) ++ operations .driver 1 ++
      [⟨.driver, .leave⟩, ⟨.driver, .enter smallPublish⟩] ++ operations .driver 1

/-- **A slot that is withdrawn while it is being read has two owners** as soon as
it is claimed again. -/
theorem two_owners : ¬∀ c : RingConfig, Run (fun _ _ _ _ ↦ True) RingConfig.initial c →
    (∀ i, ¬(c.shared.log.driverOwns i = true ∧ c.shared.log.readerOwns i = true)) ∧
      ∀ i m c', c.next i m = some c' → LeavesOther c i c' := by
  intro hall
  have hfollow : (RingConfig.initial.follow (fun _ _ _ _ ↦ True) claimedTwice).any
      (fun c ↦ c.shared.log.driverOwns 0 && c.shared.log.readerOwns 0) = true := by decide +kernel
  obtain ⟨c, hc, howners⟩ := (Option.any_eq_true ..).1 hfollow
  exact (hall c (Config.run_of_follow hc)).1 0 (Bool.and_eq_true_iff.1 howners)

end SecondScreen.Ring
