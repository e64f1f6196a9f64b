import SecondScreen.Ring.Ownership

/-!
# What the host delivers

Within the life of one `SwapChainProcessor` the frames returned are ever newer
ones, and the counters of a client session account for the ids in between
(`delivery_increasing`).

The newest frame may be lost all the same.  The clean-up of `TryReadLatest`
compares the sequence of a slot and then frees the slot by a
compare-and-exchange of the state word alone.  If the driver claims and
publishes the slot between the two, the exchange succeeds, and what it frees is
the newest frame (`newest_lost`).  As long as that does not happen, no frame is
lost (`newest_available`).
-/

namespace SecondScreen.Ring

open SecondScreen.Conc SecondScreen.Conc.System

/-! ## In order -/

/-- The counters of a session in which the given ids were consumed. -/
def SessionAccounts (r : FrameRingReader) : List Nat → Prop
  | [] => r.framesRead = 0 ∧ r.framesSkipped = 0
  | firstId :: rest =>
      firstId ≤ rest.getLastD firstId ∧
        r.framesRead + r.framesSkipped = rest.getLastD firstId - firstId + 1

theorem Accounted.sessionAccounts {r : FrameRingReader} {log : Log} (h : Accounted r log) :
    SessionAccounts r log.session := by
  cases hs : log.session with
  | nil => exact h.empty hs
  | cons firstId rest =>
      refine h.total firstId _ (by simp [hs]) ?_
      rw [hs, List.getLast?_cons, List.getLastD_eq_getLast?]

/-- **Deliveries increase, and the session adds up.**  In every interleaving of
one processor's publishes with the host's reads, the frames returned have
strictly increasing sequences and ids, and whenever the host is between two calls
its counters account for the ids consumed since the last `BeginClient`. -/
theorem delivery_increasing {c : RingConfig}
    (hrun : Run (driverCalls fun call ↦ call.EventSet ∧ call.SameProcessor)
      RingConfig.initial c) :
    (∀ f ∈ c.shared.log.returned, ∃ p ∈ c.shared.log.published, p.sequence = f.1 ∧ p.Shows f.2) ∧
      (c.shared.log.returned.Pairwise fun f g ↦ f.1 < g.1 ∧ f.2.frameId < g.2.frameId) ∧
        ∀ r : FrameRingReader, c.status .host = .idle r →
          SessionAccounts r c.shared.log.session := by
  have hallow : ∀ (c : RingConfig) i (m : ringSystem.Move i) c',
      driverCalls (fun call ↦ call.EventSet ∧ call.SameProcessor) c i m c' →
        driverCalls (Assumption.Admits ⟨True, False⟩) c i m c' := by
    rintro c (_ | _) (_ | _ | _) c' h
    · exact ⟨h.1, fun _ ↦ h.2, False.elim⟩
    all_goals trivial
  have hok := ringOutline_run hallow hrun
  have hinv : Inv ⟨True, False⟩ c.shared := hok.inv
  refine ⟨hinv.returned, hinv.increasing trivial, fun r hr ↦ ?_⟩
  have hidle := hok.status .host
  rw [hr] at hidle
  exact (HostIdle.accounted hidle trivial).sessionAccounts

/-- Two frames, of which the host reads the second. -/
theorem delivery_increasing_two_frames : ∃ c : RingConfig,
    Run (driverCalls fun call ↦ call.EventSet ∧ call.SameProcessor) RingConfig.initial c ∧
      c.shared.log.session = [2] ∧
        (c.shared.log.returned.Pairwise fun f g ↦ f.1 < g.1 ∧ f.2.frameId < g.2.frameId) ∧
          ∀ r : FrameRingReader, c.status .host = .idle r →
            SessionAccounts r c.shared.log.session := by
  have hfollow : (RingConfig.initial.follow
      (driverCalls fun call ↦ call.EventSet ∧ call.SameProcessor)
      (wholeCall .driver smallPublish 19 ++ wholeCall .driver smallPublish 20 ++
        wholeCall .host .tryReadLatest 41)).map (fun c ↦ c.shared.log.session) = some [2] := by
    decide +kernel
  obtain ⟨c, hc, hsession⟩ := Option.map_eq_some_iff.1 hfollow
  have hr := Config.run_of_follow hc
  exact ⟨c, hr, hsession, (delivery_increasing hr).2⟩

/-! ## The newest frame -/

/-- The publication of the highest sequence was returned, or rejected, or is
ready to be read. -/
def NewestAvailable (s : Shared) : Prop :=
  ∀ p ∈ s.log.published, (∀ q ∈ s.log.published, q.sequence ≤ p.sequence) →
    (∃ f ∈ s.log.returned, f.1 = p.sequence ∧ p.Shows f.2) ∨ p.sequence ∈ s.log.rejected ∨
      ∃ i, s.ring.state i = .ready ∧ p.Fills (s.ring.slots i)

/-- Every publish succeeds, and all belong to one `SwapChainProcessor`. -/
def DriverCall.Succeeds (call : DriverCall) : Prop :=
  call.EventSet ∧ call.SameProcessor ∧ call.HasTimestamp

instance : DecidablePred DriverCall.Succeeds := fun call ↦
  inferInstanceAs (Decidable (call.EventSet ∧ call.SameProcessor ∧ call.HasTimestamp))

/-- The host selects slot 1 and compares the sequence of slot 0; a third frame is
published in slot 0; the host goes on. -/
def republishBeforePurge : ringSystem.Schedule :=
  wholeCall .driver smallPublish 19 ++ wholeCall .driver smallPublish 20 ++
    (⟨.host, .enter .tryReadLatest⟩ :: operations .host 20) ++ wholeCall .driver smallPublish 25 ++
      operations .host 21 ++ [⟨.host, .leave⟩]

/-- The clean-up takes away the newest frame. -/
theorem newest_lost : ¬∀ c : RingConfig,
    Run (driverCalls DriverCall.Succeeds) RingConfig.initial c →
    (c.status .driver).isIdle = true → (c.status .host).isIdle = true →
      NewestAvailable c.shared := by
  intro h
  have hfollow : (RingConfig.initial.follow (driverCalls DriverCall.Succeeds)
      republishBeforePurge).map RingConfig.summary =
        some ⟨true, true, [1, 2, 3], [2], [], [.free, .free]⟩ := by decide +kernel
  obtain ⟨c, hc, hend⟩ := Option.map_eq_some_iff.1 hfollow
  simp only [RingConfig.summary, Summary.mk.injEq] at hend
  obtain ⟨hd, hh, hpub, hret, hrej, hstates⟩ := hend
  have hseq : ∀ n, n ∈ [1, 2, 3] ↔ ∃ q ∈ c.shared.log.published, q.sequence = n := by
    intro n
    rw [← hpub, List.mem_map]
  obtain ⟨p, hp, hp3⟩ := (hseq 3).1 (by decide)
  have hle : ∀ q ∈ c.shared.log.published, q.sequence ≤ p.sequence := by
    intro q hq
    have hmem := (hseq q.sequence).2 ⟨q, hq, rfl⟩
    simp at hmem
    omega
  rcases h c (Config.run_of_follow hc) hd hh p hp hle with ⟨f, hf, hfp, -⟩ | hr | ⟨i, hi, -⟩
  · have hmem : f.1 ∈ [2] := hret ▸ List.mem_map_of_mem hf
    rw [hfp, hp3] at hmem
    simp at hmem
  · simp [hrej] at hr
  · have hmem : c.shared.ring.state i ∈ [SlotState.free, .free] :=
      hstates ▸ List.mem_map_of_mem (mem_slotIndices i)
    simp [hi] at hmem

/-- An operation that would free a ready slot finds it older than the slot that
the host has claimed. -/
def FreesOlder (s : Shared) : (β : Type) → RingOp β → Prop
  | _, .compareExchange j .free expected =>
      s.ring.state j = expected → s.ring.sequence j < s.log.claimed
  | _, _ => True

instance (s : Shared) : (β : Type) → (o : RingOp β) → Decidable (FreesOlder s β o)
  | _, .compareExchange j .free expected =>
      inferInstanceAs (Decidable (s.ring.state j = expected → s.ring.sequence j < s.log.claimed))
  | _, .compareExchange _ .writing _ | _, .compareExchange _ .ready _
  | _, .compareExchange _ .reading _ | _, .exchange .. | _, .readState .. | _, .readField ..
  | _, .writeField .. | _, .readByte .. | _, .writeByte .. | _, .readHeader ..
  | _, .addTelemetry .. => .isTrue trivial

/-- What the host is about to do is no clean-up of a slot that is not older. -/
def NextFreesOlder (s : Shared) :
    Status (ringSystem.Local .host) (ringSystem.Residual .host) → Prop
  | .busy (.act o _) => FreesOlder s _ o
  | _ => True

instance (s : Shared) : (st : _) → Decidable (NextFreesOlder s st)
  | .busy (.act o _) => inferInstanceAs (Decidable (FreesOlder s _ o))
  | .busy (.ret _) | .idle _ => .isTrue trivial

/-- Whenever the clean-up is about to free a ready slot, the slot's sequence is
below that of the selected slot.  It was when the two were compared; so this says
that the driver has not published the slot in between. -/
def PurgesOlder : ringSystem.Guard := fun c i m _ ↦
  match i, m with
  | .host, .act _ => NextFreesOlder c.shared (c.status .host)
  | _, _ => True

instance (c : RingConfig) (i : Side) (m : ringSystem.Move i) (c' : RingConfig) :
    Decidable (PurgesOlder c i m c') :=
  match i, m with
  | .host, .act _ => inferInstanceAs (Decidable (NextFreesOlder c.shared (c.status .host)))
  | .host, .enter _ | .host, .leave | .driver, _ => .isTrue trivial

/-- A step that meets the condition frees nothing that is not older. -/
theorem PurgesOlder.stalePurges {allow : ringSystem.Guard}
    (hallow : ∀ c i m c', allow c i m c' → PurgesOlder c i m c') {c c' : RingConfig}
    (h : Step allow c c') : c'.shared.log.stalePurges = c.shared.log.stalePurges := by
  obtain ⟨i, m, hm, ha⟩ := h
  have hpurge := hallow _ _ _ _ ha
  cases m with
  | enter call =>
      obtain ⟨l, -, rfl⟩ := Config.next_enter hm
      cases i with
      | driver => cases call <;> rfl
      | host => rfl
  | leave =>
      obtain ⟨r, l, -, rfl⟩ := Config.next_leave hm
      cases i with
      | driver => rfl
      | host => rcases r with (_ | _ | _ | _) | _ <;> rfl
  | act w =>
      obtain ⟨β, o, k, r, s, hstatus, he, rfl⟩ := Config.next_act hm
      cases i with
      | driver =>
          cases he
          cases o with
          | compareExchange i x e => simp only [Log.driverStep]; split <;> rfl
          | exchange i x => cases x <;> rfl
          | _ => rfl
      | host =>
          cases he
          cases o with
          | compareExchange j x e =>
              cases x with
              | free =>
                  simp only [PurgesOlder, hstatus, NextFreesOlder, FreesOlder] at hpurge
                  simp only [Config.set_shared, Log.readerStep]
                  split
                  · next hpurged => exact absurd (hpurge hpurged.1) (not_lt.2 hpurged.2)
                  · rfl
              | reading => simp only [Config.set_shared, Log.readerStep]; split <;> rfl
              | _ => rfl
          | _ => rfl

/-- **The newest frame is not lost**, in every interleaving in which the driver
does not publish a slot between the comparison and the exchange of the
clean-up. -/
theorem newest_available {c : RingConfig}
    (hrun : Run (fun c i m c' ↦ driverCalls DriverCall.Succeeds c i m c' ∧ PurgesOlder c i m c')
      RingConfig.initial c)
    (hd : (c.status .driver).isIdle = true) (hh : (c.status .host).isIdle = true) :
    NewestAvailable c.shared := by
  have hallow : ∀ (c : RingConfig) i (m : ringSystem.Move i) c',
      driverCalls DriverCall.Succeeds c i m c' ∧ PurgesOlder c i m c' →
        driverCalls (Assumption.Admits ⟨True, True⟩) c i m c' := by
    rintro c (_ | _) (_ | _ | _) c' ⟨h, -⟩
    · exact ⟨h.1, fun _ ↦ h.2.1, fun _ ↦ h.2.2⟩
    all_goals trivial
  have hok := ringOutline_run hallow hrun
  have hinv : Inv ⟨True, True⟩ c.shared := hok.inv
  have hsorted := hinv.sorted trivial
  have hpurges : c.shared.log.stalePurges = 0 := by
    clear hok hinv hsorted hd hh
    induction hrun with
    | refl => rfl
    | tail _ hstep ih => exact (PurgesOlder.stalePurges (fun _ _ _ _ h ↦ h.2) hstep).trans ih
  obtain ⟨m, hm⟩ := Status.isIdle_iff.1 hd
  obtain ⟨r, hr⟩ := Status.isIdle_iff.1 hh
  have hdriver := hok.status .driver
  have hhost := hok.status .host
  rw [hm] at hdriver
  rw [hr] at hhost
  intro p hp hmax
  -- the publication of the highest sequence is the last one
  have hlast : c.shared.log.published.getLast? = some p := by
    cases hl : c.shared.log.published.getLast? with
    | none => simp [List.getLast?_eq_none_iff.1 hl] at hp
    | some q =>
        have hq := List.mem_of_getLast? hl
        rw [Publication.eq_of_sequence hsorted hq hp
          (le_antisymm (hmax q hq) (Publication.sequence_le_last hsorted hp hl))]
  rcases HostIdle.kept hhost trivial trivial hpurges p hlast with h | h | h | h
  · obtain ⟨f, hf, hfp⟩ := List.mem_map.1 h
    obtain ⟨q, hq, hqf, hshows⟩ := hinv.returned f hf
    cases Publication.eq_of_sequence hsorted hq hp (hqf.trans hfp)
    exact .inl ⟨f, hf, hfp, hshows⟩
  · exact .inr (.inl h)
  · rcases h with ⟨i, hi⟩ | ⟨i, q, hi, hq, hqi⟩
    · rw [DriverIdle.owns hdriver i] at hi
      cases hi
    · obtain ⟨q', hq', hfill⟩ := hinv.content i (.inl hi)
      cases hlast.symm.trans hq
      have heq : q'.sequence = p.sequence := by
        rw [hqi, Publication.sequence, FrameRing.sequence, hfill.1]
      cases Publication.eq_of_sequence hsorted hq' hp heq
      exact .inr (.inr ⟨i, hi, hfill⟩)
  · cases h

/-- The host reads the second of two frames, and frees the first. -/
theorem newest_available_two_frames : ∃ c : RingConfig,
    Run (fun c i m c' ↦ driverCalls DriverCall.Succeeds c i m c' ∧ PurgesOlder c i m c')
      RingConfig.initial c ∧
        c.summary = ⟨true, true, [1, 2], [2], [], [.free, .free]⟩ ∧ NewestAvailable c.shared := by
  have hfollow : (RingConfig.initial.follow
      (fun c i m c' ↦ driverCalls DriverCall.Succeeds c i m c' ∧ PurgesOlder c i m c')
      (wholeCall .driver smallPublish 19 ++ wholeCall .driver smallPublish 20 ++
        wholeCall .host .tryReadLatest 41)).map RingConfig.summary =
          some ⟨true, true, [1, 2], [2], [], [.free, .free]⟩ := by decide +kernel
  obtain ⟨c, hc, hend⟩ := Option.map_eq_some_iff.1 hfollow
  have hr := Config.run_of_follow hc
  exact ⟨c, hr, hend, newest_available hr (congrArg Summary.driverIdle hend)
    (congrArg Summary.hostIdle hend)⟩

end SecondScreen.Ring
