import Mathlib.Data.Fintype.Card
import SecondScreen.Ring.HostOps
import SecondScreen.Ring.Sharing

/-!
# The publisher is not starved

`ClaimFrameSlot` against a host in any point of any number of `TryReadLatest`
calls, on a ring of any contents.

While the driver has claimed nothing, a slot only ever moves from ready to
reading to free, so the number of ready slots cannot grow, and a slot that is
free stays free.  An attempt that fails either has left no slot ready, or has
seen a ready slot that then was ready no more.  So each failed attempt costs the
host a ready slot, and once none is left one slot is free, as only one can be
being read (`claimAttempts_succeeds`).

There is one exception.  The search for the oldest slot starts from the greatest
64-bit number and compares strictly, so a ready slot with that very sequence is
not found (`claim_starved`).
-/

namespace SecondScreen.Ring

open SecondScreen.Conc SecondScreen.Conc.System

/-! ## The system -/

/-- One operation on the ring, without any record. -/
def ringExec : Exec RingOp Unit FrameRing := fun β _ o ring ↦ some (RingOp.exec β o ring)

/-- One claim of the driver next to any number of reads of the host.  The driver
keeps what its last claim returned. -/
def claimSystem : System Side RingOp Unit FrameRing where
  Local
    | .driver => Option (Option Slot)
    | .host => FrameRingReader
  Call _ := Unit
  Result
    | .driver => Option Slot
    | .host => Outcome
  body
    | .driver => fun _ _ ↦ do
        let slot ← claimFrameSlot
        return (slot, some slot)
    | .host => fun _ r ↦ tryReadLatest r
  exec _ := ringExec
  enter _ _ _ := id
  leave _ _ := id

/-- What the last claim returned, if one has finished and none has been started
since. -/
def lastClaim (c : claimSystem.Config) : Option (Option Slot) :=
  match c.status .driver with
  | .idle last => last
  | .busy _ => none

namespace FrameRing

variable {ring ring' : FrameRing}

/-- At most one slot is being read. -/
def OneReading (ring : FrameRing) : Prop :=
  ∀ i j, ring.state i = .reading → ring.state j = .reading → i = j

/-- No slot is being written. -/
def NoneWriting (ring : FrameRing) : Prop := ∀ i, ring.state i ≠ .writing

/-- The sequences of the ready slots are below the greatest 64-bit number. -/
def SequencesBelowMax (ring : FrameRing) : Prop :=
  ∀ i, ring.state i = .ready → ring.sequence i < uint64Max

instance (ring : FrameRing) : Decidable ring.OneReading :=
  inferInstanceAs (Decidable (∀ i j, _ → _ → i = j))

instance (ring : FrameRing) : Decidable ring.NoneWriting :=
  inferInstanceAs (Decidable (∀ i, ring.state i ≠ .writing))

instance (ring : FrameRing) : Decidable ring.SequencesBelowMax :=
  inferInstanceAs (Decidable (∀ i, _ → ring.sequence i < uint64Max))

/-- The slots that are ready. -/
def readySlots (ring : FrameRing) : Finset Slot := Finset.univ.filter fun i ↦ ring.state i = .ready

@[simp] theorem mem_readySlots {i : Slot} : i ∈ ring.readySlots ↔ ring.state i = .ready := by
  simp [readySlots]

end FrameRing

/-- At most one slot is being read at any time, and a claim starts only on a ring
that satisfies `P`. -/
def claimsFrom (P : FrameRing → Prop) : claimSystem.Guard := fun c i m c' ↦
  c'.shared.OneReading ∧
    match i, m with
    | .driver, .enter _ => P c.shared
    | _, _ => True

/-! ## What the host does to a ring without claimed slots -/

namespace Loosens

variable {ring ring' : FrameRing}

theorem noneWriting (h : Loosens ring ring') (hw : ring.NoneWriting) : ring'.NoneWriting := by
  intro i hi
  rcases h.state i with heq | hf | ⟨-, hr⟩
  · exact hw i (heq.trans hi)
  · rw [hf] at hi
    cases hi
  · rw [hr] at hi
    cases hi

theorem readySlots (h : Loosens ring ring') : ring'.readySlots ⊆ ring.readySlots := fun _ hi ↦
  FrameRing.mem_readySlots.2 (h.ready (FrameRing.mem_readySlots.1 hi))

theorem sequencesBelowMax (h : Loosens ring ring') (hs : ring.SequencesBelowMax) :
    ring'.SequencesBelowMax := by
  intro i hi
  rw [FrameRing.sequence, h.field]
  exact hs i (h.ready hi)

end Loosens

/-! ## The claim -/

/-- What the driver may assume of the host, and the host of the driver. -/
def claimRG : Side → RG FrameRing
  | .driver =>
      { rely := fun ring ring' ↦ Loosens ring ring' ∧ ring'.OneReading
        guar := fun _ _ ↦ True
        rely_trans := fun h h' ↦ ⟨h.1.trans h'.1, h'.2⟩
        rely_refl := fun h ↦ ⟨.refl _, h.2⟩ }
  | .host =>
      { rely := fun _ _ ↦ True
        guar := Loosens
        rely_trans := fun _ _ ↦ trivial
        rely_refl := fun _ ↦ trivial }

/-- The ring while the driver has claimed nothing. -/
structure Unclaimed (ring : FrameRing) : Prop where
  noneWriting : ring.NoneWriting
  oneReading : ring.OneReading
  sequences : ring.SequencesBelowMax

theorem Unclaimed.stable : (claimRG .driver).Stable Unclaimed := fun _ _ h hs ↦
  ⟨h.1.noneWriting hs.noneWriting, h.2, h.1.sequencesBelowMax hs.sequences⟩

/-- Where no slot is ready, one is free, as only one is being read. -/
theorem Unclaimed.exists_free {ring : FrameRing} (h : Unclaimed ring)
    (hr : ∀ i, ring.state i ≠ .ready) : ∃ i, ring.state i = .free := by
  by_contra hf
  have hreading : ∀ i, ring.state i = .reading := by
    intro i
    cases hi : ring.state i with
    | free => exact absurd ⟨i, hi⟩ hf
    | writing => exact absurd hi (h.noneWriting i)
    | ready => exact absurd hi (hr i)
    | reading => rfl
  exact absurd (h.oneReading 0 1 (hreading 0) (hreading 1)) (by decide)

/-- Some slot of the list is free, or there are ready slots, at most `n`. -/
def FreeOrReady (l : List Slot) (n : Nat) (ring : FrameRing) : Prop :=
  (∃ i ∈ l, ring.state i = .free) ∨ 0 < n ∧ ring.readySlots.card ≤ n

theorem FreeOrReady.stable (l : List Slot) (n : Nat) :
    (claimRG .driver).Stable (FreeOrReady l n) := by
  intro s t h hs
  refine hs.imp ?_ fun hn ↦ ⟨hn.1, (Finset.card_le_card h.1.readySlots).trans hn.2⟩
  rintro ⟨i, hi, hf⟩
  exact ⟨i, hi, h.1.free hf⟩

/-- With at most `n` slots ready there is either a ready slot or a free one. -/
theorem Unclaimed.freeOrReady {ring : FrameRing} (h : Unclaimed ring) {n : Nat}
    (hn : ring.readySlots.card ≤ n) : FreeOrReady slotIndices n ring := by
  rcases Nat.eq_zero_or_pos n with rfl | hpos
  · refine .inl ?_
    obtain ⟨i, hi⟩ := h.exists_free fun i hi ↦ by
      have hmem := FrameRing.mem_readySlots.2 hi
      rw [Finset.card_eq_zero.1 (Nat.le_zero.1 hn)] at hmem
      cases hmem
    exact ⟨i, mem_slotIndices i, hi⟩
  · exact .inr ⟨hpos, hn⟩

/-- The first pass fails only if no slot was free when it came by. -/
theorem claimFree_pressed (l : List Slot) (n : Nat) :
    Triple ringExec (claimRG .driver) (fun ring ↦ Unclaimed ring ∧ FreeOrReady l n ring)
      (claimFree l) fun o ring ↦ o = none → Unclaimed ring ∧ FreeOrReady [] n ring := by
  have hstable (l : List Slot) := Unclaimed.stable.and (FreeOrReady.stable l n)
  induction l with
  | nil => exact Triple.ret (hstable []) fun _ h _ ↦ h
  | cons i l ih =>
      refine Triple.act (hstable (i :: l))
        (fun old ring ↦ old ≠ .free → Unclaimed ring ∧ FreeOrReady l n ring) ?_ fun old ↦ ?_
      · rintro ring - ⟨hu, hf⟩ w old ring' he
        simp only [ringExec, RingOp.exec, Option.some.injEq, Prod.mk.injEq] at he
        obtain ⟨rfl, rfl⟩ := he
        refine ⟨trivial, fun hne ↦ ?_⟩
        rw [if_neg hne]
        refine ⟨hu, hf.imp_left ?_⟩
        rintro ⟨j, hj, hjf⟩
        rcases List.mem_cons.1 hj with rfl | hj
        · exact absurd hjf hne
        · exact ⟨j, hj, hjf⟩
      · simp only [Prog.ret_bind]
        split
        · exact fun _ _ _ _ h ↦ by cases h
        · next hne => exact ih.conseq (fun _ h ↦ h hne) fun _ _ h ↦ h

/-- What the search for the oldest slot knows: nothing ready among the slots
passed, or a slot that was ready, so that once it is not, fewer are. -/
def Searched (l : List Slot) (n : Nat) (ring : FrameRing) : Option Slot × Nat → Prop
  | (none, oldestSequence) => oldestSequence = uint64Max ∧ ∀ i, ring.state i = .ready → i ∈ l
  | (some i, _) => (ring.readySlots.erase i).card < n

theorem Searched.stable (l : List Slot) (n : Nat) (o : Option Slot × Nat) :
    (claimRG .driver).Stable fun ring ↦ Searched l n ring o := by
  intro s t h hs
  match o with
  | (none, _) => exact ⟨hs.1, fun i hi ↦ hs.2 i (h.1.ready hi)⟩
  | (some i, _) =>
      exact (Finset.card_le_card (Finset.erase_subset_erase i h.1.readySlots)).trans_lt hs

/-- A ready slot, once gone, leaves fewer. -/
theorem FreeOrReady.erase {n : Nat} {ring : FrameRing} (h : FreeOrReady [] n ring) {i : Slot}
    (hi : ring.state i = .ready) : (ring.readySlots.erase i).card < n := by
  rcases h with ⟨j, hj, -⟩ | ⟨-, hn⟩
  · cases hj
  · exact (Finset.card_erase_lt_of_mem (FrameRing.mem_readySlots.2 hi)).trans_le hn

/-- The second pass. -/
theorem findOldest_searched (l : List Slot) (oldest : Option Slot) (oldestSequence n : Nat) :
    Triple ringExec (claimRG .driver)
      (fun ring ↦ (Unclaimed ring ∧ FreeOrReady [] n ring) ∧
        Searched l n ring (oldest, oldestSequence))
      (findOldest l oldest oldestSequence)
      fun o ring ↦ Unclaimed ring ∧ ∃ q, Searched [] n ring (o, q) := by
  have hbase := Unclaimed.stable.and (FreeOrReady.stable [] n)
  induction l generalizing oldest oldestSequence with
  | nil => exact Triple.ret (hbase.and (Searched.stable _ _ _)) fun _ h ↦ ⟨h.1.1, _, h.2⟩
  | cons i l ih =>
      refine Triple.act (hbase.and (Searched.stable (i :: l) n (oldest, oldestSequence)))
        (fun st ring ↦ ((Unclaimed ring ∧ FreeOrReady [] n ring) ∧
          Searched (i :: l) n ring (oldest, oldestSequence)) ∧
            if st = .ready then ring.sequence i < uint64Max ∧ (ring.readySlots.erase i).card < n
            else Searched l n ring (oldest, oldestSequence)) ?_ fun st ↦ ?_
      · rintro ring - ⟨⟨hu, hf⟩, hs⟩ w st ring' he
        cases he
        refine ⟨trivial, ⟨⟨hu, hf⟩, hs⟩, ?_⟩
        split
        · next hi => exact ⟨hu.sequences i hi, hf.erase hi⟩
        · next hi =>
          match oldest with
          | none =>
              refine ⟨hs.1, fun j hj ↦ (List.mem_cons.1 (hs.2 j hj)).resolve_left ?_⟩
              rintro rfl
              exact hi hj
          | some _ => exact hs
      · simp only [Prog.ret_bind]
        split
        case isFalse =>
          exact (ih oldest oldestSequence).conseq (fun _ h ↦ ⟨h.1.1, h.2⟩) fun _ _ h ↦ h
        -- the slot's sequence stays, and it is below the number that the search starts from
        have hfound : (claimRG .driver).Stable fun ring ↦
            ((Unclaimed ring ∧ FreeOrReady [] n ring) ∧
              Searched (i :: l) n ring (oldest, oldestSequence)) ∧
              ring.sequence i < uint64Max ∧ (ring.readySlots.erase i).card < n := by
          intro s t h hs
          refine ⟨(hbase.and (Searched.stable _ _ _)) s t h hs.1, ?_,
            Searched.stable l n (some i, 0) s t h hs.2.2⟩
          rw [FrameRing.sequence, h.1.field]
          exact hs.2.1
        refine Triple.act hfound (fun v ring ↦ (((Unclaimed ring ∧ FreeOrReady [] n ring) ∧
          Searched (i :: l) n ring (oldest, oldestSequence)) ∧
            ring.sequence i < uint64Max ∧ (ring.readySlots.erase i).card < n) ∧ v < uint64Max) ?_
          fun v ↦ Triple.of_const fun hv ↦ ?_
        · rintro ring - h w v ring' he
          cases he
          exact ⟨trivial, h, h.2.1⟩
        simp only [Prog.ret_bind]
        split
        · refine Triple.act hfound (fun _ ring ↦ (Unclaimed ring ∧ FreeOrReady [] n ring) ∧
            (ring.readySlots.erase i).card < n) ?_ fun w ↦ ih (some i) w
          rintro ring - h w v ring' he
          cases he
          exact ⟨trivial, h.1.1, h.2.2⟩
        · next hge =>
          refine (ih oldest oldestSequence).conseq (fun ring h ↦ ⟨h.1.1, ?_⟩) fun _ _ h ↦ h
          match oldest with
          | none => exact absurd (h.1.2.1 ▸ hv) hge
          | some _ => exact h.1.2

/-- More attempts than ready slots claim a slot. -/
theorem claimAttempts_succeeds (m n : Nat) (hnm : n < m) :
    Triple ringExec (claimRG .driver)
      (fun ring ↦ Unclaimed ring ∧ FreeOrReady slotIndices n ring) (claimAttempts m)
      fun o _ ↦ o ≠ none := by
  induction m generalizing n with
  | zero => exact absurd hnm n.not_lt_zero
  | succ m ih =>
      have hsome (i : Slot) (A : FrameRing → Prop) : Triple ringExec (claimRG .driver) A
          (.ret (some i)) fun o _ ↦ o ≠ none := fun _ _ _ _ h ↦ by cases h
      refine Triple.bind _ (claimFree_pressed slotIndices n) fun slot ↦ ?_
      cases slot with
      | some i => exact hsome i _
      | none =>
          rcases Nat.eq_zero_or_pos n with rfl | hn
          · intro ring h
            rcases (h rfl).2 with ⟨_, hi, -⟩ | ⟨h0, -⟩
            · cases hi
            · exact absurd h0 (Nat.lt_irrefl 0)
          refine Triple.bind _ ((findOldest_searched slotIndices none uint64Max n).conseq
            (fun _ h ↦ ⟨h rfl, rfl, fun i _ ↦ mem_slotIndices i⟩) fun _ _ h ↦ h) fun oldest ↦ ?_
          have hrest := ih (n - 1) (by omega)
          cases oldest with
          | none =>
              refine hrest.conseq ?_ fun _ _ h ↦ h
              rintro ring ⟨hu, q, hs⟩
              obtain ⟨i, hi⟩ := hu.exists_free fun i hi ↦ by cases hs.2 i hi
              exact ⟨hu, .inl ⟨i, mem_slotIndices i, hi⟩⟩
          | some i =>
              -- if the exchange fails, the slot is not ready any more
              have hstable : (claimRG .driver).Stable fun ring ↦
                  Unclaimed ring ∧ ∃ q, Searched [] n ring (some i, q) := fun s t h hs ↦
                ⟨Unclaimed.stable s t h hs.1, 0,
                  Searched.stable [] n (some i, 0) s t h hs.2.choose_spec⟩
              refine Triple.act hstable (fun old ring ↦ old ≠ .ready → Unclaimed ring ∧
                FreeOrReady slotIndices (n - 1) ring) ?_ fun old ↦ ?_
              · rintro ring - ⟨hu, q, hs⟩ w old ring' he
                simp only [ringExec, RingOp.exec, Option.some.injEq, Prod.mk.injEq] at he
                obtain ⟨rfl, rfl⟩ := he
                refine ⟨trivial, fun hne ↦ ?_⟩
                rw [if_neg hne]
                refine ⟨hu, hu.freeOrReady ?_⟩
                have hlt : (ring.readySlots.erase i).card < n := hs
                rw [Finset.erase_eq_of_notMem (by simpa using hne)] at hlt
                omega
              · simp only [Prog.ret_bind]
                split
                · exact hsome i _
                · next hne => exact hrest.conseq (fun _ h ↦ h hne) fun _ _ h ↦ h

/-! ## Runs -/

instance (P : FrameRing → Prop) [DecidablePred P] (c : claimSystem.Config) (i : Side)
    (m : claimSystem.Move i) (c' : claimSystem.Config) : Decidable (claimsFrom P c i m c') :=
  match i, m with
  | .driver, .enter _ => inferInstanceAs (Decidable (c'.shared.OneReading ∧ P c.shared))
  | .driver, .act _ | .driver, .leave | .host, _ =>
      inferInstanceAs (Decidable (c'.shared.OneReading ∧ True))

/-- The rings that a claim may start on. -/
def FrameRing.ClaimStart (ring : FrameRing) : Prop := ring.NoneWriting ∧ ring.SequencesBelowMax

instance (ring : FrameRing) : Decidable ring.ClaimStart :=
  inferInstanceAs (Decidable (ring.NoneWriting ∧ ring.SequencesBelowMax))

/-- Whatever is left of a read loosens the ring. -/
theorem host_safe {p : RingProg (Outcome × FrameRingReader)} (hp : p.Uses HostOp)
    (ring : FrameRing) :
    Safe ringExec (claimRG .host) (fun _ t ↦ (claimRG .host).guar t t ∧ True) p ring := by
  refine (Safe.of_uses hp (fun β o ho w s r u hu ↦ ?_) ring).mono fun _ t _ ↦ ⟨.refl t, trivial⟩
  have hexec : (RingOp.exec β o s).2 = u := congrArg Prod.snd (Option.some.inj hu)
  exact hexec ▸ ho.loosens s

/-- The proof outline of a claim next to a host. -/
def claimOutline : Outline claimSystem (claimsFrom FrameRing.ClaimStart) where
  inv := FrameRing.OneReading
  rg := claimRG
  idle
    | .driver => fun last _ ↦ last ≠ some none
    | .host => fun _ _ ↦ True
  inv_next h _ _ := h.1
  rely_refl i s h := by
    cases i
    · exact ⟨.refl s, h⟩
    · trivial
  compat {i j s t} hij _ ht h := by
    cases i <;> cases j <;> first | exact absurd rfl hij | skip
    · exact ⟨h, ht⟩
    · trivial
  idle_stable i l := by
    cases i <;> exact fun _ _ _ h ↦ h
  enter_ok {c i call c' l} hinv ha _ := by
    cases i with
    | driver =>
        have hu : Unclaimed c.shared := ⟨ha.2.1, hinv, ha.2.2⟩
        refine ⟨trivial, Safe.bind ((claimAttempts_succeeds (kSlotCount + 1) kSlotCount
          (Nat.lt_succ_self _) c.shared ⟨hu, hu.freeOrReady ?_⟩).mono ?_)⟩
        · simpa using Finset.card_le_univ c.shared.readySlots
        · exact fun slot t hslot u _ ↦ ⟨trivial, fun h ↦ hslot (Option.some.inj h)⟩
    | host => exact ⟨.refl _, host_safe (tryReadLatest_uses l) _⟩

/-- **`ClaimFrameSlot` is not starved.**  Start on a ring of any contents, with
the host at any point of a read.  Then, as long as at most one slot is being read
at any time, a claim that starts while no slot is being written and no ready slot
has the greatest sequence does not return the null pointer. -/
theorem claim_succeeds {c₀ c : claimSystem.Config} (h1 : c₀.shared.OneReading)
    (hd : c₀.status .driver = .idle none)
    (hh : ∀ p, c₀.status .host = .busy p → ∃ r, (tryReadLatest r).Leaves p)
    (hrun : Run (claimsFrom FrameRing.ClaimStart) c₀ c) :
    lastClaim c ≠ some none := by
  have hok : claimOutline.Ok c₀ := by
    refine ⟨h1, fun i ↦ ?_⟩
    cases i with
    | driver =>
        rw [hd]
        exact fun h ↦ by cases h
    | host =>
        cases hstatus : c₀.status .host with
        | idle r => trivial
        | busy p =>
            obtain ⟨r, hr⟩ := hh p hstatus
            exact host_safe ((tryReadLatest_uses r).leaves hr) _
  have hidle := (claimOutline.ok_run hok hrun).status .driver
  unfold lastClaim
  split
  · next last hlast =>
    rw [hlast] at hidle
    exact hidle
  · exact fun h ↦ by cases h

/-- A ring with a slot being read and a ready slot of the given sequence. -/
def readingAndReady (sequence : Nat) : FrameRing :=
  { FrameRing.initial with
    slots := fun i ↦
      if i = 0 then { state := .reading }
      else { state := .ready, field := fun _ ↦ sequence } }

/-- Driver and host between two calls on that ring. -/
def claimStart (sequence : Nat) : claimSystem.Config where
  shared := readingAndReady sequence
  status
    | .driver => .idle (none : Option (Option Slot))
    | .host => .idle ({} : FrameRingReader)

/-- The claim takes the ready slot. -/
theorem claim_succeeds_on_ready : ∃ c, Run (claimsFrom FrameRing.ClaimStart) (claimStart 1) c ∧
    c.shared.state 1 = .writing ∧ lastClaim c ≠ some none := by
  have hfollow : ((claimStart 1).follow (claimsFrom FrameRing.ClaimStart)
      (⟨.driver, .enter ()⟩ :: .replicate 7 ⟨.driver, .act ()⟩ ++ [⟨.driver, .leave⟩])).map
        (fun c ↦ c.shared.state 1) = some .writing := by decide +kernel
  obtain ⟨c, hc, hw⟩ := Option.map_eq_some_iff.1 hfollow
  have hr := Config.run_of_follow hc
  exact ⟨c, hr, hw, claim_succeeds (by decide) rfl (fun p hp ↦ by cases hp) hr⟩

/-- A ready slot with the greatest sequence is not found: the claim returns the
null pointer although the host does nothing at all. -/
theorem claim_starved : ¬∀ c₀ c : claimSystem.Config, c₀.shared.OneReading →
    c₀.status .driver = .idle none →
      (∀ p, c₀.status .host = .busy p → ∃ r, (tryReadLatest r).Leaves p) →
        Run (claimsFrom FrameRing.NoneWriting) c₀ c → lastClaim c ≠ some none := by
  intro h
  have hfollow : ((claimStart uint64Max).follow (claimsFrom FrameRing.NoneWriting)
      (⟨.driver, .enter ()⟩ :: .replicate 15 ⟨.driver, .act ()⟩ ++ [⟨.driver, .leave⟩])).map
        lastClaim = some (some none) := by decide +kernel
  obtain ⟨c, hc, hnone⟩ := Option.map_eq_some_iff.1 hfollow
  exact h _ c (by decide) rfl (fun p hp ↦ by cases hp) (Config.run_of_follow hc) hnone

end SecondScreen.Ring
