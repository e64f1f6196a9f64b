import SecondScreen.Client.InputStarvation
import SecondScreen.Client.LatestFrameQueue

/-!
# Units that the queue drops

The receiving thread offers the units to the queue in the order in which the host has
sent them, and the decoder thread takes them from it.  What the queue drops, `decode`
has to notice from the frame ids of what it takes.
-/

namespace SecondScreen.Client

/-! ## The two threads -/

/-- What the threads do: the receiver offers the next unit, or the decoder takes one and
decodes it with these answers of the codec. -/
inductive QueueEvent
  | offer
  | take (answers : CodecAnswers)

/-- The units on their way, by their position in what the host has sent.  `decode` leaves
the queue alone, so the decoder is run over `taken`. -/
structure Feed where
  offered : Nat := 0
  queue : LatestFrameQueue (Nat × EncodedFrame) := {}
  taken : List (Nat × Offered) := []

def Feed.step (units : List EncodedFrame) (s : Feed) : QueueEvent → Option Feed
  | .offer =>
      units[s.offered]?.map fun u ↦
        { s with
          offered := s.offered + 1
          queue := s.queue.offer (fun v ↦ v.2.randomAccess) (s.offered, u) }
  | .take answers =>
      match s.queue.take with
      | some (some (n, u), queue) =>
          some { s with queue, taken := s.taken ++ [(n, ⟨u, answers⟩)] }
      | _ => none

/-- The threads in any interleaving. -/
def Feed.run (units : List EncodedFrame) (events : List QueueEvent) : Option Feed :=
  events.foldlM (Feed.step units) {}

/-- The units that reach the decoder. -/
def Feed.toDecoder (s : Feed) : List Offered := s.taken.map Prod.snd

/-- The unit that the host has sent at a position is queued to the codec. -/
def Feed.WasQueued (s : Feed) (n : Nat) : Prop :=
  ∃ k : Nat, ∃ u : Offered, s.taken[k]? = some (n, u) ∧
    (decodeAll { started := true } s.toDecoder)[k]? = some true

/-- What the host can send: first an IDR, then units with a new frame id and refreshes
that repeat the one before. -/
structure HostUnits (units : List EncodedFrame) : Prop where
  first : ∀ u, units.head? = some u → u.randomAccess = true
  ids : units.IsChain fun u v ↦ u.frameId ≤ v.frameId

/-- A unit that is not a random-access unit is queued only if the unit sent before it
was, so that after a dropped unit nothing is before the next random-access unit. -/
structure EveryDropNoticed (units : List EncodedFrame) (s : Feed) : Prop where
  predecessor : ∀ n : Nat, ∀ u : EncodedFrame, units[n + 1]? = some u → u.randomAccess = false →
    s.WasQueued (n + 1) → s.WasQueued n
  resumes : ∀ i j : Nat, i < j → ¬ s.WasQueued i → s.WasQueued j →
    ∃ m : Nat, ∃ u : EncodedFrame, i < m ∧ m ≤ j ∧ units[m]? = some u ∧ u.randomAccess = true

/-! ## What the frame ids show -/

/-- The frame ids show that units are missing between two that were taken one after the
other. -/
def Skips (t : List Offered) (j : Nat) : Prop :=
  ∃ v w : Offered, t[j]? = some v ∧ t[j + 1]? = some w ∧
    0 ≤ v.frame.frameId ∧ v.frame.frameId + 1 < w.frame.frameId

/-- They have shown it since the last random-access unit. -/
def MissingSince (t : List Offered) (k : Nat) : Prop :=
  ∃ j, j < k ∧ Skips t j ∧
    ∀ m, ∀ w : Offered, j < m → m ≤ k → t[m]? = some w → w.frame.randomAccess = false

/-- Whenever a unit is taken that follows a dropped one and is not a random-access unit,
the frame ids taken since the last random-access unit show that units are missing. -/
def GapsVisible (s : Feed) : Prop :=
  ∀ k n : Nat, ∀ u : Offered, s.taken[k]? = some (n + 1, u) → u.frame.randomAccess = false →
    (∀ v, (n, v) ∉ s.taken) → MissingSince s.toDecoder k

theorem MissingSince.randomAccess {t : List Offered} {k : Nat} {v : Offered}
    (h : MissingSince t k) (hv : t[k]? = some v) : v.frame.randomAccess = false := by
  obtain ⟨j, hj, -, hno⟩ := h
  exact hno k v hj le_rfl hv

theorem missingSince_succ {t : List Offered} {k : Nat} {w : Offered}
    (hw : t[k + 1]? = some w) (hra : w.frame.randomAccess = false) :
    MissingSince t (k + 1) ↔ Skips t k ∨ MissingSince t k := by
  constructor
  · rintro ⟨j, hj, hskips, hno⟩
    rcases Nat.lt_succ_iff_lt_or_eq.1 hj with hlt | rfl
    · right
      exact ⟨j, hlt, hskips, fun m w hjm hmk ↦ hno m w hjm (Nat.le_succ_of_le hmk)⟩
    · exact .inl hskips
  · rintro (hskips | ⟨j, hj, hskips, hno⟩)
    · refine ⟨k, Nat.lt_succ_self k, hskips, fun m x hkm hmk hx ↦ ?_⟩
      obtain rfl : m = k + 1 := by omega
      cases hw.symm.trans hx
      exact hra
    · refine ⟨j, Nat.lt_succ_of_lt hj, hskips, fun m x hjm hmk hx ↦ ?_⟩
      rcases Nat.le_succ_iff.1 hmk with hle | rfl
      · exact hno m x hjm hle hx
      · cases hw.symm.trans hx
        exact hra

/-! ## The decoder when the codec always has a buffer -/

namespace VideoDecoder

/-- A unit is queued unless units are missing, and the decoder then waits exactly if it
was not. -/
theorem decode_supplied {d : VideoDecoder} {u : Offered} (hstarted : d.started = true)
    (hu : u.Quiet) (hsupplied : u.supplied = true) :
    let r := d.decode u.frame u.answers
    let missing := d.waitingForRandomAccess || d.gap u.frame
    (∃ b, r.result = .ok b) ∧ r.queued.isSome = (u.frame.randomAccess || !missing) ∧
      r.decoder.started = true ∧
      r.decoder.waitingForRandomAccess = (!u.frame.randomAccess && missing) ∧
      r.decoder.lastFrameId = u.frame.frameId := by
  intro r missing
  by_cases hskip : missing = true ∧ u.frame.randomAccess = false
  · obtain ⟨hmissing, hra⟩ := hskip
    have hr : r = { decoder := { d with
        lastFrameId := u.frame.frameId
        waitingForRandomAccess := true }, result := .ok false } := by
      simp only [r, missing] at hmissing ⊢
      simp [decode, hstarted, hmissing, hra]
    simp [hr, hra, hmissing, hstarted]
  · have hnone (hra : u.frame.randomAccess = false) : missing = false := by
      simpa [hra] using hskip
    have hr : r = ({ d with
        lastFrameId := u.frame.frameId
        waitingForRandomAccess := !u.frame.randomAccess && missing } : VideoDecoder).submit
          u.frame u.answers := by
      cases hra : u.frame.randomAccess with
      | true => simp [r, decode, hstarted, hra]
      | false =>
          have hmissing := hnone hra
          simp only [r, missing] at hmissing ⊢
          simp [decode, hstarted, hra, hmissing]
    obtain ⟨hresult, hqueued, hs, hw, hl⟩ := @submit_quiet { d with
      lastFrameId := u.frame.frameId
      waitingForRandomAccess := !u.frame.randomAccess && missing } u hu
    rw [hr]
    refine ⟨⟨_, hresult⟩, ?_, hs.trans hstarted, hw, hl⟩
    rw [hqueued, hsupplied]
    cases hra : u.frame.randomAccess with
    | true => rfl
    | false =>
        rw [hnone hra]
        rfl

/-- The decoder after some units. -/
def after (d : VideoDecoder) (units : List Offered) : VideoDecoder :=
  units.foldl (fun d u ↦ (d.decode u.frame u.answers).decoder) d

theorem after_take_succ (d : VideoDecoder) {units : List Offered} {k : Nat} {u : Offered}
    (hu : units[k]? = some u) :
    d.after (units.take (k + 1)) =
      ((d.after (units.take k)).decode u.frame u.answers).decoder := by
  simp [after, List.take_add_one, hu]

end VideoDecoder

/-- The codec always has a buffer, and nothing throws. -/
def Available (units : List Offered) : Prop := ∀ u ∈ units, u.Quiet ∧ u.supplied = true

theorem decodeAll_getElem? {d : VideoDecoder} {units : List Offered} {k : Nat} {u : Offered}
    (hstarted : d.started = true) (hav : Available units) (hu : units[k]? = some u) :
    (decodeAll d units)[k]? =
      some ((d.after (units.take k)).decode u.frame u.answers).queued.isSome := by
  induction units generalizing d k with
  | nil => simp at hu
  | cons v units ih =>
      obtain ⟨hquiet, hsupplied⟩ := hav v List.mem_cons_self
      obtain ⟨⟨b, hresult⟩, -, hs, -⟩ := VideoDecoder.decode_supplied hstarted hquiet hsupplied
      simp only [decodeAll, hresult]
      cases k with
      | zero =>
          cases hu
          rfl
      | succ k => exact ih hs (fun w hw ↦ hav w (List.mem_cons_of_mem v hw)) hu

section Decoder

variable {t : List Offered} (hav : Available t)
include hav

theorem after_started (k : Nat) :
    (VideoDecoder.after { started := true } (t.take k)).started = true := by
  induction k with
  | zero => rfl
  | succ k ih =>
      cases hv : t[k]? with
      | none => rwa [List.take_add_one, hv, Option.toList, List.append_nil]
      | some v =>
          obtain ⟨hquiet, hsupplied⟩ := hav v (List.mem_of_getElem? hv)
          obtain ⟨-, -, hs, -⟩ := VideoDecoder.decode_supplied ih hquiet hsupplied
          rw [VideoDecoder.after_take_succ _ hv]
          exact hs

/-- What the decoder knows when it takes a dependent unit. -/
theorem missing_iff (k : Nat) {u : Offered} (hu : t[k]? = some u)
    (hra : u.frame.randomAccess = false) :
    let d := VideoDecoder.after { started := true } (t.take k)
    (d.waitingForRandomAccess || d.gap u.frame) = true ↔ MissingSince t k := by
  induction k generalizing u with
  | zero =>
      have hlast : ¬(0 : Int64) ≤ -1 := by decide
      simp [VideoDecoder.after, VideoDecoder.gap, MissingSince, hlast]
  | succ k ih =>
      obtain ⟨v, hv⟩ : ∃ v, t[k]? = some v := by
        obtain ⟨hlt, -⟩ := List.getElem?_eq_some_iff.1 hu
        exact ⟨_, List.getElem?_eq_getElem (by omega)⟩
      obtain ⟨hquiet, hsupplied⟩ := hav v (List.mem_of_getElem? hv)
      obtain ⟨-, -, -, hw, hl⟩ :=
        VideoDecoder.decode_supplied (after_started hav k) hquiet hsupplied
      rw [missingSince_succ hu hra, VideoDecoder.after_take_succ _ hv]
      intro d
      have hgap : d.gap u.frame = true ↔ Skips t k := by
        simp [VideoDecoder.gap, d, hl, Skips, hv, hu]
      have hwait : d.waitingForRandomAccess = true ↔ MissingSince t k := by
        rw [hw]
        cases hra' : v.frame.randomAccess with
        | true =>
            have hno : ¬ MissingSince t k := fun h ↦ by
              rw [h.randomAccess hv] at hra'
              cases hra'
            simp [hno]
        | false => simpa using ih hv hra'
      rw [Bool.or_eq_true, hgap, hwait]
      exact or_comm

/-- A unit is queued unless it depends on one that is known to be missing. -/
theorem queued_iff {k : Nat} {u : Offered} (hu : t[k]? = some u) :
    (decodeAll { started := true } t)[k]? = some true ↔
      u.frame.randomAccess = true ∨ ¬ MissingSince t k := by
  obtain ⟨hquiet, hsupplied⟩ := hav u (List.mem_of_getElem? hu)
  obtain ⟨-, hqueued, -⟩ := VideoDecoder.decode_supplied (after_started hav k) hquiet hsupplied
  rw [decodeAll_getElem? rfl hav hu, hqueued, Option.some_inj]
  cases hra : u.frame.randomAccess with
  | true => simp
  | false =>
      have hmissing := missing_iff hav k hu hra
      simp [← hmissing]

/-- A dependent unit right after one that was not queued is not queued either. -/
theorem MissingSince.succ {k : Nat} {u v : Offered} (hu : t[k]? = some u)
    (hv : t[k + 1]? = some v) (hra : v.frame.randomAccess = false)
    (hno : (decodeAll { started := true } t)[k]? ≠ some true) : MissingSince t (k + 1) := by
  rw [Ne, queued_iff hav hu, not_or, not_not] at hno
  exact (missingSince_succ hv hra).2 (.inr hno.2)

end Decoder

/-! ## The order of the units -/

/-- What is taken and what is pending are units of the host, in its order. -/
structure Feed.InOrder (units : List EncodedFrame) (s : Feed) : Prop where
  sorted : (s.taken.map Prod.fst ++ s.queue.pending.map Prod.fst).Pairwise (· < ·)
  lt : ∀ n ∈ s.taken.map Prod.fst ++ s.queue.pending.map Prod.fst, n < s.offered
  taken : ∀ n, ∀ u : Offered, (n, u) ∈ s.taken → units[n]? = some u.frame
  pending : ∀ n u, (n, u) ∈ s.queue.pending → units[n]? = some u

theorem Feed.step_inOrder {units : List EncodedFrame} {s s' : Feed} {event : QueueEvent}
    (h : s.InOrder units) (hstep : s.step units event = some s') : s'.InOrder units := by
  cases event with
  | offer =>
      obtain ⟨u, hu, rfl⟩ := Option.map_eq_some_iff.1 hstep
      have hsub := @LatestFrameQueue.offer_sublist _ (fun v ↦ v.2.randomAccess) s.queue
        (s.offered, u)
      have hsub' : (s.taken.map Prod.fst ++
          (s.queue.offer (fun v ↦ v.2.randomAccess) (s.offered, u)).pending.map Prod.fst).Sublist
            ((s.taken.map Prod.fst ++ s.queue.pending.map Prod.fst) ++ [s.offered]) := by
        rw [List.append_assoc]
        simpa using (hsub.map Prod.fst).append_left (s.taken.map Prod.fst)
      constructor
      · refine List.Pairwise.sublist hsub' (List.pairwise_append.2 ⟨h.sorted, by simp, ?_⟩)
        simpa using h.lt
      · intro n hn
        rcases List.mem_append.1 (hsub'.subset hn) with hn | hn
        · exact Nat.lt_succ_of_lt (h.lt n hn)
        · rw [List.mem_singleton.1 hn]
          exact Nat.lt_succ_self _
      · exact h.taken
      · intro n v hv
        rcases List.mem_append.1 (hsub.subset hv) with hv | hv
        · exact h.pending n v hv
        · cases List.mem_singleton.1 hv
          exact hu
  | take answers =>
      simp only [step] at hstep
      split at hstep
      · next n u queue htake =>
          cases hstep
          have hpending := LatestFrameQueue.take_eq_some htake
          obtain ⟨hsorted, hlt, htaken, hpend⟩ := h
          rw [hpending] at hsorted hlt
          constructor
          · simpa using hsorted
          · simpa using hlt
          · intro m v hv
            rcases List.mem_append.1 hv with hv | hv
            · exact htaken m v hv
            · cases List.mem_singleton.1 hv
              exact hpend n u (hpending ▸ List.mem_cons_self)
          · intro m v hv
            exact hpend m v (hpending ▸ List.mem_cons_of_mem _ hv)
      · cases hstep

theorem Feed.foldlM_inOrder {units : List EncodedFrame} {events : List QueueEvent} {s s' : Feed}
    (hs : s.InOrder units) (h : events.foldlM (Feed.step units) s = some s') :
    s'.InOrder units := by
  induction events generalizing s with
  | nil =>
      cases h
      exact hs
  | cons event events ih =>
      rw [List.foldlM_cons] at h
      obtain ⟨s₁, hstep, h⟩ := Option.bind_eq_some_iff.1 h
      exact ih (step_inOrder hs hstep) h

theorem Feed.run_inOrder {units : List EncodedFrame} {events : List QueueEvent} {s : Feed}
    (h : Feed.run units events = some s) : s.InOrder units :=
  Feed.foldlM_inOrder ⟨by simp, by simp, by simp, by simp⟩ h

theorem Feed.InOrder.index_lt {units : List EncodedFrame} {s : Feed} (h : s.InOrder units)
    {j k m n : Nat} {u v : Offered} (hj : s.taken[j]? = some (m, u))
    (hk : s.taken[k]? = some (n, v)) (hjk : j < k) : m < n := by
  have hsorted := (List.pairwise_append.1 h.sorted).1
  obtain ⟨hjlt, hj⟩ := List.getElem?_eq_some_iff.1 hj
  obtain ⟨hklt, hk⟩ := List.getElem?_eq_some_iff.1 hk
  have hlt :=
    List.pairwise_iff_getElem.1 hsorted j k (by simpa using hjlt) (by simpa using hklt) hjk
  simpa [hj, hk] using hlt

/-- If the unit before one that was taken was taken as well, then right before it. -/
theorem Feed.InOrder.taken_pred {units : List EncodedFrame} {s : Feed} (h : s.InOrder units)
    {k n : Nat} {u v : Offered} (hu : s.taken[k]? = some (n + 1, u)) (hv : (n, v) ∈ s.taken) :
    ∃ j, k = j + 1 ∧ s.taken[j]? = some (n, v) := by
  obtain ⟨j, hj⟩ := List.getElem?_of_mem hv
  refine ⟨j, ?_, hj⟩
  rcases Nat.lt_trichotomy k (j + 1) with hlt | heq | hgt
  · rcases Nat.lt_succ_iff_lt_or_eq.1 hlt with hlt | rfl
    · have := h.index_lt hu hj hlt
      omega
    · cases hu.symm.trans hj
  · exact heq
  · obtain ⟨hklt, -⟩ := List.getElem?_eq_some_iff.1 hu
    obtain ⟨⟨m, w⟩, hw⟩ : ∃ w, s.taken[j + 1]? = some w :=
      ⟨_, List.getElem?_eq_getElem (by omega)⟩
    have h₁ := h.index_lt hj hw (Nat.lt_succ_self j)
    have h₂ := h.index_lt hw hu hgt
    omega

/-! ## The result -/

/-- If every dependent unit that is queued follows one that is, then only a
random-access unit is queued first after one that is not. -/
theorem Feed.InOrder.everyDropNoticed {units : List EncodedFrame} {s : Feed} (h : s.InOrder units)
    (hpred : ∀ n : Nat, ∀ u : EncodedFrame, units[n + 1]? = some u → u.randomAccess = false →
      s.WasQueued (n + 1) → s.WasQueued n) : EveryDropNoticed units s := by
  refine ⟨hpred, fun i j hij hi hj ↦ ?_⟩
  induction j with
  | zero => omega
  | succ j ih =>
      obtain ⟨k, u, hu, -⟩ := id hj
      have hunit := h.taken _ u (List.mem_of_getElem? hu)
      by_cases hra : u.frame.randomAccess = true
      · exact ⟨j + 1, u.frame, hij, le_rfl, hunit, hra⟩
      have hprev := hpred j u.frame hunit (Bool.not_eq_true _ ▸ hra) hj
      have hne : i ≠ j := by
        rintro rfl
        exact hi hprev
      obtain ⟨m, w, him, hmj, hw⟩ := ih (by omega) hprev
      exact ⟨m, w, him, by omega, hw⟩

theorem int64_succ_lt {a b c : Int64} (hab : a < b) (hbc : b < c) : a + 1 < c := by
  rw [Int64.lt_iff_toInt_lt] at *
  have hc := Int64.toInt_lt c
  have ha := Int64.le_toInt a
  rw [Int64.toInt_add, Int64.toInt_one, Int.bmod_eq_of_le] <;> omega

/-- Without refreshes, and if an IDR is the first unit to be taken, every drop is
visible. -/
theorem Feed.InOrder.gapsVisible {units : List EncodedFrame} {s : Feed} (h : s.InOrder units)
    (hnonneg : ∀ u ∈ units, 0 ≤ u.frameId)
    (hfresh : units.Pairwise fun u v ↦ u.frameId < v.frameId)
    (hfirst : ∀ x, s.taken.head? = some x → x.2.frame.randomAccess = true) : GapsVisible s := by
  intro k n w hw hra hdropped
  cases k with
  | zero =>
      have hra' := hfirst (n + 1, w) (List.head?_eq_getElem? ▸ hw)
      rw [hra] at hra'
      cases hra'
  | succ k =>
      obtain ⟨hlt, -⟩ := List.getElem?_eq_some_iff.1 hw
      obtain ⟨⟨i, v⟩, hv⟩ : ∃ v, s.taken[k]? = some v := ⟨_, List.getElem?_eq_getElem (by omega)⟩
      have hvmem := List.mem_of_getElem? hv
      have hi : i < n := by
        have hle := h.index_lt hv hw (Nat.lt_succ_self k)
        have hne : i ≠ n := by
          rintro rfl
          exact hdropped v hvmem
        omega
      obtain ⟨hiv, hiv'⟩ := List.getElem?_eq_some_iff.1 (h.taken i v hvmem)
      obtain ⟨hnw, hnw'⟩ := List.getElem?_eq_some_iff.1 (h.taken _ w (List.mem_of_getElem? hw))
      have hlt := List.pairwise_iff_getElem.1 hfresh
      have hskip := int64_succ_lt (hlt i n hiv (by omega) hi)
        (hlt n (n + 1) (by omega) hnw (Nat.lt_succ_self n))
      rw [hiv', hnw'] at hskip
      refine ⟨k, Nat.lt_succ_self k, ⟨v, w, ?_, ?_, ?_, hskip⟩, ?_⟩
      · simp [Feed.toDecoder, hv]
      · simp [Feed.toDecoder, hw]
      · exact hnonneg _ (List.mem_of_getElem? (h.taken i v hvmem))
      · intro m x hkm hmk hx
        obtain rfl : m = k + 1 := by omega
        simp only [Feed.toDecoder, List.getElem?_map, hw, Option.map_some, Option.some_inj] at hx
        rw [← hx, hra]

/-- **When every drop is noticed**: exactly if the frame ids show every drop before the
next unit that depends on it is decoded. -/
theorem everyDropNoticed_iff {units : List EncodedFrame} {events : List QueueEvent} {s : Feed}
    (hrun : Feed.run units events = some s) (hav : Available s.toDecoder) :
    EveryDropNoticed units s ↔ GapsVisible s := by
  have h := Feed.run_inOrder hrun
  have hdecoder : ∀ {k n : Nat} {u : Offered}, s.taken[k]? = some (n, u) →
      s.toDecoder[k]? = some u := by
    intro k n u hu
    rw [Feed.toDecoder, List.getElem?_map, hu]
    rfl
  constructor
  · intro hnoticed k n u hu hra hdropped
    by_contra hmissing
    have hqueued : s.WasQueued (n + 1) :=
      ⟨k, u, hu, (queued_iff hav (hdecoder hu)).2 (.inr hmissing)⟩
    obtain ⟨j, v, hv, -⟩ :=
      hnoticed.predecessor n u.frame (h.taken _ u (List.mem_of_getElem? hu)) hra hqueued
    exact hdropped v (List.mem_of_getElem? hv)
  · intro hvisible
    apply h.everyDropNoticed
    rintro n frame hframe hra ⟨k, u, hu, hqueued⟩
    cases hframe.symm.trans (h.taken _ u (List.mem_of_getElem? hu))
    have hno : ¬ MissingSince s.toDecoder k := by
      rcases (queued_iff hav (hdecoder hu)).1 hqueued with hra' | hno
      · rw [hra] at hra'
        cases hra'
      · exact hno
    -- the unit before was not dropped, so it was taken right before this one
    obtain ⟨v, hv⟩ : ∃ v, (n, v) ∈ s.taken := by
      by_contra hdropped
      exact hno (hvisible k n u hu hra fun v hv ↦ hdropped ⟨v, hv⟩)
    obtain ⟨j, rfl, hj⟩ := h.taken_pred hu hv
    refine ⟨j, v, hj, ?_⟩
    by_contra hnot
    exact hno (MissingSince.succ hav (hdecoder hj) (hdecoder hu) hra hnot)

theorem smallUnits_available {units : List (Int64 × Bool × Bool)}
    (h : ∀ u ∈ units, u.2.2 = true) : Available (smallUnits units) := by
  intro u hu
  refine ⟨smallUnits_quiet units u hu, ?_⟩
  obtain ⟨v, hv, rfl⟩ := List.mem_map.1 hu
  simp [Offered.supplied, h v hv]

/-- A codec with a buffer for every small unit. -/
def ready : CodecAnswers := { inputIndex := .ok 0, capacity := some (16 * 1024 * 1024) }

/-- The decoder takes the first unit, and then three are offered before it takes the
next: the second is dropped. -/
def oneDropped : List QueueEvent :=
  [.offer, .take ready, .offer, .offer, .offer, .take ready]

/-- Four units with ids of their own. -/
def freshUnits : List EncodedFrame :=
  (smallUnits [(1, true, true), (2, false, true), (3, false, true), (4, false, true)]).map
    Offered.frame

/-- A unit that is refreshed twice, and a new one. -/
def refreshedUnits : List EncodedFrame :=
  (smallUnits [(1, true, true), (1, false, true), (1, false, true), (2, false, true)]).map
    Offered.frame

/-- A run in which the drop is visible. -/
theorem everyDropNoticed_iff_fresh :
    ∃ s, Feed.run freshUnits oneDropped = some s ∧
      (EveryDropNoticed freshUnits s ↔ GapsVisible s) ∧ EveryDropNoticed freshUnits s := by
  obtain ⟨s, hrun, hdecoder, hhead⟩ : ∃ s, Feed.run freshUnits oneDropped = some s ∧
      s.toDecoder = smallUnits [(1, true, true), (3, false, true)] ∧
      ∀ x, s.taken.head? = some x → x.2.frame.randomAccess = true :=
    ⟨_, rfl, rfl, fun _ h ↦ by cases h; rfl⟩
  have hav : Available s.toDecoder := hdecoder ▸ smallUnits_available (by simp)
  have hiff := everyDropNoticed_iff hrun hav
  have hvisible : GapsVisible s :=
    (Feed.run_inOrder hrun).gapsVisible (by decide) (by decide) hhead
  exact ⟨s, hrun, hiff, hiff.2 hvisible⟩

/-- In general not every drop is: here a refresh is dropped, and the one after it is
decoded. -/
theorem dropped_refresh_unnoticed :
    ¬ ∀ units, HostUnits units → ∀ events s, Feed.run units events = some s →
      Available s.toDecoder → EveryDropNoticed units s := by
  intro h
  have hunits : HostUnits refreshedUnits := ⟨fun _ h ↦ by cases h; rfl, by decide⟩
  have hnoticed := h refreshedUnits hunits oneDropped _ rfl
    (@smallUnits_available [(1, true, true), (1, false, true)] (by simp))
  obtain ⟨k, u, hu, -⟩ := hnoticed.predecessor 1 _ rfl rfl ⟨1, _, rfl, by decide⟩
  revert hu
  match k with
  | 0 => exact fun hu ↦ by cases hu
  | 1 => exact fun hu ↦ by cases hu
  | k + 2 => exact fun hu ↦ by cases hu

end SecondScreen.Client
