import Mathlib.Data.List.Chain
import SecondScreen.Client.VideoDecoder

/-!
# A decoder without input buffers

The stream that reaches the decoder may be complete and still lose units, namely
those for which the codec has no input buffer.  `decode` looks for gaps between
frame ids, and a unit that was lost in this way leaves none.
-/

namespace SecondScreen.Client

/-! ## The decoder's loop -/

/-- A unit that the decoder takes, with what the codec answers. -/
structure Offered where
  frame : EncodedFrame
  answers : CodecAnswers

/-- The loop of `decodeLoop`: for each unit up to the first exception, whether it was
queued to the codec. -/
def decodeAll (d : VideoDecoder) : List Offered → List Bool
  | [] => []
  | u :: units =>
      let r := d.decode u.frame u.answers
      match r.result with
      | .error _ => [r.queued.isSome]
      | .ok _ => r.queued.isSome :: decodeAll r.decoder units

/-- Whether `dequeueInputBuffer` gives an index. -/
def Offered.supplied (u : Offered) : Bool :=
  match u.answers.inputIndex with
  | .ok index => 0 ≤ index
  | .error _ => false

/-- Nothing throws: `dequeueInputBuffer` gives an index or none, the buffer is large
enough, and the other operations of the codec succeed. -/
structure Offered.Quiet (u : Offered) : Prop where
  before : drainOutput u.answers.before = .ok ()
  index : ∃ index, u.answers.inputIndex = .ok index
  capacity : ∃ capacity, u.answers.capacity = some capacity ∧ u.frame.accessUnit.length ≤ capacity
  queue : u.answers.queueFailure = none
  after : drainOutput u.answers.after = .ok ()

/-- A complete stream: it starts with an IDR, and its frame ids are consecutive. -/
structure CompleteStream (units : List Offered) : Prop where
  first : ∀ u, units.head? = some u → u.frame.randomAccess = true
  consecutive : units.IsChain fun u v ↦ v.frame.frameId = u.frame.frameId + 1

/-- A unit that is not a random-access unit is queued only if the unit before it
was. -/
def ReferenceSafe (units : List Offered) (queued : List Bool) : Prop :=
  ∀ k, ∀ v : Offered, units[k + 1]? = some v → v.frame.randomAccess = false →
    queued[k + 1]? = some true → queued[k]? = some true

/-- After a unit that was not queued nothing is queued before the next random-access
unit. -/
def ResumesAtIdr (units : List Offered) (queued : List Bool) : Prop :=
  ∀ j k : Nat, j < k → queued[j]? = some false → queued[k]? = some true →
    ∃ m, ∃ v : Offered, j < m ∧ m ≤ k ∧ units[m]? = some v ∧ v.frame.randomAccess = true

/-! ## One unit -/

namespace VideoDecoder

variable {d : VideoDecoder} {u : Offered}

theorem submit_quiet (hu : u.Quiet) :
    let r := d.submit u.frame u.answers
    r.result = .ok u.supplied ∧ r.queued.isSome = u.supplied ∧
      r.decoder.started = d.started ∧
      r.decoder.waitingForRandomAccess = d.waitingForRandomAccess ∧
      r.decoder.lastFrameId = d.lastFrameId := by
  obtain ⟨index, hindex⟩ := hu.index
  obtain ⟨capacity, hcapacity, hle⟩ := hu.capacity
  by_cases hneg : index < 0
  · have hsupplied : u.supplied = false := by
      simp [Offered.supplied, hindex, Int32.not_le.2 hneg]
    simp [submit, hu.before, hindex, hneg, hsupplied]
  · have hsupplied : u.supplied = true := by
      simp [Offered.supplied, hindex, Int32.not_lt.1 hneg]
    simp [submit, hu.before, hindex, hneg, hcapacity, not_lt.2 hle, hu.queue, hu.after, hsupplied,
      Except.map]

/-- Without a gap a unit is queued exactly if the codec has a buffer for it, and a
unit that is not leaves no trace. -/
theorem decode_quiet (hstarted : d.started = true) (hwaiting : d.waitingForRandomAccess = false)
    (hgap : d.gap u.frame = false) (hu : u.Quiet) :
    let r := d.decode u.frame u.answers
    r.result = .ok u.supplied ∧ r.queued.isSome = u.supplied ∧ r.decoder.started = true ∧
      r.decoder.waitingForRandomAccess = false ∧ r.decoder.lastFrameId = u.frame.frameId := by
  have hpass : d.decode u.frame u.answers =
      ({ d with lastFrameId := u.frame.frameId } : VideoDecoder).submit u.frame u.answers := by
    simp [decode, hstarted, hwaiting, hgap]
  rw [hpass]
  obtain ⟨hresult, hqueued, hs, hw, hl⟩ := submit_quiet hu
  exact ⟨hresult, hqueued, hs.trans hstarted, hw.trans hwaiting, hl⟩

end VideoDecoder

/-! ## The whole stream -/

/-- On a complete stream the decoder queues exactly the units for which the codec has
a buffer. -/
theorem decodeAll_eq {d : VideoDecoder} (units : List Offered) (hstarted : d.started = true)
    (hwaiting : d.waitingForRandomAccess = false) (hquiet : ∀ u ∈ units, u.Quiet)
    (hchain : units.IsChain fun u v ↦ v.frame.frameId = u.frame.frameId + 1)
    (hfirst : ∀ u, units.head? = some u → d.gap u.frame = false) :
    decodeAll d units = units.map Offered.supplied := by
  induction units generalizing d with
  | nil => rfl
  | cons u units ih =>
      obtain ⟨hresult, hqueued, hs, hw, hl⟩ := VideoDecoder.decode_quiet hstarted hwaiting
        (hfirst u rfl) (hquiet u List.mem_cons_self)
      simp only [decodeAll, hresult, hqueued, List.map_cons]
      rw [ih hs hw (fun v hv ↦ hquiet v (List.mem_cons_of_mem u hv)) hchain.tail ?_]
      intro v hv
      cases units with
      | nil => cases hv
      | cons w units =>
          cases hv
          have hid := (List.isChain_cons_cons.1 hchain).1
          simp [VideoDecoder.gap, hl, hid]

/-- The stream is decoded by a decoder that has just been started. -/
theorem CompleteStream.decodeAll_eq {units : List Offered} (h : CompleteStream units)
    (hquiet : ∀ u ∈ units, u.Quiet) :
    decodeAll { started := true } units = units.map Offered.supplied := by
  apply Client.decodeAll_eq units rfl rfl hquiet h.consecutive
  intro u _
  have hlast : ¬(0 : Int64) ≤ -1 := by decide
  simp [VideoDecoder.gap, hlast]

/-! ## The result -/

/-- After a lost unit only a random-access unit is queued first. -/
theorem ReferenceSafe.resumesAtIdr {units : List Offered} {queued : List Bool}
    (h : ReferenceSafe units queued) (hlen : queued.length ≤ units.length) :
    ResumesAtIdr units queued := by
  intro j k hjk hj hk
  induction k with
  | zero => omega
  | succ k ih =>
      obtain ⟨hlt, -⟩ := List.getElem?_eq_some_iff.1 hk
      obtain ⟨v, hv⟩ : ∃ v, units[k + 1]? = some v :=
        ⟨_, List.getElem?_eq_getElem (hlt.trans_le hlen)⟩
      by_cases hra : v.frame.randomAccess = true
      · exact ⟨k + 1, v, hjk, le_rfl, hv, hra⟩
      have hprev := h k v hv (Bool.not_eq_true _ ▸ hra) hk
      have hne : j ≠ k := by
        rintro rfl
        cases hj.symm.trans hprev
      obtain ⟨m, w, hjm, hmk, hw⟩ := ih (by omega) hprev
      exact ⟨m, w, hjm, by omega, hw⟩

/-- A starved unit is followed by a random-access unit, by another starved unit, or by
nothing. -/
def StarvationCovered (units : List Offered) : Prop :=
  ∀ k, ∀ u v : Offered, units[k]? = some u → units[k + 1]? = some v → u.supplied = false →
    v.frame.randomAccess = true ∨ v.supplied = false

/-- **When the reference chain is safe**: on a complete stream, exactly if every unit
for which the codec has no input buffer is followed by a random-access unit or by
another one without a buffer. -/
theorem referenceSafe_iff {units : List Offered} (hstream : CompleteStream units)
    (hquiet : ∀ u ∈ units, u.Quiet) :
    (ReferenceSafe units (decodeAll { started := true } units) ∧
      ResumesAtIdr units (decodeAll { started := true } units)) ↔ StarvationCovered units := by
  rw [hstream.decodeAll_eq hquiet]
  constructor
  · rintro ⟨hsafe, -⟩ k u v hu hv hstarved
    by_contra hnot
    obtain ⟨hra, hsupplied⟩ := not_or.1 hnot
    have hprev := hsafe k v hv (Bool.not_eq_true _ ▸ hra) (by simpa [hv] using hsupplied)
    simp [hu, hstarved] at hprev
  · intro hcovered
    have hsafe : ReferenceSafe units (units.map Offered.supplied) := by
      intro k v hv hra hqueued
      have hsupplied : v.supplied = true := by simpa [hv] using hqueued
      obtain ⟨hlt, -⟩ := List.getElem?_eq_some_iff.1 hv
      obtain ⟨u, hu⟩ : ∃ u, units[k]? = some u :=
        ⟨_, List.getElem?_eq_getElem (by omega)⟩
      cases hus : u.supplied with
      | true => simp [hu, hus]
      | false =>
          rcases hcovered k u v hu hv hus with h | h
          · rw [hra] at h
            cases h
          · rw [hsupplied] at h
            cases h
    exact ⟨hsafe, hsafe.resumesAtIdr (by simp)⟩

/-- Small access units, by their frame ids, whether they are random-access units and
whether the codec has an input buffer for them. -/
def smallUnits (units : List (Int64 × Bool × Bool)) : List Offered :=
  units.map fun (frameId, randomAccess, supplied) ↦
    { frame :=
        { frameId, randomAccess
          captureTimestampUs := 0
          receivedNanos := 0
          heartbeat := false
          control := false
          controlType := 0
          controlPayload := []
          accessUnit := [0, 0, 0, 1, if randomAccess then 0x65 else 0x41, 0] }
      answers :=
        { inputIndex := .ok (if supplied then 0 else -1)
          capacity := some (16 * 1024 * 1024) } }

theorem smallUnits_quiet (units : List (Int64 × Bool × Bool)) :
    ∀ u ∈ smallUnits units, u.Quiet := by
  intro u hu
  obtain ⟨⟨frameId, randomAccess, supplied⟩, -, rfl⟩ := List.mem_map.1 hu
  exact ⟨rfl, ⟨_, rfl⟩, ⟨_, rfl, by simp⟩, rfl, rfl⟩

/-- The unit before an IDR is lost. -/
def lostBeforeIdr : List Offered := smallUnits [(1, true, true), (2, false, false), (3, true, true)]

/-- A unit is lost and the one after it depends on it. -/
def lostBeforeDependent : List Offered :=
  smallUnits [(1, true, true), (2, false, false), (3, false, true)]

/-- The equivalence at a stream where the condition holds. -/
theorem referenceSafe_iff_lostBeforeIdr :
    (ReferenceSafe lostBeforeIdr (decodeAll { started := true } lostBeforeIdr) ∧
      ResumesAtIdr lostBeforeIdr (decodeAll { started := true } lostBeforeIdr)) ↔
        StarvationCovered lostBeforeIdr :=
  referenceSafe_iff ⟨fun _ h ↦ by cases h; rfl, by decide⟩ (smallUnits_quiet _)

/-- In general it does not hold: here the third unit is queued although the second,
on which it depends, was lost. -/
theorem dependent_unit_queued :
    ¬ ∀ units, CompleteStream units → (∀ u ∈ units, u.Quiet) →
      ReferenceSafe units (decodeAll { started := true } units) := by
  intro h
  have hstream : CompleteStream lostBeforeDependent := ⟨fun _ h ↦ by cases h; rfl, by decide⟩
  have hsafe := h lostBeforeDependent hstream (smallUnits_quiet _)
  have hprev := hsafe 1 _ rfl rfl (by decide)
  revert hprev
  decide

end SecondScreen.Client
