import SecondScreen.Host.Worker

/-!
# Recovery without a loss

The frame ids of the access units number captured frames, and captured frames are skipped
in three places before they are encoded: by the reader, by the queue and by the worker.
The decoder takes a jump of the frame ids for a loss.
-/

namespace SecondScreen.Host

open SecondScreen.Client SecondScreen.Ring SecondScreen.Wire

namespace StreamSession

/-! ## What the worker encodes -/

/-- No frame has a higher id than the last one. -/
theorem Increasing.le_last {frames : List CapturedFrame} {last : CapturedFrame}
    (h : Increasing frames) (hlast : frames.getLast? = some last) :
    ∀ f ∈ frames, f.frameId ≤ last.frameId := by
  obtain ⟨init, rfl⟩ := List.getLast?_eq_some_iff.1 hlast
  intro f hf
  rcases List.mem_append.1 hf with hf | hf
  · exact (List.pairwise_append.1 h).2.2 f hf last (List.mem_singleton.2 rfl) |>.le
  · rw [List.mem_singleton.1 hf]

variable {s : StreamSession} {frames : Nat}

/-- The frame that is encoded is the one that was taken last. -/
theorem InOrder.encodeCurrentFrame (h : s.InOrder) (hframe : s.frame ∈ s.published) :
    (s.encodeCurrentFrame frames).InOrder := by
  have hencoded : ∀ f ∈ s.encoded ++ [s.frame],
      f ∈ s.published ∧ f.frameId ≤ s.frame.frameId := by
    intro f hf
    rcases List.mem_append.1 hf with hf | hf
    · exact h.encoded f hf
    · rw [List.mem_singleton.1 hf]
      exact ⟨hframe, le_rfl⟩
  have hsorted : (s.encoded ++ [s.frame]).Pairwise fun f g ↦ f.frameId ≤ g.frameId := by
    refine List.pairwise_append.2 ⟨h.sorted, List.pairwise_singleton _ _, ?_⟩
    intro f hf g hg
    rw [List.mem_singleton.1 hg]
    exact (h.encoded f hf).2
  simp only [StreamSession.encodeCurrentFrame]
  split_ifs with hstop
  · exact h
  · exact ⟨nofun, fun _ ↦ hframe, hencoded, hsorted, le_rfl⟩
  · refine ⟨h.pending, fun _ ↦ hframe, hencoded, hsorted, ?_⟩
    rw [List.length_append]
    exact Nat.le_add_right_of_le h.sent

/-- The worker takes the frame that waits in the queue. -/
theorem InOrder.take (h : s.InOrder) (hinc : Increasing s.published)
    (hpending : s.queue.hasPending = true) {queue : LatestFrameQueue}
    (hqueue : queue.hasPending = false) (point : WorkerPoint) :
    InOrder { s with frame := s.queue.pending, queue, point } := by
  have hlast := h.pending hpending
  have hmem : s.queue.pending ∈ s.published := List.mem_of_getLast? hlast
  refine ⟨fun hp ↦ ?_, fun _ ↦ hmem, fun f hf ↦ ?_, h.sorted, h.sent⟩
  · rw [hqueue] at hp
    cases hp
  · obtain ⟨hf, -⟩ := h.encoded f hf
    exact ⟨hf, hinc.le_last hlast f hf⟩

/-- What comes of a wait: a frame, a heartbeat, nothing, or the end. -/
theorem InOrder.received (h : s.InOrder) (hinc : Increasing s.published)
    (refreshDue : Bool) :
    (s.received frames refreshDue (s.queue.waitFor s.frame)).InOrder := by
  unfold LatestFrameQueue.waitFor
  split_ifs with hpending hheartbeat hclosed
  · exact h.take hinc hpending rfl .replacing
  · exact ⟨h.pending, h.frame, h.encoded, h.sorted, h.sent⟩
  · refine ⟨h.pending, fun hp ↦ h.frame (.inr ?_), h.encoded, h.sorted, h.sent⟩
    rcases hp with hp | hp
    · cases hp
    · exact hp
  · unfold StreamSession.received
    split_ifs with hrefresh
    · refine InOrder.encodeCurrentFrame ⟨h.pending, h.frame, h.encoded, h.sorted, h.sent⟩ ?_
      simp only [Bool.and_eq_true] at hrefresh
      exact h.frame (.inr hrefresh.1.2)
    · exact ⟨h.pending, h.frame, h.encoded, h.sorted, h.sent⟩

/-- The queue accepts more and more. -/
theorem step_published {s' : StreamSession} {event : SessionEvent}
    (h : s.step frames event = some s') : s.published <+: s'.published := by
  have hencode (t : StreamSession) : (t.encodeCurrentFrame frames).published = t.published := by
    simp only [encodeCurrentFrame]
    split_ifs <;> rfl
  have hsame {l : List CapturedFrame} (hl : l = s.published) : s.published <+: l := by
    subst hl
    exact List.prefix_rfl
  cases event with
  | publish frame =>
      simp only [step] at h
      split at h <;> cases h
      · exact List.prefix_append _ _
      · exact List.prefix_rfl
  | waitFor refreshDue =>
      have hreceived : (s.received frames refreshDue (s.queue.waitFor s.frame)).published =
          s.published := by
        unfold received
        split
        · rfl
        · rfl
        · rfl
        · split_ifs
          · rw [hencode]
          · rfl
      simp only [step] at h
      split_ifs at h <;> cases h
      · exact List.prefix_rfl
      · exact hsame hreceived
  | takePending =>
      simp only [step] at h
      split_ifs at h
      split at h <;> cases h
      · exact List.prefix_rfl
      · exact hsame (hencode _)
  | workerFailed | send =>
      simp only [step] at h
      split_ifs at h
      cases h
      exact List.prefix_rfl
  | publishHeartbeat | close | stop =>
      cases h
      exact List.prefix_rfl

/-- A step of the session keeps the order. -/
theorem InOrder.step {s' : StreamSession} {event : SessionEvent} (h : s.InOrder)
    (hinc : Increasing s'.published) (hstep : s.step frames event = some s') : s'.InOrder := by
  have hinc' : Increasing s.published := hinc.sublist (step_published hstep).sublist
  cases event with
  | publish frame =>
      by_cases hclosed : (s.queue.closed || s.queue.aborted) = true
      · simp only [StreamSession.step, LatestFrameQueue.publish, if_pos hclosed] at hstep
        cases hstep
        exact ⟨h.pending, h.frame, h.encoded, h.sorted, h.sent⟩
      · simp only [StreamSession.step, LatestFrameQueue.publish, if_neg hclosed] at hstep
        cases hstep
        refine ⟨fun _ ↦ List.getLast?_concat, fun hp ↦ List.mem_append_left _ (h.frame hp),
          fun f hf ↦ ?_, h.sorted, h.sent⟩
        obtain ⟨hmem, hle⟩ := h.encoded f hf
        exact ⟨List.mem_append_left _ hmem, hle⟩
  | publishHeartbeat =>
      simp only [StreamSession.step, LatestFrameQueue.publishHeartbeat] at hstep
      split_ifs at hstep <;> cases hstep <;>
        exact ⟨h.pending, h.frame, h.encoded, h.sorted, h.sent⟩
  | close | stop =>
      cases hstep
      exact ⟨h.pending, h.frame, h.encoded, h.sorted, h.sent⟩
  | waitFor refreshDue =>
      simp only [StreamSession.step] at hstep
      split_ifs at hstep with hpoint hstop <;> cases hstep
      · refine ⟨h.pending, fun hp ↦ h.frame (.inr ?_), h.encoded, h.sorted, h.sent⟩
        rcases hp with hp | hp
        · cases hp
        · exact hp
      · exact h.received hinc' refreshDue
  | takePending =>
      simp only [StreamSession.step, LatestFrameQueue.takePending] at hstep
      split_ifs at hstep with hpoint hpending <;> cases hstep
      · have htake := h.take hinc' hpending
          (show LatestFrameQueue.hasPending { s.queue with
            pending := {}, hasPending := false } = false from rfl) .replacing
        rwa [← hpoint] at htake
      · exact InOrder.encodeCurrentFrame
          ⟨h.pending, fun _ ↦ h.frame (.inl hpoint), h.encoded, h.sorted, h.sent⟩
          (h.frame (.inl hpoint))
  | workerFailed =>
      simp only [StreamSession.step] at hstep
      split_ifs at hstep with hpoint
      cases hstep
      refine ⟨nofun, fun hp ↦ h.frame (.inr ?_), h.encoded, h.sorted, h.sent⟩
      rcases hp with hp | hp
      · cases hp
      · exact hp
  | send =>
      simp only [StreamSession.step] at hstep
      split_ifs at hstep with hsent
      cases hstep
      exact ⟨h.pending, h.frame, h.encoded, h.sorted, hsent⟩

/-- Any number of steps publishes more and more. -/
theorem foldlM_published {s' : StreamSession} {events : List SessionEvent}
    (h : events.foldlM (StreamSession.step frames) s = some s') :
    s.published <+: s'.published := by
  induction events generalizing s with
  | nil =>
      cases h
      exact List.prefix_rfl
  | cons event events ih =>
      rw [List.foldlM_cons] at h
      obtain ⟨t, hstep, h⟩ := Option.bind_eq_some_iff.1 h
      exact (step_published hstep).trans (ih h)

/-- Any number of steps keeps the order. -/
theorem InOrder.foldlM {s' : StreamSession} {events : List SessionEvent} (h : s.InOrder)
    (hinc : Increasing s'.published)
    (hrun : events.foldlM (StreamSession.step frames) s = some s') : s'.InOrder := by
  induction events generalizing s with
  | nil =>
      cases hrun
      exact h
  | cons event events ih =>
      rw [List.foldlM_cons] at hrun
      obtain ⟨t, hstep, hrun⟩ := Option.bind_eq_some_iff.1 hrun
      exact ih (h.step (hinc.sublist (foldlM_published hrun).sublist) hstep) hrun

theorem run_inOrder {events : List SessionEvent} (hrun : run frames events = some s)
    (hinc : Increasing s.published) : s.InOrder :=
  InOrder.foldlM ⟨fun h ↦ (by cases h), by simp, by simp, List.Pairwise.nil, le_rfl⟩ hinc hrun

/-! ## What the client receives -/

variable {payload : Nat → List UInt8} {now : Nat → Int64} {answers : Nat → CodecAnswers}

/-- A frame id as the client reads it. -/
def wireId (frame : CapturedFrame) : Int64 := (UInt64.ofNat frame.frameId).toInt64

/-- Below the sign bit the client reads the id that the host has sent. -/
theorem wireId_toInt {frame : CapturedFrame} (h : frame.frameId < 2 ^ 63) :
    (wireId frame).toInt = frame.frameId := by
  have hnat : (BitVec.ofNat 64 frame.frameId).toNat = frame.frameId := by
    rw [BitVec.toNat_ofNat]
    exact Nat.mod_eq_of_lt (by omega)
  show (BitVec.ofNat 64 frame.frameId).toInt = frame.frameId
  rw [BitVec.toInt_eq_toNat_of_lt (by omega), hnat]

/-- The units that are received are the frames that were encoded and sent, in order. -/
theorem units_getElem? {s : StreamSession} {k : Nat} :
    (s.units payload now)[k]? = (s.encoded.take s.sent)[k]?.map fun frame ↦
      videoFrame (now k) (.ofNat frame.frameId) (.ofNat frame.captureTimestampUs) (payload k) := by
  rw [units, List.getElem?_mapIdx]

/-- What a host sends is a session of the host in the sense of `HostUnits`. -/
theorem units_hostUnits {events : List SessionEvent} (hrun : run frames events = some s)
    (hinc : Increasing s.published) (hids : ∀ f ∈ s.published, f.frameId < 2 ^ 63)
    (hfirst : (findNalUnit (payload 0) 5).isSome = true) : HostUnits (s.units payload now) := by
  have h := run_inOrder hrun hinc
  constructor
  · intro u hu
    rw [List.head?_eq_getElem?, units_getElem?, Option.map_eq_some_iff] at hu
    obtain ⟨frame, -, rfl⟩ := hu
    exact hfirst
  · apply List.Pairwise.isChain
    rw [List.pairwise_iff_getElem]
    intro i j hi hj hij
    have hlen : (s.units payload now).length ≤ s.encoded.length := by
      rw [units, List.length_mapIdx, List.length_take]
      exact min_le_right _ _
    have hget {n : Nat} (hn : n < (s.units payload now).length) (hn' : n < s.encoded.length) :
        (s.units payload now)[n].frameId = wireId s.encoded[n] := by
      simp [units, videoFrame, wireId]
    have hsmall {n : Nat} (hn : n < s.encoded.length) : s.encoded[n].frameId < 2 ^ 63 :=
      hids _ (h.encoded _ (List.getElem_mem hn)).1
    have hle := List.pairwise_iff_getElem.1 h.sorted i j (hi.trans_le hlen) (hj.trans_le hlen) hij
    rw [hget hi (hi.trans_le hlen), hget hj (hj.trans_le hlen), Int64.le_iff_toInt_le,
      wireId_toInt (hsmall _), wireId_toInt (hsmall _)]
    exact_mod_cast hle

/-- The units as the decoder gets them if none is dropped. -/
def toDecoder (payload : Nat → List UInt8) (now : Nat → Int64) (answers : Nat → CodecAnswers)
    (s : StreamSession) : List Offered :=
  (s.units payload now).mapIdx fun k u ↦ ⟨u, answers k⟩

/-- Frame ids are missing between two units that were sent one after the other. -/
def Jumps (s : StreamSession) (j : Nat) : Prop :=
  ∃ f g, (s.encoded.take s.sent)[j]? = some f ∧ (s.encoded.take s.sent)[j + 1]? = some g ∧
    0 ≤ wireId f ∧ wireId f + 1 < wireId g

theorem toDecoder_getElem? {s : StreamSession} {k : Nat} :
    (s.toDecoder payload now answers)[k]? = (s.encoded.take s.sent)[k]?.map fun frame ↦
      ⟨videoFrame (now k) (.ofNat frame.frameId) (.ofNat frame.captureTimestampUs) (payload k),
        answers k⟩ := by
  rw [toDecoder, List.getElem?_mapIdx, units_getElem?, Option.map_map]
  rfl

/-- The decoder sees a jump where the host has skipped a frame. -/
theorem skips_iff {j : Nat} : Skips (s.toDecoder payload now answers) j ↔ s.Jumps j := by
  simp only [Skips, Jumps, toDecoder_getElem?, Option.map_eq_some_iff]
  constructor
  · rintro ⟨_, _, ⟨f, hf, rfl⟩, ⟨g, hg, rfl⟩, hnonneg, hlt⟩
    exact ⟨f, g, hf, hg, hnonneg, hlt⟩
  · rintro ⟨f, g, hf, hg, hnonneg, hlt⟩
    exact ⟨_, _, ⟨f, hf, rfl⟩, ⟨g, hg, rfl⟩, hnonneg, hlt⟩

/-- Some jump has not been followed by an IDR. -/
def Recovering (payload : Nat → List UInt8) (s : StreamSession) (k : Nat) : Prop :=
  ∃ j, j < k ∧ s.Jumps j ∧
    ∀ m, j < m → m ≤ k → m < s.sent → (findNalUnit (payload m) 5).isSome = false

/-- The decoder waits for an IDR exactly while none was sent since the last jump. -/
theorem recovering_iff {s : StreamSession} (hsent : s.sent ≤ s.encoded.length) {k : Nat} :
    MissingSince (s.toDecoder payload now answers) k ↔ s.Recovering payload k := by
  have hunit (m : Nat) : (∀ w : Offered, (s.toDecoder payload now answers)[m]? = some w →
      w.frame.randomAccess = false) ↔
        (m < s.sent → (findNalUnit (payload m) 5).isSome = false) := by
    simp only [toDecoder_getElem?, Option.map_eq_some_iff]
    constructor
    · intro h hm
      have hget : (s.encoded.take s.sent)[m]? = some s.encoded[m] := by
        rw [List.getElem?_take_of_lt hm, List.getElem?_eq_getElem (by omega)]
      exact h _ ⟨_, hget, rfl⟩
    · rintro h _ ⟨f, hf, rfl⟩
      obtain ⟨hlt, -⟩ := List.getElem?_eq_some_iff.1 hf
      rw [List.length_take] at hlt
      exact h (by omega)
  simp only [MissingSince, Recovering, skips_iff]
  refine exists_congr fun j ↦ and_congr_right fun _ ↦ and_congr_right fun _ ↦ ?_
  constructor
  · intro h m hjm hmk
    exact (hunit m).1 fun w hw ↦ h m w hjm hmk hw
  · intro h m w hjm hmk hw
    exact (hunit m).2 (h m hjm hmk) w hw

/-! ## The result -/

/-- **When the decoder recovers**: it discards a unit exactly if it is no IDR and the
frame ids have jumped since the last one, so that it decodes every unit exactly if they
jump only at IDRs. -/
theorem decodes_all_iff {events : List SessionEvent} (hrun : run frames events = some s)
    (hinc : Increasing s.published) (hav : Available (s.toDecoder payload now answers)) :
    (∀ k, k < s.sent →
      ((decodeAll { started := true } (s.toDecoder payload now answers))[k]? = some true ↔
        (findNalUnit (payload k) 5).isSome = true ∨ ¬ s.Recovering payload k)) ∧
    ((∀ k, k < s.sent →
      (decodeAll { started := true } (s.toDecoder payload now answers))[k]? = some true) ↔
        ∀ j, s.Jumps j → (findNalUnit (payload (j + 1)) 5).isSome = true) := by
  have hsent := (run_inOrder hrun hinc).sent
  have hone : ∀ k, k < s.sent →
      ((decodeAll { started := true } (s.toDecoder payload now answers))[k]? = some true ↔
        (findNalUnit (payload k) 5).isSome = true ∨ ¬ s.Recovering payload k) := by
    intro k hk
    have hget : (s.encoded.take s.sent)[k]? = some s.encoded[k] := by
      rw [List.getElem?_take_of_lt hk, List.getElem?_eq_getElem (by omega)]
    obtain ⟨u, hu, hra⟩ : ∃ u, (s.toDecoder payload now answers)[k]? = some u ∧
        u.frame.randomAccess = (findNalUnit (payload k) 5).isSome := by
      rw [toDecoder_getElem?, hget]
      exact ⟨_, rfl, rfl⟩
    rw [queued_iff hav hu, recovering_iff hsent, hra]
  refine ⟨hone, fun hall j hjumps ↦ ?_, fun hjumps k hk ↦ (hone k hk).2 ?_⟩
  · obtain ⟨f, g, hf, hg, hids⟩ := id hjumps
    obtain ⟨hlt, -⟩ := List.getElem?_eq_some_iff.1 hg
    rw [List.length_take] at hlt
    have hj : j + 1 < s.sent := by omega
    rcases (hone (j + 1) hj).1 (hall (j + 1) hj) with hidr | hno
    · exact hidr
    · by_contra hidr
      refine hno ⟨j, Nat.lt_succ_self j, hjumps, fun m hjm hmj _ ↦ ?_⟩
      obtain rfl : m = j + 1 := by omega
      exact Bool.not_eq_true _ ▸ hidr
  · right
    rintro ⟨j, hjk, hj, hno⟩
    have hidr := hjumps j hj
    rw [hno (j + 1) (Nat.lt_succ_self j) hjk (by omega)] at hidr
    cases hidr

/-- Pictures of which some are IDRs and the others depend on them. -/
def picture (idr : Nat → Bool) (k : Nat) : List UInt8 :=
  [0, 0, 0, 1, if idr k then 0x65 else 0x41, 0]

/-- The second frame is replaced by the third in the queue. -/
def oneSkipped : List SessionEvent :=
  [.publish { frameId := 1 }, .waitFor false, .takePending, .send,
   .publish { frameId := 2 }, .publish { frameId := 3 }, .waitFor false, .takePending, .send]

theorem picture_available (idr : Nat → Bool) (s : StreamSession) :
    Available (s.toDecoder (picture idr) (fun _ ↦ 0) fun _ ↦ ready) := by
  intro u hu
  obtain ⟨k, hk⟩ := List.getElem?_of_mem hu
  rw [toDecoder_getElem?, Option.map_eq_some_iff] at hk
  obtain ⟨f, -, rfl⟩ := hk
  exact ⟨⟨rfl, ⟨_, rfl⟩, ⟨_, rfl, by simp [videoFrame, picture]⟩, rfl, rfl⟩, rfl⟩

theorem findNalUnit_picture (idr : Nat → Bool) (k : Nat) :
    (findNalUnit (picture idr k) 5).isSome = idr k := by
  have hlength : (picture idr k).length = 6 := rfl
  have hcode : startCodeLength (picture idr k) 0 = 4 := rfl
  have hnext : nextStartCode (picture idr k) 4 = 4 := by
    rw [nextStartCode, if_neg (by omega)]
  have hend : nalEnd (picture idr k) 4 = 6 := by
    rw [nalEnd, hnext]
    rfl
  have hrest : findNalUnitFrom (picture idr k) 5 6 = none := by
    rw [findNalUnitFrom, dif_neg (by omega)]
  rw [findNalUnit, findNalUnitFrom, dif_pos (by omega), dif_neg (by omega)]
  simp only [hcode, hend, hrest]
  cases hidr : idr k with
  | true => simp [Client.byteAt, picture, hidr]
  | false => simp [Client.byteAt, picture, hidr]

/-- A session in which the frame ids jump at an IDR, and all three units are decoded. -/
theorem decodes_all_iff_idrAfterSkip : ∃ s,
    run 0 (oneSkipped ++ [.publish { frameId := 4 }, .waitFor false, .takePending, .send]) =
      some s ∧ s.sent = 3 ∧ s.Jumps 0 ∧
    ∀ k, k < s.sent →
      (decodeAll { started := true }
        (s.toDecoder (picture (· < 2)) (fun _ ↦ 0) fun _ ↦ ready))[k]? = some true := by
  obtain ⟨s, hrun, hsent, hencoded, hpublished⟩ : ∃ s,
      run 0 (oneSkipped ++ [.publish { frameId := 4 }, .waitFor false, .takePending, .send]) =
        some s ∧ s.sent = 3 ∧
        s.encoded = [{ frameId := 1 }, { frameId := 3 }, { frameId := 4 }] ∧
        s.published =
          [{ frameId := 1 }, { frameId := 2 }, { frameId := 3 }, { frameId := 4 }] :=
    ⟨_, rfl, rfl, rfl, rfl⟩
  have hinc : Increasing s.published := by
    rw [hpublished]
    simp [Increasing]
  have hjumps : s.Jumps 0 := by
    refine ⟨{ frameId := 1 }, { frameId := 3 }, ?_, ?_, by decide, by decide⟩
    · rw [hsent, hencoded]
      rfl
    · rw [hsent, hencoded]
      rfl
  refine ⟨s, hrun, hsent, hjumps,
    (decodes_all_iff hrun hinc (picture_available (· < 2) s)).2.2 ?_⟩
  rintro j ⟨f, g, hf, hg, -, hlt⟩
  rw [hencoded, hsent] at hf hg
  match j with
  | 0 => exact findNalUnit_picture (· < 2) 1
  | 1 =>
      cases hf
      cases hg
      revert hlt
      decide
  | j + 2 => cases hg

/-- In general it does not decode every unit: the third frame depends on the first, which
was decoded, and is discarded. -/
theorem skipped_frame_recovers :
    ¬ ∀ (frames : Nat) (payload : Nat → List UInt8) (now : Nat → Int64)
      (answers : Nat → CodecAnswers) (events : List SessionEvent) (s : StreamSession),
      (findNalUnit (payload 0) 5).isSome = true → run frames events = some s →
        Increasing s.published → Available (s.toDecoder payload now answers) →
          ∀ k, k < s.sent →
            (decodeAll { started := true } (s.toDecoder payload now answers))[k]? =
              some true := by
  intro h
  obtain ⟨s, hrun, hsent, hencoded, hpublished⟩ : ∃ s, run 0 oneSkipped = some s ∧
      s.sent = 2 ∧ s.encoded = [{ frameId := 1 }, { frameId := 3 }] ∧
        s.published = [{ frameId := 1 }, { frameId := 2 }, { frameId := 3 }] :=
    ⟨_, rfl, rfl, rfl, rfl⟩
  have hinc : Increasing s.published := by
    rw [hpublished]
    simp [Increasing]
  have hall := h 0 (picture (· == 0)) (fun _ ↦ 0) (fun _ ↦ ready) oneSkipped s
    (by rw [findNalUnit_picture]; rfl) hrun hinc (picture_available (· == 0) s) 1 (by omega)
  have hget : (s.toDecoder (picture (· == 0)) (fun _ ↦ 0) fun _ ↦ ready)[1]? = some
      ⟨videoFrame 0 3 0 (picture (· == 0) 1), ready⟩ := by
    rw [toDecoder_getElem?, hencoded, hsent]
    rfl
  have hra : (videoFrame 0 3 0 (picture (· == 0) 1)).randomAccess = false :=
    findNalUnit_picture (· == 0) 1
  rcases (queued_iff (picture_available (· == 0) s) hget).1 hall with hidr | hno
  · rw [hra] at hidr
    cases hidr
  · refine hno ((recovering_iff (by rw [hsent, hencoded]; decide)).2
      ⟨0, Nat.one_pos, ⟨{ frameId := 1 }, { frameId := 3 }, ?_, ?_, by decide, by decide⟩, ?_⟩)
    · rw [hsent, hencoded]
      rfl
    · rw [hsent, hencoded]
      rfl
    · intro m h0m hm1 _
      obtain rfl : m = 1 := by omega
      exact hra

end StreamSession

end SecondScreen.Host
