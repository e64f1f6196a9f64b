import SecondScreen.Client.LatestFrameQueue
import SecondScreen.Conc.Runs
import Mathlib.Algebra.BigOperators.Group.List.Basic
import Mathlib.Algebra.GroupWithZero.Nat

/-!
# The history of the queue

All calls of the queue, in any order: the synchronized methods make the interleaving
of the threads a sequence of whole calls.  A frame is offered with its number, so that
it is told apart from an equal one.
-/

namespace SecondScreen.Client

open SecondScreen.Conc Relation

variable {α : Type}

/-- The calls of the queue.  A `take` that waits is one that cannot be made yet. -/
inductive QueueCall (α : Type)
  | offer (frame : α)
  | take
  | takeDroppedFrames
  | close

/-- The queue, what was offered to it, and what it has given away. -/
structure QueueHistory (α : Type) where
  queue : LatestFrameQueue (Nat × α) := {}
  offered : List α := []
  taken : List (Nat × α) := []
  /-- The counts that `takeDroppedFrames` has returned. -/
  reported : List Nat := []

namespace QueueHistory

/-- One call. -/
def next (randomAccess : α → Bool) (s : QueueHistory α) : QueueCall α → Option (QueueHistory α)
  | .offer frame =>
      some { s with
        queue := s.queue.offer (fun v ↦ randomAccess v.2) (s.offered.length, frame)
        offered := s.offered ++ [frame] }
  | .take => s.queue.take.map fun r ↦ { s with queue := r.2, taken := s.taken ++ r.1.toList }
  | .takeDroppedFrames =>
      let r := s.queue.takeDroppedFrames
      some { s with queue := r.2, reported := s.reported ++ [r.1] }
  | .close => some { s with queue := s.queue.close }

/-- Any sequence of calls. -/
abbrev Run (randomAccess : α → Bool) : QueueHistory α → QueueHistory α → Prop :=
  ReflTransGen (Moves (next randomAccess) fun _ _ ↦ True)

/-- The frames that have passed through the queue or are in it, oldest first. -/
def passed (s : QueueHistory α) : List (Nat × α) := s.taken ++ s.queue.pending

/-- The invariant of the queue. -/
structure Inv (randomAccess : α → Bool) (s : QueueHistory α) : Prop where
  bounded : s.queue.pending.length ≤ MAX_PENDING_FRAMES
  sorted : (s.passed.map Prod.fst).Pairwise (· < ·)
  named : ∀ v ∈ s.passed, s.offered[v.1]? = some v.2
  /-- A random-access frame is taken or pending, or a later one was offered. -/
  kept : s.queue.closed = false → ∀ n frame, s.offered[n]? = some frame →
    randomAccess frame = true → (n, frame) ∈ s.passed ∨
      ∃ m later, n < m ∧ s.offered[m]? = some later ∧ randomAccess later = true
  counted : s.queue.closed = false → s.offered.length =
    s.taken.length + s.queue.pending.length + s.reported.sum + s.queue.droppedFrames

variable {randomAccess : α → Bool} {s t : QueueHistory α} {frame : α}

theorem Inv.initial : Inv randomAccess ({} : QueueHistory α) where
  bounded := Nat.zero_le _
  sorted := .nil
  named _ h := by cases h
  kept _ n frame h := by cases h
  counted _ := rfl

/-- What is taken leaves the frames that have passed alone. -/
theorem Inv.of_passed (h : Inv randomAccess s) (hpassed : t.passed = s.passed)
    (hoffered : t.offered = s.offered) (hclosed : t.queue.closed = s.queue.closed)
    (hbounded : t.queue.pending.length ≤ MAX_PENDING_FRAMES)
    (hcounted : t.taken.length + t.queue.pending.length + t.reported.sum + t.queue.droppedFrames =
      s.taken.length + s.queue.pending.length + s.reported.sum + s.queue.droppedFrames) :
    Inv randomAccess t where
  bounded := hbounded
  sorted := hpassed ▸ h.sorted
  named := by
    rw [hpassed, hoffered]
    exact h.named
  kept := by
    rw [hpassed, hoffered, hclosed]
    exact h.kept
  counted := by
    rw [hcounted, hoffered, hclosed]
    exact h.counted

/-- The number of a frame is where it was offered. -/
theorem Inv.lt (h : Inv randomAccess s) {v : Nat × α} (hv : v ∈ s.passed) :
    v.1 < s.offered.length :=
  (List.getElem?_eq_some_iff.1 (h.named v hv)).1

/-- What was offered is still there after one more frame. -/
theorem Inv.named_append (h : Inv randomAccess s) (frame : α) {v : Nat × α} (hv : v ∈ s.passed) :
    (s.offered ++ [frame])[v.1]? = some v.2 := by
  rw [List.getElem?_append_left (h.lt hv)]
  exact h.named v hv

/-- Frames that have passed, followed by the one that is offered. -/
theorem Inv.append (h : Inv randomAccess s) (frame : α) {l : List (Nat × α)}
    (hl : l.Sublist s.passed) :
    ((l ++ [(s.offered.length, frame)]).map Prod.fst).Pairwise (· < ·) ∧
      ∀ v ∈ l ++ [(s.offered.length, frame)], (s.offered ++ [frame])[v.1]? = some v.2 := by
  constructor
  · rw [List.map_append, List.pairwise_append]
    refine ⟨h.sorted.sublist (hl.map Prod.fst), by simp, fun n hn m hm ↦ ?_⟩
    obtain ⟨v, hv, rfl⟩ := List.mem_map.1 hn
    rw [List.mem_singleton.1 hm]
    exact h.lt (hl.subset hv)
  · intro v hv
    rcases List.mem_append.1 hv with hv | hv
    · exact h.named_append frame (hl.subset hv)
    · rw [List.mem_singleton.1 hv]
      exact List.getElem?_concat_length

/-- Random-access frames are kept if one that is dropped makes room for another. -/
theorem Inv.kept_append (h : Inv randomAccess s) (hopen : s.queue.closed = false) {frame : α}
    {passed : List (Nat × α)}
    (hpassed : ∀ v ∈ s.passed, randomAccess v.2 = true → v ∈ passed ∨ randomAccess frame = true)
    (hnew : randomAccess frame = true → (s.offered.length, frame) ∈ passed) :
    ∀ n g, (s.offered ++ [frame])[n]? = some g → randomAccess g = true → (n, g) ∈ passed ∨
      ∃ m later, n < m ∧ (s.offered ++ [frame])[m]? = some later ∧ randomAccess later = true := by
  intro n g hg hgra
  rcases Nat.lt_or_ge n s.offered.length with hlt | hge
  · rw [List.getElem?_append_left hlt] at hg
    rcases h.kept hopen n g hg hgra with hmem | ⟨m, later, hnm, hm, hmra⟩
    · refine (hpassed (n, g) hmem hgra).imp_right fun hra ↦ ?_
      exact ⟨_, frame, hlt, List.getElem?_concat_length, hra⟩
    · refine .inr ⟨m, later, hnm, ?_, hmra⟩
      rw [List.getElem?_append_left (List.getElem?_eq_some_iff.1 hm).1]
      exact hm
  · rw [List.getElem?_append_right hge, List.getElem?_singleton] at hg
    split_ifs at hg with hzero
    cases hg
    have hn : n = s.offered.length := by omega
    exact .inl (hn ▸ hnew hgra)

/-- An offer to an open queue drops the new frame, the oldest one, or none. -/
theorem Inv.offer (h : Inv randomAccess s) (frame : α) :
    Inv randomAccess { s with
      queue := s.queue.offer (fun v ↦ randomAccess v.2) (s.offered.length, frame)
      offered := s.offered ++ [frame] } := by
  have hbounded : (s.queue.offer (fun v ↦ randomAccess v.2)
      (s.offered.length, frame)).pending.length ≤ MAX_PENDING_FRAMES :=
    LatestFrameQueue.length_offer_le h.bounded
  cases hclosed : s.queue.closed with
  | true =>
      have hsame :
          s.queue.offer (fun v ↦ randomAccess v.2) (s.offered.length, frame) = s.queue := by
        simp [LatestFrameQueue.offer, hclosed]
      rw [hsame]
      refine ⟨h.bounded, h.sorted, fun v ↦ h.named_append frame, fun hopen ↦ ?_, fun hopen ↦ ?_⟩
      · exact absurd (hclosed.symm.trans hopen) (by decide)
      · exact absurd (hclosed.symm.trans hopen) (by decide)
  | false =>
      have hcounted := h.counted hclosed
      rcases @LatestFrameQueue.offer_cases _ (fun v : Nat × α ↦ randomAccess v.2) s.queue
        (s.offered.length, frame) hclosed with
        ⟨-, hdependent, hoffer⟩ | ⟨v, rest, hpending, hra, hoffer⟩ | ⟨-, hoffer⟩
      · -- the new frame is dropped, and is no random-access frame
        rw [hoffer]
        refine ⟨h.bounded, h.sorted, fun v ↦ h.named_append frame, fun _ ↦ ?_, fun _ ↦ ?_⟩
        · apply h.kept_append hclosed
          · exact fun v hv _ ↦ .inl hv
          · exact fun hra ↦ absurd (hra.symm.trans hdependent) (by decide)
        · simp only [List.length_append, List.length_cons, List.length_nil]
          omega
      · -- the oldest frame is dropped, and the new one is as good
        have hsub : (s.taken ++ rest).Sublist s.passed := by
          rw [passed, hpending]
          exact (List.Sublist.refl _).append (List.sublist_cons_self v rest)
        have hpassed : s.taken ++ (rest ++ [(s.offered.length, frame)]) =
            (s.taken ++ rest) ++ [(s.offered.length, frame)] := (List.append_assoc ..).symm
        obtain ⟨hsorted, hnames⟩ := h.append frame hsub
        rw [hoffer] at hbounded ⊢
        refine ⟨hbounded, ?_, ?_, fun _ ↦ ?_, fun _ ↦ ?_⟩
        · rwa [passed, hpassed]
        · rwa [passed, hpassed]
        · rw [passed, hpassed]
          apply h.kept_append hclosed
          · intro u hu hura
            rw [passed, hpending] at hu
            rcases List.mem_append.1 hu with hu | hu
            · exact .inl (by simp [hu])
            · rcases List.mem_cons.1 hu with rfl | hu
              · exact .inr (hra hura)
              · exact .inl (by simp [hu])
          · exact fun _ ↦ List.mem_append_right _ (List.mem_singleton_self _)
        · rw [hpending] at hcounted
          simp only [List.length_append, List.length_cons, List.length_nil] at hcounted ⊢
          omega
      · have hpassed : s.taken ++ (s.queue.pending ++ [(s.offered.length, frame)]) =
            s.passed ++ [(s.offered.length, frame)] := (List.append_assoc ..).symm
        obtain ⟨hsorted, hnames⟩ := h.append frame (List.Sublist.refl s.passed)
        rw [hoffer] at hbounded ⊢
        refine ⟨hbounded, ?_, ?_, fun _ ↦ ?_, fun _ ↦ ?_⟩
        · rwa [passed, hpassed]
        · rwa [passed, hpassed]
        · rw [passed, hpassed]
          apply h.kept_append hclosed
          · exact fun v hv _ ↦ .inl (List.mem_append_left _ hv)
          · exact fun _ ↦ List.mem_append_right _ (List.mem_singleton_self _)
        · simp only [List.length_append, List.length_cons, List.length_nil]
          omega

theorem Inv.next (h : Inv randomAccess s) {call : QueueCall α}
    (hnext : s.next randomAccess call = some t) : Inv randomAccess t := by
  cases call with
  | offer frame =>
      cases hnext
      exact h.offer frame
  | take =>
      obtain ⟨⟨r, queue⟩, htake, rfl⟩ := Option.map_eq_some_iff.1 hnext
      obtain ⟨v, hr, hpending, hsame⟩ | ⟨hr, hsame⟩ := LatestFrameQueue.take_cases htake
      · subst hr
        refine h.of_passed ?_ rfl hsame.2 ?_ ?_
        · simp [passed, hpending]
        · have hbounded := h.bounded
          rw [hpending, List.length_cons] at hbounded
          exact Nat.le_of_succ_le hbounded
        · simp only [hpending, hsame.1, Option.toList, List.length_append, List.length_cons,
            List.length_nil]
          omega
      · subst hr hsame
        simpa using h
  | takeDroppedFrames =>
      cases hnext
      refine h.of_passed rfl rfl rfl h.bounded ?_
      simp only [LatestFrameQueue.takeDroppedFrames, List.sum_append, List.sum_singleton]
      omega
  | close =>
      cases hnext
      have hsub : s.taken.Sublist s.passed := List.sublist_append_left _ _
      have htaken : (s.taken ++ []).Sublist s.passed := by rwa [List.append_nil]
      refine ⟨Nat.zero_le _, h.sorted.sublist (htaken.map Prod.fst), fun v hv ↦ ?_, ?_, ?_⟩
      · exact h.named v (htaken.subset hv)
      · exact fun hopen ↦ Bool.noConfusion hopen
      · exact fun hopen ↦ Bool.noConfusion hopen

theorem Inv.run (h : Run randomAccess {} s) : Inv randomAccess s :=
  run_preserves (fun h ⟨_, _, hnext⟩ ↦ h.next hnext) .initial h

/-- What a call may do to a pending random-access frame. -/
theorem kept_or_displaced {call : QueueCall α} (h : s.next randomAccess call = some t)
    {v : Nat × α} (hv : v ∈ s.queue.pending) (hra : randomAccess v.2 = true) :
    v ∈ t.queue.pending ∨ v ∈ t.taken ∨
      (∃ frame, call = .offer frame ∧ randomAccess frame = true) ∨ call = .close := by
  cases call with
  | offer frame =>
      cases h
      cases hclosed : s.queue.closed with
      | true =>
          left
          simpa [LatestFrameQueue.offer, hclosed] using hv
      | false =>
          rcases @LatestFrameQueue.offer_cases _ (fun v : Nat × α ↦ randomAccess v.2) s.queue
            (s.offered.length, frame) hclosed with
            ⟨-, -, hoffer⟩ | ⟨w, rest, hpending, hw, hoffer⟩ | ⟨-, hoffer⟩
          · left
            rwa [hoffer]
          · rw [hoffer]
            rw [hpending] at hv
            rcases List.mem_cons.1 hv with rfl | hv
            · exact .inr (.inr (.inl ⟨frame, rfl, hw hra⟩))
            · exact .inl (List.mem_append_left _ hv)
          · rw [hoffer]
            exact .inl (List.mem_append_left _ hv)
  | take =>
      obtain ⟨⟨r, queue⟩, htake, rfl⟩ := Option.map_eq_some_iff.1 h
      obtain ⟨w, rfl, hpending, -⟩ | ⟨-, rfl⟩ := LatestFrameQueue.take_cases htake
      · rw [hpending] at hv
        rcases List.mem_cons.1 hv with rfl | hv
        · exact .inr (.inl (List.mem_append_right _ List.mem_cons_self))
        · exact .inl hv
      · exact .inl hv
  | takeDroppedFrames =>
      cases h
      exact .inl hv
  | close => exact .inr (.inr (.inr rfl))

/-- **The queue semantics.**  After any calls at most two frames are pending; the
frames taken are among those offered, in their order and each at most once; a
random-access frame that is neither taken nor pending has given way to a later one, or
the queue is closed, and no call removes a pending one in favour of a dependent frame;
and before the queue is closed every frame offered is accounted for. -/
theorem queue_semantics (h : Run randomAccess {} s) :
    s.queue.pending.length ≤ 2 ∧
    (s.taken.map Prod.fst).Pairwise (· < ·) ∧ (∀ v ∈ s.taken, s.offered[v.1]? = some v.2) ∧
    (s.queue.closed = false → ∀ n frame, s.offered[n]? = some frame → randomAccess frame = true →
      (n, frame) ∈ s.taken ∨ (n, frame) ∈ s.queue.pending ∨
        ∃ m later, n < m ∧ s.offered[m]? = some later ∧ randomAccess later = true) ∧
    (∀ call t, s.next randomAccess call = some t → ∀ v ∈ s.queue.pending, randomAccess v.2 = true →
      v ∈ t.queue.pending ∨ v ∈ t.taken ∨
        (∃ frame, call = .offer frame ∧ randomAccess frame = true) ∨ call = .close) ∧
    (s.queue.closed = false → s.offered.length =
      s.taken.length + s.queue.pending.length + s.reported.sum + s.queue.droppedFrames) := by
  have hinv := Inv.run h
  have htaken : s.taken.Sublist s.passed := List.sublist_append_left _ _
  refine ⟨hinv.bounded, hinv.sorted.sublist (htaken.map Prod.fst),
    fun v hv ↦ hinv.named v (htaken.subset hv), fun hopen n frame hn hra ↦ ?_,
    fun call t hnext v hv hra ↦ kept_or_displaced hnext hv hra, hinv.counted⟩
  rcases hinv.kept hopen n frame hn hra with hmem | hlater
  · rcases List.mem_append.1 hmem with hmem | hmem
    · exact .inl hmem
    · exact .inr (.inl hmem)
  · exact .inr (.inr hlater)

/-- A random-access frame (`true`) gives way to a later one, and both counts are kept. -/
theorem queue_semantics_three_offers : ∃ s : QueueHistory Bool, Run id {} s ∧
    s.taken = [(1, false)] ∧ s.queue.pending = [(2, true)] ∧
      s.offered.length =
        s.taken.length + s.queue.pending.length + s.reported.sum + s.queue.droppedFrames := by
  obtain ⟨s, hrun, htaken, hpending, hopen⟩ :=
    show ∃ s, Run (id : Bool → Bool) {} s ∧ s.taken = [(1, false)] ∧
        s.queue.pending = [(2, true)] ∧ s.queue.closed = false from
      exists_run [.offer true, .offer false, .offer true, .takeDroppedFrames, .take] (by decide)
  exact ⟨s, hrun, htaken, hpending, (queue_semantics hrun).2.2.2.2.2 hopen⟩

end QueueHistory

end SecondScreen.Client
