import Mathlib.Data.List.Basic

/-!
# The queue of the client

`LatestFrameQueue.java`.  The queue looks at nothing of a frame but whether it is a
random-access unit, so frames of any type can be queued.
-/

namespace SecondScreen.Client

variable {α : Type}

def MAX_PENDING_FRAMES : Nat := 2

structure LatestFrameQueue (α : Type) where
  pending : List α := []
  droppedFrames : Nat := 0
  closed : Bool := false

namespace LatestFrameQueue

/-- `offer`.  At the limit the new frame is dropped if it would displace a pending
random-access unit and is not one itself; otherwise the oldest frame is. -/
def offer (randomAccess : α → Bool) (q : LatestFrameQueue α) (frame : α) : LatestFrameQueue α :=
  if q.closed then q
  else if MAX_PENDING_FRAMES ≤ q.pending.length then
    if q.pending.head?.any randomAccess && !randomAccess frame then
      { q with droppedFrames := q.droppedFrames + 1 }
    else
      { q with
        pending := q.pending.tail ++ [frame]
        droppedFrames := q.droppedFrames + 1 }
  else { q with pending := q.pending ++ [frame] }

/-- `take`; `none` while it waits, and no frame once the queue is closed. -/
def take (q : LatestFrameQueue α) : Option (Option α × LatestFrameQueue α) :=
  match q.pending with
  | frame :: pending => some (some frame, { q with pending })
  | [] => if q.closed then some (none, q) else none

/-- `takeDroppedFrames`. -/
def takeDroppedFrames (q : LatestFrameQueue α) : Nat × LatestFrameQueue α :=
  (q.droppedFrames, { q with droppedFrames := 0 })

/-- `close`. -/
def close (q : LatestFrameQueue α) : LatestFrameQueue α :=
  { q with pending := [], closed := true }

variable {randomAccess : α → Bool} {q : LatestFrameQueue α} {frame : α}

/-- What `offer` does to an open queue: it drops the new frame in favour of a
random-access unit, or the oldest frame, or none. -/
theorem offer_cases (h : q.closed = false) :
    ((∃ v ∈ q.pending.head?, randomAccess v = true) ∧ randomAccess frame = false ∧
      q.offer randomAccess frame = { q with droppedFrames := q.droppedFrames + 1 }) ∨
    (∃ v rest, q.pending = v :: rest ∧ (randomAccess v = true → randomAccess frame = true) ∧
      q.offer randomAccess frame =
        { q with pending := rest ++ [frame], droppedFrames := q.droppedFrames + 1 }) ∨
    q.pending.length < MAX_PENDING_FRAMES ∧
      q.offer randomAccess frame = { q with pending := q.pending ++ [frame] } := by
  unfold offer
  rw [if_neg (by simp [h])]
  split_ifs with hfull hkeep
  · rw [Bool.and_eq_true, Option.any_eq_true, Bool.not_eq_true'] at hkeep
    exact .inl ⟨hkeep.1, hkeep.2, rfl⟩
  · cases hpending : q.pending with
    | nil =>
        rw [hpending] at hfull
        exact absurd hfull (Nat.not_succ_le_zero 1)
    | cons v rest =>
        refine .inr (.inl ⟨v, rest, rfl, fun hv ↦ ?_, rfl⟩)
        simpa [hpending, hv] using hkeep
  · exact .inr (.inr ⟨Nat.lt_of_not_le hfull, rfl⟩)

/-- The pending frames keep their order, and a new one comes last. -/
theorem offer_sublist : (q.offer randomAccess frame).pending.Sublist (q.pending ++ [frame]) := by
  unfold offer
  split_ifs
  · exact List.sublist_append_left _ _
  · exact List.sublist_append_left _ _
  · exact (List.tail_sublist _).append (List.Sublist.refl _)
  · exact List.Sublist.refl _

/-- The queue never holds more than `MAX_PENDING_FRAMES` frames. -/
theorem length_offer_le (h : q.pending.length ≤ MAX_PENDING_FRAMES) :
    (q.offer randomAccess frame).pending.length ≤ MAX_PENDING_FRAMES := by
  unfold offer
  split_ifs with hclosed hfull hkeep
  · exact h
  · exact h
  · rw [List.length_append, List.length_tail, List.length_singleton]
    have hpos : 0 < MAX_PENDING_FRAMES := by decide
    omega
  · rw [List.length_append, List.length_singleton]
    omega

/-- What `take` does: it takes the oldest frame, or finds the queue empty and
closed. -/
theorem take_cases {r : Option α} {q' : LatestFrameQueue α} (h : q.take = some (r, q')) :
    (∃ v, r = some v ∧ q.pending = v :: q'.pending ∧
      q'.droppedFrames = q.droppedFrames ∧ q'.closed = q.closed) ∨ r = none ∧ q' = q := by
  unfold take at h
  split at h
  · next v rest hpending =>
      cases h
      exact .inl ⟨v, rfl, hpending, rfl, rfl⟩
  · split_ifs at h
    cases h
    exact .inr ⟨rfl, rfl⟩

/-- `take` takes the oldest frame. -/
theorem take_eq_some {q' : LatestFrameQueue α} (h : q.take = some (some frame, q')) :
    q.pending = frame :: q'.pending := by
  obtain ⟨v, hv, hpending, -⟩ | ⟨hv, -⟩ := take_cases h
  · cases hv
    exact hpending
  · cases hv

end LatestFrameQueue

end SecondScreen.Client
