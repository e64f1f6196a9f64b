import SecondScreen.Capture.Accounting

/-!
# The pool of the BGRA buffers

What the threads do to the buffers, with a record of the acquisitions and the releases.
Here any step may fail; a failed publish of the conversion thread is recorded in
`m_BgraFailed`, and what follows is about the time before.

`Pool` is the invariant of the pool.  Each operation on it has one lemma, which says what
must be known of the thread that performs it.
-/

namespace SecondScreen.Capture

open SecondScreen.Conc

/-! ## The record -/

/-- What has happened to the buffers. -/
structure PoolHistory where
  acquired : List Nat := []
  released : List Nat := []
  /-- How often `EnqueueBgraFrame` has found the queue full. -/
  foundFull : Nat := 0
  /-- How often `EnsureBgraBuffers` has freed, replaced or forgotten a buffer while one was
  in use. -/
  takenAway : Nat := 0

/-- Some buffer is in use. -/
def Processor.anyInUse (p : Processor) : Prop := ∃ i < kBgraBuffers, p.bgraBufferInUse i = true

instance (p : Processor) : Decidable p.anyInUse :=
  inferInstanceAs (Decidable (∃ i < kBgraBuffers, _))

namespace PoolHistory

/-- `EnsureBgraBuffers` takes something away. -/
def takeAway (h : PoolHistory) (p : Processor) : PoolHistory :=
  if p.anyInUse then { h with takenAway := h.takenAway + 1 } else h

/-- What an operation, with its answer, adds to the record. -/
def step : (β : Type) → CaptureOp β → β → Processor → PoolHistory → PoolHistory
  | _, .acquireBgraBuffer, some b, _, h => { h with acquired := h.acquired ++ [b] }
  | _, .releaseBgraBuffer b, _, _, h => { h with released := h.released ++ [b] }
  | _, .enqueueBgraFrame _, _, p, h =>
      if kBgraBuffers ≤ p.bgraQueueCount then { h with foundFull := h.foundFull + 1 } else h
  | _, .resetBgraBuffer _, _, p, h | _, .newBgraBuffer _, _, p, h
  | _, .fillBgraBufferInUse, _, p, h | _, .writeBgraQueueHead _, _, p, h
  | _, .writeBgraQueueCount _, _, p, h => h.takeAway p
  | _, _, _, _, h => h

end PoolHistory

/-- The threads with the record. -/
structure PoolShared where
  shared : Shared := {}
  history : PoolHistory := {}

/-- One operation of thread `i`, with its record. -/
def poolExec (allow : Steps) [allow.Decides] (i : Worker) : Exec CaptureOp Answer PoolShared :=
  fun β w o s ↦
    (captureExec allow i β w o s.shared).map fun r ↦
      (r.1, ⟨r.2, s.history.step β o r.1 s.shared.processor⟩)

/-- The threads and the host of `captureSystem`. -/
def poolSystem (allow : Steps) [allow.Decides] : System Worker CaptureOp Answer PoolShared where
  Local := (captureSystem allow).Local
  Call := (captureSystem allow).Call
  Result := (captureSystem allow).Result
  body := (captureSystem allow).body
  exec := poolExec allow
  enter i call l s := { s with shared := (captureSystem allow).enter i call l s.shared }
  leave i r s := { s with shared := (captureSystem allow).leave i r s.shared }

/-! ## The pool -/

/-- What matters of the state. -/
structure PoolPart where
  bgraBufferInUse : Nat → Bool
  bgraQueue : Nat → PendingBgraFrame
  bgraQueueHead : Nat
  bgraQueueCount : Nat
  bgraStop : Bool
  bgraFailed : Bool
  joinable : Bool
  ended : Bool
  queued : List Nat
  conversionBuffer : Option Nat
  captureBuffer : Option Nat
  history : PoolHistory

def PoolShared.pool (s : PoolShared) : PoolPart where
  bgraBufferInUse := s.shared.processor.bgraBufferInUse
  bgraQueue := s.shared.processor.bgraQueue
  bgraQueueHead := s.shared.processor.bgraQueueHead
  bgraQueueCount := s.shared.processor.bgraQueueCount
  bgraStop := s.shared.processor.bgraStop
  bgraFailed := s.shared.processor.bgraFailed
  joinable := s.shared.processor.joinable
  ended := s.shared.processor.ended
  queued := s.shared.log.queued.map Prod.fst
  conversionBuffer := s.shared.log.conversionBuffer
  captureBuffer := s.shared.log.captureBuffer
  history := s.history

/-- The buffers that are queued or with one of the threads. -/
def PoolPart.held (p : PoolPart) : List Nat :=
  p.captureBuffer.toList ++ p.queued ++ p.conversionBuffer.toList

theorem held_acquire {p : PoolPart} {b : Nat} {inUse : Nat → Bool} {history : PoolHistory}
    (hnone : p.captureBuffer = none) :
    PoolPart.held { p with bgraBufferInUse := inUse, captureBuffer := some b, history } =
      b :: p.held := by
  simp [PoolPart.held, hnone]

structure Pool (p : PoolPart) : Prop where
  count : p.bgraQueueCount = p.queued.length
  head : p.bgraQueueHead < kBgraBuffers
  entries : ∀ k (hk : k < p.queued.length),
    (p.bgraQueue ((p.bgraQueueHead + k) % kBgraBuffers)).bufferIndex = p.queued[k]
  inUse : InUse p.bgraBufferInUse p.held
  /-- Every buffer that was acquired was released once, or is still in use. -/
  balance : ∀ b, p.history.acquired.count b =
    p.history.released.count b + (if b ∈ p.held then 1 else 0)
  foundFull : p.history.foundFull = 0
  takenAway : p.history.takenAway = 0
  ended : p.ended = true → p.bgraStop = true ∧ p.queued = [] ∧ p.conversionBuffer = none

namespace Pool

variable {p : PoolPart} {b : Nat}

/-- The swap-chain thread takes a free buffer. -/
theorem acquire (h : Pool p) (hnone : p.captureBuffer = none) (hb : b < kBgraBuffers)
    (hfree : p.bgraBufferInUse b = false) :
    Pool { p with
      bgraBufferInUse := Function.update p.bgraBufferInUse b true
      captureBuffer := some b
      history := { p.history with acquired := p.history.acquired ++ [b] } } where
  count := h.count
  head := h.head
  entries := h.entries
  inUse := by
    rw [held_acquire hnone]
    exact h.inUse.acquire hb hfree
  balance c := by
    have hfresh : b ∉ p.held := fun hmem ↦ by
      rw [(h.inUse.iff b hb).2 hmem] at hfree
      cases hfree
    have hbalance := h.balance c
    rw [held_acquire hnone, List.count_append, List.count_singleton]
    by_cases hcb : c = b
    · subst hcb
      rw [if_neg hfresh] at hbalance
      simp [hbalance]
    · have hbc : (b == c) = false := by simpa using fun h ↦ hcb h.symm
      simp [hbalance, hcb, hbc]
  foundFull := h.foundFull
  takenAway := h.takenAway
  ended := h.ended

/-- A thread gives its buffer back. -/
theorem release (h : Pool p) {held : List Nat} {captureBuffer conversionBuffer : Option Nat}
    (hheld : p.held.Perm (b :: held))
    (hrest : held.Perm (captureBuffer.toList ++ p.queued ++ conversionBuffer.toList))
    (hended : p.ended = true → conversionBuffer = none) :
    Pool { p with
      bgraBufferInUse := Function.update p.bgraBufferInUse b false
      captureBuffer, conversionBuffer
      history := { p.history with released := p.history.released ++ [b] } } where
  count := h.count
  head := h.head
  entries := h.entries
  inUse := ((h.inUse.perm hheld).release).perm hrest
  balance c := by
    have hnodup := hheld.nodup_iff.1 h.inUse.nodup
    have hbalance := h.balance c
    rw [if_congr hheld.mem_iff rfl rfl] at hbalance
    show p.history.acquired.count c = (p.history.released ++ [b]).count c +
      if c ∈ captureBuffer.toList ++ p.queued ++ conversionBuffer.toList then 1 else 0
    rw [if_congr hrest.mem_iff.symm rfl rfl, List.count_append, List.count_singleton]
    by_cases hcb : c = b
    · subst hcb
      rw [if_pos List.mem_cons_self] at hbalance
      simp [hbalance, (List.nodup_cons.1 hnodup).1]
    · have hbc : (b == c) = false := by simpa using fun h ↦ hcb h.symm
      simp only [List.mem_cons, hcb, false_or] at hbalance
      simp [hbalance, hbc]
  foundFull := h.foundFull
  takenAway := h.takenAway
  ended he := ⟨(h.ended he).1, (h.ended he).2.1, hended he⟩

/-- While the swap-chain thread holds a buffer, the queue has room. -/
theorem notFull (h : Pool p) (hb : p.captureBuffer = some b) : p.bgraQueueCount < kBgraBuffers := by
  have hlen := h.inUse.length_le
  rw [PoolPart.held, hb] at hlen
  simp only [Option.toList, List.length_append, List.length_singleton] at hlen
  rw [h.count]
  omega

/-- Two places of a ring are different. -/
theorem mod_ne {n head j k : Nat} (hjk : j < k) (hk : k < n) : (head + j) % n ≠ (head + k) % n := by
  intro heq
  have hdvd := Nat.dvd_of_mod_eq_zero (Nat.sub_mod_eq_zero_of_mod_eq heq.symm)
  rw [Nat.add_sub_add_left] at hdvd
  exact absurd (Nat.le_of_dvd (by omega) hdvd) (by omega)

/-- The swap-chain thread passes its buffer on. -/
theorem enqueue (h : Pool p) {frame : PendingBgraFrame}
    (hb : p.captureBuffer = some frame.bufferIndex) (hstop : p.bgraStop = false) :
    Pool { p with
      bgraQueue := Function.update p.bgraQueue
        ((p.bgraQueueHead + p.bgraQueueCount) % kBgraBuffers) frame
      bgraQueueCount := p.bgraQueueCount + 1
      queued := p.queued ++ [frame.bufferIndex]
      captureBuffer := none } := by
  have hfull := h.notFull hb
  have hperm : p.held.Perm ((p.queued ++ [frame.bufferIndex]) ++ p.conversionBuffer.toList) := by
    rw [PoolPart.held, hb]
    exact (@List.perm_append_comm _ [frame.bufferIndex] _).append_right _
  refine ⟨?_, h.head, fun k hk ↦ ?_, h.inUse.perm hperm, fun c ↦ ?_, h.foundFull, h.takenAway,
    fun he ↦ ?_⟩
  · show p.bgraQueueCount + 1 = (p.queued ++ [frame.bufferIndex]).length
    rw [h.count, List.length_append, List.length_singleton]
  · have hk' : k < p.queued.length + 1 := by
      simpa [List.length_append] using hk
    rcases Nat.lt_succ_iff_lt_or_eq.1 hk' with hlt | rfl
    · have hne : (p.bgraQueueHead + k) % kBgraBuffers ≠
          (p.bgraQueueHead + p.bgraQueueCount) % kBgraBuffers := by
        rw [← h.count] at hlt
        exact mod_ne hlt hfull
      show (Function.update p.bgraQueue _ frame _).bufferIndex =
        (p.queued ++ [frame.bufferIndex])[k]
      rw [Function.update_of_ne hne, List.getElem_append_left hlt]
      exact h.entries k hlt
    · show (Function.update p.bgraQueue _ frame _).bufferIndex =
        (p.queued ++ [frame.bufferIndex])[p.queued.length]
      rw [h.count, Function.update_self, List.getElem_concat_length]
      rfl
  · rw [h.balance c, if_congr hperm.mem_iff rfl rfl]
    rfl
  · rw [(h.ended he).1] at hstop
    cases hstop

/-- The conversion thread takes the oldest entry. -/
theorem dequeue (h : Pool p) (hnone : p.conversionBuffer = none) (hne : p.bgraQueueCount ≠ 0) :
    Pool { p with
      bgraQueueHead := (p.bgraQueueHead + 1) % kBgraBuffers
      bgraQueueCount := p.bgraQueueCount - 1
      queued := p.queued.tail
      conversionBuffer := some (p.bgraQueue p.bgraQueueHead).bufferIndex } := by
  obtain ⟨b, rest, hqueued⟩ : ∃ b rest, p.queued = b :: rest := by
    cases hq : p.queued with
    | nil =>
        rw [h.count, hq] at hne
        exact absurd rfl hne
    | cons b rest => exact ⟨b, rest, rfl⟩
  have hb : (p.bgraQueue p.bgraQueueHead).bufferIndex = b := by
    have hfirst := h.entries 0 (by rw [hqueued]; exact Nat.succ_pos _)
    rw [Nat.add_zero, Nat.mod_eq_of_lt h.head] at hfirst
    rw [hfirst]
    simp [hqueued]
  have hperm : p.held.Perm (p.captureBuffer.toList ++ p.queued.tail ++ [b]) := by
    rw [PoolPart.held, hnone, hqueued, List.append_assoc, List.append_assoc]
    refine List.Perm.append_left _ ?_
    simpa using (List.perm_append_singleton b rest).symm
  rw [hb]
  refine ⟨?_, Nat.mod_lt _ (by decide), fun k hk ↦ ?_, h.inUse.perm hperm, fun c ↦ ?_,
    h.foundFull, h.takenAway, fun he ↦ ?_⟩
  · show p.bgraQueueCount - 1 = p.queued.tail.length
    rw [h.count, List.length_tail]
  · have hk' : k + 1 < p.queued.length := by
      have : k < p.queued.tail.length := hk
      rw [List.length_tail] at this
      omega
    show (p.bgraQueue (((p.bgraQueueHead + 1) % kBgraBuffers + k) % kBgraBuffers)).bufferIndex =
      p.queued.tail[k]
    rw [Nat.mod_add_mod, Nat.add_assoc, Nat.add_comm 1 k, List.getElem_tail]
    exact h.entries (k + 1) hk'
  · rw [h.balance c, if_congr hperm.mem_iff rfl rfl]
    rfl
  · rw [(h.ended he).2.1] at hqueued
    cases hqueued

end Pool

/-- While nothing is held, the flags and the queue may be set up anew. -/
theorem Pool.rebuild {p : PoolPart} (h : Pool p) (hempty : p.held = []) {inUse : Nat → Bool}
    {head : Nat} (hinUse : ∀ b < kBgraBuffers, inUse b = false) (hhead : head < kBgraBuffers) :
    Pool { p with bgraBufferInUse := inUse, bgraQueueHead := head, bgraQueueCount := 0 } where
  count := by
    have hqueued : p.queued = [] := by
      simp only [PoolPart.held, List.append_eq_nil_iff] at hempty
      exact hempty.1.2
    show 0 = p.queued.length
    rw [hqueued]
    rfl
  head := hhead
  entries k hk := by
    simp only [PoolPart.held, List.append_eq_nil_iff] at hempty
    have hk' : k < p.queued.length := hk
    rw [hempty.1.2] at hk'
    exact absurd hk' (Nat.not_lt_zero k)
  inUse := by
    show InUse inUse p.held
    rw [hempty]
    exact ⟨fun b hb ↦ by simp [hinUse b hb], List.nodup_nil, fun b hb ↦ by cases hb⟩
  balance := h.balance
  foundFull := h.foundFull
  takenAway := h.takenAway
  ended := h.ended

theorem Pool.free {p : PoolPart} (h : Pool p) (hempty : p.held = []) {b : Nat}
    (hb : b < kBgraBuffers) : p.bgraBufferInUse b = false := by
  rw [Bool.eq_false_iff]
  intro hinUse
  have hmem := (h.inUse.iff b hb).1 hinUse
  rw [hempty] at hmem
  cases hmem

/-! ## The effect of the operations -/

variable {allow : Steps} [allow.Decides] {i : Worker} {s u : PoolShared} {β : Type} {w : Answer}
  {o : CaptureOp β} {r : β}

theorem poolExec_some (h : poolExec allow i β w o s = some (r, u)) :
    ∃ q, CaptureOp.exec β w o s.shared.processor = some (r, q) ∧
      u = ⟨⟨q, s.shared.log.step i β o r s.shared.processor⟩,
        s.history.step β o r s.shared.processor⟩ := by
  obtain ⟨⟨r', v⟩, hexec, hu⟩ := Option.map_eq_some_iff.1 h
  cases hu
  obtain ⟨-, q, hq, rfl⟩ := captureExec_some hexec
  exact ⟨q, hq, rfl⟩

/-- The operations that leave the pool alone. -/
def KeepsPool : (β : Type) → CaptureOp β → Prop
  | _, .resetBgraBuffer _ | _, .newBgraBuffer _ | _, .fillBgraBufferInUse
  | _, .writeBgraQueueHead _ | _, .writeBgraQueueCount _ | _, .acquireBgraBuffer
  | _, .releaseBgraBuffer _ | _, .enqueueBgraFrame _ | _, .dequeueBgraFrame | _, .setBgraFailed
  | _, .setBgraStop | _, .startThread | _, .endThread | _, .join => False
  | _, _ => True

theorem KeepsPool.pool (ho : KeepsPool β o) (h : poolExec allow i β w o s = some (r, u)) :
    u.pool = s.pool := by
  obtain ⟨q, hexec, rfl⟩ := poolExec_some h
  have hlog : (s.shared.log.step i β o r s.shared.processor).queued = s.shared.log.queued ∧
      (s.shared.log.step i β o r s.shared.processor).conversionBuffer =
        s.shared.log.conversionBuffer ∧
      (s.shared.log.step i β o r s.shared.processor).captureBuffer =
        s.shared.log.captureBuffer := by
    cases o <;> first
      | exact ho.elim
      | exact ⟨rfl, rfl, rfl⟩
      | simp only [Log.step]
        split <;> exact ⟨rfl, rfl, rfl⟩
  have hhistory : s.history.step β o r s.shared.processor = s.history := by
    cases o <;> first | exact ho.elim | rfl
  have hprocessor : q.bgraBufferInUse = s.shared.processor.bgraBufferInUse ∧
      q.bgraQueue = s.shared.processor.bgraQueue ∧
      q.bgraQueueHead = s.shared.processor.bgraQueueHead ∧
      q.bgraQueueCount = s.shared.processor.bgraQueueCount ∧
      q.bgraStop = s.shared.processor.bgraStop ∧ q.bgraFailed = s.shared.processor.bgraFailed ∧
      q.joinable = s.shared.processor.joinable ∧ q.ended = s.shared.processor.ended := by
    cases o <;> first
      | exact ho.elim
      | simp only [CaptureOp.exec] at hexec
        repeat' split at hexec
        all_goals cases hexec <;> exact ⟨rfl, rfl, rfl, rfl, rfl, rfl, rfl, rfl⟩
  obtain ⟨hqueued, hconversion, hcapture⟩ := hlog
  obtain ⟨h1, h2, h3, h4, h5, h6, h7, h8⟩ := hprocessor
  simp only [PoolShared.pool, hqueued, hconversion, hcapture, hhistory, h1, h2, h3, h4, h5, h6, h7,
    h8]

theorem poolExec_acquire {r : Option Nat}
    (h : poolExec allow i _ w .acquireBgraBuffer s = some (r, u)) :
    (r = none ∧ u.pool = s.pool) ∨
    ∃ b, r = some b ∧ b < kBgraBuffers ∧ s.pool.bgraBufferInUse b = false ∧
      u.pool = { s.pool with
        bgraBufferInUse := Function.update s.pool.bgraBufferInUse b true
        captureBuffer := some b
        history := { s.pool.history with acquired := s.pool.history.acquired ++ [b] } } := by
  obtain ⟨q, hexec, rfl⟩ := poolExec_some h
  simp only [CaptureOp.exec] at hexec
  split_ifs at hexec with hstop
  · cases hexec
    exact .inl ⟨rfl, rfl⟩
  · split at hexec
    · next b hfree =>
      cases hexec
      have hb := List.mem_range.1 (List.mem_of_find?_eq_some hfree)
      have hnot : s.shared.processor.bgraBufferInUse b = false := by
        simpa using List.find?_some hfree
      exact .inr ⟨b, rfl, hb, hnot, rfl⟩
    · cases hexec

theorem poolExec_release {b : Nat} {r : Unit}
    (h : poolExec allow i _ w (.releaseBgraBuffer b) s = some (r, u)) :
    u.pool = { s.pool with
      bgraBufferInUse := Function.update s.pool.bgraBufferInUse b false
      captureBuffer := if i = .conversion then s.pool.captureBuffer else none
      conversionBuffer := if i = .conversion then none else s.pool.conversionBuffer
      history := { s.pool.history with released := s.pool.history.released ++ [b] } } := by
  obtain ⟨q, hexec, rfl⟩ := poolExec_some h
  cases hexec
  simp only [PoolShared.pool, Log.step]
  split_ifs <;> rfl

theorem poolExec_enqueue {frame : PendingBgraFrame} {r : Bool}
    (h : poolExec allow i _ w (.enqueueBgraFrame frame) s = some (r, u))
    (hroom : s.pool.bgraQueueCount < kBgraBuffers) :
    (r = false ∧ u.pool = s.pool) ∨
    (r = true ∧ s.pool.bgraStop = false ∧ u.pool = { s.pool with
      bgraQueue := Function.update s.pool.bgraQueue
        ((s.pool.bgraQueueHead + s.pool.bgraQueueCount) % kBgraBuffers) frame
      bgraQueueCount := s.pool.bgraQueueCount + 1
      queued := s.pool.queued ++ [frame.bufferIndex]
      captureBuffer := none }) := by
  obtain ⟨q, hexec, rfl⟩ := poolExec_some h
  have hhistory : s.history.step _ (.enqueueBgraFrame frame) r s.shared.processor = s.history := by
    simp only [PoolHistory.step]
    exact if_neg (Nat.not_le.2 hroom)
  rw [hhistory]
  simp only [CaptureOp.exec] at hexec
  split_ifs at hexec with hrefused
  · cases hexec
    exact .inl ⟨rfl, rfl⟩
  · cases hexec
    refine .inr ⟨rfl, ?_, ?_⟩
    · cases hstop : s.shared.processor.bgraStop with
      | true => simp [hstop] at hrefused
      | false => exact hstop
    · simp [PoolShared.pool, Log.step]

theorem poolExec_dequeue {r : Option PendingBgraFrame}
    (h : poolExec allow i _ w .dequeueBgraFrame s = some (r, u)) :
    (r = none ∧ u.pool = s.pool ∧
      (s.pool.bgraFailed = false → s.pool.bgraStop = true ∧ s.pool.bgraQueueCount = 0)) ∨
    (r = some (s.pool.bgraQueue s.pool.bgraQueueHead) ∧ s.pool.bgraFailed = false ∧
      s.pool.bgraQueueCount ≠ 0 ∧ u.pool = { s.pool with
      bgraQueueHead := (s.pool.bgraQueueHead + 1) % kBgraBuffers
      bgraQueueCount := s.pool.bgraQueueCount - 1
      queued := s.pool.queued.tail
      conversionBuffer := some (s.pool.bgraQueue s.pool.bgraQueueHead).bufferIndex }) := by
  obtain ⟨q, hexec, rfl⟩ := poolExec_some h
  simp only [CaptureOp.exec] at hexec
  split_ifs at hexec with hawake hends
  · cases hexec
    refine .inl ⟨rfl, rfl, fun hfailed ↦ ?_⟩
    have hfailed' : s.shared.processor.bgraFailed = false := hfailed
    show s.shared.processor.bgraStop = true ∧ s.shared.processor.bgraQueueCount = 0
    simpa [hfailed'] using hends
  · cases hexec
    refine .inr ⟨rfl, ?_, ?_, ?_⟩
    · cases hfailed : s.shared.processor.bgraFailed with
      | true => simp [hfailed] at hends
      | false => exact hfailed
    · rintro (hcount : s.shared.processor.bgraQueueCount = 0)
      cases hstop : s.shared.processor.bgraStop <;>
        cases hfailed : s.shared.processor.bgraFailed <;>
          simp [hcount, hstop, hfailed] at hawake hends
    · simp [PoolShared.pool, Log.step, PoolHistory.step, List.map_tail]

/-- The operations by which `EnsureBgraBuffers` sets up the pool. -/
def Rebuilds : (β : Type) → CaptureOp β → Prop
  | _, .resetBgraBuffer _ | _, .newBgraBuffer _ | _, .fillBgraBufferInUse
  | _, .writeBgraQueueHead 0 | _, .writeBgraQueueCount 0 => True
  | _, _ => False

/-- While nothing is held, the pool is set up with nothing taken away. -/
theorem Rebuilds.pool (ho : Rebuilds β o) (h : poolExec allow i β w o s = some (r, u))
    (hs : Pool s.pool) (hempty : s.pool.held = []) :
    ∃ inUse head, (∀ b < kBgraBuffers, inUse b = false) ∧ head < kBgraBuffers ∧
      u.pool = { s.pool with
        bgraBufferInUse := inUse, bgraQueueHead := head, bgraQueueCount := 0 } := by
  have hfree {b : Nat} (hb : b < kBgraBuffers) : s.pool.bgraBufferInUse b = false :=
    hs.free hempty hb
  have hnone : ¬s.shared.processor.anyInUse := by
    rintro ⟨b, hb, hinUse⟩
    rw [show s.shared.processor.bgraBufferInUse b = false from hfree hb] at hinUse
    cases hinUse
  have hhistory : s.history.takeAway s.shared.processor = s.history := if_neg hnone
  have hcount : s.pool.bgraQueueCount = 0 := by
    simp only [PoolPart.held, List.append_eq_nil_iff] at hempty
    rw [hs.count, hempty.1.2]
    rfl
  have hsame : s.pool = { s.pool with bgraQueueCount := 0 } := by
    rw [← hcount]
  obtain ⟨q, hexec, rfl⟩ := poolExec_some h
  cases o with
  | resetBgraBuffer b =>
      cases hexec
      refine ⟨_, _, fun b ↦ hfree, hs.head, ?_⟩
      refine Eq.trans ?_ hsame
      simp [PoolShared.pool, Log.step, PoolHistory.step, hhistory]
  | newBgraBuffer b =>
      refine ⟨_, _, fun b ↦ hfree, hs.head, ?_⟩
      refine Eq.trans ?_ hsame
      simp only [CaptureOp.exec] at hexec
      split_ifs at hexec <;> cases hexec <;>
        simp [PoolShared.pool, Log.step, PoolHistory.step, hhistory]
  | fillBgraBufferInUse =>
      cases hexec
      refine ⟨fun _ ↦ false, s.pool.bgraQueueHead, fun _ _ ↦ rfl, hs.head, ?_⟩
      simp only [PoolShared.pool, Log.step, PoolHistory.step, hhistory]
      rw [show s.shared.processor.bgraQueueCount = 0 from hcount]
  | writeBgraQueueHead value =>
      cases value with
      | succ value => exact ho.elim
      | zero =>
          cases hexec
          refine ⟨_, 0, fun b ↦ hfree, by decide, ?_⟩
          simp only [PoolShared.pool, Log.step, PoolHistory.step, hhistory]
          rw [show s.shared.processor.bgraQueueCount = 0 from hcount]
  | writeBgraQueueCount value =>
      cases value with
      | succ value => exact ho.elim
      | zero =>
          cases hexec
          refine ⟨_, _, fun b ↦ hfree, hs.head, ?_⟩
          simp only [PoolShared.pool, Log.step, PoolHistory.step, hhistory]
  | _ => exact ho.elim

/-- A failure stays. -/
theorem poolExec_failed (h : poolExec allow i β w o s = some (r, u))
    (hs : s.pool.bgraFailed = true) : u.pool.bgraFailed = true := by
  obtain ⟨q, hexec, rfl⟩ := poolExec_some h
  have hs' : s.shared.processor.bgraFailed = true := hs
  show q.bgraFailed = true
  cases o <;> simp only [CaptureOp.exec] at hexec <;> repeat' split at hexec
  all_goals cases hexec <;> first | exact hs' | rfl

theorem PlainOperation.keepsPool (ho : PlainOperation β o) : KeepsPool β o := by
  cases o <;> first | exact ho.elim | trivial

theorem RingOperation.keepsPool (ho : RingOperation β o) : KeepsPool β o := by
  cases o <;> first | exact ho.elim | trivial

end SecondScreen.Capture
