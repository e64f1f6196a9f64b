import SecondScreen.Monitoring.MonitorContext
import SecondScreen.Machine.Lists
import Mathlib.Data.List.Nodup

/-!
# Processors and swap chains come to an end

Whatever the system assigns and takes away, one processor at most has threads, no thread
outlives its processor, and every swap chain is deleted once.
-/

namespace SecondScreen.Monitoring

open SecondScreen.Conc SecondScreen.Machine

/-! ## A processor -/

namespace SwapChainProcessor

variable {p q : SwapChainProcessor} {deleted : List Nat}

/-- The thread has not been started, or has ended. -/
def Stopped (p : SwapChainProcessor) : Prop := p.thread = none ∨ p.thread = some .ended

/-- A thread of the processor may still go on. -/
def Alive (p : SwapChainProcessor) : Prop := ¬p.Stopped ∨ p.bgraThread = .running

/-- Nothing is left of the processor. -/
structure Gone (p : SwapChainProcessor) : Prop where
  stopped : p.Stopped
  bgraThread : p.bgraThread = .absent
  frameRing : p.frameRing = false
  swapChain : p.swapChain = none

/-- The conversion thread and the ring are there only within `RunCore`; a thread that has ended
has deleted the swap chain, and the destructor ends after the thread. -/
structure Ok (p : SwapChainProcessor) : Prop where
  bgraThread : p.bgraThread = .absent ∨ p.thread = some .loop ∨
    p.thread = some .stopConversionThread
  frameRing : p.frameRing = false ∨ p.thread = some .loop ∨
    p.thread = some .stopConversionThread ∨ p.thread = some .closeFrameRing
  swapChain : p.thread = some .ended → p.swapChain = none
  destroyed : p.destroyed = true → p.Stopped ∧ p.swapChain = none

/-- The destructor goes on only when the thread has ended. -/
def At (p : SwapChainProcessor) : Destructor → Prop
  | .setTerminateEvent | .waitForThread => True
  | .stopConversionThread | .closeFrameRing | .deleteSwapChain => p.Stopped

/-- A thread that has ended is at no other point. -/
theorem Stopped.not_thread (h : p.Stopped) {point : RunPoint} (hpoint : point ≠ .ended) :
    p.thread ≠ some point := by
  intro hthread
  rcases h with hnone | hended
  · rw [hthread] at hnone
    cases hnone
  · rw [hthread] at hended
    exact hpoint (Option.some.inj hended)

/-- `RunCore` has joined the conversion thread before the thread ends. -/
theorem Ok.absent (h : p.Ok) (hstopped : p.Stopped) : p.bgraThread = .absent := by
  rcases h.bgraThread with habsent | hloop | hstop
  · exact habsent
  · exact absurd hloop (hstopped.not_thread (by rintro ⟨⟩))
  · exact absurd hstop (hstopped.not_thread (by rintro ⟨⟩))

/-- It has closed the ring, too. -/
theorem Ok.closed (h : p.Ok) (hstopped : p.Stopped) : p.frameRing = false := by
  rcases h.frameRing with hclosed | hloop | hstop | hclose
  · exact hclosed
  · exact absurd hloop (hstopped.not_thread (by rintro ⟨⟩))
  · exact absurd hstop (hstopped.not_thread (by rintro ⟨⟩))
  · exact absurd hclose (hstopped.not_thread (by rintro ⟨⟩))

/-- Nothing is left of a destroyed processor. -/
theorem Ok.gone (h : p.Ok) (hdestroyed : p.destroyed = true) : p.Gone := by
  obtain ⟨hstopped, hchain⟩ := h.destroyed hdestroyed
  exact ⟨hstopped, h.absent hstopped, h.closed hstopped, hchain⟩

theorem Gone.not_alive (h : p.Gone) : ¬p.Alive := by
  rintro (hrunning | hrunning)
  · exact hrunning h.stopped
  · rw [h.bgraThread] at hrunning
    cases hrunning

/-- What a step of one of the threads does. -/
structure Goes (p q : SwapChainProcessor) (deleted : List Nat) : Prop where
  ok : q.Ok
  before : ¬p.Stopped
  destroyed : q.destroyed = p.destroyed
  swapChain : p.swapChain.toList = deleted ++ q.swapChain.toList

/-- A processor whose thread runs has not been destroyed. -/
theorem Ok.not_destroyed (h : p.Ok) (hrunning : ¬p.Stopped) : p.destroyed ≠ true :=
  fun hdestroyed ↦ hrunning (h.destroyed hdestroyed).1

theorem not_stopped {point : RunPoint} (hpoint : point ≠ .ended)
    (hthread : p.thread = some point) : ¬p.Stopped :=
  fun hstopped ↦ hstopped.not_thread hpoint hthread

theorem stopConversionThread_cases {joined : Bool}
    (h : p.stopConversionThread = some (q, joined)) :
    joined = false ∧ q = { p with bgraStop := true } ∨
      joined = true ∧ p.bgraThread ≠ .running ∧ q = { p with bgraThread := .absent } := by
  unfold stopConversionThread at h
  split_ifs at h with hstop hrunning
  · cases h
    exact .inl ⟨rfl, rfl⟩
  · cases h
    exact .inr ⟨rfl, hrunning, rfl⟩

/-- A step of `Run` keeps the processor in order and deletes at most its swap chain. -/
theorem Ok.run (h : p.Ok) {a : RunAnswer} (hrun : p.run a = some (q, deleted)) :
    Goes p q deleted := by
  have hkept (hrunning : ¬p.Stopped) {P : Prop} (hdestroyed : p.destroyed = true) : P :=
    absurd hdestroyed (h.not_destroyed hrunning)
  unfold SwapChainProcessor.run at hrun
  cases hthread : p.thread with
  | none =>
      rw [hthread] at hrun
      cases hrun
  | some point =>
      rw [hthread] at hrun
      have habsent (hloop : point ≠ .loop) (hstop : point ≠ .stopConversionThread) :
          p.bgraThread = .absent := by
        rcases h.bgraThread with habsent | hthread' | hthread'
        · exact habsent
        · rw [hthread] at hthread'
          exact absurd (Option.some.inj hthread') hloop
        · rw [hthread] at hthread'
          exact absurd (Option.some.inj hthread') hstop
      have hclosed (hloop : point ≠ .loop) (hstop : point ≠ .stopConversionThread)
          (hclose : point ≠ .closeFrameRing) : p.frameRing = false := by
        rcases h.frameRing with hclosed | hthread' | hthread' | hthread'
        · exact hclosed
        · rw [hthread] at hthread'
          exact absurd (Option.some.inj hthread') hloop
        · rw [hthread] at hthread'
          exact absurd (Option.some.inj hthread') hstop
        · rw [hthread] at hthread'
          exact absurd (Option.some.inj hthread') hclose
      cases point with
      | ended => cases hrun
      | setDevice =>
          have hrunning := not_stopped (by rintro ⟨⟩) hthread
          have hbgra := habsent (by rintro ⟨⟩) (by rintro ⟨⟩)
          have hring := hclosed (by rintro ⟨⟩) (by rintro ⟨⟩) (by rintro ⟨⟩)
          cases a <;> cases hrun <;>
            exact ⟨⟨.inl hbgra, .inl hring, by rintro ⟨⟩, hkept hrunning⟩, hrunning, rfl, rfl⟩
      | startConversionThread =>
          have hrunning := not_stopped (by rintro ⟨⟩) hthread
          have hbgra := habsent (by rintro ⟨⟩) (by rintro ⟨⟩)
          have hring := hclosed (by rintro ⟨⟩) (by rintro ⟨⟩) (by rintro ⟨⟩)
          cases a <;> cases hrun
          · exact ⟨⟨.inr (.inl rfl), .inl hring, by rintro ⟨⟩, hkept hrunning⟩, hrunning, rfl,
              rfl⟩
          · exact ⟨⟨.inl hbgra, .inl hring, by rintro ⟨⟩, hkept hrunning⟩, hrunning, rfl, rfl⟩
          · exact ⟨⟨.inl hbgra, .inl hring, by rintro ⟨⟩, hkept hrunning⟩, hrunning, rfl, rfl⟩
      | loop =>
          have hrunning := not_stopped (by rintro ⟨⟩) hthread
          cases a with
          | goesOn frameRing =>
              cases hrun
              exact ⟨⟨.inr (.inl rfl), .inr (.inl rfl), by rintro ⟨⟩, hkept hrunning⟩, hrunning,
                rfl, rfl⟩
          | fails =>
              cases hrun
              exact ⟨⟨.inr (.inr rfl), .inr (.inr (.inl rfl)), by rintro ⟨⟩, hkept hrunning⟩,
                hrunning, rfl, rfl⟩
          | terminated =>
              dsimp only at hrun
              split_ifs at hrun
              cases hrun
              exact ⟨⟨.inr (.inr rfl), .inr (.inr (.inl rfl)), by rintro ⟨⟩, hkept hrunning⟩,
                hrunning, rfl, rfl⟩
      | stopConversionThread =>
          have hrunning := not_stopped (by rintro ⟨⟩) hthread
          obtain ⟨⟨p', joined⟩, hstop, heq⟩ := Option.map_eq_some_iff.1 hrun
          rcases stopConversionThread_cases hstop with ⟨rfl, rfl⟩ | ⟨rfl, -, rfl⟩
          · cases heq
            exact ⟨⟨.inr (.inr rfl), .inr (.inr (.inl rfl)), by rintro ⟨⟩, hkept hrunning⟩,
              hrunning, rfl, rfl⟩
          · cases heq
            exact ⟨⟨.inl rfl, .inr (.inr (.inr rfl)), by rintro ⟨⟩, hkept hrunning⟩,
              hrunning, rfl, rfl⟩
      | closeFrameRing =>
          have hrunning := not_stopped (by rintro ⟨⟩) hthread
          have hbgra := habsent (by rintro ⟨⟩) (by rintro ⟨⟩)
          cases hrun
          exact ⟨⟨.inl hbgra, .inl rfl, by rintro ⟨⟩, hkept hrunning⟩, hrunning, rfl, rfl⟩
      | deleteSwapChain =>
          have hrunning := not_stopped (by rintro ⟨⟩) hthread
          have hbgra := habsent (by rintro ⟨⟩) (by rintro ⟨⟩)
          have hring := hclosed (by rintro ⟨⟩) (by rintro ⟨⟩) (by rintro ⟨⟩)
          cases hrun
          exact ⟨⟨.inl hbgra, .inl hring, fun _ ↦ rfl, hkept hrunning⟩, hrunning, rfl,
            (List.append_nil _).symm⟩

/-- A step of the conversion thread deletes nothing. -/
theorem Ok.runConversion (h : p.Ok) {a : BgraAnswer} (hrun : p.runConversion a = some q) :
    Goes p q [] := by
  have hrunning (hbgra : p.bgraThread = .running) :
      (p.thread = some .loop ∨ p.thread = some .stopConversionThread) ∧ ¬p.Stopped := by
    rcases h.bgraThread with habsent | hloop | hstop
    · rw [hbgra] at habsent
      cases habsent
    · exact ⟨.inl hloop, not_stopped (by rintro ⟨⟩) hloop⟩
    · exact ⟨.inr hstop, not_stopped (by rintro ⟨⟩) hstop⟩
  cases a with
  | published =>
      simp only [SwapChainProcessor.runConversion] at hrun
      split_ifs at hrun with hbgra
      cases hrun
      exact ⟨h, (hrunning hbgra).2, rfl, rfl⟩
  | failed =>
      simp only [SwapChainProcessor.runConversion] at hrun
      split_ifs at hrun with hbgra
      cases hrun
      exact ⟨⟨.inr (hrunning hbgra).1, h.frameRing, h.swapChain, h.destroyed⟩, (hrunning hbgra).2,
        rfl, rfl⟩
  | stopped =>
      simp only [SwapChainProcessor.runConversion] at hrun
      split_ifs at hrun with hbgra
      cases hrun
      exact ⟨⟨.inr (hrunning hbgra.1).1, h.frameRing, h.swapChain, h.destroyed⟩,
        (hrunning hbgra.1).2, rfl, rfl⟩

/-- What a step of the destructor does. -/
structure Destroys (p q : SwapChainProcessor) (deleted : List Nat) (d : Option Destructor) :
    Prop where
  ok : q.Ok
  swapChain : p.swapChain.toList = deleted ++ q.swapChain.toList
  goesOn : ∀ e, d = some e → q.destroyed = false ∧ q.At e
  ended : d = none → q.destroyed = true

/-- A step of the destructor goes on, waits, or is the last one. -/
theorem Ok.destroy (h : p.Ok) (hdestroyed : p.destroyed = false) {d : Destructor} (hat : p.At d)
    {e : Option Destructor} (hstep : p.destroy d = some (q, deleted, e)) :
    Destroys p q deleted e := by
  have hkept {P : Prop} (hgone : p.destroyed = true) : P := by
    rw [hdestroyed] at hgone
    cases hgone
  cases d with
  | setTerminateEvent =>
      simp only [SwapChainProcessor.destroy] at hstep
      split_ifs at hstep with hthread
      · cases hstep
        refine ⟨h, rfl, ?_, by rintro ⟨⟩⟩
        rintro _ ⟨⟩
        exact ⟨hdestroyed, .inl hthread⟩
      · cases hstep
        refine ⟨⟨h.bgraThread, h.frameRing, h.swapChain, hkept⟩, rfl, ?_, by rintro ⟨⟩⟩
        rintro _ ⟨⟩
        exact ⟨hdestroyed, trivial⟩
  | waitForThread =>
      simp only [SwapChainProcessor.destroy] at hstep
      split_ifs at hstep with hthread
      cases hstep
      refine ⟨h, rfl, ?_, by rintro ⟨⟩⟩
      rintro _ ⟨⟩
      exact ⟨hdestroyed, .inr hthread⟩
  | stopConversionThread =>
      have hstopped : p.Stopped := hat
      obtain ⟨⟨p', joined⟩, hstop, heq⟩ := Option.map_eq_some_iff.1 hstep
      rcases stopConversionThread_cases hstop with ⟨rfl, rfl⟩ | ⟨rfl, -, rfl⟩
      · cases heq
        refine ⟨⟨h.bgraThread, h.frameRing, h.swapChain, hkept⟩, rfl, ?_, by rintro ⟨⟩⟩
        rintro _ ⟨⟩
        exact ⟨hdestroyed, hstopped⟩
      · cases heq
        refine ⟨⟨.inl rfl, h.frameRing, h.swapChain, hkept⟩, rfl, ?_, by rintro ⟨⟩⟩
        rintro _ ⟨⟩
        exact ⟨hdestroyed, hstopped⟩
  | closeFrameRing =>
      have hstopped : p.Stopped := hat
      cases hstep
      refine ⟨⟨h.bgraThread, .inl rfl, h.swapChain, hkept⟩, rfl, ?_, by rintro ⟨⟩⟩
      rintro _ ⟨⟩
      exact ⟨hdestroyed, hstopped⟩
  | deleteSwapChain =>
      have hstopped : p.Stopped := hat
      cases hstep
      refine ⟨⟨h.bgraThread, h.frameRing, fun _ ↦ rfl, fun _ ↦ ⟨hstopped, rfl⟩⟩,
        (List.append_nil _).symm, ?_, fun _ ↦ rfl⟩
      rintro _ ⟨⟩

end SwapChainProcessor

/-! ## The swap chains -/

/-- Swap chains that a processor had are deleted. -/
theorem perm_deleted {α : Type*} {before carried had remain d all : List α}
    (hperm : (before ++ carried ++ had).Perm all) (h : had.Perm (d ++ remain)) :
    (before ++ d ++ carried ++ remain).Perm all := by
  refine List.Perm.trans ?_ hperm
  rw [List.append_assoc, List.append_assoc, List.append_assoc]
  refine List.Perm.append_left before ?_
  exact (List.perm_append_comm_assoc _ _ _).trans (h.symm.append_left carried)

namespace IndirectMonitorContext

open SwapChainProcessor

variable {s t : IndirectMonitorContext} {p q : SwapChainProcessor} {i : Nat} {deleted : List Nat}

/-- The swap chain that a call has in its hands. -/
def carried : Point → List Nat
  | .destroying _ _ (.assign swapChain) => [swapChain]
  | .initializeDevice swapChain | .newProcessor swapChain => [swapChain]
  | _ => []

/-- The processor that the monitor, or the call, has in its hands. -/
def owner (s : IndirectMonitorContext) : Option Nat :=
  match s.point with
  | .idle => s.processor
  | .destroying i _ _ => some i
  | .isReady _ i => some i
  | _ => none

/-- The processor that a call is about to give up with its swap chain. -/
def abandons : Point → Option (Nat × Nat)
  | .destroying i _ (.abandon swapChain) => some (swapChain, i)
  | .isReady swapChain i => some (swapChain, i)
  | _ => none

/-- What the call has in its hands does not depend on the point of the destructor. -/
theorem carried_destroying (i : Nat) (d e : Destructor) (next : After) :
    carried (.destroying i d next) = carried (.destroying i e next) := by
  cases next <;> rfl

theorem abandons_destroying (i : Nat) (d e : Destructor) (next : After) :
    abandons (.destroying i d next) = abandons (.destroying i e next) := by
  cases next <;> rfl

structure Inv (s : IndirectMonitorContext) : Prop where
  ok : ∀ (i : Nat) p, s.processors[i]? = some p → p.Ok
  owner : ∀ (i : Nat) p, s.processors[i]? = some p → p.destroyed = false → s.owner = some i
  owned : ∀ i, s.owner = some i → ∃ p, s.processors[i]? = some p ∧ p.destroyed = false
  at_destructor : ∀ i d next, s.point = .destroying i d next →
    ∀ p, s.processors[i]? = some p → p.At d
  processor : s.point ≠ .idle → s.processor = none
  chains : (s.deleted ++ carried s.point ++
    s.processors.flatMap fun p ↦ p.swapChain.toList).Perm (List.range s.assigned)
  abandoned : ∀ x ∈ s.abandoned, x ∈ s.deleted
  abandoning : ∀ x i, abandons s.point = some (x, i) →
    x ∈ s.deleted ∨ ∃ p, s.processors[i]? = some p ∧ p.swapChain = some x

/-- A swap chain is deleted or stays with its processor. -/
theorem mem_or_of_toList {x : Nat} (h : p.swapChain.toList = deleted ++ q.swapChain.toList)
    (hx : p.swapChain = some x) : x ∈ deleted ∨ q.swapChain = some x := by
  have hmem : x ∈ deleted ++ q.swapChain.toList := by
    rw [← h, hx]
    exact List.mem_singleton_self x
  rcases List.mem_append.1 hmem with hdeleted | hstays
  · exact .inl hdeleted
  · exact .inr (Option.mem_toList.1 hstays)

/-- What is abandoned is deleted or stays with its processor. -/
theorem Inv.abandoning_set (h : Inv s) (hget : s.processors[i]? = some p)
    (hchain : p.swapChain.toList = deleted ++ q.swapChain.toList) {x j : Nat}
    (habandons : abandons s.point = some (x, j)) :
    x ∈ s.deleted ++ deleted ∨
      ∃ r, (s.processors.set i q)[j]? = some r ∧ r.swapChain = some x := by
  rcases h.abandoning x j habandons with hdeleted | ⟨r, hr, hx⟩
  · exact .inl (List.mem_append_left _ hdeleted)
  · by_cases hj : j = i
    · subst hj
      rw [hget] at hr
      cases hr
      rcases mem_or_of_toList hchain hx with hdeleted | hstays
      · exact .inl (List.mem_append_right _ hdeleted)
      · exact .inr ⟨q, getElem?_set_of_some hget, hstays⟩
    · right
      refine ⟨r, ?_, hx⟩
      rw [List.getElem?_set_ne (Ne.symm hj)]
      exact hr

/-- One processor changes; the others are in order as before. -/
theorem Inv.ok_set (h : Inv s) (hq : q.Ok) {j : Nat} {r : SwapChainProcessor}
    (hr : (s.processors.set i q)[j]? = some r) : r.Ok := by
  rcases getElem?_set_cases hr with ⟨-, rfl⟩ | ⟨-, hr⟩
  · exact hq
  · exact h.ok j r hr

/-- A step of a thread. -/
theorem Inv.goes (h : Inv s) (hget : s.processors[i]? = some p) (hgoes : Goes p q deleted) :
    Inv { s with processors := s.processors.set i q, deleted := s.deleted ++ deleted } where
  ok _ _ := h.ok_set hgoes.ok
  owner j r hr hdestroyed := by
    rcases getElem?_set_cases hr with ⟨rfl, rfl⟩ | ⟨-, hr⟩
    · rw [hgoes.destroyed] at hdestroyed
      exact h.owner j p hget hdestroyed
    · exact h.owner j r hr hdestroyed
  owned j howner := by
    obtain ⟨r, hr, hdestroyed⟩ := h.owned j howner
    by_cases hj : j = i
    · subst hj
      rw [hget] at hr
      cases hr
      exact ⟨q, getElem?_set_of_some hget, hgoes.destroyed.trans hdestroyed⟩
    · refine ⟨r, ?_, hdestroyed⟩
      show (s.processors.set i q)[j]? = some r
      rw [List.getElem?_set_ne (Ne.symm hj)]
      exact hr
  at_destructor j d next hpoint r hr := by
    rcases getElem?_set_cases hr with ⟨rfl, rfl⟩ | ⟨-, hr⟩
    · -- the thread has not ended, so the destructor still waits for it
      have hat := h.at_destructor j d next hpoint p hget
      cases d with
      | setTerminateEvent => trivial
      | waitForThread => trivial
      | stopConversionThread => exact absurd hat hgoes.before
      | closeFrameRing => exact absurd hat hgoes.before
      | deleteSwapChain => exact absurd hat hgoes.before
    · exact h.at_destructor j d next hpoint r hr
  processor := h.processor
  chains := perm_deleted h.chains (perm_flatMap_set hget hgoes.swapChain)
  abandoned x hx := List.mem_append_left _ (h.abandoned x hx)
  abandoning _ _ := h.abandoning_set hget hgoes.swapChain

/-- Nobody has a processor in its hands, and all are destroyed. -/
theorem Inv.ownerless (hok : ∀ (i : Nat) p, t.processors[i]? = some p → p.Ok)
    (hdestroyed : ∀ (i : Nat) p, t.processors[i]? = some p → p.destroyed = true)
    (howner : t.owner = none) (hprocessor : t.processor = none)
    (habandons : abandons t.point = none)
    (hchains : (t.deleted ++ carried t.point ++
      t.processors.flatMap fun p ↦ p.swapChain.toList).Perm (List.range t.assigned))
    (habandoned : ∀ x ∈ t.abandoned, x ∈ t.deleted) : Inv t where
  ok := hok
  owner i p hp hnot := by
    rw [hdestroyed i p hp] at hnot
    cases hnot
  owned i hi := by
    rw [howner] at hi
    cases hi
  at_destructor i d next hpoint := by
    unfold IndirectMonitorContext.owner at howner
    rw [hpoint] at howner
    cases howner
  processor _ := hprocessor
  chains := hchains
  abandoned := habandoned
  abandoning x i hx := by
    rw [habandons] at hx
    cases hx

/-- Where nobody has a processor in its hands, all are destroyed. -/
theorem Inv.destroyed (h : Inv s) (howner : s.owner = none) (i : Nat) (p : SwapChainProcessor)
    (hp : s.processors[i]? = some p) : p.destroyed = true := by
  cases hdestroyed : p.destroyed with
  | true => rfl
  | false =>
      rw [h.owner i p hp hdestroyed] at howner
      cases howner

/-! ## The destructor -/

/-- A step of the destructor that is not its last. -/
theorem Inv.destroys (h : Inv s) {d e : Destructor} {next : After}
    (hpoint : s.point = .destroying i d next) (hget : s.processors[i]? = some p)
    (hdestroys : Destroys p q deleted (some e)) :
    Inv { s with
      processors := s.processors.set i q
      deleted := s.deleted ++ deleted
      point := .destroying i e next } := by
  obtain ⟨hdestroyed, hat⟩ := hdestroys.goesOn e rfl
  have howner : s.owner = some i := by
    unfold IndirectMonitorContext.owner
    rw [hpoint]
  have hprocessor : s.processor = none := h.processor (by rw [hpoint]; rintro ⟨⟩)
  refine ⟨fun _ _ ↦ h.ok_set hdestroys.ok, ?_, ?_, ?_, fun _ ↦ hprocessor, ?_, ?_, ?_⟩
  · intro j r hr hnot
    rcases getElem?_set_cases hr with ⟨rfl, -⟩ | ⟨-, hr⟩
    · rfl
    · exact howner.symm.trans (h.owner j r hr hnot)
  · rintro j ⟨⟩
    exact ⟨q, getElem?_set_of_some hget, hdestroyed⟩
  · rintro j d' next' ⟨⟩ r hr
    rcases getElem?_set_cases hr with ⟨-, rfl⟩ | ⟨hne, -⟩
    · exact hat
    · exact absurd rfl hne
  · have hchains := h.chains
    rw [hpoint, carried_destroying i d e] at hchains
    exact perm_deleted hchains (perm_flatMap_set hget hdestroys.swapChain)
  · intro x hx
    exact List.mem_append_left _ (h.abandoned x hx)
  · intro x j hx
    refine h.abandoning_set hget hdestroys.swapChain ?_
    rw [hpoint, abandons_destroying i d e]
    exact hx

/-- The processor is destroyed, and the call goes on. -/
theorem Inv.destroyed_after (h : Inv s) {d : Destructor} {next : After}
    (hpoint : s.point = .destroying i d next) (hget : s.processors[i]? = some p)
    (hdestroys : Destroys p q deleted none) :
    Inv (after { s with
      processors := s.processors.set i q
      deleted := s.deleted ++ deleted } next) := by
  have hgone := hdestroys.ok.gone (hdestroys.ended rfl)
  have howner : s.owner = some i := by
    unfold IndirectMonitorContext.owner
    rw [hpoint]
  have hprocessor : s.processor = none := h.processor (by rw [hpoint]; rintro ⟨⟩)
  have hok (j : Nat) (r : SwapChainProcessor) (hr : (s.processors.set i q)[j]? = some r) : r.Ok :=
    h.ok_set hdestroys.ok hr
  have hall (j : Nat) (r : SwapChainProcessor) (hr : (s.processors.set i q)[j]? = some r) :
      r.destroyed = true := by
    rcases getElem?_set_cases hr with ⟨-, rfl⟩ | ⟨hne, hr⟩
    · exact hdestroys.ended rfl
    · cases hdestroyed : r.destroyed with
      | true => rfl
      | false =>
          rw [h.owner j r hr hdestroyed] at howner
          exact absurd (Option.some.inj howner) hne
  have hchains := h.chains
  rw [hpoint] at hchains
  have hperm := perm_deleted hchains (perm_flatMap_set hget hdestroys.swapChain)
  have habandoned (x : Nat) (hx : x ∈ s.abandoned) : x ∈ s.deleted ++ deleted :=
    List.mem_append_left _ (h.abandoned x hx)
  cases next with
  | assign swapChain => exact .ownerless hok hall rfl hprocessor rfl hperm habandoned
  | unassign => exact .ownerless hok hall hprocessor hprocessor rfl hperm habandoned
  | cleanup => exact .ownerless hok hall rfl hprocessor rfl hperm habandoned
  | abandon swapChain =>
      refine .ownerless hok hall hprocessor hprocessor rfl hperm ?_
      intro x hx
      rcases List.mem_append.1 hx with hx | hx
      · exact habandoned x hx
      · obtain rfl := List.mem_singleton.1 hx
        rcases h.abandoning_set (x := x) (j := i) hget hdestroys.swapChain (by rw [hpoint]; rfl)
          with hdeleted | ⟨r, hr, hchain⟩
        · exact hdeleted
        · rw [getElem?_set_of_some hget] at hr
          cases hr
          rw [hgone.swapChain] at hchain
          cases hchain

/-! ## The calls -/

/-- Between two calls the processor is that of the monitor. -/
theorem Inv.owner_idle (hpoint : s.point = .idle) : s.owner = s.processor := by
  unfold IndirectMonitorContext.owner
  rw [hpoint]

/-- The swap chain of the next processor, if there will be one. -/
def After.carried : After → List Nat
  | .assign swapChain => [swapChain]
  | _ => []

/-- A call begins. -/
theorem Inv.reset (h : Inv s) (hpoint : s.point = .idle) {n : Nat} {next : After}
    (hnext : ∀ swapChain, next ≠ .abandon swapChain)
    (hchains : (s.deleted ++ After.carried next ++
      s.processors.flatMap fun p ↦ p.swapChain.toList).Perm (List.range n)) :
    Inv (reset { s with assigned := n } next) := by
  unfold IndirectMonitorContext.reset
  cases hprocessor : s.processor with
  | none =>
      have hall := h.destroyed ((Inv.owner_idle hpoint).trans hprocessor)
      cases next with
      | assign swapChain => exact .ownerless h.ok hall rfl rfl rfl hchains h.abandoned
      | abandon swapChain => exact absurd rfl (hnext swapChain)
      | unassign => exact .ownerless h.ok hall rfl rfl rfl hchains h.abandoned
      | cleanup => exact .ownerless h.ok hall rfl rfl rfl hchains h.abandoned
  | some i =>
      have howner := (Inv.owner_idle hpoint).trans hprocessor
      refine ⟨h.ok, ?_, ?_, ?_, fun _ ↦ rfl, ?_, h.abandoned, ?_⟩
      · intro j r hr hnot
        exact howner.symm.trans (h.owner j r hr hnot)
      · rintro j ⟨⟩
        exact h.owned i howner
      · rintro j d next' ⟨⟩ r hr
        trivial
      · cases next with
        | assign swapChain => exact hchains
        | abandon swapChain => exact absurd rfl (hnext swapChain)
        | unassign => exact hchains
        | cleanup => exact hchains
      · intro x j hx
        cases next with
        | assign swapChain => cases hx
        | abandon swapChain => exact absurd rfl (hnext swapChain)
        | unassign => cases hx
        | cleanup => cases hx

/-- A further swap chain is assigned. -/
theorem perm_assigned {before had : List Nat} {n : Nat}
    (h : (before ++ [] ++ had).Perm (List.range n)) :
    (before ++ [n] ++ had).Perm (List.range (n + 1)) := by
  rw [List.range_succ, List.append_assoc]
  rw [List.append_nil] at h
  exact (List.Perm.append_left before List.perm_append_comm).trans
    (by rw [← List.append_assoc]; exact h.append_right [n])

/-- A swap chain for which no processor can be made is deleted at once. -/
theorem Inv.abandon (h : Inv s) {swapChain : Nat} (howner : s.owner = none)
    (hprocessor : s.processor = none) (hcarried : carried s.point = [swapChain]) :
    Inv (s.abandon swapChain) := by
  have hchains := h.chains
  rw [hcarried] at hchains
  refine .ownerless h.ok (h.destroyed howner) hprocessor hprocessor rfl ?_ ?_
  · show (s.deleted ++ [swapChain] ++ [] ++ _).Perm _
    rw [List.append_nil]
    exact hchains
  · intro x hx
    rcases List.mem_append.1 hx with hx | hx
    · exact List.mem_append_left _ (h.abandoned x hx)
    · exact List.mem_append_right _ hx

/-- A new processor has the swap chain; its thread may already run. -/
theorem newSwapChainProcessor_ok (swapChain : Nat) (a : Answer) :
    (newSwapChainProcessor swapChain a).Ok ∧
      (newSwapChainProcessor swapChain a).destroyed = false ∧
        (newSwapChainProcessor swapChain a).swapChain = some swapChain := by
  unfold newSwapChainProcessor
  split_ifs
  · exact ⟨⟨.inl rfl, .inl rfl, by rintro ⟨⟩, by rintro ⟨⟩⟩, rfl, rfl⟩
  · exact ⟨⟨.inl rfl, .inl rfl, by rintro ⟨⟩, by rintro ⟨⟩⟩, rfl, rfl⟩
  · exact ⟨⟨.inl rfl, .inl rfl, by rintro ⟨⟩, by rintro ⟨⟩⟩, rfl, rfl⟩

/-- A processor is made. -/
theorem Inv.newProcessor (h : Inv s) {swapChain : Nat} (hpoint : s.point = .newProcessor swapChain)
    (hok : q.Ok) (hdestroyed : q.destroyed = false) (hchain : q.swapChain = some swapChain) :
    Inv { s with
      processors := s.processors ++ [q]
      point := .isReady swapChain s.processors.length } := by
  have hall := h.destroyed (by unfold IndirectMonitorContext.owner; rw [hpoint])
  have hprocessor : s.processor = none := h.processor (by rw [hpoint]; rintro ⟨⟩)
  have hlast : (s.processors ++ [q])[s.processors.length]? = some q := List.getElem?_concat_length
  refine ⟨?_, ?_, ?_, ?_, fun _ ↦ hprocessor, ?_, h.abandoned, ?_⟩
  · intro j r hr
    rcases getElem?_concat_cases hr with hr | ⟨-, rfl⟩
    · exact h.ok j r hr
    · exact hok
  · intro j r hr hnot
    rcases getElem?_concat_cases hr with hr | ⟨rfl, -⟩
    · rw [hall j r hr] at hnot
      cases hnot
    · rfl
  · rintro j ⟨⟩
    exact ⟨q, hlast, hdestroyed⟩
  · rintro j d next ⟨⟩
  · have hchains := h.chains
    rw [hpoint] at hchains
    refine List.Perm.trans ?_ hchains
    show (s.deleted ++ [] ++
      (s.processors ++ [q]).flatMap fun (p : SwapChainProcessor) ↦ p.swapChain.toList).Perm
      (s.deleted ++ [swapChain] ++ _)
    rw [List.append_nil, List.append_assoc, List.flatMap_append, List.flatMap_singleton, hchain]
    exact List.perm_append_comm.append_left _
  · rintro x j ⟨⟩
    exact .inr ⟨q, hlast, hchain⟩

theorem Inv.isReady (h : Inv s) {swapChain : Nat} (hpoint : s.point = .isReady swapChain i) :
    Inv { s with processor := some i, point := .idle } ∧
      Inv { s with point := .destroying i .setTerminateEvent (.abandon swapChain) } := by
  have howner : s.owner = some i := by
    unfold IndirectMonitorContext.owner
    rw [hpoint]
  have hchains := h.chains
  rw [hpoint] at hchains
  have hsame (j : Nat) (r : SwapChainProcessor) (hr : s.processors[j]? = some r)
      (hnot : r.destroyed = false) : some i = some j :=
    howner.symm.trans (h.owner j r hr hnot)
  constructor
  · refine ⟨h.ok, hsame, ?_, ?_, fun hidle ↦ absurd rfl hidle, hchains, h.abandoned, ?_⟩
    · rintro j ⟨⟩
      exact h.owned i howner
    · rintro j d next ⟨⟩
    · rintro x j ⟨⟩
  · refine ⟨h.ok, hsame, ?_, ?_, fun _ ↦ h.processor (by rw [hpoint]; rintro ⟨⟩), hchains,
      h.abandoned, ?_⟩
    · rintro j ⟨⟩
      exact h.owned i howner
    · rintro j d next ⟨⟩ r hr
      trivial
    · rintro x j ⟨⟩
      exact h.abandoning _ _ (by rw [hpoint]; rfl)

/-- A step of the call that is under way. -/
theorem Inv.step (h : Inv s) {a : Answer} (hstep : s.step a = some t) : Inv t := by
  unfold IndirectMonitorContext.step at hstep
  cases hpoint : s.point with
  | idle =>
      rw [hpoint] at hstep
      cases hstep
  | deleted =>
      rw [hpoint] at hstep
      cases hstep
  | destroying i d next =>
      rw [hpoint] at hstep
      dsimp only at hstep
      split at hstep
      · cases hstep
      · next p hget =>
        obtain ⟨p', hp, hdestroyed⟩ := h.owned i (by
          unfold IndirectMonitorContext.owner
          rw [hpoint])
        rw [hget] at hp
        cases hp
        obtain ⟨⟨q, deleted, e⟩, hdestroy, rfl⟩ := Option.map_eq_some_iff.1 hstep
        have hat := h.at_destructor i d next hpoint p hget
        have hdestroys := (h.ok i p hget).destroy hdestroyed hat hdestroy
        cases e with
        | some e => exact h.destroys hpoint hget hdestroys
        | none => exact h.destroyed_after hpoint hget hdestroys
  | initializeDevice swapChain =>
      have howner : s.owner = none := by
        unfold IndirectMonitorContext.owner
        rw [hpoint]
      have hprocessor : s.processor = none := h.processor (by rw [hpoint]; rintro ⟨⟩)
      have hchains := h.chains
      rw [hpoint] at hchains hstep
      dsimp only at hstep
      split_ifs at hstep
      · cases hstep
        exact .ownerless h.ok (h.destroyed howner) rfl hprocessor rfl hchains h.abandoned
      · cases hstep
        exact h.abandon howner hprocessor (by rw [hpoint]; rfl)
  | newProcessor swapChain =>
      have howner : s.owner = none := by
        unfold IndirectMonitorContext.owner
        rw [hpoint]
      have hprocessor : s.processor = none := h.processor (by rw [hpoint]; rintro ⟨⟩)
      rw [hpoint] at hstep
      dsimp only at hstep
      split_ifs at hstep
      · cases hstep
        obtain ⟨hok, hdestroyed, hchain⟩ := newSwapChainProcessor_ok swapChain a
        exact h.newProcessor hpoint hok hdestroyed hchain
      · cases hstep
        exact h.abandon howner hprocessor (by rw [hpoint]; rfl)
  | isReady swapChain i =>
      rw [hpoint] at hstep
      dsimp only at hstep
      split at hstep
      · cases hstep
      · split_ifs at hstep
        · cases hstep
          exact (h.isReady hpoint).1
        · cases hstep
          exact (h.isReady hpoint).2

/-- A call begins, or it, a thread or the system goes on. -/
theorem Inv.next (h : Inv s) {e : Event} (hstep : s.next e = some t) : Inv t := by
  have hchains := h.chains
  cases e with
  | assign =>
      simp only [IndirectMonitorContext.next] at hstep
      split at hstep
      · next hpoint =>
        cases hstep
        rw [hpoint] at hchains
        refine h.reset hpoint ?_ ?_
        · rintro _ ⟨⟩
        · exact perm_assigned hchains
      · next hpoint =>
        have howner : s.owner = none := by
          unfold IndirectMonitorContext.owner
          rw [hpoint]
        have hprocessor : s.processor = none := h.processor (by rw [hpoint]; rintro ⟨⟩)
        cases hstep
        rw [hpoint] at hchains
        refine .ownerless h.ok (h.destroyed howner) howner hprocessor ?_ ?_ ?_
        · show abandons s.point = none
          rw [hpoint]
          rfl
        · show (s.deleted ++ [s.assigned] ++ carried s.point ++ _).Perm _
          rw [hpoint]
          show (s.deleted ++ [s.assigned] ++ [] ++ _).Perm _
          rw [List.append_nil]
          exact perm_assigned hchains
        · intro x hx
          rcases List.mem_append.1 hx with hx | hx
          · exact List.mem_append_left _ (h.abandoned x hx)
          · exact List.mem_append_right _ hx
      · cases hstep
  | unassign =>
      cases hpoint : s.point with
      | idle =>
          simp only [IndirectMonitorContext.next, hpoint] at hstep
          cases hstep
          rw [hpoint] at hchains
          refine h.reset hpoint ?_ ?_
          · rintro _ ⟨⟩
          · exact hchains
      | deleted =>
          simp only [IndirectMonitorContext.next, hpoint] at hstep
          cases hstep
          exact h
      | _ =>
          simp only [IndirectMonitorContext.next, hpoint] at hstep
          cases hstep
  | cleanup =>
      cases hpoint : s.point with
      | idle =>
          simp only [IndirectMonitorContext.next, hpoint] at hstep
          cases hstep
          rw [hpoint] at hchains
          refine h.reset hpoint ?_ ?_
          · rintro _ ⟨⟩
          · exact hchains
      | deleted =>
          simp only [IndirectMonitorContext.next, hpoint] at hstep
          cases hstep
          exact h
      | _ =>
          simp only [IndirectMonitorContext.next, hpoint] at hstep
          cases hstep
  | step a => exact h.step hstep
  | run i a =>
      simp only [IndirectMonitorContext.next] at hstep
      split at hstep
      · cases hstep
      · next p hget =>
        obtain ⟨⟨q, deleted⟩, hrun, rfl⟩ := Option.map_eq_some_iff.1 hstep
        exact h.goes hget ((h.ok i p hget).run hrun)
  | runConversion i a =>
      simp only [IndirectMonitorContext.next] at hstep
      split at hstep
      · cases hstep
      · next p hget =>
        obtain ⟨q, hrun, rfl⟩ := Option.map_eq_some_iff.1 hstep
        have hgoes := h.goes hget ((h.ok i p hget).runConversion hrun)
        rw [List.append_nil] at hgoes
        exact hgoes

theorem Inv.new : Inv {} := by
  refine .ownerless ?_ ?_ rfl rfl rfl .nil ?_
  · rintro i p ⟨⟩
  · rintro i p ⟨⟩
  · rintro x ⟨⟩

/-- The invariant holds in every run. -/
theorem Inv.run (h : Run {} s) : Inv s :=
  run_preserves (fun h ⟨_, _, hnext⟩ ↦ h.next hnext) .new h

/-! ## The result -/

/-- Nothing is left of a processor once it has been destroyed. -/
theorem Inv.gone (h : Inv s) (hp : p ∈ s.processors) (hdestroyed : p.destroyed = true) :
    p.Gone := by
  obtain ⟨i, hget⟩ := List.mem_iff_getElem?.1 hp
  exact (h.ok i p hget).gone hdestroyed

/-- Only the processor that the monitor or the call has in its hands has threads. -/
theorem Inv.owner_of_alive (h : Inv s) (hget : s.processors[i]? = some p) (halive : p.Alive) :
    s.owner = some i := by
  cases hdestroyed : p.destroyed with
  | true => exact absurd halive ((h.ok i p hget).gone hdestroyed).not_alive
  | false => exact h.owner i p hget hdestroyed

/-- Every swap chain that was assigned is deleted, in the hands of the call, or with a processor
that is not destroyed. -/
theorem Inv.chain_cases (h : Inv s) {x : Nat} (hx : x < s.assigned) :
    x ∈ s.deleted ∨ x ∈ carried s.point ∨
      ∃ i p, s.owner = some i ∧ s.processors[i]? = some p ∧ p.swapChain = some x := by
  have hmem := h.chains.mem_iff.2 (List.mem_range.2 hx)
  rw [List.mem_append, List.mem_append] at hmem
  rcases hmem with (hdeleted | hcarried) | hprocessor
  · exact .inl hdeleted
  · exact .inr (.inl hcarried)
  · obtain ⟨p, hp, hchain⟩ := List.mem_flatMap.1 hprocessor
    obtain ⟨i, hget⟩ := List.mem_iff_getElem?.1 hp
    rw [Option.mem_toList] at hchain
    refine .inr (.inr ⟨i, p, ?_, hget, hchain⟩)
    cases hdestroyed : p.destroyed with
    | true =>
        rw [(h.gone hp hdestroyed).swapChain] at hchain
        cases hchain
    | false => exact h.owner i p hget hdestroyed

/-- **One processor at a time, each swap chain deleted once.**  In any run of the calls of the
system and the threads of all processors, threads of one processor at most may go on, and of
a processor that is destroyed no thread, no view of the ring and no swap chain is left.  No swap
chain is deleted twice, and one that is reported as abandoned has been deleted.  Between two
calls all that were assigned are deleted, but that of the processor that the monitor keeps, and
when the monitor is gone all are. -/
theorem one_processor_alive (h : Run {} s) :
    (∀ (i j : Nat) p q, s.processors[i]? = some p → s.processors[j]? = some q → p.Alive →
      q.Alive → i = j) ∧
    (∀ p ∈ s.processors, p.destroyed = true → p.Gone) ∧
    s.deleted.Nodup ∧ (∀ x ∈ s.deleted, x < s.assigned) ∧ (∀ x ∈ s.abandoned, x ∈ s.deleted) ∧
    (s.point = .idle → ∀ x < s.assigned, x ∈ s.deleted ∨
      ∃ i p, s.processor = some i ∧ s.processors[i]? = some p ∧ p.swapChain = some x) ∧
    (s.point = .deleted → (∀ x < s.assigned, x ∈ s.deleted) ∧ ∀ p ∈ s.processors, p.Gone) := by
  have hinv := Inv.run h
  have hnodup := hinv.chains.nodup_iff.2 List.nodup_range
  rw [List.append_assoc, List.nodup_append] at hnodup
  refine ⟨?_, fun p ↦ hinv.gone, hnodup.1, ?_, hinv.abandoned, ?_, ?_⟩
  · intro i j p q hp hq hpalive hqalive
    have hi := hinv.owner_of_alive hp hpalive
    rw [hinv.owner_of_alive hq hqalive] at hi
    exact (Option.some.inj hi).symm
  · intro x hx
    refine List.mem_range.1 (hinv.chains.subset ?_)
    exact List.mem_append_left _ (List.mem_append_left _ hx)
  · intro hpoint x hx
    rcases hinv.chain_cases hx with hdeleted | hcarried | ⟨i, p, howner, hp⟩
    · exact .inl hdeleted
    · rw [hpoint] at hcarried
      cases hcarried
    · rw [Inv.owner_idle hpoint] at howner
      exact .inr ⟨i, p, howner, hp⟩
  · intro hpoint
    have howner : s.owner = none := by
      unfold IndirectMonitorContext.owner
      rw [hpoint]
    constructor
    · intro x hx
      rcases hinv.chain_cases hx with hdeleted | hcarried | ⟨i, p, hsome, -⟩
      · exact hdeleted
      · rw [hpoint] at hcarried
        cases hcarried
      · rw [howner] at hsome
        cases hsome
    · intro p hp
      obtain ⟨i, hget⟩ := List.mem_iff_getElem?.1 hp
      exact hinv.gone hp (hinv.destroyed howner i p hget)

/-- A second swap chain is assigned while the first one is captured; its device fails, and the
monitor is deleted. -/
def reassigned : List Event :=
  [.assign, .step {}, .step {}, .step {}, .run 0 (.goesOn false), .run 0 (.goesOn false),
   .run 0 (.goesOn true), .runConversion 0 .published, .assign, .step {}, .run 0 .terminated,
   .run 0 .fails, .runConversion 0 .stopped, .run 0 .fails, .run 0 .fails, .run 0 .fails,
   .step {}, .step {}, .step {}, .step {}, .step { device := false }, .cleanup]

theorem one_processor_alive_reassigned : ∃ s : IndirectMonitorContext, s.deleted = [0, 1] ∧
    (∀ x ∈ [1], x ∈ s.deleted) ∧ s.deleted.Nodup ∧ ∀ p ∈ s.processors, p.Gone := by
  obtain ⟨s, hrun, hpoint, hdeleted, habandoned⟩ : ∃ s, Run {} s ∧ s.point = .deleted ∧
      s.deleted = [0, 1] ∧ s.abandoned = [1] := exists_run reassigned (by decide +kernel)
  obtain ⟨-, -, hnodup, -, hgone, -, hall⟩ := one_processor_alive hrun
  rw [habandoned] at hgone
  exact ⟨s, hdeleted, hgone, hnodup, (hall hpoint).2⟩

end IndirectMonitorContext

end SecondScreen.Monitoring
