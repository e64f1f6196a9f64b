import SecondScreen.Wire.Framing

/-!
# After a packet that was cut short

The writer does not remember that a packet was cut short.  What follows on the
wire is therefore up to the socket: if it takes bytes again while the other thread
is still in a call, these stand in the middle of a packet.
-/

namespace SecondScreen.Wire

open SecondScreen.Conc SecondScreen.Conc.System

variable {i j : Thread} {e : Entry} {s : Shared}

/-! ## The law -/

/-- A packet of one of the calls that took the mutex. -/
def Shared.IsPacket (s : Shared) (q : List UInt8) : Prop :=
  ∃ e ∈ s.entries, ∃ now, e.call.packet now = some q

/-- The socket has accepted complete packets and at most one proper prefix of a
packet. -/
def WellFramed (s : Shared) : Prop :=
  ∃ (packets : List (List UInt8)) (p : List UInt8), s.sent = packets.flatten ++ p ∧
    (∀ q ∈ packets, s.IsPacket q) ∧ (p = [] ∨ ∃ rest, rest ≠ [] ∧ s.IsPacket (p ++ rest))

/-- No call that took the mutex after one whose packet was cut short has sent a
byte. -/
def NothingAfterCut (s : Shared) : Prop :=
  s.entries.Pairwise fun e e' ↦ e.Cut → e'.bytes = []

/-- Whether the socket would take a byte. -/
def SocketAnswer.accepts (w : SocketAnswer) : Bool :=
  match w.sent with
  | .accepted (_ + 1) => true
  | _ => false

/-- A call that holds the mutex, and of which nothing was offered to the socket
without being taken nor taken. -/
def Shared.fresh (s : Shared) : Bool :=
  match s.current with
  | some e => e.bytes.isEmpty && !e.refused
  | none => false

/-- The condition on a move: a call that took the mutex after a packet was cut
short is refused at its first attempt to send. -/
def refusedAfterCut : writerSystem.Guard := fun c _ m _ ↦
  match m with
  | .act w => (∃ e ∈ c.shared.done, e.Cut) → c.shared.fresh = true → w.accepts = false
  | _ => True

instance (c : WriterConfig) (i : Thread) (m : writerSystem.Move i) (c' : WriterConfig) :
    Decidable (refusedAfterCut c i m c') :=
  match m with
  | .act w => inferInstanceAs (Decidable (_ → _ → w.accepts = false))
  | .enter _ | .leave => .isTrue trivial

/-! ## What the condition gives -/

/-- The condition by its effect on the call that holds the mutex. -/
def firstRefused : writerSystem.Guard := fun c _ _ c' ↦
  (∃ e ∈ c.shared.done, e.Cut) → ∀ e, c.shared.current = some e → e.bytes = [] →
    e.refused = false → ∀ e', c'.shared.current = some e' → e'.bytes = []

/-- An operation whose answer takes nothing leaves the bytes of a call alone. -/
theorem bytes_of_not_accepts {β : Type} {o : WireOp β} {w : SocketAnswer} {r : β} {t : Shared}
    (hw : w.accepts = false) (hexec : wireExec i β w o s = some (r, t))
    (he : s.current = some e) (hbytes : e.bytes = []) {e' : Entry} (he' : t.current = some e') :
    e'.bytes = [] := by
  have hkeep {u : Shared} (hu : u.current = s.current) (h : u.current = some e') :
      e'.bytes = [] := by
    cases he.symm.trans (hu.symm.trans h)
    exact hbytes
  have hrefuse (h : s.refuse.current = some e') : e'.bytes = [] := by
    simp only [Shared.refuse, Shared.modifyCurrent, he, Option.map_some, Option.some.injEq] at h
    rw [← h]
    exact hbytes
  cases o with
  | lock => simp [wireExec, he] at hexec
  | unlock =>
      cases hexec
      cases he'
  | nowMicros =>
      cases hexec
      exact hkeep rfl he'
  | select =>
      simp only [wireExec] at hexec
      split at hexec
      · cases hexec
        exact hkeep rfl he'
      · cases hexec
        exact hrefuse he'
  | send chunk =>
      simp only [wireExec] at hexec
      split at hexec
      · cases hexec
        exact hrefuse he'
      · cases hexec
        exact hrefuse he'
      · next h => simp [SocketAnswer.accepts, h] at hw

theorem firstRefused_of_refusedAfterCut {c c' : WriterConfig} {m : writerSystem.Move i}
    (hnext : c.next i m = some c') (h : refusedAfterCut c i m c') : firstRefused c i m c' := by
  intro hcut e he hbytes hrefused e' he'
  cases m with
  | enter call =>
      obtain ⟨l, -, rfl⟩ := Config.next_enter hnext
      cases he.symm.trans he'
      exact hbytes
  | leave =>
      obtain ⟨r, l, -, rfl⟩ := Config.next_leave hnext
      cases he.symm.trans he'
      exact hbytes
  | act w =>
      obtain ⟨β, o, k, r, t, -, hexec, rfl⟩ := Config.next_act hnext
      have hfresh : c.shared.fresh = true := by simp [Shared.fresh, he, hbytes, hrefused]
      have hrefuses := h hcut hfresh
      exact bytes_of_not_accepts hrefuses hexec he hbytes he'

/-- The law, by the finished calls and the one that holds the mutex. -/
theorem nothingAfterCut_iff (he : s.current = some e) :
    NothingAfterCut s ↔ s.done.Pairwise (fun e e' ↦ e.Cut → e'.bytes = []) ∧
      ∀ e' ∈ s.done, e'.Cut → e.bytes = [] := by
  rw [NothingAfterCut, Shared.entries_of_current he, List.pairwise_append]
  simp

/-- An operation under the condition keeps the law. -/
theorem NothingAfterCut.progress {t : Shared} (h : NothingAfterCut s) (hp : Progress j s t)
    (hfirst : (∃ e ∈ s.done, e.Cut) → ∀ e, s.current = some e → e.bytes = [] →
      e.refused = false → ∀ e', t.current = some e' → e'.bytes = []) : NothingAfterCut t := by
  cases hp with
  | stay => exact h
  | enter call => exact h
  | lock hnone =>
      rw [NothingAfterCut, Shared.entries, hnone, Option.toList_none, List.append_nil] at h
      exact (nothingAfterCut_iff rfl).2 ⟨h, fun _ _ _ ↦ rfl⟩
  | @accept e data rest he hr hc =>
      obtain ⟨he, -⟩ := Shared.own_eq_some.1 he
      have hcurrent : (s.accept data).current = some { e with bytes := e.bytes ++ data } := by
        simp [Shared.accept, Shared.modifyCurrent, he]
      obtain ⟨hdone, hlast⟩ := (nothingAfterCut_iff he).1 h
      refine (nothingAfterCut_iff hcurrent).2 ⟨hdone, fun e' he' hcut ↦ ?_⟩
      exact hfirst ⟨e', he', hcut⟩ e he (hlast e' he' hcut) hr _ hcurrent
  | @refuse e rest he hr hc =>
      obtain ⟨he, -⟩ := Shared.own_eq_some.1 he
      have hcurrent : s.refuse.current = some { e with refused := true } := by
        simp [Shared.refuse, Shared.modifyCurrent, he]
      exact (nothingAfterCut_iff hcurrent).2 ((nothingAfterCut_iff he).1 h)
  | unlock he hf =>
      rw [NothingAfterCut, Shared.entries, Option.toList_none, List.append_nil]
      exact h

/-! ## Framing -/

/-- The bytes of a call that took the mutex are those of its packet up to some
point. -/
def Entry.Within (e : Entry) : Prop := e.bytes = [] ∨ ∃ rest, e.Continues rest

theorem Entry.Finished.within (h : e.Finished) : e.Within := by
  rcases h with h | ⟨-, rest, -, h⟩ | h
  · exact .inr ⟨[], h.2⟩
  · exact .inr ⟨rest, h⟩
  · exact .inl h.2.1

/-- Packets up to some point, of which only the last is incomplete, are complete
packets and a prefix. -/
theorem framed_of_within (l : List Entry) (hl : ∀ e ∈ l, e.Within)
    (hlast : l.Pairwise fun e e' ↦ e.bytes ≠ [] → ¬e.Continues [] → e'.bytes = []) :
    ∃ (packets : List (List UInt8)) (p : List UInt8), l.flatMap Entry.bytes = packets.flatten ++ p ∧
      (∀ q ∈ packets, ∃ e ∈ l, ∃ now, e.call.packet now = some q) ∧
      (p = [] ∨ ∃ rest, rest ≠ [] ∧ ∃ e ∈ l, ∃ now, e.call.packet now = some (p ++ rest)) := by
  induction l with
  | nil => exact ⟨[], [], rfl, nofun, .inl rfl⟩
  | cons e l ih =>
      obtain ⟨hempty, hpair⟩ := List.pairwise_cons.1 hlast
      obtain ⟨packets, p, hbytes, hpackets, hp⟩ :=
        ih (fun e' he' ↦ hl e' (List.mem_cons_of_mem e he')) hpair
      have hpackets' : ∀ q ∈ packets, ∃ e' ∈ e :: l, ∃ now, e'.call.packet now = some q := by
        intro q hq
        obtain ⟨e', he', h⟩ := hpackets q hq
        exact ⟨e', List.mem_cons_of_mem e he', h⟩
      have hp' : p = [] ∨ ∃ rest, rest ≠ [] ∧ ∃ e' ∈ e :: l, ∃ now,
          e'.call.packet now = some (p ++ rest) := by
        rcases hp with hp | ⟨rest, hr, e', he', h⟩
        · exact .inl hp
        · exact .inr ⟨rest, hr, e', List.mem_cons_of_mem e he', h⟩
      by_cases hnil : e.bytes = []
      · exact ⟨packets, p, by simp [hnil, hbytes], hpackets', hp'⟩
      by_cases hwhole : e.Continues []
      · obtain ⟨now, hnow⟩ := hwhole
        rw [List.append_nil] at hnow
        refine ⟨e.bytes :: packets, p, by simp [hbytes], ?_, hp'⟩
        intro q hq
        rcases List.mem_cons.1 hq with rfl | hq
        · exact ⟨e, List.mem_cons_self, now, hnow⟩
        · exact hpackets' q hq
      · obtain ⟨rest, hrest⟩ := (hl e List.mem_cons_self).resolve_left hnil
        have hrest' : rest ≠ [] := fun h ↦ hwhole (h ▸ hrest)
        obtain ⟨now, hnow⟩ := hrest
        have hnone : l.flatMap Entry.bytes = [] :=
          List.flatMap_eq_nil_iff.2 fun e' he' ↦ hempty e' he' hnil hwhole
        exact ⟨[], e.bytes, by simp [hnone], nofun,
          .inr ⟨rest, hrest', e, List.mem_cons_self, now, hnow⟩⟩

/-- A record that satisfies the law is well framed. -/
theorem WellFramed.of_nothingAfterCut (h : Inv s) (hcut : NothingAfterCut s) : WellFramed s := by
  rw [WellFramed, h.sent]
  apply framed_of_within
  · intro e he
    rcases List.mem_append.1 he with he | he
    · exact (h.done e he).within
    · rcases h.current e (Option.mem_toList.1 he) with hf | ⟨-, hw⟩
      · exact hf.within
      · exact hw
  · -- a finished call that has sent some bytes, but not all, was cut
    have hdone {e' : Entry} (he' : e' ∈ s.done) (hne : e'.bytes ≠ []) (hnot : ¬e'.Continues []) :
        e'.Cut := by
      rcases h.done e' he' with hf | hf | hf
      · exact absurd hf.2 hnot
      · exact ⟨hf.1, hne⟩
      · exact absurd hf.2.1 hne
    obtain ⟨hpair, -, hcross⟩ := List.pairwise_append.1 hcut
    apply List.pairwise_append.2
    refine ⟨hpair.imp_of_mem ?_, ?_, ?_⟩
    · intro e₁ e₂ h₁ _ h₁₂ hne hnot
      exact h₁₂ (hdone h₁ hne hnot)
    · cases s.current with
      | none => exact .nil
      | some e => exact List.pairwise_singleton _ e
    · intro e₁ h₁ e₂ h₂ hne hnot
      exact hcross e₁ h₁ e₂ h₂ (hdone h₁ hne hnot)

/-! ## Schedules -/

/-- While the cursor thread waits for the mutex, the socket takes ten bytes of a
heartbeat and then none for so long that `select` times out. -/
def cutHeartbeat : writerSystem.Schedule :=
  [⟨.worker, .enter .heartbeat⟩, ⟨.cursor, .enter (.cursor true 5 7 16 16 1)⟩] ++
    answers .worker [{}, {}, { sent := .accepted 10 }, { selected := .timeout }, {}] ++
    [⟨.worker, .leave⟩]

/-- The cursor thread goes on, and the socket is writable again. -/
def cursorSent : writerSystem.Schedule :=
  answers .cursor [{}, {}, {}, { sent := .accepted 24 }, {}, { sent := .accepted 36 }, {}] ++
    [⟨.cursor, .leave⟩]

/-- The cursor thread goes on, and the socket has been shut down. -/
def cursorRefused : writerSystem.Schedule :=
  answers .cursor [{}, {}, {}, { sent := .error 10058 "shut down" }, {}] ++ [⟨.cursor, .leave⟩]

/-- For each call whether it was refused, and how many of its bytes were taken. -/
def Shared.lengths (s : Shared) : List (Bool × Nat) :=
  s.entries.map fun e ↦ (e.refused, e.bytes.length)

/-! ## The result -/

/-- **No bytes after a truncated packet**, if the socket refuses the first attempt
of every call that takes the mutex after that: in every state that such a run
reaches, the socket has accepted complete packets and at most one proper prefix,
and no call after one that was cut short has sent a byte. -/
theorem nothing_after_cut {c : WriterConfig}
    (hrun : Run refusedAfterCut WriterConfig.initial c) :
    WellFramed c.shared ∧ NothingAfterCut c.shared := by
  have hstep : ∀ c c', Step refusedAfterCut c c' → Step firstRefused c c' := by
    rintro c c' ⟨i, m, hnext, h⟩
    exact ⟨i, m, hnext, firstRefused_of_refusedAfterCut hnext h⟩
  have hfirst : Run firstRefused WriterConfig.initial c :=
    Relation.ReflTransGen.mono hstep _ _ hrun
  obtain ⟨hinv, hcut⟩ := writer_run NothingAfterCut
    (fun c i m c' ha _ hp h ↦ h.progress hp ha) .nil hfirst
  exact ⟨.of_nothingAfterCut hinv hcut, hcut⟩

/-- A heartbeat is cut short, and the cursor update that waits is refused. -/
theorem nothing_after_cut_refused : ∃ c : WriterConfig,
    Run refusedAfterCut WriterConfig.initial c ∧
      c.shared.lengths = [(true, 10), (true, 0)] ∧
        WellFramed c.shared ∧ NothingAfterCut c.shared := by
  have hfollow : (WriterConfig.initial.follow refusedAfterCut
      (cutHeartbeat ++ cursorRefused)).map (fun c ↦ c.shared.lengths) =
        some [(true, 10), (true, 0)] := by decide +kernel
  obtain ⟨c, hc, hlengths⟩ := Option.map_eq_some_iff.1 hfollow
  have hrun := Config.run_of_follow hc
  exact ⟨c, hrun, hlengths, nothing_after_cut hrun⟩

/-- Without the condition the law fails: the heartbeat is cut short after ten bytes,
and the whole packet of the cursor update that was waiting follows. -/
theorem cursor_after_cut :
    ¬ ∀ c : WriterConfig, Run anySchedule WriterConfig.initial c →
      WellFramed c.shared ∧ NothingAfterCut c.shared := by
  intro h
  have hfollow : (WriterConfig.initial.follow anySchedule (cutHeartbeat ++ cursorSent)).map
      (fun c ↦ c.shared.lengths) = some [(true, 10), (false, 60)] := by decide +kernel
  obtain ⟨c, hc, hlengths⟩ := Option.map_eq_some_iff.1 hfollow
  have hcut := (h c (Config.run_of_follow hc)).2
  rw [Shared.lengths] at hlengths
  obtain ⟨e, l, hl, he, hl'⟩ := List.map_eq_cons_iff.1 hlengths
  obtain ⟨e', l', rfl, he', -⟩ := List.map_eq_cons_iff.1 hl'
  have hecut : e.Cut := ⟨congrArg Prod.fst he, fun hnil ↦ by simp [hnil] at he⟩
  rw [NothingAfterCut, hl] at hcut
  have hnone := (List.pairwise_cons.1 hcut).1 e' List.mem_cons_self hecut
  simp [hnone] at he'

end SecondScreen.Wire
