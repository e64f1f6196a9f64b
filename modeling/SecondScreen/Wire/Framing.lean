import SecondScreen.Wire.Session

/-!
# What the calls leave on the wire

Each call of the writer, with the other thread in between its operations, sends
the bytes of its packet in order, and stops for good where the socket refuses.
`Progress` says once what an operation of a thread can do; the outline of the
two threads follows from it, for any further invariant that it preserves.
-/

namespace SecondScreen.Wire

open SecondScreen.Conc SecondScreen.Conc.System

variable {i j : Thread} {e : Entry} {call : SendCall} {s t : Shared}

/-! ## The contract of a thread -/

/-- The entry of a thread that holds the mutex. -/
def Shared.own (s : Shared) (i : Thread) : Option Entry := s.current.filter (·.thread = i)

theorem Shared.own_eq_some : s.own i = some e ↔ s.current = some e ∧ e.thread = i := by
  simp [Shared.own, Option.filter_eq_some_iff]

theorem Shared.own_of_ne (h : s.current = some e) (hi : e.thread ≠ i) : s.own i = none := by
  simp [Shared.own, h, Option.filter_some, hi]

/-- What an operation of a thread can do. -/
inductive Progress (i : Thread) (s : Shared) : Shared → Prop
  | stay : Progress i s s
  | enter (call : SendCall) :
      Progress i s { s with calls := Function.update s.calls i call }
  | lock (h : s.current = none) :
      Progress i s { s with current := some { thread := i, call := s.calls i } }
  | accept {e : Entry} {data rest : List UInt8} (h : s.own i = some e) (hr : e.refused = false)
      (hc : e.Continues (data ++ rest)) : Progress i s (s.accept data)
  | refuse {e : Entry} {rest : List UInt8} (h : s.own i = some e) (hr : rest ≠ [])
      (hc : e.Continues rest) : Progress i s s.refuse
  | unlock {e : Entry} (h : s.own i = some e) (hf : e.Finished) :
      Progress i s { s with done := s.entries, current := none }

/-- What a thread relies on: nobody else touches its entry. -/
def writerRG (i : Thread) : RG Shared where
  rely s t := t.calls i = s.calls i ∧ t.own i = s.own i
  guar := Progress i
  rely_trans h h' := ⟨h'.1.trans h.1, h'.2.trans h.2⟩
  rely_refl _ := ⟨rfl, rfl⟩

/-- The operations of one thread leave the other's entry alone. -/
theorem Progress.rely (h : Progress j s t) (hij : i ≠ j) : (writerRG i).rely s t := by
  have hother {e : Entry} (he : s.own j = some e) : s.current = some e ∧ e.thread ≠ i := by
    obtain ⟨he, ht⟩ := Shared.own_eq_some.1 he
    exact ⟨he, fun h ↦ hij (h.symm.trans ht)⟩
  cases h with
  | stay => exact ⟨rfl, rfl⟩
  | enter call => exact ⟨Function.update_of_ne hij _ _, rfl⟩
  | lock h =>
      refine ⟨rfl, ?_⟩
      rw [Shared.own_of_ne rfl hij.symm, Shared.own, h]
      rfl
  | @accept e data rest h hr hc =>
      obtain ⟨he, ht⟩ := hother h
      have he' : (s.accept data).current = some { e with bytes := e.bytes ++ data } := by
        simp [Shared.accept, Shared.modifyCurrent, he]
      exact ⟨rfl, (Shared.own_of_ne he' ht).trans (Shared.own_of_ne he ht).symm⟩
  | @refuse e rest h hr hc =>
      obtain ⟨he, ht⟩ := hother h
      have he' : s.refuse.current = some { e with refused := true } := by
        simp [Shared.refuse, Shared.modifyCurrent, he]
      exact ⟨rfl, (Shared.own_of_ne he' ht).trans (Shared.own_of_ne he ht).symm⟩
  | unlock h hf =>
      obtain ⟨he, ht⟩ := hother h
      exact ⟨rfl, (Shared.own_of_ne he ht).symm⟩

/-- The thread holds the mutex for this entry. -/
def Holds (i : Thread) (e : Entry) (s : Shared) : Prop := s.own i = some e

/-- The thread does not hold the mutex, and has entered this call. -/
def Waits (i : Thread) (call : SendCall) (s : Shared) : Prop :=
  s.calls i = call ∧ s.own i = none

theorem Holds.stable (i : Thread) (e : Entry) : (writerRG i).Stable (Holds i e) :=
  fun _ _ h hs ↦ h.2.trans hs

theorem Waits.stable (i : Thread) (call : SendCall) : (writerRG i).Stable (Waits i call) :=
  fun _ _ h hs ↦ ⟨h.1.trans hs.1, h.2.trans hs.2⟩

theorem Holds.refuse (h : Holds i e s) : Holds i { e with refused := true } s.refuse := by
  obtain ⟨he, ht⟩ := Shared.own_eq_some.1 h
  apply Shared.own_eq_some.2
  simp [Shared.refuse, Shared.modifyCurrent, he, ht]

theorem Holds.accept (h : Holds i e s) (data : List UInt8) :
    Holds i { e with bytes := e.bytes ++ data } (s.accept data) := by
  obtain ⟨he, ht⟩ := Shared.own_eq_some.1 h
  apply Shared.own_eq_some.2
  simp [Shared.accept, Shared.modifyCurrent, he, ht]

/-! ## Sending -/

/-- What is left of an attempt to send some bytes: they are all sent, or the call
is stopped within its packet. -/
def Attempted (i : Thread) (e : Entry) (data : List UInt8) : SendResult → Shared → Prop
  | .ok _, s => Holds i { e with bytes := e.bytes ++ data } s
  | .error _, s => ∃ e' : Entry, e'.Stopped ∧ Holds i e' s

/-- A refusal before the end of the packet stops the call. -/
theorem Entry.Continues.stopped {rest : List UInt8} (h : e.Continues rest) (hr : rest ≠ []) :
    ({ e with refused := true } : Entry).Stopped :=
  ⟨rfl, rest, hr, h⟩

/-- What was accepted is no longer to be sent. -/
theorem Entry.Continues.accept {data rest : List UInt8} (h : e.Continues (data ++ rest)) :
    ({ e with bytes := e.bytes ++ data } : Entry).Continues rest := by
  obtain ⟨now, hnow⟩ := h
  exact ⟨now, by rw [hnow, List.append_assoc]⟩

/-- `select` reports that the socket is ready, or the call is refused. -/
theorem select_spec {rest : List UInt8} {w : SocketAnswer} {r : Selected} (hs : Holds i e s)
    (hne : rest ≠ []) (hc : e.Continues rest) (hu : wireExec i _ w .select s = some (r, t)) :
    Progress i s t ∧ (r = .ready → Holds i e t) ∧
      (r ≠ .ready → Holds i { e with refused := true } t) := by
  simp only [wireExec] at hu
  split at hu
  · cases hu
    exact ⟨.stay, fun _ ↦ hs, fun h ↦ absurd rfl h⟩
  · next hnot =>
    cases hu
    exact ⟨.refuse hs hne hc, fun h ↦ absurd h (hnot ·), fun _ ↦ hs.refuse⟩

/-- `send` takes some of what it is given, or the call is refused. -/
theorem send_spec {chunk rest : List UInt8} {w : SocketAnswer} {r : Sent} (hs : Holds i e s)
    (hr : e.refused = false) (hne : chunk ++ rest ≠ []) (hc : e.Continues (chunk ++ rest))
    (hu : wireExec i _ w (.send chunk) s = some (r, t)) :
    Progress i s t ∧
      (∀ n, r = .accepted (n + 1) → n + 1 ≤ chunk.length ∧
        Holds i { e with bytes := e.bytes ++ chunk.take (n + 1) } t) ∧
      ((∀ n, r ≠ .accepted (n + 1)) → Holds i { e with refused := true } t) := by
  have hrefuse : Progress i s s.refuse := .refuse hs hne hc
  simp only [wireExec] at hu
  split at hu
  · cases hu
    exact ⟨hrefuse, fun n h ↦ (by cases h), fun _ ↦ hs.refuse⟩
  · cases hu
    exact ⟨hrefuse, fun n h ↦ (by cases h), fun _ ↦ hs.refuse⟩
  · next count _ =>
    split at hu
    · next hle =>
      cases hu
      have hc' : e.Continues (chunk.take (count + 1) ++ (chunk.drop (count + 1) ++ rest)) := by
        rwa [← List.append_assoc, List.take_append_drop]
      refine ⟨.accept hs hr hc', fun n h ↦ ?_, fun h ↦ absurd rfl (h count)⟩
      cases h
      exact ⟨hle, hs.accept _⟩
    · cases hu

theorem sendLoop_triple (data : List UInt8) {e : Entry} {rest : List UInt8}
    (hr : e.refused = false) (hc : e.Continues (data ++ rest)) :
    Triple (wireExec i) (writerRG i) (Holds i e) (sendLoop data) (Attempted i e data) := by
  induction data using sendLoop.induct generalizing e with
  | case1 =>
      rw [sendLoop, dif_pos rfl]
      refine Triple.ret (Holds.stable i e) fun s hs ↦ ?_
      simpa [Attempted] using hs
  | case2 data hdata ih =>
      rw [sendLoop, dif_neg hdata]
      have hne : data ++ rest ≠ [] := by simp [hdata]
      have hsplit : data.take maxInt ++ (data.drop maxInt ++ rest) = data ++ rest := by
        rw [← List.append_assoc, List.take_append_drop]
      -- every refusal is within the packet, since something is left to be sent
      have hrefuse (text : String) : Triple (wireExec i) (writerRG i)
          (Holds i { e with refused := true }) (.ret (.error text)) (Attempted i e data) :=
        Triple.ret (Holds.stable i _) fun s hs ↦ ⟨_, hc.stopped hne, hs⟩
      refine Triple.act (Holds.stable i e) _ (fun s _ hs w r u hu ↦ select_spec hs hne hc hu) ?_
      intro selected
      match selected with
      | .error code text => exact (hrefuse _).conseq (fun s hs ↦ hs.2 nofun) fun _ _ ↦ id
      | .timeout => exact (hrefuse _).conseq (fun s hs ↦ hs.2 nofun) fun _ _ ↦ id
      | .ready =>
          refine Triple.conseq ?_ (fun s hs ↦ hs.1 rfl) fun _ _ ↦ id
          refine Triple.act (Holds.stable i e) _ (fun s _ hs w r u hu ↦
            send_spec hs hr (hsplit ▸ hne) (hsplit ▸ hc) hu) ?_
          intro sent
          match sent with
          | .error code text => exact (hrefuse _).conseq (fun s hs ↦ hs.2 nofun) fun _ _ ↦ id
          | .accepted 0 => exact (hrefuse _).conseq (fun s hs ↦ hs.2 nofun) fun _ _ ↦ id
          | .accepted (sent + 1) =>
              refine Triple.conseq (Triple.of_const fun hle ↦ ?_)
                (fun s hs ↦ ⟨(hs.1 sent rfl).2, (hs.1 sent rfl).1⟩) fun _ _ ↦ id
              rw [List.length_take] at hle
              have htake : (data.take maxInt).take (sent + 1) = data.take (sent + 1) := by
                rw [List.take_take, min_eq_left (by omega)]
              have hcont :
                  e.Continues (data.take (sent + 1) ++ (data.drop (sent + 1) ++ rest)) := by
                rwa [← List.append_assoc, List.take_append_drop]
              rw [htake]
              refine (@ih sent { e with bytes := e.bytes ++ data.take (sent + 1) } hr
                hcont.accept).conseq (fun s hs ↦ hs) fun r s h ↦ ?_
              cases r with
              | error text => exact h
              | ok =>
                  rw [Attempted, List.append_assoc, List.take_append_drop] at h
                  exact h

/-! ## Calls -/

/-- The thread still holds the mutex, and its call is finished. -/
def Ended (i : Thread) (_ : SendResult) (s : Shared) : Prop :=
  ∃ e : Entry, e.Finished ∧ Holds i e s

/-- A call that sends its packet. -/
theorem sendPacketLocked_triple {encodedLength : UInt32} {frameId timestampUs now : UInt64}
    {payload : List UInt8}
    (hp : call.packet now = some (packetBytes encodedLength frameId timestampUs payload)) :
    Triple (wireExec i) (writerRG i) (Holds i { thread := i, call })
      (sendPacketLocked true encodedLength frameId timestampUs payload) (Ended i) := by
  have hheader : ({ thread := i, call } : Entry).Continues
      (packetHeader encodedLength frameId timestampUs ++ payload) := ⟨now, hp⟩
  have hpayload := hheader.accept
  rw [← List.append_nil payload] at hpayload
  apply Triple.bind _ (sendLoop_triple (packetHeader encodedLength frameId timestampUs) rfl hheader)
  intro r
  cases r with
  | error text =>
      rintro s ⟨e, hstopped, hs⟩
      exact Triple.ret (Holds.stable i e) (fun s hs ↦ ⟨e, .inr (.inl hstopped), hs⟩) s hs
  | ok =>
      refine (sendLoop_triple payload rfl hpayload).conseq (fun s hs ↦ hs) fun r s h ↦ ?_
      cases r with
      | error text =>
          obtain ⟨e, hstopped, hs⟩ := h
          exact ⟨e, .inr (.inl hstopped), hs⟩
      | ok => exact ⟨_, .inl ⟨rfl, hpayload.accept⟩, h⟩

/-- A call that sends nothing. -/
theorem silent_triple (r : SendResult) (hp : ∀ now, call.packet now = none) :
    Triple (wireExec i) (writerRG i) (Holds i { thread := i, call }) (.ret r) (Ended i) :=
  Triple.ret (Holds.stable i _) fun _ hs ↦ ⟨_, .inr (.inr ⟨rfl, rfl, hp⟩), hs⟩

theorem sendAccessUnitLocked_triple (frameId timestampUs : UInt64) (payload : List UInt8)
    (hp : ∀ now, call.packet now = accessUnitPacket frameId timestampUs payload) :
    Triple (wireExec i) (writerRG i) (Holds i { thread := i, call })
      (sendAccessUnitLocked true frameId timestampUs payload) (Ended i) := by
  unfold sendAccessUnitLocked
  unfold accessUnitPacket at hp
  split
  · next hlong => exact silent_triple _ fun now ↦ by rw [hp, if_pos hlong]
  · next hlong => exact sendPacketLocked_triple ((hp 0).trans (if_neg hlong))

/-- The clock is read under the mutex, so that the time is part of the packet. -/
theorem sendControlLocked_triple (payload : List UInt8)
    (hlength : ¬payload.length > maxUint32 - kControlLengthFlag.toNat)
    (hp : ∀ now, call.packet now = some
      (packetBytes (kControlLengthFlag ||| UInt32.ofNat payload.length) 0 now payload)) :
    Triple (wireExec i) (writerRG i) (Holds i { thread := i, call })
      (sendControlLocked true payload) (Ended i) := by
  rw [sendControlLocked, if_neg hlength]
  refine Triple.act (Holds.stable i _) (fun _ s ↦ Holds i { thread := i, call } s) ?_
    fun now ↦ sendPacketLocked_triple (hp now)
  intro s _ hs w r u hu
  cases hu
  exact ⟨.stay, hs⟩

/-- The mutex: what is done under it is done by a thread that holds it. -/
theorem lockGuard_triple {p : Prog WireOp SendResult}
    (hp : Triple (wireExec i) (writerRG i) (Holds i { thread := i, call }) p (Ended i)) :
    Triple (wireExec i) (writerRG i) (Waits i call) (lockGuard p) fun _ s ↦ s.own i = none := by
  refine Triple.act (Waits.stable i call) (fun _ s ↦ Holds i { thread := i, call } s) ?_ fun _ ↦ ?_
  · rintro s _ ⟨hcall, hown⟩ w r u hu
    simp only [wireExec] at hu
    split at hu
    · next hnone =>
      cases hu
      refine ⟨.lock (Option.isNone_iff_eq_none.1 hnone), ?_⟩
      rw [hcall]
      exact Shared.own_eq_some.2 ⟨rfl, rfl⟩
    · cases hu
  · apply Triple.bind _ hp
    rintro r s ⟨e, hf, hs⟩
    refine Triple.act (Holds.stable i e) (fun _ s ↦ s.own i = none) ?_ (fun _ ↦ ?_) s hs
    · intro s _ hs w r u hu
      cases hu
      exact ⟨.unlock hs hf, rfl⟩
    · exact Triple.ret (fun s t h hs ↦ h.2.trans hs) fun _ ↦ id

/-- The length of a cursor packet is within bounds. -/
theorem length_cursorPayload (visible : Bool) (x y : Int32) (width height : UInt32)
    (sequence : UInt64) : (cursorPayload visible x y width height sequence).length = 36 := by
  simp [cursorPayload, writeLe32, writeLe64]

/-- **Each call keeps its contract**, against any behaviour of the other thread and
of the socket. -/
theorem body_triple (call : SendCall) :
    Triple (wireExec i) (writerRG i) (Waits i call) call.body fun _ s ↦ s.own i = none := by
  cases call with
  | annexB frameId timestampUs payload =>
      show Triple _ _ _ (sendAnnexB true frameId timestampUs payload) _
      unfold sendAnnexB
      split
      · next hstart =>
        exact lockGuard_triple (sendAccessUnitLocked_triple _ _ _ fun now ↦ if_pos hstart)
      · next hstart =>
        split
        · next hnone =>
          apply lockGuard_triple (silent_triple _ fun now ↦ ?_)
          rw [SendCall.packet, if_neg hstart, hnone, Option.bind_none]
        · next converted hsome =>
          apply lockGuard_triple (sendAccessUnitLocked_triple _ _ _ fun now ↦ ?_)
          rw [SendCall.packet, if_neg hstart, hsome, Option.bind_some]
  | heartbeat => exact lockGuard_triple (sendAccessUnitLocked_triple 0 0 [] fun now ↦ rfl)
  | cursor visible x y width height sequence =>
      apply lockGuard_triple (sendControlLocked_triple _ ?_ fun now ↦ rfl)
      rw [length_cursorPayload]
      decide

/-! ## The two threads together -/

/-- What holds of the record in every state that a run reaches. -/
structure Inv (s : Shared) : Prop where
  /-- The socket has accepted what the calls have sent, in the order in which they
  took the mutex. -/
  sent : s.sent = s.entries.flatMap Entry.bytes
  done : ∀ e ∈ s.done, e.Finished
  /-- The call that holds the mutex is within its packet, or finished. -/
  current : ∀ e, s.current = some e → e.Finished ∨ e.refused = false ∧
    (e.bytes = [] ∨ ∃ rest, e.Continues rest)

theorem Shared.entries_of_current (h : s.current = some e) : s.entries = s.done ++ [e] := by
  rw [Shared.entries, h]
  rfl

theorem Inv.initial : Inv {} where
  sent := rfl
  done := nofun
  current := nofun

/-- Every operation of a thread keeps the invariant. -/
theorem Inv.progress (h : Inv s) (hp : Progress i s t) : Inv t := by
  cases hp with
  | stay => exact h
  | enter call => exact ⟨h.sent, h.done, h.current⟩
  | lock hnone =>
      refine ⟨?_, h.done, ?_⟩
      · have hsent := h.sent
        rw [Shared.entries, hnone] at hsent
        rw [Shared.entries_of_current rfl]
        simpa using hsent
      · rintro _ ⟨⟩
        exact .inr ⟨rfl, .inl rfl⟩
  | @accept e data rest he hr hc =>
      obtain ⟨he, -⟩ := Shared.own_eq_some.1 he
      have hcurrent : (s.accept data).current = some { e with bytes := e.bytes ++ data } := by
        simp [Shared.accept, Shared.modifyCurrent, he]
      refine ⟨?_, h.done, ?_⟩
      · rw [Shared.entries_of_current hcurrent]
        have hsent := h.sent
        rw [Shared.entries_of_current he] at hsent
        simp only [Shared.accept, Shared.modifyCurrent, hsent]
        simp
      · intro e' he'
        cases hcurrent.symm.trans he'
        exact .inr ⟨hr, .inr ⟨rest, hc.accept⟩⟩
  | @refuse e rest he hr hc =>
      obtain ⟨he, -⟩ := Shared.own_eq_some.1 he
      have hcurrent : s.refuse.current = some { e with refused := true } := by
        simp [Shared.refuse, Shared.modifyCurrent, he]
      refine ⟨?_, h.done, ?_⟩
      · rw [Shared.entries_of_current hcurrent]
        have hsent := h.sent
        rw [Shared.entries_of_current he] at hsent
        simpa [Shared.refuse, Shared.modifyCurrent] using hsent
      · intro e' he'
        cases hcurrent.symm.trans he'
        exact .inl (.inr (.inl (hc.stopped hr)))
  | @unlock e he hf =>
      obtain ⟨he, -⟩ := Shared.own_eq_some.1 he
      refine ⟨?_, ?_, nofun⟩
      · simpa [Shared.entries] using h.sent
      · intro e' he'
        rw [Shared.entries_of_current he] at he'
        rcases List.mem_append.1 he' with he' | he'
        · exact h.done e' he'
        · rwa [List.mem_singleton.1 he']

/-- The outline of the two threads, with a further invariant that the guard makes
every operation preserve. -/
def writerOutline (allow : writerSystem.Guard) (J : Shared → Prop)
    (hJ : ∀ c i m c', allow c i m c' → Inv c.shared → Progress i c.shared c'.shared →
      J c.shared → J c'.shared) : Outline writerSystem allow where
  inv s := Inv s ∧ J s
  rg := writerRG
  idle i _ s := s.own i = none
  inv_next ha h hG := ⟨h.1.progress hG, hJ _ _ _ _ ha h.1 hG h.2⟩
  rely_refl _ _ _ := ⟨rfl, rfl⟩
  compat hij _ _ h := h.rely hij
  idle_stable _ _ := fun _ _ h hs ↦ h.2.trans hs
  enter_ok {c i call c' l} _ _ hidle := by
    refine ⟨.enter call, Safe.bind ?_⟩
    have hwaits : Waits i call (writerSystem.enter i call l c.shared) :=
      ⟨Function.update_self _ _ _, hidle⟩
    refine (body_triple call _ hwaits).mono fun r t ht u hu ↦ ?_
    exact ⟨.stay, hu.2.trans ht⟩

/-- The record of every state that a run reaches. -/
theorem writer_run {allow : writerSystem.Guard} (J : Shared → Prop)
    (hJ : ∀ c i m c', allow c i m c' → Inv c.shared → Progress i c.shared c'.shared →
      J c.shared → J c'.shared) (hinit : J {}) {c : WriterConfig}
    (hrun : Run allow WriterConfig.initial c) : Inv c.shared ∧ J c.shared := by
  have hok : (writerOutline allow J hJ).Ok WriterConfig.initial :=
    ⟨⟨.initial, hinit⟩, fun i ↦ rfl⟩
  exact ((writerOutline allow J hJ).ok_run hok hrun).inv

end SecondScreen.Wire
