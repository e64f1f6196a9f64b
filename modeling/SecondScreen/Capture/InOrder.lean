import SecondScreen.Capture.Staging

/-!
# Every captured frame is published, in order

The outline of the whole capture, from the account of the frames and the proofs of the
threads.
-/

namespace SecondScreen.Capture

open SecondScreen.Conc

variable {s t u : Shared} {w : Answer}

/-- Every contract allows standing still. -/
theorem accountRG_refl (i : Worker) (hs : Accounted s) :
    (accountRG i).guar s s ∧ (accountRG i).rely s s := by
  cases i with
  | swapChain => exact ⟨⟨.refl s, hs⟩, .refl s, hs⟩
  | conversion => exact ⟨⟨.refl s, hs⟩, .refl s, hs⟩
  | host => exact ⟨⟨.refl s, .refl s, hs⟩, hs⟩

theorem accounted_of_guar {i : Worker} (h : (accountRG i).guar s t) : Accounted t := by
  cases i with
  | swapChain | conversion => exact h.2
  | host => exact h.2.2

/-- What holds of a thread that is not inside of a call. -/
def AccountIdle : (i : Worker) → (captureSystem succeeds).Local i → Shared → Prop
  | .swapChain, false, s => ∃ surfaces, Knows (.initial surfaces) true s
  | .swapChain, true, s =>
      ∃ surfaces captured, Joined surfaces captured s ∧ Prefix surfaces captured
  | .conversion, ended, s => BetweenPasses ended s
  | .host, _, _ => True

theorem accountIdle_stable (i : Worker) (l : (captureSystem succeeds).Local i) :
    (accountRG i).Stable (AccountIdle i l) := by
  cases i with
  | swapChain =>
      cases l with
      | false =>
          rintro s t hR ⟨surfaces, h⟩
          exact ⟨surfaces, knows_stable s t hR h⟩
      | true =>
          rintro s t hR ⟨surfaces, captured, h, hpre⟩
          exact ⟨surfaces, captured, joined_stable s t hR h, hpre⟩
  | conversion => exact betweenPasses_stable l
  | host => exact fun _ _ _ h ↦ h

/-- The host changes nothing but the header. -/
theorem restartHost_account :
    Triple (captureExec succeeds .host) (accountRG .host) (fun _ ↦ True) restartHost
      fun _ _ ↦ True := by
  have hact (valid : Bool) (s : Shared) (hs : (accountRG .host).rely s s) (w : Answer) (r : Unit)
      (u : Shared) (hu : captureExec succeeds .host _ w (.writeHeader valid) s = some (r, u)) :
      (accountRG .host).guar s u ∧ True := by
    obtain ⟨-, q, hq, rfl⟩ := captureExec_some hu
    cases hq
    have hs : Accounted s := hs
    exact ⟨⟨⟨rfl, rfl, fun _ _ ↦ ⟨rfl, rfl⟩, fun h ↦ ⟨h, rfl⟩⟩,
      ⟨rfl, rfl, fun h ↦ ⟨h, rfl⟩, id⟩, { hs with }⟩, trivial⟩
  have htrue : (accountRG .host).Stable fun _ ↦ True := fun _ _ _ h ↦ h
  exact Triple.act htrue (fun _ _ ↦ True) (fun s hs _ ↦ hact false s hs) fun _ ↦
    Triple.act htrue (fun _ _ ↦ True) (fun s hs _ ↦ hact true s hs) fun _ ↦
      Triple.ret htrue fun _ h ↦ h

/-- What a call starts from. -/
def AccountStart : (i : Worker) → (captureSystem succeeds).Call i →
    (captureSystem succeeds).Local i → Shared → Prop
  | .swapChain, surfaces, false, s => Knows (.initial surfaces) true s
  | i, _, l, s => AccountIdle i l s

theorem body_account (i : Worker) (call : (captureSystem succeeds).Call i)
    (l : (captureSystem succeeds).Local i) :
    Triple (captureExec succeeds i) (accountRG i) (AccountStart i call l)
      ((captureSystem succeeds).body i call l) fun r s ↦ AccountIdle i r.2 s := by
  cases i with
  | swapChain =>
      cases l with
      | true => exact Triple.ret (accountIdle_stable .swapChain true) fun _ h ↦ h
      | false =>
          refine Triple.bind (fun _ s ↦ AccountIdle .swapChain true s)
            ((runCore_account call).conseq (fun _ h ↦ h) fun _ _ h ↦ ⟨call, h⟩) fun _ ↦ ?_
          exact Triple.ret (accountIdle_stable .swapChain true) fun _ h ↦ h
  | conversion =>
      cases l with
      | true => exact Triple.ret (betweenPasses_stable true) fun _ h ↦ h
      | false =>
          exact Triple.bind _ conversionPass_account fun again ↦
            Triple.ret (betweenPasses_stable (!again)) fun _ h ↦ h
  | host => exact Triple.bind _ restartHost_account fun _ ↦ Triple.ret (fun _ _ _ h ↦ h) fun _ h ↦ h

/-- The outline of the capture. -/
def accountOutline : System.Outline (captureSystem succeeds) fun _ _ _ _ ↦ True where
  inv := Accounted
  rg := accountRG
  idle := AccountIdle
  inv_next _ _ h := accounted_of_guar h
  rely_refl i _ h := (accountRG_refl i h).2
  compat {i j s t} hij _ _ h := by
    cases i <;> cases j <;> first
      | exact absurd rfl hij
      | exact h
      | exact h.2
      | exact ⟨h.1, h.2.2⟩
  idle_stable := accountIdle_stable
  enter_ok {c i call c' l} hinv _ hidle := by
    have hinv : Accounted c.shared := hinv
    have hsafe (s : Shared) (hs : AccountStart i call l s) :=
      ((body_account i call l s hs).and_rely).mono fun r t ht ↦
        (⟨(accountRG_refl i (accounted_of_rely ht.2)).1, ht.1⟩ :
          (accountRG i).guar t t ∧ AccountIdle i r.2 t)
    cases i with
    | swapChain =>
        cases l with
        | true => exact ⟨(accountRG_refl .swapChain hinv).1, hsafe _ hidle⟩
        | false =>
            obtain ⟨surfaces, hknows⟩ := hidle
            refine ⟨⟨⟨rfl, rfl, fun _ _ ↦ ⟨rfl, rfl⟩, fun h ↦ ⟨h, rfl⟩⟩, { hinv with }⟩,
              hsafe _ ⟨?_, hknows.inside, hknows.idle⟩⟩
            show { c.shared.capturing with surfaces := call } = _
            rw [hknows.capturing]
            rfl
    | conversion => exact ⟨(accountRG_refl .conversion hinv).1, hsafe _ hidle⟩
    | host => exact ⟨(accountRG_refl .host hinv).1, hsafe _ hidle⟩

theorem accountOutline_initial : accountOutline.Ok (CaptureConfig.initial succeeds) where
  inv :=
    { account := rfl
      numbered := ⟨nofun, rfl, rfl⟩
      count := rfl
      head := by decide
      entries := nofun
      inUse := ⟨fun _ _ ↦ ⟨nofun, nofun⟩, .nil, nofun⟩
      holds := nofun
      conversionBuffer := nofun
      insideConversion := nofun
      insideSwapChain := nofun
      taken := by rintro (h | h) <;> cases h
      failed := rfl
      ended := nofun
      ring := fun h ↦ absurd rfl h }
  status i := by
    cases i with
    | swapChain => exact ⟨[], rfl, rfl, fun _ ↦ ⟨rfl, rfl⟩⟩
    | conversion => rfl
    | host => trivial

/-- **Capture order, completeness and content.**  If no operation fails, then at any time
of any run the published frames are the first of the captured ones, in the order of their
capture and with their pixels, their numbers are consecutive, and the threads are not both
inside of `PublishBgraFrame`; and when `RunCore` has returned, every captured frame was
published, and if all surfaces were accepted then all were captured. -/
theorem published_run {c : CaptureConfig succeeds}
    (h : CaptureRun succeeds (.initial succeeds) c) :
    c.shared.log.published.map (·.frame) <+: c.shared.log.captured ∧
      (∀ k (hk : k < c.shared.log.published.length),
        c.shared.log.published[k].sequence = k + 1 ∧ c.shared.log.published[k].frameId = k + 1) ∧
      ¬ (c.shared.log.inside .swapChain = true ∧ c.shared.log.inside .conversion = true) ∧
      (c.status .swapChain = .idle true → Finished c.shared) := by
  have hok := accountOutline.ok_run accountOutline_initial h
  have hinv : Accounted c.shared := hok.inv
  refine ⟨?_, hinv.numbered.published, hinv.not_both, fun hend ↦ ?_⟩
  · rw [hinv.account, List.append_assoc]
    exact List.prefix_append ..
  · have hidle := hok.status .swapChain
    rw [hend] at hidle
    obtain ⟨surfaces, captured, hjoined, hpre⟩ := hidle
    exact hjoined.finished hinv hpre

/-- `RunCore` has returned. -/
def CaptureConfig.returned (c : CaptureConfig succeeds) : Bool :=
  match c.status .swapChain with
  | .idle ended => ended
  | .busy _ => false

theorem CaptureConfig.status_of_returned {c : CaptureConfig succeeds}
    (h : CaptureConfig.returned c = true) : c.status .swapChain = .idle true := by
  unfold CaptureConfig.returned at h
  split at h
  · next ended hended =>
    subst h
    exact hended
  · cases h

/-- A surface whose pixels are all different. -/
def shades (width height : Nat) (first : UInt8) : Surface where
  width := width
  height := height
  pixels n := first + UInt8.ofNat n

/-- Three surfaces, the last of them wider than the others; the conversion thread publishes the
second one. -/
def widening : (captureSystem succeeds).Schedule :=
  let operations (i : Worker) (count : Nat) : (captureSystem succeeds).Schedule :=
    List.replicate count ⟨i, .act { rowPitch := 16 }⟩
  ⟨.swapChain, .enter [(shades 2 2 1, 5), (shades 2 2 50, 6), (shades 4 2 100, 7)]⟩ ::
    operations .swapChain 125 ++
    ⟨.conversion, .enter ()⟩ :: operations .conversion 29 ++ ⟨.conversion, .leave⟩ ::
    operations .swapChain 101 ++
    ⟨.conversion, .enter ()⟩ :: operations .conversion 2 ++ ⟨.conversion, .leave⟩ ::
    operations .swapChain 9 ++ [⟨.swapChain, .leave⟩]

theorem published_run_widening : ∃ c : CaptureConfig succeeds,
    CaptureRun succeeds (.initial succeeds) c ∧
      c.shared.log.published.map (·.frame) =
        [(shades 2 2 1).frame 5, (shades 2 2 50).frame 6, (shades 4 2 100).frame 7] ∧
        c.shared.log.published.map (·.frame) <+: c.shared.log.captured ∧ Finished c.shared := by
  have hfollow : ((CaptureConfig.initial succeeds).follow (fun _ _ _ _ ↦ True) widening).map
      (fun c ↦ (c.shared.log.published.map (·.frame), CaptureConfig.returned c)) =
        some ([(shades 2 2 1).frame 5, (shades 2 2 50).frame 6, (shades 4 2 100).frame 7],
          true) := by
    decide +kernel
  obtain ⟨c, hc, hend⟩ := Option.map_eq_some_iff.1 hfollow
  obtain ⟨hframes, hreturned⟩ := Prod.mk.injEq .. ▸ hend
  have hrun := System.Config.run_of_follow hc
  obtain ⟨hpre, -, -, hfinished⟩ := published_run hrun
  exact ⟨c, hrun, hframes, hpre, hfinished (CaptureConfig.status_of_returned hreturned)⟩

end SecondScreen.Capture
