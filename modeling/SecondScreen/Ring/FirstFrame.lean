import SecondScreen.Ring.HostOps
import SecondScreen.Ring.Sharing

/-!
# The first frame of a session

`WaitForFrame`, and the beginning of `StreamClient` up to the first frame.  The reader
outlives the sessions, and a new one gets the frame that the reader has kept if that has
the size of the command line.
-/

namespace SecondScreen.Ring

open SecondScreen.Conc SecondScreen.Conc.System

/-! ## `WaitForFrame` -/

def kHeartbeatIntervalUs : Nat := 1000000

/-- `FrameRingReader::Result`; a frame with what `output` then is. -/
inductive WaitResult
  | frame (output : CapturedFrame)
  | heartbeat
  | stopped
  | disconnected
deriving DecidableEq

/-- How `WaitForSingleObject` on the event of the ring ends. -/
inductive EventWait
  | object
  | timeout
  | failed (lastError : Nat)
  | unexpected
deriving DecidableEq

/-- What a turn of the loop finds outside of the ring. -/
structure WaitTurn where
  /-- `g_stop`. -/
  stop : Bool := false
  /-- `*externalStop`. -/
  externalStop : Bool := false
  /-- `IsSocketConnected`. -/
  connected : Bool := true
  event : EventWait := .timeout
  /-- The time after the wait. -/
  nowUs : Nat
deriving DecidableEq

/-- The loop of `WaitForFrame`; `none` is its result while it goes on. -/
def waitForFrame (nextHeartbeatUs : Nat) :
    List WaitTurn → FrameRingReader → RingProg (Option WaitResult × FrameRingReader)
  | [], r => return (none, r)
  | turn :: turns, r =>
      if turn.stop then return (some .stopped, r)
      else if turn.externalStop then return (some .stopped, r)
      else if !turn.connected then return (some .disconnected, r)
      else if r.replayCachedFrame then
        return (some (.frame r.cachedFrame), { r with replayCachedFrame := false })
      else do
        let (outcome, r) ← tryReadLatest r
        match outcome with
        | .frame output => return (some (.frame output), r)
        | .invalidHeader | .noFrame | .corruptSlot =>
            if r.terminal then return (some .stopped, r)
            else
              match turn.event with
              | .failed lastError =>
                  return (some .stopped, r.setError
                    ("WaitForSingleObject(FrameReady) failed (" ++ toString lastError ++ ")"))
              | .unexpected =>
                  return (some .stopped, r.setError
                    "WaitForSingleObject(FrameReady) returned an unexpected result")
              | .object | .timeout =>
                  if turn.nowUs ≥ nextHeartbeatUs then return (some .heartbeat, r)
                  else waitForFrame nextHeartbeatUs turns r

/-- The beginning of `StreamClient`: unless the result is a frame, the session ends. -/
def beginSession (width height waitStartedUs : Nat) (turns : List WaitTurn)
    (r : FrameRingReader) : RingProg (Option WaitResult × FrameRingReader) :=
  waitForFrame (waitStartedUs + kHeartbeatIntervalUs) turns (r.beginClient width height)

/-! ## The frame that the reader keeps -/

/-- The reader keeps the frame that it returned last. -/
def KeepsLast (returned : List (Nat × CapturedFrame)) (r : FrameRingReader) : Prop :=
  match returned.getLast? with
  | none => r.hasCachedFrame = false
  | some last => r.hasCachedFrame = true ∧ r.cachedFrame = last.2

/-- What a read does to the frame that the reader keeps. -/
def Keeps (r : FrameRingReader) : Outcome × FrameRingReader → Prop
  | (.frame f, r') => r'.hasCachedFrame = true ∧ r'.cachedFrame = f
  | (_, r') => r'.hasCachedFrame = r.hasCachedFrame ∧ r'.cachedFrame = r.cachedFrame

theorem tryReadLatest_keeps (r : FrameRingReader) : (tryReadLatest r).Returns (Keeps r) := by
  have hconsume (i : Slot) (n : Nat) : (consumeSlot r i n).Returns (Keeps r) := by
    refine .after fun payload ↦ .after fun width ↦ .after fun height ↦ .after fun stride ↦
      .after fun frameId ↦ .after fun timestamp ↦ .after fun skipped ↦ .after fun last ↦
      .after fun _ ↦ ?_
    exact ⟨rfl, rfl⟩
  have hselected (i : Slot) : (readSelected r i).Returns (Keeps r) := by
    refine .after fun _ ↦ .after fun length ↦ ?_
    cases length with
    | none => exact .after fun _ ↦ ⟨rfl, rfl⟩
    | some n => exact hconsume i n
  have hattempts (n : Nat) : (readAttempts r n).Returns (Keeps r) := by
    induction n with
    | zero => exact ⟨rfl, rfl⟩
    | succ n ih =>
        refine .after fun newest ↦ ?_
        cases newest with
        | none => exact ⟨rfl, rfl⟩
        | some best =>
            refine .after fun claimed ↦ ?_
            cases claimed with
            | false => exact ih
            | true =>
                refine .after fun newer ↦ ?_
                cases newer with
                | false => exact hselected best.1
                | true => exact .after fun _ ↦ ih
  refine .after fun valid ↦ ?_
  cases valid with
  | true => exact hattempts _
  | false => exact ⟨rfl, rfl⟩

theorem KeepsLast.deliver {r : FrameRingReader} {log : Log} (h : KeepsLast log.returned r)
    {x : Outcome × FrameRingReader} (hx : Keeps r x) :
    KeepsLast (log.deliver x.1).returned x.2 := by
  obtain ⟨outcome, r'⟩ := x
  have hsame (hx : r'.hasCachedFrame = r.hasCachedFrame ∧ r'.cachedFrame = r.cachedFrame) :
      KeepsLast log.returned r' := by
    unfold KeepsLast at h ⊢
    rw [hx.1, hx.2]
    exact h
  cases outcome with
  | frame f =>
      show KeepsLast (log.returned ++ [(log.claimed, f)]) r'
      unfold KeepsLast
      rw [List.getLast?_concat]
      exact hx
  | invalidHeader | noFrame | corruptSlot => exact hsame hx

theorem driverStep_returned {β : Type} (o : RingOp β) (ring : FrameRing) (log : Log) :
    (log.driverStep β o ring).returned = log.returned := by
  cases o with
  | compareExchange i x comparand =>
      simp only [Log.driverStep]
      split_ifs <;> rfl
  | exchange i x => cases x <;> rfl
  | _ => rfl

theorem readerStep_returned {β : Type} (o : RingOp β) (ring : FrameRing) (log : Log) :
    (log.readerStep β o ring).returned = log.returned := by
  cases o with
  | compareExchange i x comparand =>
      cases x <;> simp only [Log.readerStep] <;> split_ifs <;> rfl
  | _ => rfl

/-- What either side relies on: only the host delivers frames. -/
def returnedRG : Side → RG Shared
  | .driver =>
      { rely := fun _ _ ↦ True
        guar := fun s t ↦ t.log.returned = s.log.returned
        rely_trans := fun _ _ ↦ trivial
        rely_refl := fun _ ↦ trivial }
  | .host =>
      { rely := fun s t ↦ t.log.returned = s.log.returned
        guar := fun _ _ ↦ True
        rely_trans := fun h h' ↦ h'.trans h
        rely_refl := fun _ ↦ rfl }

theorem hostBody_keeps (call : HostCall) (r : FrameRingReader) {s : Shared}
    (hs : KeepsLast s.log.returned r) :
    Safe hostExec (returnedRG .host)
      (fun x t ↦ True ∧ KeepsLast (hostLeave x.1 t).log.returned x.2) (hostBody call r) s := by
  cases call with
  | beginClient width height =>
      intro t (ht : t.log.returned = s.log.returned)
      refine ⟨trivial, ?_⟩
      show KeepsLast t.log.returned (r.beginClient width height)
      rw [ht]
      exact hs
  | tryReadLatest =>
      have hstable : (returnedRG .host).Stable fun s ↦ KeepsLast s.log.returned r := by
        intro s t (ht : t.log.returned = s.log.returned) h
        show KeepsLast t.log.returned r
        rwa [ht]
      have hread := @Triple.of_preserves _ _ _ _ hostExec _ _ _ _ (Prog.uses_true (tryReadLatest r))
        hstable (fun β o _ _ s x u _ h hu ↦ by
          cases hu
          refine ⟨trivial, ?_⟩
          show KeepsLast (s.log.readerStep β o s.ring).returned r
          rwa [readerStep_returned]) s hs
      refine (((tryReadLatest_keeps r).safe hread).mono ?_).bind
      rintro x t ⟨hx, ht⟩ u hu
      exact ⟨trivial, (hstable t u hu ht).deliver hx⟩

/-- Between two calls the reader keeps the frame that was returned last. -/
def keepsOutline : Outline ringSystem fun _ _ _ _ ↦ True where
  inv _ := True
  rg := returnedRG
  idle
    | .driver => fun _ _ ↦ True
    | .host => fun r s ↦ KeepsLast s.log.returned r
  inv_next _ _ _ := trivial
  rely_refl i s _ := by
    cases i
    · trivial
    · rfl
  compat {i j s t} hij _ _ h := by
    cases i <;> cases j <;> first | exact absurd rfl hij | exact h
  idle_stable i l := by
    cases i
    · exact fun _ _ _ _ ↦ trivial
    · intro s t (ht : t.log.returned = s.log.returned) h
      show KeepsLast t.log.returned l
      rwa [ht]
  enter_ok {c i call c' l} _ _ hidle := by
    cases i with
    | host => exact ⟨trivial, hostBody_keeps call l hidle⟩
    | driver =>
        refine ⟨?_, ?_⟩
        · cases call <;> rfl
        · refine (Triple.of_preserves (A := fun _ ↦ True)
            (Prog.uses_true (driverBody call l)) (fun _ _ _ _ ↦ trivial) ?_ _ trivial).mono
            fun _ _ _ ↦ ⟨rfl, trivial⟩
          intro β o _ _ s x u _ _ hu
          cases hu
          exact ⟨driverStep_returned o s.ring s.log, trivial⟩

theorem keepsLast_run {c : RingConfig} {r : FrameRingReader}
    (hrun : Run (fun _ _ _ _ ↦ True) RingConfig.initial c) (hidle : c.status .host = .idle r) :
    KeepsLast c.shared.log.returned r := by
  have hok : keepsOutline.Ok c := by
    refine keepsOutline.ok_run ⟨trivial, fun i ↦ ?_⟩ hrun
    cases i
    · trivial
    · rfl
  have hstatus := hok.status .host
  rwa [hidle] at hstatus

/-! ## Waiting while nothing is published -/

/-- The driver makes no slot ready. -/
def idleDriver : RG Shared where
  rely s t := ∀ i, t.ring.state i = .ready → s.ring.state i = .ready
  guar _ _ := True
  rely_trans h h' i hi := h i (h' i hi)
  rely_refl _ _ := id

/-- No slot is ready. -/
def Quiet (s : Shared) : Prop := ∀ i, s.ring.state i ≠ .ready

theorem idleDriver_quiet : idleDriver.Stable Quiet := fun _ _ h hs i hi ↦ hs i (h i hi)

theorem scanNewest_quiet (l : List Slot) :
    Triple hostExec idleDriver Quiet (scanNewest l none) fun x s ↦ Quiet s ∧ x = none := by
  induction l with
  | nil => exact Triple.ret idleDriver_quiet fun s hs ↦ ⟨hs, rfl⟩
  | cons i l ih =>
      refine Triple.read idleDriver_quiet (fun _ _ ↦ trivial) (· ≠ .ready) ?_ fun state hne ↦ ?_
      · intro s hs _ state t ht
        cases ht
        exact ⟨rfl, hs i⟩
      · simp only [Prog.ret_bind, if_neg hne]
        exact ih

/-- A read finds nothing. -/
theorem tryReadLatest_quiet (r : FrameRingReader) :
    Triple hostExec idleDriver Quiet (tryReadLatest r) fun x s ↦ Quiet s ∧
      ((∀ f, x.1 ≠ .frame f) ∧ x.2.replayCachedFrame = r.replayCachedFrame) := by
  refine Triple.bind (fun _ ↦ Quiet) ?_ fun valid ↦ ?_
  · refine Triple.of_uses (isValidFrameRingHeader_uses headerOrder) ?_ (fun _ _ ↦ trivial)
      idleDriver_quiet
    intro β o ho _ s x u hu
    cases o <;> cases ho <;> cases hu <;> rfl
  · cases valid with
    | false => exact Triple.ret idleDriver_quiet fun s hs ↦ ⟨hs, nofun, rfl⟩
    | true =>
        refine Triple.bind _ (scanNewest_quiet slotIndices) fun newest ↦ ?_
        apply Triple.of_const
        rintro rfl
        exact Triple.ret idleDriver_quiet fun s hs ↦ ⟨hs, nofun, rfl⟩

/-- Without a frame to replay, the wait does not end with one. -/
theorem waitForFrame_quiet (nextHeartbeatUs : Nat) (turns : List WaitTurn) (r : FrameRingReader)
    (hreplay : r.replayCachedFrame = false) :
    Triple hostExec idleDriver Quiet (waitForFrame nextHeartbeatUs turns r)
      fun x _ ↦ ∀ f, x.1 ≠ some (.frame f) := by
  have hret {x : Option WaitResult × FrameRingReader} (hx : ∀ f, x.1 ≠ some (.frame f)) :
      Triple hostExec idleDriver Quiet (.ret x) fun x _ ↦ ∀ f, x.1 ≠ some (.frame f) :=
    Triple.ret idleDriver_quiet fun _ _ ↦ hx
  induction turns generalizing r with
  | nil => exact hret nofun
  | cons turn turns ih =>
      simp only [waitForFrame]
      refine Triple.ite (hret nofun) (Triple.ite (hret nofun) (Triple.ite (hret nofun) ?_))
      rw [if_neg (Bool.eq_false_iff.1 hreplay)]
      refine Triple.bind _ (tryReadLatest_quiet r) fun x ↦ ?_
      apply Triple.of_const
      rintro ⟨hx, hsame⟩
      obtain ⟨outcome, r'⟩ := x
      cases outcome with
      | frame f => exact absurd rfl (hx f)
      | invalidHeader | noFrame | corruptSlot =>
          refine Triple.ite (hret nofun) ?_
          cases turn.event with
          | failed | unexpected => exact hret nofun
          | object | timeout => exact Triple.ite (hret nofun) (ih r' (hsame.trans hreplay))

/-! ## The result -/

/-- The client stays connected and nothing is to stop. -/
def WaitTurn.GoesOn (turn : WaitTurn) : Prop :=
  turn.stop = false ∧ turn.externalStop = false ∧ turn.connected = true

/-- `BeginClient` has the frame replayed that was read last if the sizes agree. -/
theorem replays_iff {c : RingConfig} {r : FrameRingReader} {last : Nat × CapturedFrame}
    (hrun : Run (fun _ _ _ _ ↦ True) RingConfig.initial c) (hidle : c.status .host = .idle r)
    (hlast : c.shared.log.returned.getLast? = some last) (width height : Nat) :
    r.cachedFrame = last.2 ∧ ((r.beginClient width height).replayCachedFrame = true ↔
      last.2.width = width ∧ last.2.height = height) := by
  have hkeeps := keepsLast_run hrun hidle
  unfold KeepsLast at hkeeps
  rw [hlast] at hkeeps
  obtain ⟨hcached, hframe⟩ := hkeeps
  refine ⟨hframe, ?_⟩
  rw [← hframe]
  simp [FrameRingReader.beginClient, FrameRingReader.cachedFrame, hcached]

/-- A wait that never ends with a frame does not end with any given one. -/
theorem not_safe_frame {r : FrameRingReader} {s : Shared} {width height : Nat}
    (hreplay : (r.beginClient width height).replayCachedFrame = false) (hquiet : Quiet s)
    (waitStartedUs : Nat) (turns : List WaitTurn) (f : CapturedFrame) :
    ¬Safe hostExec idleDriver (fun x _ ↦ x.1 = some (.frame f))
      (beginSession width height waitStartedUs turns r) s := by
  intro hsafe
  have hnone := waitForFrame_quiet (waitStartedUs + kHeartbeatIntervalUs) turns _ hreplay s hquiet
  have hfalse : Safe hostExec idleDriver (fun _ _ ↦ False)
      (beginSession width height waitStartedUs turns r) s :=
    (hsafe.and (fun _ _ h ↦ h) hnone).mono fun x _ hx ↦ hx.2 f hx.1
  have halone : Safe hostExec (RG.alone Shared) (fun _ _ ↦ False)
      (beginSession width height waitStartedUs turns r) s :=
    hfalse.weaken (fun s t h ↦ h ▸ fun _ ↦ id) fun _ _ _ ↦ trivial
  exact halone.eval ()

/-- **When a late client gets a first frame.**  Whatever was streamed before: while the
driver publishes nothing, a new session begins with the frame that was read last exactly
if that has the size of the command line, and with no frame at all otherwise. -/
theorem late_client_iff {c : RingConfig} {r : FrameRingReader} {last : Nat × CapturedFrame}
    (hrun : Run (fun _ _ _ _ ↦ True) RingConfig.initial c) (hidle : c.status .host = .idle r)
    (hlast : c.shared.log.returned.getLast? = some last) (hquiet : Quiet c.shared)
    (width height : Nat) :
    ((∀ waitStartedUs turns, turns ≠ [] → (∀ turn ∈ turns, turn.GoesOn) →
      Safe hostExec idleDriver (fun x _ ↦ x.1 = some (.frame last.2))
        (beginSession width height waitStartedUs turns r) c.shared) ↔
      last.2.width = width ∧ last.2.height = height) ∧
    (¬(last.2.width = width ∧ last.2.height = height) → ∀ waitStartedUs turns,
      Safe hostExec idleDriver (fun x _ ↦ ∀ f, x.1 ≠ some (.frame f))
        (beginSession width height waitStartedUs turns r) c.shared) := by
  obtain ⟨hframe, hreplay⟩ := replays_iff hrun hidle hlast width height
  refine ⟨⟨fun hall ↦ ?_, fun hsize waitStartedUs turns hne hgoes ↦ ?_⟩,
    fun hsize waitStartedUs turns ↦ ?_⟩
  · by_contra hsize
    refine not_safe_frame (Bool.eq_false_iff.2 fun h ↦ hsize (hreplay.1 h)) hquiet 0
      [{ nowUs := 0 }] last.2 (hall 0 _ nofun fun turn hturn ↦ ?_)
    rw [List.mem_singleton.1 hturn]
    exact ⟨rfl, rfl, rfl⟩
  · obtain ⟨turn, turns, rfl⟩ := List.exists_cons_of_ne_nil hne
    obtain ⟨hstop, hexternal, hconnected⟩ := hgoes turn List.mem_cons_self
    have hreturn : beginSession width height waitStartedUs (turn :: turns) r =
        .ret (some (.frame last.2),
          { r.beginClient width height with replayCachedFrame := false }) := by
      rw [← hframe]
      simp [beginSession, waitForFrame, hstop, hexternal, hconnected, hreplay.2 hsize]
      rfl
    rw [hreturn]
    exact fun _ _ ↦ rfl
  · exact waitForFrame_quiet _ turns _ (Bool.eq_false_iff.2 fun h ↦ hsize (hreplay.1 h)) _ hquiet

/-- A picture of two by two pixels has been streamed. -/
theorem exists_streamed : ∃ (c : RingConfig) (r : FrameRingReader) (last : Nat × CapturedFrame),
    Run (fun _ _ _ _ ↦ True) RingConfig.initial c ∧ c.status .host = .idle r ∧
      c.shared.log.returned.getLast? = some last ∧ Quiet c.shared ∧
        last.2.width = 2 ∧ last.2.height = 2 := by
  have hfollow : (RingConfig.initial.follow (fun _ _ _ _ ↦ True)
      (wholeCall .driver smallPublish 19 ++ wholeCall .host .tryReadLatest 34)).map
        (fun c ↦ ((RingConfig.summary c).hostIdle, (RingConfig.summary c).states,
          c.shared.log.returned.map fun f ↦ (f.2.width, f.2.height))) =
      some (true, [SlotState.free, .free], [(2, 2)]) := by decide +kernel
  obtain ⟨c, hc, hsummary⟩ := Option.map_eq_some_iff.1 hfollow
  simp only [Prod.mk.injEq] at hsummary
  obtain ⟨hidle, hstates, hreturned⟩ := hsummary
  obtain ⟨r, hr⟩ := Status.isIdle_iff.1 hidle
  obtain ⟨last, hlast, hsize⟩ := List.map_eq_singleton_iff.1 hreturned
  rw [Prod.mk.injEq] at hsize
  refine ⟨c, r, last, Config.run_of_follow hc, hr, ?_, fun i hi ↦ ?_, hsize⟩
  · rw [hlast]
    rfl
  · have hmem : c.shared.ring.state i ∈ (RingConfig.summary c).states :=
      List.mem_map_of_mem (mem_slotIndices i)
    rw [hstates, hi] at hmem
    simp at hmem

theorem late_client_iff_same_size : ∃ (c : RingConfig) (r : FrameRingReader)
    (last : Nat × CapturedFrame), c.shared.log.returned.getLast? = some last ∧
      Safe hostExec idleDriver (fun x _ ↦ x.1 = some (.frame last.2))
        (beginSession 2 2 0 [{ nowUs := 0 }] r) c.shared := by
  obtain ⟨c, r, last, hrun, hidle, hlast, hquiet, hsize⟩ := exists_streamed
  refine ⟨c, r, last, hlast, (late_client_iff hrun hidle hlast hquiet 2 2).1.2 hsize 0 _ nofun ?_⟩
  intro turn hturn
  rw [List.mem_singleton.1 hturn]
  exact ⟨rfl, rfl, rfl⟩

/-- A host that was started for another size than the screen has. -/
theorem late_client_other_size : ¬∀ (c : RingConfig) (r : FrameRingReader)
    (last : Nat × CapturedFrame), Run (fun _ _ _ _ ↦ True) RingConfig.initial c →
      c.status .host = .idle r → c.shared.log.returned.getLast? = some last → Quiet c.shared →
        ∀ width height waitStartedUs turns, turns ≠ [] → (∀ turn ∈ turns, turn.GoesOn) →
          Safe hostExec idleDriver (fun x _ ↦ x.1 = some (.frame last.2))
            (beginSession width height waitStartedUs turns r) c.shared := by
  intro hall
  obtain ⟨c, r, last, hrun, hidle, hlast, hquiet, hwidth, -⟩ := exists_streamed
  obtain ⟨-, hreplay⟩ := replays_iff hrun hidle hlast 1920 1080
  have hother : (r.beginClient 1920 1080).replayCachedFrame = false := by
    rw [Bool.eq_false_iff]
    intro h
    have hsize := (hreplay.1 h).1
    rw [hwidth] at hsize
    exact absurd hsize (by decide)
  refine not_safe_frame hother hquiet 0 [{ nowUs := 0 }] last.2
    (hall c r last hrun hidle hlast hquiet 1920 1080 0 _ nofun fun turn hturn ↦ ?_)
  rw [List.mem_singleton.1 hturn]
  exact ⟨rfl, rfl, rfl⟩

end SecondScreen.Ring
