import SecondScreen.Conc.Runs
import SecondScreen.Host.LatestFrameQueue

/-!
# When the worker refreshes an idle picture

The loop of the encode worker once more, now with its clock: each turn reads `NowMicros`
several times, waits for the queue, and may encode the frame that it has again.  What the
queue answers and how long an encode takes is open.

The `k`-th refresh after a fresh frame comes no earlier than `k` intervals after it
(`idleRefresh_paced`).
-/

namespace SecondScreen.Host

open SecondScreen.Conc Relation

def kHeartbeatIntervalUs : UInt64 := 1000000
def kIdleRefreshIntervalUs : UInt64 := 1000000 / 30

/-- A time of `steady_clock`, which counts nanoseconds in 64 bits with a sign. -/
structure SteadyTime where
  nanoseconds : Nat
  lt : nanoseconds < 2 ^ 63
deriving DecidableEq

/-- `NowMicros` at a time. -/
def nowMicros (t : SteadyTime) : UInt64 := UInt64.ofNat (t.nanoseconds / 1000)

def waitUs (hasFrame : Bool) (nextIdleRefreshUs nowUs : UInt64) : UInt64 :=
  if hasFrame && nextIdleRefreshUs > nowUs then nextIdleRefreshUs - nowUs
  else if hasFrame then 0
  else kHeartbeatIntervalUs

def waitMs (waitUs : UInt64) : UInt64 := min 1000 (max 1 ((waitUs + 999) / 1000))

/-- What one turn of the loop is answered, with the times of its readings in order. -/
structure Turn where
  /-- `g_stop`, at the head of the loop. -/
  stop : Bool := false
  now : SteadyTime
  item : LatestFrameQueue.Item
  /-- When it is decided whether a refresh is due. -/
  check : SteadyTime
  /-- `encodeCurrentFrame` finds `g_stop` or `stopCapture` set. -/
  stopping : Bool := false
  started : SteadyTime
  encodes : Bool := true
  drains : Bool := true
  heartbeatSent : Bool := true
  /-- When `encodeCurrentFrame` has returned. -/
  after : SteadyTime

/-- A refresh that has been started, with the reading after the encode before it. -/
structure RefreshStart where
  deadlineUs : UInt64
  startedUs : UInt64
  previousUs : UInt64
deriving DecidableEq, Repr

/-- The next deadline, set after a refresh. -/
structure NextDeadline where
  deadlineUs : UInt64
  afterUs : UInt64
  nextUs : UInt64
deriving DecidableEq, Repr

/-- A wait, with what it was computed from. -/
structure Wait where
  hasFrame : Bool
  nextIdleRefreshUs : UInt64
  nowUs : UInt64
  waitMs : UInt64
deriving DecidableEq, Repr

/-- The worker, and beside it a record of what has happened. -/
structure EncodeWorker where
  running : Bool := true
  hasFrame : Bool := false
  nextIdleRefreshUs : UInt64 := 0
  encodedFrames : Nat := 0
  /-- The last reading of the clock. -/
  clockUs : UInt64 := 0
  /-- The reading after the last fresh frame, and after the last encode. -/
  freshUs : UInt64 := 0
  afterUs : UInt64 := 0
  /-- The refreshes since the last fresh frame. -/
  started : List RefreshStart := []
  deadlines : List NextDeadline := []
  waits : List Wait := []
deriving DecidableEq

/-- How `encodeCurrentFrame` ends. -/
inductive EncodeResult
  | skipped
  | encoded
  | reachedFrameLimit
  | threw
deriving DecidableEq

namespace EncodeWorker

variable (frames : Nat) (w : EncodeWorker) (t : Turn)

/-- `encodeCurrentFrame`. -/
def encodeCurrentFrame : EncodeResult :=
  if t.stopping then .skipped
  else if t.encodes = false then .threw
  else if frames ≠ 0 ∧ frames ≤ w.encodedFrames + 1 then
    if t.drains then .reachedFrameLimit else .threw
  else .encoded

/-- What an encode adds to the frames. -/
def counted (result : EncodeResult) : Nat :=
  if result = .skipped then w.encodedFrames else w.encodedFrames + 1

/-- The next deadline after a refresh. -/
def nextDeadline (refreshDeadlineUs nowAfterRefreshUs : UInt64) : UInt64 :=
  let nextIdleRefreshUs := refreshDeadlineUs + kIdleRefreshIntervalUs
  if nextIdleRefreshUs ≤ nowAfterRefreshUs then nowAfterRefreshUs + kIdleRefreshIntervalUs
  else nextIdleRefreshUs

/-- An idle refresh. -/
def idleRefresh : EncodeWorker :=
  let result := w.encodeCurrentFrame frames t
  let started :=
    if result = .skipped then w.started
    else w.started ++ [⟨w.nextIdleRefreshUs, nowMicros t.started, w.afterUs⟩]
  if result = .threw then { w with started, running := false }
  else
    let afterUs := nowMicros t.after
    let nextIdleRefreshUs := nextDeadline w.nextIdleRefreshUs afterUs
    { w with
      started, afterUs, nextIdleRefreshUs
      encodedFrames := w.counted result
      deadlines := w.deadlines ++ [⟨w.nextIdleRefreshUs, afterUs, nextIdleRefreshUs⟩]
      running := result ≠ .reachedFrameLimit }

/-- A fresh frame. -/
def freshFrame : EncodeWorker :=
  let result := w.encodeCurrentFrame frames t
  if result = .threw then { w with hasFrame := true, running := false }
  else
    let afterUs := nowMicros t.after
    { w with
      hasFrame := true
      nextIdleRefreshUs := afterUs + kIdleRefreshIntervalUs
      encodedFrames := w.counted result
      freshUs := afterUs
      afterUs
      started := []
      deadlines := []
      running := result ≠ .reachedFrameLimit }

/-- What follows `WaitFor`. -/
def received : EncodeWorker :=
  match t.item with
  | .closed => { w with running := false }
  | .timeout =>
      if frames = 0 && w.hasFrame && nowMicros t.check ≥ w.nextIdleRefreshUs then
        w.idleRefresh frames t
      else w
  | .heartbeat => { w with running := t.heartbeatSent }
  | .frame => w.freshFrame frames t

/-- The turn computes its wait, and reads the clock for the last time at its end. -/
def waited : EncodeWorker :=
  let nowUs := nowMicros t.now
  let wait := waitMs (waitUs w.hasFrame w.nextIdleRefreshUs nowUs)
  { w with
    clockUs := nowMicros t.after
    waits := w.waits ++ [⟨w.hasFrame, w.nextIdleRefreshUs, nowUs, wait⟩] }

/-- One turn of the loop. -/
def turn (frames : Nat) (w : EncodeWorker) (t : Turn) : Option EncodeWorker :=
  if w.running = false then none
  else if t.stop then some { w with running := false }
  else some ((w.waited t).received frames t)

/-- The readings never go back. -/
def Ordered (w : EncodeWorker) (t : Turn) : Prop :=
  w.clockUs ≤ nowMicros t.now ∧ nowMicros t.now ≤ nowMicros t.check ∧
    nowMicros t.check ≤ nowMicros t.started ∧ nowMicros t.started ≤ nowMicros t.after

instance (w : EncodeWorker) (t : Turn) : Decidable (Ordered w t) :=
  inferInstanceAs (Decidable (_ ∧ _))

end EncodeWorker

/-! ## No overflow -/

/-- Microseconds that fit a clock of `steady_clock`, and some more. -/
def maxMicros : Nat := 2 ^ 63 / 1000

/-- The clock in microseconds does not wrap. -/
theorem toNat_nowMicros (t : SteadyTime) : (nowMicros t).toNat = t.nanoseconds / 1000 := by
  have hlt := t.lt
  rw [nowMicros, UInt64.toNat_ofNat', Nat.mod_eq_of_lt (by omega)]

theorem nowMicros_le (t : SteadyTime) : (nowMicros t).toNat ≤ maxMicros := by
  rw [toNat_nowMicros]
  exact Nat.div_le_div_right t.lt.le

theorem toNat_kIdleRefreshIntervalUs : kIdleRefreshIntervalUs.toNat = 33333 := by decide

/-- An interval later. -/
theorem toNat_add_interval {a : UInt64} (h : a.toNat ≤ maxMicros) :
    (a + kIdleRefreshIntervalUs).toNat = a.toNat + kIdleRefreshIntervalUs.toNat := by
  rw [UInt64.toNat_add, Nat.mod_eq_of_lt]
  rw [toNat_kIdleRefreshIntervalUs]
  have hmax : maxMicros < 2 ^ 63 := by decide
  omega

/-! ## The wait -/

/-- What the wait should be: neither the difference nor the rounding is off. -/
def Wait.Exact (x : Wait) : Prop :=
  1 ≤ x.waitMs.toNat ∧ x.waitMs.toNat ≤ 1000 ∧
    x.waitMs.toNat =
      let waitUs := if x.hasFrame then x.nextIdleRefreshUs.toNat - x.nowUs.toNat else 1000000
      min 1000 (max 1 ((waitUs + 999) / 1000))

/-- The wait ends at the deadline, if there is a frame to repeat. -/
theorem toNat_waitUs {hasFrame : Bool} {nextIdleRefreshUs nowUs : UInt64} :
    (waitUs hasFrame nextIdleRefreshUs nowUs).toNat =
      if hasFrame then nextIdleRefreshUs.toNat - nowUs.toNat else 1000000 := by
  rw [waitUs]
  cases hasFrame with
  | false => rfl
  | true =>
      simp only [Bool.true_and, decide_eq_true_eq, if_true, gt_iff_lt]
      split_ifs with hlt
      · exact UInt64.toNat_sub_of_le _ _ (UInt64.le_of_lt hlt)
      · rw [UInt64.lt_iff_toNat_lt] at hlt
        rw [UInt64.toNat_zero]
        omega

theorem toNat_min (a b : UInt64) : (min a b).toNat = min a.toNat b.toNat := by
  show (if a ≤ b then a else b).toNat = _
  split_ifs with h <;> rw [UInt64.le_iff_toNat_le] at h
  · exact (Nat.min_eq_left h).symm
  · exact (Nat.min_eq_right (not_le.1 h).le).symm

theorem toNat_max (a b : UInt64) : (max a b).toNat = max a.toNat b.toNat := by
  show (if a ≤ b then b else a).toNat = _
  split_ifs with h <;> rw [UInt64.le_iff_toNat_le] at h
  · exact (Nat.max_eq_right h).symm
  · exact (Nat.max_eq_left (not_le.1 h).le).symm

/-- The wait is rounded up to milliseconds, between one and a thousand. -/
theorem toNat_waitMs {us : UInt64} (h : us.toNat ≤ 2 ^ 63) :
    (waitMs us).toNat = min 1000 (max 1 ((us.toNat + 999) / 1000)) := by
  have hround : ((us + 999) / 1000).toNat = (us.toNat + 999) / 1000 := by
    rw [UInt64.toNat_div, UInt64.toNat_add, Nat.mod_eq_of_lt]
    · rfl
    · show us.toNat + 999 < 2 ^ 64
      omega
  rw [waitMs, toNat_min, toNat_max, hround]
  rfl

/-! ## What a turn preserves -/

/-- The `i`-th refresh comes after so many intervals, when its deadline is over, and after
the encode before it. -/
structure RefreshStart.InTime (freshUs : UInt64) (i : Nat) (r : RefreshStart) : Prop where
  paced : freshUs.toNat + (i + 1) * kIdleRefreshIntervalUs.toNat ≤ r.startedUs.toNat
  due : r.deadlineUs ≤ r.startedUs
  later : r.previousUs < r.startedUs

/-- The next deadline is still to come: an interval after the last one, or, if that has been
missed, after the refresh. -/
structure NextDeadline.Skips (r : NextDeadline) : Prop where
  later : r.afterUs < r.nextUs
  value : r.nextUs.toNat =
    if r.deadlineUs.toNat + kIdleRefreshIntervalUs.toNat ≤ r.afterUs.toNat then
      r.afterUs.toNat + kIdleRefreshIntervalUs.toNat
    else r.deadlineUs.toNat + kIdleRefreshIntervalUs.toNat

/-- The next deadline is at least an interval after the last one, and no further from the clock. -/
theorem NextDeadline.Skips.bounds {r : NextDeadline} (h : r.Skips)
    (hover : r.deadlineUs ≤ r.afterUs) (hafter : r.afterUs.toNat ≤ maxMicros) :
    r.deadlineUs.toNat + kIdleRefreshIntervalUs.toNat ≤ r.nextUs.toNat ∧
      r.nextUs.toNat ≤ maxMicros + kIdleRefreshIntervalUs.toNat := by
  rw [UInt64.le_iff_toNat_le] at hover
  rw [h.value]
  generalize kIdleRefreshIntervalUs.toNat = interval
  split_ifs <;> omega

namespace EncodeWorker

/-- The next deadline leaves an interval for each refresh since the last fresh frame. -/
structure Paced (w : EncodeWorker) : Prop where
  deadline : w.running = true → w.hasFrame = true →
    w.freshUs.toNat + (w.started.length + 1) * kIdleRefreshIntervalUs.toNat ≤
      w.nextIdleRefreshUs.toNat ∧ w.afterUs < w.nextIdleRefreshUs
  bound : w.nextIdleRefreshUs.toNat ≤ maxMicros + kIdleRefreshIntervalUs.toNat
  started : ∀ (i : Nat) (r : RefreshStart), w.started[i]? = some r → r.InTime w.freshUs i
  deadlines : ∀ r ∈ w.deadlines, r.Skips
  waits : ∀ x ∈ w.waits, x.Exact

variable {frames : Nat} {w w' : EncodeWorker} {t : Turn}

theorem Paced.initial : Paced {} where
  deadline _ h := by cases h
  bound := Nat.zero_le _
  started i r h := by cases h
  deadlines _ h := by cases h
  waits _ h := by cases h

/-- The loop may end. -/
theorem Paced.ended (h : Paced w) (hrunning : w.running = true) (running : Bool) :
    Paced { w with running } :=
  ⟨fun _ hframe ↦ h.deadline hrunning hframe, h.bound, h.started, h.deadlines, h.waits⟩

/-- A wait changes no deadline. -/
theorem Paced.waited (h : Paced w) (t : Turn) : Paced (w.waited t) := by
  refine ⟨h.deadline, h.bound, h.started, h.deadlines, fun x hx ↦ ?_⟩
  rcases List.mem_append.1 hx with hx | hx
  · exact h.waits x hx
  · obtain rfl := List.mem_singleton.1 hx
    have hbound := h.bound
    have hus := @toNat_waitUs w.hasFrame w.nextIdleRefreshUs (nowMicros t.now)
    have hmax : maxMicros + kIdleRefreshIntervalUs.toNat ≤ 2 ^ 63 := by decide
    have hle : (waitUs w.hasFrame w.nextIdleRefreshUs (nowMicros t.now)).toNat ≤ 2 ^ 63 := by
      rw [hus]
      split_ifs <;> omega
    have hvalue := toNat_waitMs hle
    refine ⟨?_, ?_, hus ▸ hvalue⟩
    · exact (le_min (by decide) (le_max_left _ _)).trans_eq hvalue.symm
    · exact hvalue.trans_le (min_le_left _ _)

/-- The next deadline is one interval after this one, or after the reading if that has passed. -/
theorem nextDeadline_skips {deadlineUs afterUs : UInt64} (hdeadline : deadlineUs ≤ afterUs)
    (hafter : afterUs.toNat ≤ maxMicros) :
    NextDeadline.Skips ⟨deadlineUs, afterUs, nextDeadline deadlineUs afterUs⟩ := by
  rw [UInt64.le_iff_toNat_le] at hdeadline
  have hpos : 0 < kIdleRefreshIntervalUs.toNat := by decide
  have hvalue : (nextDeadline deadlineUs afterUs).toNat =
      if deadlineUs.toNat + kIdleRefreshIntervalUs.toNat ≤ afterUs.toNat then
        afterUs.toNat + kIdleRefreshIntervalUs.toNat
      else deadlineUs.toNat + kIdleRefreshIntervalUs.toNat := by
    simp only [nextDeadline, UInt64.le_iff_toNat_le, toNat_add_interval (hdeadline.trans hafter)]
    split_ifs
    · exact toNat_add_interval hafter
    · exact toNat_add_interval (hdeadline.trans hafter)
  constructor
  · rw [UInt64.lt_iff_toNat_lt]
    dsimp only
    rw [hvalue]
    generalize kIdleRefreshIntervalUs.toNat = interval at hpos ⊢
    split_ifs <;> omega
  · dsimp only
    exact hvalue

/-- A refresh moves the deadline on. -/
theorem Paced.idleRefresh (h : Paced w) (hrunning : w.running = true) (hframe : w.hasFrame = true)
    (hcheck : w.nextIdleRefreshUs ≤ nowMicros t.check)
    (hstarted : nowMicros t.check ≤ nowMicros t.started)
    (hafter : nowMicros t.started ≤ nowMicros t.after) : Paced (w.idleRefresh frames t) := by
  obtain ⟨hdeadline, hprevious⟩ := h.deadline hrunning hframe
  have hdue : w.nextIdleRefreshUs ≤ nowMicros t.started := UInt64.le_trans hcheck hstarted
  have hover := UInt64.le_trans hdue hafter
  have hmax := nowMicros_le t.after
  have hskips := nextDeadline_skips hover hmax
  obtain ⟨hinterval, hbound⟩ := hskips.bounds hover hmax
  -- Whether or not it is skipped, the deadlines so far leave room for the refresh.
  have hrefresh : ∀ started : List RefreshStart, (started = w.started ∨ started =
        w.started ++ [⟨w.nextIdleRefreshUs, nowMicros t.started, w.afterUs⟩]) →
      started.length ≤ w.started.length + 1 ∧
        ∀ (i : Nat) (r : RefreshStart), started[i]? = some r → r.InTime w.freshUs i := by
    rintro started (rfl | rfl)
    · exact ⟨Nat.le_succ _, h.started⟩
    · refine ⟨by simp, fun i r hr ↦ ?_⟩
      rcases Nat.lt_or_ge i w.started.length with hlt | hge
      · rw [List.getElem?_append_left hlt] at hr
        exact h.started i r hr
      · obtain ⟨rfl, rfl⟩ : i = w.started.length ∧
            r = ⟨w.nextIdleRefreshUs, nowMicros t.started, w.afterUs⟩ := by
          rw [List.getElem?_append_right hge, List.getElem?_singleton] at hr
          split_ifs at hr with hzero
          exact ⟨by omega, (Option.some.inj hr).symm⟩
        refine ⟨hdeadline.trans ?_, hdue, UInt64.lt_of_lt_of_le hprevious hdue⟩
        exact UInt64.le_iff_toNat_le.1 hdue
  unfold EncodeWorker.idleRefresh
  dsimp only
  have hstarts := hrefresh _ (ite_eq_or_eq (w.encodeCurrentFrame frames t = .skipped) w.started
    (w.started ++ [⟨w.nextIdleRefreshUs, nowMicros t.started, w.afterUs⟩]))
  by_cases hthrew : w.encodeCurrentFrame frames t = .threw
  · rw [if_pos hthrew]
    exact ⟨fun hfalse ↦ (by cases hfalse), h.bound, hstarts.2, h.deadlines, h.waits⟩
  · rw [if_neg hthrew]
    refine ⟨fun _ _ ↦ ⟨?_, hskips.later⟩, hbound, hstarts.2, fun r hr ↦ ?_, h.waits⟩
    · calc
        _ ≤ w.freshUs.toNat + (w.started.length + 1 + 1) * kIdleRefreshIntervalUs.toNat :=
          Nat.add_le_add_left (Nat.mul_le_mul_right _ (Nat.succ_le_succ hstarts.1)) _
        _ = w.freshUs.toNat + (w.started.length + 1) * kIdleRefreshIntervalUs.toNat +
            kIdleRefreshIntervalUs.toNat := by rw [Nat.succ_mul, Nat.add_assoc]
        _ ≤ w.nextIdleRefreshUs.toNat + kIdleRefreshIntervalUs.toNat :=
          Nat.add_le_add_right hdeadline _
        _ ≤ _ := hinterval
    · rcases List.mem_append.1 hr with hr | hr
      · exact h.deadlines r hr
      · rw [List.mem_singleton.1 hr]
        exact hskips

/-- A fresh frame sets the deadline anew. -/
theorem Paced.freshFrame (h : Paced w) : Paced (w.freshFrame frames t) := by
  unfold EncodeWorker.freshFrame
  dsimp only
  split_ifs with hthrew
  · exact ⟨fun hrunning ↦ (by cases hrunning), h.bound, h.started, h.deadlines, h.waits⟩
  · have hafter := nowMicros_le t.after
    have hnext := toNat_add_interval hafter
    refine ⟨fun _ _ ↦ ⟨?_, ?_⟩, ?_, fun i r hr ↦ ?_, fun r hr ↦ ?_, h.waits⟩
    · rw [hnext]
      simp
    · rw [UInt64.lt_iff_toNat_lt, hnext]
      exact Nat.lt_add_of_pos_right (by decide)
    · rw [hnext]
      exact Nat.add_le_add_right hafter _
    · cases hr
    · cases hr

/-- Each turn of the worker keeps the pace. -/
theorem Paced.turn (h : Paced w) (hordered : w.Ordered t) (hturn : w.turn frames t = some w') :
    Paced w' := by
  obtain ⟨-, -, hstarted, hafter⟩ := hordered
  unfold EncodeWorker.turn at hturn
  split_ifs at hturn with hended hstop <;> cases hturn
  all_goals have hrunning : w.running = true := by simpa using hended
  · exact h.ended hrunning false
  · have hw := h.waited t
    unfold received
    split
    · exact hw.ended hrunning false
    · split_ifs with hdue
      · simp only [Bool.and_eq_true, decide_eq_true_eq] at hdue
        exact hw.idleRefresh hrunning hdue.1.2 hdue.2 hstarted hafter
      · exact hw
    · exact hw.ended hrunning t.heartbeatSent
    · exact hw.freshFrame

/-! ## The result -/

/-- **Idle refreshes never burst.**  The `k`-th refresh after a fresh frame starts no earlier than
`k` intervals after it; a deadline that has been missed is skipped, so that the next one is still
to come; and each wait lasts what is left until the deadline, between 1 and 1000 milliseconds. -/
theorem idleRefresh_paced (h : ReflTransGen (Moves (EncodeWorker.turn frames) Ordered) {} w) :
    (∀ (i : Nat) (r : RefreshStart), w.started[i]? = some r → r.InTime w.freshUs i) ∧
    (∀ r ∈ w.deadlines, r.Skips) ∧ ∀ x ∈ w.waits, x.Exact := by
  have hpaced : Paced w :=
    run_preserves (fun h ⟨_, hordered, hturn⟩ ↦ h.turn hordered hturn) .initial h
  exact ⟨hpaced.started, hpaced.deadlines, hpaced.waits⟩

/-- A time within the first seconds. -/
def early (us : Fin 10000000) : SteadyTime where
  nanoseconds := us * 1000
  lt := by omega

/-- A fresh frame, a refresh during which the encoder stalls for more than two intervals, a
heartbeat, and the next refresh. -/
def stalled : List Turn :=
  let turn (item : LatestFrameQueue.Item) (now check after : Fin 10000000) : Turn :=
    { now := early now, item, check := early check, started := early check, after := early after }
  [turn .frame 1000 2000 5000, turn .timeout 5000 38333 110000,
    turn .heartbeat 110000 120000 120000,
   turn .timeout 120000 143333 145000]

theorem idleRefresh_paced_stalled : ∃ w : EncodeWorker, ∃ r ∈ w.started[1]?,
    w.freshUs = 5000 ∧ r.deadlineUs = 143333 ∧ 71666 ≤ r.startedUs.toNat := by
  obtain ⟨w, hrun, hfresh, r, hr, hdeadline⟩ : ∃ w : EncodeWorker,
      ReflTransGen (Moves (EncodeWorker.turn 0) Ordered) {} w ∧ w.freshUs = 5000 ∧
        ∃ r ∈ w.started[1]?, r.deadlineUs = 143333 := exists_run stalled (by decide +kernel)
  have hpaced := ((idleRefresh_paced hrun).1 1 r hr).paced
  rw [hfresh] at hpaced
  exact ⟨w, r, hr, hfresh, hdeadline, hpaced⟩

end EncodeWorker

end SecondScreen.Host
