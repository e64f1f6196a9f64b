import SecondScreen.Host.ServingEnd

/-!
# The limit of frames

The worker counts the frames of a session, and `main` ends when a session has come to the limit
of the command line; a session that ends before leaves nothing behind for the next one.
-/

namespace SecondScreen.Host.Serving

open SecondScreen.Conc SecondScreen.Json SecondScreen.Machine Relation

/-- The state of the session is new. -/
def MainPoint.isFresh : MainPoint → Bool
  | .publishingFirst _ | .startCursor | .startWorker => true
  | _ => false

/-- `main` has left the loop. -/
def MainPoint.hasLeft : MainPoint → Bool
  | .closing .session _ => false
  | .closing _ _ | .ended => true
  | _ => false

namespace Process

/-- How `main` may leave the loop without an error. -/
def Done (s : Process) : Prop :=
  s.stop = true ∨ s.frames ≠ 0 ∧ s.main.encodedFrames = s.frames

/-- The worker may count one frame more. -/
def Within (s : Process) : Prop := s.frames ≠ 0 → s.state.encodedFrames < s.frames

def AtLimit (s : Process) : Prop := s.frames ≠ 0 ∧ s.state.encodedFrames = s.frames

/-- The assertion about the worker. -/
def WorkerOk (s : Process) : WorkerPoint → Prop
  | .coInitialize | .initializeEncoder | .head | .waiting | .heartbeat | .timeout | .replacing
  | .encodeStop | .encodeCapture | .encoding | .counting =>
      s.worker.reachedFrameLimit = false ∧ s.Within
  | .draining | .flushing => s.worker.reachedFrameLimit = false ∧ s.AtLimit
  | .stopCapture | .aborting => s.worker.reachedFrameLimit = true ∧ s.AtLimit
  | .encoded => s.worker.reachedFrameLimit = true ∧ s.AtLimit ∨
      s.worker.reachedFrameLimit = false ∧ s.Within
  | .leaving | .ended | .absent => s.worker.reachedFrameLimit = true → s.AtLimit
  | .caught | .caughtCapture | .caughtAbort | .caughtShutdown =>
      s.worker.reachedFrameLimit = false

/-- No counter is above the limit, and `main` leaves the loop without an error only when it is
done. -/
structure Limited (s : Process) : Prop where
  main : s.frames ≠ 0 → s.main.encodedFrames ≤ s.frames
  state : s.frames ≠ 0 → s.state.encodedFrames ≤ s.frames
  fresh : s.main.point.isFresh = true →
    s.state.encodedFrames = 0 ∧ s.worker.reachedFrameLimit = false
  worker : s.WorkerOk s.worker.point
  done : s.main.point.hasLeft = true → s.main.exitCode = 0 → s.Done

variable {s t : Process}

/-- The test of the source, in which zero stands for no limit. -/
theorem frameLimit_iff {n : Nat} : s.frameLimit n = true ↔ s.frames ≠ 0 ∧ s.frames ≤ n := by
  simp [frameLimit]

/-- The assertion speaks of the worker and the counter only. -/
theorem WorkerOk.same (h : s.WorkerOk s.worker.point) (hworker : t.worker = s.worker)
    (hstate : t.state.encodedFrames = s.state.encodedFrames) (hframes : t.frames = s.frames) :
    t.WorkerOk t.worker.point := by
  unfold WorkerOk Within AtLimit at h ⊢
  rw [hworker, hstate, hframes]
  exact h

/-! ## `main` -/

/-- `main` goes on by itself, and the counters stay. -/
theorem Limited.turn (h : s.Limited) {p : MainPoint} (q : MainPoint) (hp : s.main.point = p)
    (hq : t.main.point = q) (hfresh : (!q.isFresh || p.isFresh) = true)
    (hleft : (!q.hasLeft || p.hasLeft) = true)
    (hsame : (t.frames, t.stop, t.state.encodedFrames, t.worker, t.main.encodedFrames,
        t.main.exitCode) =
      (s.frames, s.stop, s.state.encodedFrames, s.worker, s.main.encodedFrames,
        s.main.exitCode)) : t.Limited := by
  simp only [Prod.mk.injEq] at hsame
  obtain ⟨hframes, hstop, hstate, hworker, hmain, hexit⟩ := hsame
  subst hp hq
  refine ⟨?_, ?_, fun hnew ↦ ?_, ?_, fun hhas hzero ↦ ?_⟩
  · rw [hframes, hmain]
    exact h.main
  · rw [hframes, hstate]
    exact h.state
  · rw [hstate, hworker]
    exact h.fresh (imp_of_or hfresh hnew)
  · exact h.worker.same hworker hstate hframes
  · rw [Done, hframes, hstop, hmain]
    exact h.done (imp_of_or hleft hhas) (hexit ▸ hzero)

/-- `main` goes on and does nothing else. -/
theorem Limited.mainAt (h : s.Limited) {p q : MainPoint} (hp : s.main.point = p)
    (hfresh : (!q.isFresh || p.isFresh) = true) (hleft : (!q.hasLeft || p.hasLeft) = true) :
    (s.mainAt q).Limited :=
  h.turn q hp rfl hfresh hleft rfl

/-- The handshake counts nothing. -/
theorem Limited.receive (h : s.Limited) {line : Text} (hp : s.main.point = .receiving line)
    (hstep : s.receive line = some t) : t.Limited := by
  unfold Process.receive at hstep
  split at hstep
  · cases hstep
    exact h.mainAt hp rfl rfl
  · split at hstep
    · split_ifs at hstep
      cases hstep
      exact h.mainAt hp rfl rfl
    · split at hstep
      · cases hstep
        unfold Process.handshake
        split
        · exact h.turn (.waiting true .head) hp rfl rfl rfl rfl
        · exact h.turn (.closing .session .exchange) hp rfl rfl rfl rfl
      · next line' _ =>
        split_ifs at hstep
        · cases hstep
          exact h.turn (.receiving line') hp rfl rfl rfl rfl
        · cases hstep
          exact h.turn (.closing .session .exchange) hp rfl rfl rfl rfl

/-- Giving up the wait for a frame counts nothing. -/
theorem Limited.stopWaiting (h : s.Limited) {first : Bool} {p : WaitPoint}
    (hp : s.main.point = .waiting first p) : (s.stopWaiting first).Limited := by
  cases first with
  | true => exact h.mainAt hp rfl rfl
  | false => exact h.mainAt hp rfl rfl

/-- Nor does the wait itself. -/
theorem Limited.waitForFrame (h : s.Limited) {first : Bool} {p : WaitPoint} {a : Answer}
    (hp : s.main.point = .waiting first p) : (s.waitForFrame first a p).Limited := by
  cases p with
  | head =>
      rw [Process.waitForFrame]
      split_ifs
      · exact h.stopWaiting hp
      · exact h.mainAt hp rfl rfl
      · exact h.mainAt hp rfl rfl
  | externalStop =>
      rw [Process.waitForFrame]
      split_ifs
      · exact h.stopWaiting hp
      · exact h.mainAt hp rfl rfl
  | connected =>
      rw [Process.waitForFrame]
      split_ifs
      · exact h.mainAt hp rfl rfl
      · exact h.stopWaiting hp
  | reading =>
      cases a with
      | frame frame => cases first <;> exact h.mainAt hp rfl rfl
      | failed => exact h.stopWaiting hp
      | _ => exact h.mainAt hp rfl rfl
  | event =>
      cases a with
      | failed => exact h.stopWaiting hp
      | _ => exact h.mainAt hp rfl rfl
  | clock =>
      cases a with
      | elapsed => cases first <;> exact h.mainAt hp rfl rfl
      | _ => exact h.mainAt hp rfl rfl

/-- A call before the loop succeeds, or it throws. -/
theorem Limited.prepare (h : s.Limited) {p q : MainPoint} {a : Answer} (hp : s.main.point = p)
    (hfresh : (!q.isFresh || p.isFresh) = true) (hleft : (!q.hasLeft || p.hasLeft) = true) :
    (s.prepare q a).Limited := by
  cases a with
  | failed => exact h.mainAt hp rfl rfl
  | _ => exact h.mainAt hp hfresh hleft

/-- `CloseSocket` leaves the counters alone. -/
theorem closeSocket_counters {slot : Slot} {c : CloseSocket} {r : Option CloseSocket}
    (hstep : s.closeSocket slot c = (t, r)) :
    (t.frames, t.stop, t.state.encodedFrames, t.worker, t.main.encodedFrames, t.main.exitCode) =
      (s.frames, s.stop, s.state.encodedFrames, s.worker, s.main.encodedFrames,
        s.main.exitCode) := by
  cases c with
  | exchange =>
      rw [Process.closeSocket] at hstep
      split at hstep
      · cases hstep
        rfl
      · cases hstep
        cases slot <;> rfl
  | shutdown handle =>
      cases hstep
      rfl
  | closesocket handle =>
      cases hstep
      rfl

/-- `main` keeps the invariant: it clears the counter before the worker starts and copies it when
the worker has ended. -/
theorem Limited.mainStep (h : s.Limited) {a : Answer}
    (hstep : s.mainStep a s.main.point = some t) : t.Limited := by
  cases hp : s.main.point with
  | create =>
      rw [hp] at hstep
      cases a with
      | socket handle =>
          simp only [Process.mainStep] at hstep
          split_ifs at hstep
          cases hstep
          exact h.turn .storeListener hp rfl rfl rfl rfl
      | failed =>
          cases hstep
          exact h.mainAt hp rfl rfl
      | _ => cases hstep
  | storeListener =>
      rw [hp] at hstep
      cases hstep
      exact h.turn .bind hp rfl rfl rfl rfl
  | bind =>
      rw [hp] at hstep
      cases hstep
      exact h.prepare hp rfl rfl
  | listen =>
      rw [hp] at hstep
      cases hstep
      exact h.prepare hp rfl rfl
  | enablePrivilege =>
      rw [hp] at hstep
      cases hstep
      exact h.prepare hp rfl rfl
  | openRing =>
      rw [hp] at hstep
      cases hstep
      exact h.prepare hp rfl rfl
  | head =>
      rw [hp, Process.mainStep] at hstep
      split_ifs at hstep with hcond
      · cases hstep
        refine ⟨h.main, h.state, by rintro ⟨⟩, h.worker, fun _ _ ↦ ?_⟩
        rcases Bool.or_eq_true_iff.1 hcond with hstop | hlimit
        · exact .inl hstop
        · obtain ⟨hframes, hle⟩ := frameLimit_iff.1 hlimit
          exact .inr ⟨hframes, le_antisymm (h.main hframes) hle⟩
      · cases hstep
        exact h.mainAt hp rfl rfl
  | accepting =>
      rw [hp] at hstep
      obtain ⟨listener, -, hstep⟩ := Option.bind_eq_some_iff.1 hstep
      unfold Process.accept at hstep
      split at hstep
      · cases hstep
        exact h.mainAt hp rfl rfl
      · split at hstep
        · split_ifs at hstep
          cases hstep
          exact h.turn .storeClient hp rfl rfl rfl rfl
        · cases hstep
  | acceptFailed =>
      rw [hp] at hstep
      cases hstep
      refine ⟨h.main, h.state, by rintro ⟨⟩, h.worker,
        fun _ hzero ↦ ?_⟩
      dsimp only at hzero
      split_ifs at hzero with hstop
      exact .inl hstop
  | storeClient =>
      rw [hp] at hstep
      cases hstep
      exact h.turn .configure hp rfl rfl rfl rfl
  | configure =>
      rw [hp] at hstep
      cases a with
      | failed =>
          cases hstep
          exact h.mainAt hp rfl rfl
      | _ =>
          simp only [Process.mainStep] at hstep
          split_ifs at hstep
          cases hstep
          exact h.mainAt hp rfl rfl
  | receiving line =>
      rw [hp] at hstep
      exact h.receive hp hstep
  | waiting first point =>
      rw [hp] at hstep
      cases hstep
      exact h.waitForFrame hp
  | responding frame =>
      rw [hp] at hstep
      cases a with
      | failed =>
          cases hstep
          exact h.mainAt hp rfl rfl
      | _ =>
          cases hstep
          exact ⟨h.main, fun _ ↦ Nat.zero_le _, fun _ ↦ ⟨rfl, rfl⟩, by rintro ⟨⟩, by rintro ⟨⟩⟩
  | publishingFirst frame =>
      rw [hp] at hstep
      simp only [Process.mainStep] at hstep
      split at hstep
      · cases hstep
        exact h.turn .startCursor hp rfl rfl rfl rfl
      · cases hstep
        exact h.mainAt hp rfl rfl
  | startCursor =>
      rw [hp] at hstep
      cases hstep
      exact h.turn .startWorker hp rfl rfl rfl rfl
  | startWorker =>
      rw [hp] at hstep
      cases hstep
      obtain ⟨hzero, hlimit⟩ := h.fresh (by rw [hp]; rfl)
      refine ⟨h.main, h.state, by rintro ⟨⟩, ⟨hlimit, fun hframes ↦ ?_⟩, by rintro ⟨⟩⟩
      show s.state.encodedFrames < s.frames
      rw [hzero]
      exact Nat.pos_of_ne_zero hframes
  | loopStop =>
      rw [hp] at hstep
      cases hstep
      refine h.mainAt hp ?_ ?_ <;> split_ifs <;> rfl
  | loopCapture =>
      rw [hp] at hstep
      cases hstep
      refine h.mainAt hp ?_ ?_ <;> split_ifs <;> rfl
  | loopFrames =>
      rw [hp] at hstep
      cases hstep
      refine h.mainAt hp ?_ ?_ <;> split_ifs <;> rfl
  | publishing frame =>
      rw [hp] at hstep
      cases hstep
      refine h.turn _ hp rfl ?_ ?_ rfl
      · dsimp only [Process.mainAt]
        split_ifs <;> rfl
      · dsimp only [Process.mainAt]
        split_ifs <;> rfl
  | publishingHeartbeat =>
      rw [hp] at hstep
      cases hstep
      refine h.turn _ hp rfl ?_ ?_ rfl
      · dsimp only [Process.mainAt]
        split_ifs <;> rfl
      · dsimp only [Process.mainAt]
        split_ifs <;> rfl
  | closeQueue =>
      rw [hp] at hstep
      cases hstep
      exact h.turn .joinWorker hp rfl rfl rfl rfl
  | joinWorker =>
      rw [hp] at hstep
      simp only [Process.mainStep] at hstep
      split_ifs at hstep
      cases hstep
      exact h.mainAt hp rfl rfl
  | stopCursor =>
      rw [hp] at hstep
      cases hstep
      exact h.turn .joinCursor hp rfl rfl rfl rfl
  | joinCursor =>
      rw [hp] at hstep
      simp only [Process.mainStep] at hstep
      split_ifs at hstep
      cases hstep
      exact h.mainAt hp rfl rfl
  | storeEncoded =>
      rw [hp] at hstep
      cases hstep
      exact ⟨h.state, h.state, by rintro ⟨⟩, h.worker, by rintro ⟨⟩⟩
  | caught =>
      rw [hp] at hstep
      cases hstep
      exact ⟨h.main, h.state, by rintro ⟨⟩, h.worker, by rintro - ⟨⟩⟩
  | closing site c =>
      rw [hp] at hstep
      simp only [Process.mainStep] at hstep
      split at hstep
      · next t' c' heq =>
          cases hstep
          have hsame := closeSocket_counters heq
          exact h.turn (.closing site c') hp rfl rfl (by cases site <;> rfl) hsame
      · next t' heq =>
          cases hstep
          have hsame := closeSocket_counters heq
          exact h.turn (CloseSite.next site) hp rfl (by cases site <;> rfl)
            (by cases site <;> rfl) hsame
  | ended =>
      rw [hp] at hstep
      cases hstep

/-! ## The worker -/

/-- A step of the worker that does not count. -/
theorem Limited.workerGoes (h : s.Limited) (hfresh : s.main.point.isFresh = false)
    (hok : t.WorkerOk t.worker.point)
    (hsame : (t.frames, t.stop, t.state.encodedFrames, t.main) =
      (s.frames, s.stop, s.state.encodedFrames, s.main)) : t.Limited := by
  simp only [Prod.mk.injEq] at hsame
  obtain ⟨hframes, hstop, hstate, hmain⟩ := hsame
  refine ⟨?_, ?_, fun hnew ↦ ?_, hok, ?_⟩
  · rw [hframes, hmain]
    exact h.main
  · rw [hframes, hstate]
    exact h.state
  · rw [hmain, hfresh] at hnew
    cases hnew
  · rw [Done, hframes, hstop, hmain]
    exact h.done

/-- A call of the worker returns, or it throws. -/
theorem Limited.attempt (h : s.Limited) (hfresh : s.main.point.isFresh = false)
    {q : WorkerPoint} {a : Answer} (hcaught : s.WorkerOk .caught) (hok : s.WorkerOk q) :
    (s.attempt q a).Limited := by
  cases a with
  | failed => exact h.workerGoes hfresh hcaught rfl
  | _ => exact h.workerGoes hfresh hok rfl

/-- Once the worker runs, the state of the session may have been used. -/
theorem isFresh_of_hasWorker {p : MainPoint} (h : p.hasWorker = true) : p.isFresh = false := by
  cases p with
  | waiting first q => rfl
  | _ => first | rfl | cases h

/-- The worker keeps the invariant: it counts one frame, and looks at the limit at once. -/
theorem Limited.workerStep (h : s.Limited) (hheld : s.Held) {a : Answer}
    (hstep : s.workerStep a s.worker.point = some t) : t.Limited := by
  have hfresh := isFresh_of_hasWorker (hheld.worker (workerStep_beside hstep).2.2)
  have hok := h.worker
  cases hp : s.worker.point with
  | absent =>
      rw [hp] at hstep
      cases hstep
  | ended =>
      rw [hp] at hstep
      cases hstep
  | coInitialize =>
      rw [hp] at hstep hok
      cases hstep
      exact h.attempt hfresh hok.1 hok
  | initializeEncoder =>
      rw [hp] at hstep hok
      cases hstep
      exact h.attempt hfresh hok.1 hok
  | heartbeat =>
      rw [hp] at hstep hok
      cases hstep
      exact h.attempt hfresh hok.1 hok
  | encoding =>
      rw [hp] at hstep hok
      cases hstep
      exact h.attempt hfresh hok.1 hok
  | draining =>
      rw [hp] at hstep hok
      cases hstep
      exact h.attempt hfresh hok.1 hok
  | head =>
      rw [hp] at hstep hok
      rw [Process.workerStep] at hstep
      split_ifs at hstep
      · cases hstep
        refine h.workerGoes hfresh (fun hreached ↦ ?_) rfl
        exact absurd (hok.1.symm.trans hreached) Bool.false_ne_true
      · cases hstep
        exact h.workerGoes hfresh hok rfl
  | waiting =>
      rw [hp] at hstep hok
      simp only [Process.workerStep, Option.some.injEq] at hstep
      subst hstep
      refine h.workerGoes hfresh ?_ rfl
      dsimp only
      split
      · exact hok
      · exact hok
      · exact hok
      · exact fun hreached ↦ absurd (hok.1.symm.trans hreached) Bool.false_ne_true
  | timeout =>
      rw [hp] at hstep hok
      cases a with
      | elapsed =>
          rw [Process.workerStep] at hstep
          split_ifs at hstep
          · cases hstep
            exact h.workerGoes hfresh hok rfl
          · cases hstep
            exact h.workerGoes hfresh (.inr hok) rfl
      | _ =>
          cases hstep
          exact h.workerGoes hfresh (.inr hok) rfl
  | replacing =>
      rw [hp] at hstep hok
      rw [Process.workerStep] at hstep
      split at hstep
      · cases hstep
        refine h.workerGoes hfresh ?_ rfl
        rw [hp]
        exact hok
      · cases hstep
        exact h.workerGoes hfresh hok rfl
  | encodeStop =>
      rw [hp] at hstep hok
      rw [Process.workerStep] at hstep
      split_ifs at hstep
      · cases hstep
        exact h.workerGoes hfresh (.inr hok) rfl
      · cases hstep
        exact h.workerGoes hfresh hok rfl
  | encodeCapture =>
      rw [hp] at hstep hok
      rw [Process.workerStep] at hstep
      split_ifs at hstep
      · cases hstep
        exact h.workerGoes hfresh (.inr hok) rfl
      · cases hstep
        exact h.workerGoes hfresh hok rfl
  | counting =>
      rw [hp] at hstep hok
      obtain ⟨hreached, hwithin⟩ := hok
      rw [Process.workerStep] at hstep
      split_ifs at hstep with hlimit
      · cases hstep
        obtain ⟨hframes, hle⟩ := frameLimit_iff.1 hlimit
        have hlt := hwithin hframes
        exact ⟨h.main, fun _ ↦ hlt, fun hnew ↦ absurd (hfresh.symm.trans hnew) Bool.false_ne_true,
          ⟨hreached, hframes, le_antisymm hlt hle⟩, h.done⟩
      · cases hstep
        refine ⟨h.main, hwithin, fun hnew ↦ absurd (hfresh.symm.trans hnew) Bool.false_ne_true,
          .inr ⟨hreached, fun hframes ↦ ?_⟩, h.done⟩
        exact not_le.1 fun hle ↦ hlimit (frameLimit_iff.2 ⟨hframes, hle⟩)
  | flushing =>
      rw [hp] at hstep hok
      cases a with
      | failed =>
          cases hstep
          exact h.workerGoes hfresh hok.1 rfl
      | _ =>
          cases hstep
          exact h.workerGoes hfresh ⟨rfl, hok.2⟩ rfl
  | stopCapture =>
      rw [hp] at hstep hok
      cases hstep
      exact h.workerGoes hfresh hok rfl
  | aborting =>
      rw [hp] at hstep hok
      cases hstep
      exact h.workerGoes hfresh (.inl hok) rfl
  | encoded =>
      rw [hp] at hstep hok
      rw [Process.workerStep] at hstep
      split_ifs at hstep with hreached
      · cases hstep
        refine h.workerGoes hfresh (fun _ ↦ ?_) rfl
        exact (hok.resolve_right fun hno ↦ Bool.false_ne_true (hno.1.symm.trans hreached)).2
      · cases hstep
        exact h.workerGoes hfresh (hok.resolve_left fun hyes ↦ hreached hyes.1) rfl
  | leaving =>
      rw [hp] at hstep hok
      rw [Process.workerStep] at hstep
      split_ifs at hstep with hreached
      · cases hstep
        exact h.workerGoes hfresh hok rfl
      · cases hstep
        exact h.attempt hfresh (Bool.eq_false_iff.2 hreached) hok
  | caught =>
      rw [hp] at hstep hok
      cases hstep
      exact h.workerGoes hfresh hok rfl
  | caughtCapture =>
      rw [hp] at hstep hok
      cases hstep
      exact h.workerGoes hfresh hok rfl
  | caughtAbort =>
      rw [hp] at hstep hok
      cases hstep
      exact h.workerGoes hfresh hok rfl
  | caughtShutdown =>
      rw [hp] at hstep hok
      cases hstep
      refine h.workerGoes hfresh (fun hreached ↦ ?_) rfl
      exact absurd (hok.symm.trans hreached) Bool.false_ne_true

/-! ## Runs -/

/-- A step that leaves the counters alone; `g_stop` may be set. -/
theorem Limited.other (h : s.Limited) (hstop : s.stop = true → t.stop = true)
    (hsame : (t.frames, t.state.encodedFrames, t.worker, t.main) =
      (s.frames, s.state.encodedFrames, s.worker, s.main)) : t.Limited := by
  simp only [Prod.mk.injEq] at hsame
  obtain ⟨hframes, hstate, hworker, hmain⟩ := hsame
  refine ⟨?_, ?_, ?_, h.worker.same hworker hstate hframes, fun hhas hzero ↦ ?_⟩
  · rw [hframes, hmain]
    exact h.main
  · rw [hframes, hstate]
    exact h.state
  · rw [hmain, hstate, hworker]
    exact h.fresh
  · rw [hmain] at hhas hzero
    rw [Done, hframes, hmain]
    exact (h.done hhas hzero).imp_left hstop

/-- The cursor thread counts nothing. -/
theorem cursorStep_counters {a : Answer} {p : CursorPoint} (hstep : s.cursorStep a p = some t) :
    (t.frames, t.state.encodedFrames, t.worker, t.main) =
      (s.frames, s.state.encodedFrames, s.worker, s.main) := by
  cases p with
  | absent => cases hstep
  | ended => cases hstep
  | _ =>
      cases a with
      | _ =>
          cases hstep
          rfl

/-- `ConsoleControlHandler` counts nothing. -/
theorem handlerStep_counters {i : Nat} {p : HandlerPoint} (hstep : s.handlerStep i p = some t) :
    (t.frames, t.state.encodedFrames, t.worker, t.main) =
      (s.frames, s.state.encodedFrames, s.worker, s.main) := by
  rcases handlerStep_cases hstep with ⟨rfl, rfl⟩ | ⟨slot, c, u, r, rfl, hclose, rfl⟩
  · rfl
  · obtain ⟨hsame, -⟩ := closeSocket_less hclose
    have hframes := closeSocket_counters hclose
    simp only [Prod.mk.injEq] at hsame hframes ⊢
    exact ⟨hframes.1, hframes.2.2.1, hsame.2.1, hsame.1⟩

/-- A step of any thread keeps the invariant. -/
theorem Limited.next (h : s.Limited) (hheld : s.Held) {e : Event} (hstep : s.next e = some t) :
    t.Limited := by
  cases e with
  | main a => exact h.mainStep hstep
  | worker a => exact h.workerStep hheld hstep
  | cursor a =>
      exact h.other (fun hstop ↦ (cursorStep_present hstep).1.trans hstop)
        (cursorStep_counters hstep)
  | handler i =>
      have hstop (hstop : s.stop = true) : t.stop = true := stop_next hstop hstep
      obtain ⟨p, -, hstep⟩ := Option.bind_eq_some_iff.1 hstep
      exact h.other hstop (handlerStep_counters hstep)
  | control =>
      cases hstep
      exact h.other id rfl
  | connect i =>
      cases hstep
      exact h.other id rfl
  | arrive i chunk =>
      cases hstep
      exact h.other id rfl
  | hangUp i =>
      cases hstep
      exact h.other id rfl
  | fail i =>
      cases hstep
      exact h.other id rfl

theorem Limited.new (frames : Nat) : (Process.new frames).Limited where
  main _ := Nat.zero_le _
  state _ := Nat.zero_le _
  fresh := nofun
  worker := nofun
  done := nofun

/-- It holds in every run. -/
theorem Limited.run {frames : Nat} (h : Run (Process.new frames) s) : s.Limited :=
  (run_preserves (I := fun s ↦ s.Held ∧ s.Limited)
    (fun h ⟨_, _, hnext⟩ ↦ ⟨h.1.next hnext, h.2.next h.1 hnext⟩) ⟨.new frames, .new frames⟩ h).2

/-- The limit stays what the command line says. -/
theorem workerStep_frames {a : Answer} {p : WorkerPoint} (hstep : s.workerStep a p = some t) :
    t.frames = s.frames := by
  cases p with
  | absent => cases hstep
  | ended => cases hstep
  | replacing =>
      rw [Process.workerStep] at hstep
      split at hstep <;> cases hstep <;> rfl
  | leaving =>
      rw [Process.workerStep] at hstep
      split_ifs at hstep
      · cases hstep
        rfl
      · cases hstep
        cases a <;> rfl
  | _ =>
      cases a with
      | _ =>
          cases hstep
          rfl

/-- So it does whoever steps. -/
theorem next_frames {e : Event} (hstep : s.next e = some t) : t.frames = s.frames := by
  cases e with
  | main a => exact (mainStep_same hstep).2
  | worker a => exact workerStep_frames hstep
  | cursor a => exact congrArg Prod.fst (cursorStep_counters hstep)
  | handler i =>
      obtain ⟨p, -, hstep⟩ := Option.bind_eq_some_iff.1 hstep
      exact congrArg Prod.fst (handlerStep_counters hstep)
  | _ =>
      cases hstep
      rfl

/-- No session encodes more frames than the command line says, and none is begun when that many
have been counted.  The worker leaves by the limit only with exactly that many, and `main`, once it
is to make the listener, ends without an error only after Control-C, or when the last session
came to the limit. -/
theorem frames_limited {frames : Nat} (h : Run (Process.new frames) s) :
    (frames ≠ 0 → s.state.encodedFrames ≤ frames ∧ s.main.encodedFrames ≤ frames) ∧
    (frames ≠ 0 → s.worker.point = .encoding → s.state.encodedFrames < frames) ∧
    (s.worker.point ≠ .absent → s.worker.reachedFrameLimit = true →
      frames ≠ 0 ∧ s.state.encodedFrames = frames) ∧
    (s.main.point = .ended → s.main.exitCode = 0 →
      s.stop = true ∨ frames ≠ 0 ∧ s.main.encodedFrames = frames) := by
  have hlimited := Limited.run h
  obtain rfl : s.frames = frames :=
    run_preserves (I := fun s ↦ s.frames = frames)
      (fun h ⟨_, _, hnext⟩ ↦ (next_frames hnext).trans h) rfl h
  have hok := hlimited.worker
  refine ⟨fun hframes ↦ ⟨hlimited.state hframes, hlimited.main hframes⟩, fun hframes hp ↦ ?_,
    fun hpresent hreached ↦ ?_, fun hended hzero ↦ hlimited.done (by rw [hended]; rfl) hzero⟩
  · rw [hp] at hok
    exact hok.2 hframes
  · cases hp : s.worker.point with
    | absent => exact absurd hp hpresent
    | ended =>
        rw [hp] at hok
        exact hok hreached
    | leaving =>
        rw [hp] at hok
        exact hok hreached
    | encoded =>
        rw [hp] at hok
        exact (hok.resolve_right fun hno ↦ absurd (hno.1.symm.trans hreached) Bool.false_ne_true).2
    | stopCapture =>
        rw [hp] at hok
        exact hok.2
    | aborting =>
        rw [hp] at hok
        exact hok.2
    | caught =>
        rw [hp] at hok
        cases hok.symm.trans hreached
    | caughtCapture =>
        rw [hp] at hok
        cases hok.symm.trans hreached
    | caughtAbort =>
        rw [hp] at hok
        cases hok.symm.trans hreached
    | caughtShutdown =>
        rw [hp] at hok
        cases hok.symm.trans hreached
    | _ =>
        rw [hp] at hok
        cases hok.1.symm.trans hreached

/-- A session in which one frame is encoded. -/
def oneFrame : List Event :=
  [.main (.socket 5)] ++ List.replicate 6 (.main .done) ++ serve (.arrive 1 greeting) ++
    List.replicate 3 (.main .done) ++ [.main (.frame {})] ++ List.replicate 4 (.main .done) ++
    List.replicate 15 (.worker .done) ++ List.replicate 5 (.main .done) ++
    List.replicate 2 (.cursor .done) ++ List.replicate 9 (.main .done)

theorem frames_limited_oneFrame : ∃ s, Run (Process.new 1) s ∧
    s.main.point = .ended ∧ s.stop = false ∧ s.main.encodedFrames = 1 := by
  obtain ⟨s, hrun, hended, hzero, hstop⟩ :=
    show ∃ s, Run (Process.new 1) s ∧ s.main.point = .ended ∧ s.main.exitCode = 0 ∧
        s.stop = false from
      exists_run oneFrame (by decide +kernel)
  refine ⟨s, hrun, hended, hstop, ?_⟩
  rcases (frames_limited hrun).2.2.2 hended hzero with hyes | ⟨-, hencoded⟩
  · rw [hstop] at hyes
    cases hyes
  · exact hencoded

end Process

end SecondScreen.Host.Serving
