import SecondScreen.Host.ServingSockets

/-!
# Control-C ends the host

Once `g_stop` is set every thread of the host comes to its end, however the threads are
scheduled and whatever the ring and the client do, with two exceptions.  `ReadHandshake` does not
look at `g_stop`: it waits on for a client that was accepted while `ConsoleControlHandler` ran,
and is then ended by the client, or by another Control-C.  And the worker does not look at it
within `EncodeFrame` and `Drain`, which may wait for NVENC, or loop, for ever; `main` then never
comes back from `worker.join()`.  So the calls of the encoder may return at any time here, or
never; all other calls into the system return.

Left out are further calls of `ConsoleControlHandler` and what happens on the network: a client
that sends without an end could put off the end of the handshake, but not for ever.
-/

namespace SecondScreen.Host.Serving

open SecondScreen.Conc SecondScreen.Json SecondScreen.Machine Relation

/-! ## How much there is to do -/

def CloseSocket.rank : CloseSocket → Nat
  | .exchange => 3
  | .shutdown _ => 2
  | .closesocket _ => 1

def WaitPoint.rank : WaitPoint → Nat
  | .head => 0
  | .clock => 2
  | .event => 3
  | .reading => 4
  | .connected => 5
  | .externalStop => 6

def MainPoint.rank : MainPoint → Nat
  | .ended => 0
  | .closing .loop c | .closing .caughtClient c => c.rank
  | .closing .caughtListener c => 3 + c.rank
  | .head | .acceptFailed => 4
  | .closing .session c => 4 + c.rank
  | .caught => 7
  | .openRing | .storeEncoded => 8
  | .enablePrivilege | .joinCursor => 9
  | .listen | .stopCursor => 10
  | .bind | .joinWorker => 11
  | .storeListener | .closeQueue => 12
  | .create | .loopStop => 13
  | .publishing _ | .publishingHeartbeat => 14
  | .waiting false p => 13 + p.rank
  | .loopFrames => 20
  | .loopCapture => 21
  | .startWorker => 22
  | .startCursor => 23
  | .publishingFirst _ => 24
  | .responding _ => 25
  | .waiting true .head => 8
  | .waiting true p => 24 + p.rank
  | .receiving line => 31 + (kMaxHandshakeBytes - line.length)
  | .configure => 32 + kMaxHandshakeBytes
  | .storeClient => 33 + kMaxHandshakeBytes
  | .accepting => 34 + kMaxHandshakeBytes

def WorkerPoint.rank : WorkerPoint → Nat
  | .absent | .ended => 0
  | .caughtShutdown => 1
  | .caughtAbort => 2
  | .caughtCapture => 3
  | .caught => 4
  | .leaving => 5
  | .head => 6
  | .encoded | .heartbeat | .initializeEncoder => 7
  | .aborting | .coInitialize => 8
  | .stopCapture => 9
  | .flushing => 10
  | .draining => 11
  | .counting => 12
  | .encoding => 13
  | .encodeCapture => 14
  | .encodeStop => 15
  | .replacing | .timeout => 16
  | .waiting => 17

def CursorPoint.rank : CursorPoint → Nat
  | .absent | .ended => 0
  | .head | .shutdown => 1
  | .sleeping | .failed => 2
  | .polling => 3
  | .stopCapture => 4
  | .stopCursor => 5

def HandlerPoint.rank : HandlerPoint → Nat
  | .returned => 0
  | .closing .listener c => c.rank
  | .closing .client c => 3 + c.rank
  | .stop => 7

def WorkerPoint.isAbsent : WorkerPoint → Bool
  | .absent => true
  | _ => false

def CursorPoint.isAbsent : CursorPoint → Bool
  | .absent => true
  | _ => false

def MainPoint.isAccepting : MainPoint → Bool
  | .accepting => true
  | _ => false

/-- `main` may have no listener. -/
def MainPoint.lacksListener : MainPoint → Bool
  | .closing .session _ => false
  | .create | .caught | .closing _ _ | .ended => true
  | _ => false

/-- The call has set `g_stop` and will yet take the listener out of its variable. -/
def HandlerPoint.clears : HandlerPoint → Bool
  | .closing .client _ | .closing .listener .exchange => true
  | _ => false

namespace Process

/-- The steps that end the host. -/
def OwnStep (_ : Process) : Event → Prop
  | .main _ | .worker _ | .cursor _ | .handler _ => True
  | .control | .connect _ | .arrive _ _ | .hangUp _ | .fail _ => False

/-- The worker is in `Initialize`, `EncodeFrame`, `Drain` or `Flush`. -/
def Encodes (s : Process) : Prop :=
  match s.worker.point with
  | .initializeEncoder | .encoding | .draining | .flushing => True
  | .leaving => s.worker.reachedFrameLimit = false
  | _ => False

/-- The steps that come about even if the encoder does not return. -/
def DueStep (s : Process) : Event → Prop
  | .worker _ => ¬s.Encodes
  | .main _ | .cursor _ | .handler _ => True
  | .control | .connect _ | .arrive _ _ | .hangUp _ | .fail _ => False

def workerWork (s : Process) : Nat :=
  s.worker.point.rank + s.state.queue.hasPending.toNat

def handlersWork (s : Process) : Nat := (s.handlers.map HandlerPoint.rank).sum

def othersWork (s : Process) : Nat := s.workerWork + s.cursor.rank + s.handlersWork

def work (s : Process) : Nat := 32 * s.main.point.rank + s.othersWork

variable {s t : Process}

/-! ### `main` -/

/-- What the worker does with a step is taken from the work of the threads beside `main`. -/
theorem othersWork_workerAt (s : Process) (p : WorkerPoint) :
    (s.workerAt p).othersWork + s.worker.point.rank = s.othersWork + p.rank := by
  simp only [othersWork, workerWork, handlersWork, workerAt]
  omega

theorem othersWork_cursorAt (s : Process) (p : CursorPoint) :
    (s.cursorAt p).othersWork + s.cursor.rank = s.othersWork + p.rank := by
  show s.workerWork + p.rank + s.handlersWork + s.cursor.rank =
    s.workerWork + s.cursor.rank + s.handlersWork + p.rank
  omega

/-- A step of `main`, which may give the other threads something to do. -/
structure MainLess (s t : Process) : Prop where
  rank : t.main.point.rank < s.main.point.rank
  others : t.othersWork ≤ s.othersWork + 31

/-- A step of `main` that concerns no other thread. -/
theorem MainLess.of_eq (hrank : t.main.point.rank < s.main.point.rank)
    (hsame : (t.worker, t.state, t.cursor, t.handlers) =
      (s.worker, s.state, s.cursor, s.handlers)) : MainLess s t := by
  simp only [Prod.mk.injEq] at hsame
  obtain ⟨hworker, hstate, hcursor, hhandlers⟩ := hsame
  refine ⟨hrank, ?_⟩
  rw [othersWork, workerWork, handlersWork, hworker, hstate, hcursor, hhandlers]
  exact Nat.le_add_right _ 31

/-- `main` goes on by itself. -/
theorem MainLess.goes {p : MainPoint} (q : MainPoint) (hp : s.main.point = p)
    (hq : t.main.point = q) (hrank : q.rank < p.rank)
    (hsame : (t.worker, t.state, t.cursor, t.handlers) =
      (s.worker, s.state, s.cursor, s.handlers)) :
    MainLess s t :=
  .of_eq (by rw [hp, hq]; exact hrank) hsame

/-- `main` goes on and does nothing else. -/
theorem MainLess.mainAt {p q : MainPoint} (hp : s.main.point = p) (hrank : q.rank < p.rank) :
    MainLess s (s.mainAt q) :=
  .of_eq (hp ▸ hrank) rfl

/-- One step of `main` counts for more than all that it gives the others to do. -/
theorem work_lt_of_main (h : MainLess s t) : t.work < s.work := by
  have hrank := h.rank
  have hothers := h.others
  unfold work
  omega

theorem CloseSocket.rank_le (c : CloseSocket) : 1 ≤ c.rank ∧ c.rank ≤ 3 := by
  cases c <;> simp [CloseSocket.rank]

/-- `CloseSocket` comes to its end. -/
theorem closeSocket_less {slot : Slot} {c : CloseSocket} {r : Option CloseSocket}
    (hstep : s.closeSocket slot c = (t, r)) :
    (t.main, t.worker, t.state, t.cursor, t.handlers) =
      (s.main, s.worker, s.state, s.cursor, s.handlers) ∧ ∀ c' ∈ r, c'.rank < c.rank := by
  cases c with
  | exchange =>
      rw [Process.closeSocket] at hstep
      split at hstep
      · cases hstep
        exact ⟨rfl, by rintro _ ⟨⟩⟩
      · cases hstep
        refine ⟨by cases slot <;> rfl, ?_⟩
        rintro c' ⟨⟩
        exact Nat.lt_succ_self 2
  | shutdown handle =>
      cases hstep
      refine ⟨rfl, ?_⟩
      rintro c' ⟨⟩
      exact Nat.lt_succ_self 1
  | closesocket handle =>
      cases hstep
      exact ⟨rfl, by rintro _ ⟨⟩⟩

/-- The wait for a frame is given up. -/
theorem stopWaiting_less {first : Bool} {p : WaitPoint} (hp : s.main.point = .waiting first p) :
    MainLess s (s.stopWaiting first) := by
  cases first with
  | true => exact .mainAt hp (by cases p <;> decide)
  | false => exact .mainAt hp (by cases p <;> decide)

/-- Once `g_stop` is set, the wait for a frame has one more pass at most. -/
theorem waitForFrame_less (hstop : s.stop = true) {first : Bool} {p : WaitPoint} {a : Answer}
    (hp : s.main.point = .waiting first p) : MainLess s (s.waitForFrame first a p) := by
  cases p with
  | head =>
      rw [Process.waitForFrame, if_pos hstop]
      exact stopWaiting_less hp
  | externalStop =>
      rw [Process.waitForFrame]
      split_ifs
      · exact stopWaiting_less hp
      · exact .mainAt hp (by cases first <;> decide)
  | connected =>
      rw [Process.waitForFrame]
      split_ifs
      · exact .mainAt hp (by cases first <;> decide)
      · exact stopWaiting_less hp
  | reading =>
      cases a with
      | frame frame =>
          cases first with
          | true => exact .mainAt hp (by simp [MainPoint.rank, WaitPoint.rank])
          | false => exact .mainAt hp (by simp [MainPoint.rank, WaitPoint.rank])
      | failed => exact stopWaiting_less hp
      | _ => exact .mainAt hp (by cases first <;> decide)
  | event =>
      cases a with
      | failed => exact stopWaiting_less hp
      | _ => exact .mainAt hp (by cases first <;> decide)
  | clock =>
      cases a with
      | elapsed =>
          cases first with
          | true => exact .mainAt hp (by decide)
          | false => exact .mainAt hp (by decide)
      | _ => exact .mainAt hp (by cases first <;> decide)

/-- The handshake is received byte by byte, and its length is limited. -/
theorem receive_less {line : Text} (hp : s.main.point = .receiving line)
    (hstep : s.receive line = some t) : MainLess s t := by
  have hleave : (MainPoint.closing .session .exchange).rank < (MainPoint.receiving line).rank := by
    simp only [MainPoint.rank, CloseSocket.rank]
    omega
  unfold Process.receive at hstep
  split at hstep
  · cases hstep
    exact .mainAt hp hleave
  · split at hstep
    · split_ifs at hstep
      cases hstep
      exact .mainAt hp hleave
    · next chunk input _ =>
      split at hstep
      · cases hstep
        unfold Process.handshake
        split
        · exact .of_eq (hp ▸ by simp only [mainAt, MainPoint.rank]; omega) rfl
        · exact .of_eq (hp ▸ hleave) rfl
      · next line' hpush =>
        split_ifs at hstep with hlength
        · cases hstep
          refine .of_eq (hp ▸ ?_) rfl
          have hlonger := pushBytes_lt hpush chunk.pos
          simp only [mainAt, MainPoint.rank]
          omega
        · cases hstep
          exact .of_eq (hp ▸ hleave) rfl

/-- A frame is queued, and the worker has one step more to do. -/
theorem publish_work (s : Process) (queue : LatestFrameQueue) :
    othersWork { s with state := { s.state with queue } } ≤ s.othersWork + 1 := by
  have hpending := Bool.toNat_le queue.hasPending
  simp only [othersWork, workerWork, handlersWork]
  omega

/-- A call before the loop succeeds, or it throws. -/
theorem prepare_less {p q : MainPoint} {a : Answer} (hp : s.main.point = p)
    (hcaught : MainPoint.caught.rank < p.rank) (hrank : q.rank < p.rank) :
    MainLess s (s.prepare q a) := by
  cases a with
  | failed => exact .mainAt hp hcaught
  | _ => exact .mainAt hp hrank

/-- Every step of `main` leads on to its end. -/
theorem mainStep_less (hstop : s.stop = true) {a : Answer}
    (hstep : s.mainStep a s.main.point = some t) : MainLess s t := by
  cases hp : s.main.point with
  | create =>
      rw [hp] at hstep
      cases a with
      | socket handle =>
          simp only [Process.mainStep] at hstep
          split_ifs at hstep
          cases hstep
          exact .goes .storeListener hp rfl (by decide) rfl
      | failed =>
          cases hstep
          exact .mainAt hp (by decide)
      | _ => cases hstep
  | bind =>
      rw [hp] at hstep
      cases hstep
      exact prepare_less hp (by decide) (by decide)
  | listen =>
      rw [hp] at hstep
      cases hstep
      exact prepare_less hp (by decide) (by decide)
  | enablePrivilege =>
      rw [hp] at hstep
      cases hstep
      exact prepare_less hp (by decide) (by decide)
  | openRing =>
      rw [hp] at hstep
      cases hstep
      exact prepare_less hp (by decide) (by decide)
  | head =>
      rw [hp, Process.mainStep, if_pos (by rw [hstop]; rfl)] at hstep
      cases hstep
      exact .mainAt hp (by decide)
  | accepting =>
      rw [hp] at hstep
      obtain ⟨listener, -, hstep⟩ := Option.bind_eq_some_iff.1 hstep
      unfold Process.accept at hstep
      split at hstep
      · cases hstep
        exact .mainAt hp (by simp only [MainPoint.rank]; omega)
      · split at hstep
        · split_ifs at hstep
          cases hstep
          exact .goes .storeClient hp rfl (by simp only [MainPoint.rank]; omega) rfl
        · cases hstep
  | storeClient =>
      rw [hp] at hstep
      cases hstep
      exact .goes .configure hp rfl (by simp only [MainPoint.rank]; omega) rfl
  | configure =>
      rw [hp] at hstep
      cases a with
      | failed =>
          cases hstep
          exact .mainAt hp (by simp only [MainPoint.rank]; omega)
      | _ =>
          simp only [Process.mainStep] at hstep
          split_ifs at hstep
          cases hstep
          exact .mainAt hp (by simp only [MainPoint.rank, List.length_nil]; omega)
  | receiving line =>
      rw [hp] at hstep
      exact receive_less hp hstep
  | waiting first point =>
      rw [hp] at hstep
      cases hstep
      exact waitForFrame_less hstop hp
  | responding frame =>
      rw [hp] at hstep
      cases a with
      | failed =>
          cases hstep
          exact .mainAt hp (by simp [MainPoint.rank, CloseSocket.rank])
      | _ =>
          cases hstep
          refine ⟨hp ▸ by simp [mainAt, MainPoint.rank], ?_⟩
          show 0 + 0 + 0 + s.handlersWork ≤ _
          rw [othersWork]
          omega
  | publishingFirst frame =>
      rw [hp] at hstep
      simp only [Process.mainStep] at hstep
      split at hstep
      · cases hstep
        exact ⟨hp ▸ by simp [mainAt, MainPoint.rank], (publish_work s _).trans (by omega)⟩
      · cases hstep
        exact .mainAt hp (by simp [MainPoint.rank, CloseSocket.rank])
  | startCursor =>
      rw [hp] at hstep
      cases hstep
      refine ⟨?_, ?_⟩
      · rw [hp]
        exact Nat.lt_succ_self 22
      · have hwork := othersWork_cursorAt s .head
        have hrank : CursorPoint.head.rank = 1 := rfl
        show (s.cursorAt .head).othersWork ≤ s.othersWork + 31
        omega
  | startWorker =>
      rw [hp] at hstep
      cases hstep
      refine ⟨?_, ?_⟩
      · rw [hp]
        exact (by decide : 13 < 22)
      · have hwork := othersWork_workerAt s .coInitialize
        have hrank : WorkerPoint.coInitialize.rank = 8 := rfl
        show (s.workerAt .coInitialize).othersWork ≤ s.othersWork + 31
        omega
  | loopStop =>
      rw [hp, Process.mainStep, if_pos hstop] at hstep
      cases hstep
      exact .mainAt hp (by decide)
  | loopCapture =>
      rw [hp] at hstep
      cases hstep
      refine .mainAt hp ?_
      split_ifs <;> decide
  | loopFrames =>
      rw [hp] at hstep
      cases hstep
      refine .mainAt hp ?_
      split_ifs <;> decide
  | publishing frame =>
      rw [hp] at hstep
      cases hstep
      refine ⟨hp ▸ ?_, (publish_work s _).trans (by omega)⟩
      simp only [mainAt]
      split_ifs <;> simp [MainPoint.rank]
  | publishingHeartbeat =>
      rw [hp] at hstep
      cases hstep
      refine ⟨hp ▸ ?_, (publish_work s _).trans (by omega)⟩
      simp only [mainAt]
      split_ifs <;> decide
  | closeQueue =>
      rw [hp] at hstep
      cases hstep
      refine ⟨?_, (publish_work s _).trans (by omega)⟩
      rw [hp]
      exact Nat.lt_succ_self 11
  | joinWorker =>
      rw [hp] at hstep
      simp only [Process.mainStep] at hstep
      split_ifs at hstep
      cases hstep
      exact .mainAt hp (by decide)
  | stopCursor =>
      rw [hp] at hstep
      cases hstep
      refine ⟨?_, Nat.le_add_right _ 31⟩
      rw [hp]
      exact Nat.lt_succ_self 9
  | joinCursor =>
      rw [hp] at hstep
      simp only [Process.mainStep] at hstep
      split_ifs at hstep
      cases hstep
      exact .mainAt hp (by decide)
  | caught =>
      rw [hp] at hstep
      cases hstep
      refine .of_eq (hp ▸ ?_) rfl
      dsimp only
      split_ifs <;> decide
  | closing site c =>
      rw [hp] at hstep
      simp only [Process.mainStep] at hstep
      split at hstep
      · next t' c' heq =>
          cases hstep
          obtain ⟨hsame, hless⟩ := closeSocket_less heq
          simp only [Prod.mk.injEq] at hsame
          obtain ⟨-, hrest⟩ := hsame
          have hrank := hless c' rfl
          refine .goes (.closing site c') hp rfl ?_ (by simp only [mainAt, hrest])
          cases site <;> simp only [MainPoint.rank] <;> omega
      · next t' heq =>
          cases hstep
          obtain ⟨hsame, -⟩ := closeSocket_less heq
          simp only [Prod.mk.injEq] at hsame
          obtain ⟨-, hrest⟩ := hsame
          have hrank := CloseSocket.rank_le c
          refine .goes (CloseSite.next site) hp rfl ?_ (by simp only [mainAt, hrest])
          have hexchange : CloseSocket.exchange.rank = 3 := rfl
          cases site <;> simp only [MainPoint.rank, CloseSite.next, hexchange] <;> omega
  | ended =>
      rw [hp] at hstep
      cases hstep
  | storeListener =>
      rw [hp] at hstep
      cases hstep
      exact .goes .bind hp rfl (by decide) rfl
  | acceptFailed =>
      rw [hp] at hstep
      cases hstep
      exact .goes (.closing .loop .exchange) hp rfl (by decide) rfl
  | storeEncoded =>
      rw [hp] at hstep
      cases hstep
      exact .goes (.closing .session .exchange) hp rfl (by decide) rfl

/-! ### The others -/

/-- A step of another thread. -/
structure OthersLess (s t : Process) : Prop where
  main : t.main = s.main
  others : t.othersWork < s.othersWork

/-- A step of a thread beside `main`. -/
theorem work_lt_of_others (h : OthersLess s t) : t.work < s.work := by
  have hothers := h.others
  unfold work
  rw [h.main]
  omega

/-- The worker goes on, and takes what it takes from the queue. -/
theorem OthersLess.worker (hmain : t.main = s.main) (hcursor : t.cursor = s.cursor)
    (hhandlers : t.handlers = s.handlers) (hless : t.workerWork < s.workerWork) :
    OthersLess s t := by
  refine ⟨hmain, ?_⟩
  rw [othersWork, othersWork, handlersWork, handlersWork, hcursor, hhandlers]
  omega

/-- The worker goes on, and leaves in the queue what is there at most. -/
theorem OthersLess.workerGoes {p : WorkerPoint} (q : WorkerPoint) (hp : s.worker.point = p)
    (hq : t.worker.point = q) (hrank : q.rank < p.rank)
    (hpending : t.state.queue.hasPending = true → s.state.queue.hasPending = true)
    (hsame : (t.main, t.cursor, t.handlers) = (s.main, s.cursor, s.handlers)) :
    OthersLess s t := by
  simp only [Prod.mk.injEq] at hsame
  obtain ⟨hmain, hcursor, hhandlers⟩ := hsame
  refine .worker hmain hcursor hhandlers ?_
  have hle : t.state.queue.hasPending.toNat ≤ s.state.queue.hasPending.toNat := by
    cases ht : t.state.queue.hasPending with
    | false => exact Nat.zero_le _
    | true => rw [hpending ht]
  rw [workerWork, workerWork, hp, hq]
  omega

theorem OthersLess.workerAt {p q : WorkerPoint} (hp : s.worker.point = p)
    (hrank : q.rank < p.rank) : OthersLess s (s.workerAt q) :=
  .worker rfl rfl rfl (Nat.add_lt_add_right (hp ▸ hrank) _)

/-- A call of the worker returns, or it throws. -/
theorem attempt_less {p q : WorkerPoint} {a : Answer} (hp : s.worker.point = p)
    (hcaught : WorkerPoint.caught.rank < p.rank) (hrank : q.rank < p.rank) :
    OthersLess s (s.attempt q a) := by
  cases a with
  | failed => exact .workerAt hp hcaught
  | _ => exact .workerAt hp hrank

/-- What `WaitFor` leaves in the queue. -/
theorem waitFor_pending (queue : LatestFrameQueue) (output : Ring.CapturedFrame) :
    (queue.waitFor output).2.2.hasPending = false := by
  unfold LatestFrameQueue.waitFor
  split_ifs with hpending
  · rfl
  · exact Bool.eq_false_iff.2 hpending
  · exact Bool.eq_false_iff.2 hpending
  · exact Bool.eq_false_iff.2 hpending

/-- Once `g_stop` is set, the worker takes at most one more frame out of the queue. -/
theorem workerStep_less (hstop : s.stop = true) {a : Answer}
    (hstep : s.workerStep a s.worker.point = some t) : OthersLess s t := by
  cases hp : s.worker.point with
  | absent =>
      rw [hp] at hstep
      cases hstep
  | ended =>
      rw [hp] at hstep
      cases hstep
  | coInitialize =>
      rw [hp] at hstep
      cases hstep
      exact attempt_less hp (by decide) (by decide)
  | initializeEncoder =>
      rw [hp] at hstep
      cases hstep
      exact attempt_less hp (by decide) (by decide)
  | head =>
      rw [hp, Process.workerStep, if_pos hstop] at hstep
      cases hstep
      exact .workerAt hp (by decide)
  | waiting =>
      rw [hp] at hstep
      simp only [Process.workerStep, Option.some.injEq] at hstep
      subst hstep
      have hpending := waitFor_pending s.state.queue s.worker.frame
      refine .workerGoes _ hp rfl ?_ (by simp only [hpending]; rintro ⟨⟩) rfl
      dsimp only
      split <;> decide
  | heartbeat =>
      rw [hp] at hstep
      cases hstep
      exact attempt_less hp (by decide) (by decide)
  | timeout =>
      rw [hp] at hstep
      cases a with
      | elapsed =>
          cases hstep
          refine .workerAt hp ?_
          split_ifs <;> decide
      | _ =>
          cases hstep
          exact .workerAt hp (by decide)
  | replacing =>
      rw [hp, Process.workerStep, LatestFrameQueue.takePending] at hstep
      cases hpending : s.state.queue.hasPending with
      | true =>
          rw [hpending] at hstep
          cases hstep
          refine .worker rfl rfl rfl ?_
          simp [workerWork, hpending]
      | false =>
          rw [hpending] at hstep
          cases hstep
          refine .worker rfl rfl rfl ?_
          simp [workerWork, hp, WorkerPoint.rank]
  | encodeStop =>
      rw [hp, Process.workerStep, if_pos hstop] at hstep
      cases hstep
      exact .workerAt hp (by decide)
  | encodeCapture =>
      rw [hp] at hstep
      cases hstep
      refine .workerAt hp ?_
      split_ifs <;> decide
  | encoding =>
      rw [hp] at hstep
      cases hstep
      exact attempt_less hp (by decide) (by decide)
  | counting =>
      rw [hp] at hstep
      cases hstep
      refine .worker rfl rfl rfl (Nat.add_lt_add_right ?_ _)
      simp only [hp, Process.workerAt]
      split_ifs <;> decide
  | draining =>
      rw [hp] at hstep
      cases hstep
      exact attempt_less hp (by decide) (by decide)
  | flushing =>
      rw [hp] at hstep
      cases a with
      | failed =>
          cases hstep
          exact .workerAt hp (by decide)
      | _ =>
          cases hstep
          exact .workerGoes .stopCapture hp rfl (by decide) id rfl
  | aborting =>
      rw [hp] at hstep
      cases hstep
      exact .workerGoes .encoded hp rfl (by decide) (by rintro ⟨⟩) rfl
  | caughtAbort =>
      rw [hp] at hstep
      cases hstep
      exact .workerGoes .caughtShutdown hp rfl (by decide) (by rintro ⟨⟩) rfl
  | encoded =>
      rw [hp] at hstep
      cases hstep
      refine .workerAt hp ?_
      split_ifs <;> decide
  | leaving =>
      rw [hp, Process.workerStep] at hstep
      split_ifs at hstep
      · cases hstep
        exact .workerAt hp (by decide)
      · cases hstep
        exact attempt_less hp (by decide) (by decide)
  | caughtShutdown =>
      rw [hp] at hstep
      cases hstep
      exact .workerGoes .ended hp rfl (by decide) id rfl
  | stopCapture =>
      rw [hp] at hstep
      cases hstep
      exact .workerGoes .aborting hp rfl (by decide) id rfl
  | caught =>
      rw [hp] at hstep
      cases hstep
      exact .workerGoes .caughtCapture hp rfl (by decide) id rfl
  | caughtCapture =>
      rw [hp] at hstep
      cases hstep
      exact .workerGoes .caughtAbort hp rfl (by decide) id rfl

theorem OthersLess.cursorGoes {p : CursorPoint} (q : CursorPoint) (hp : s.cursor = p)
    (hq : t.cursor = q) (hrank : q.rank < p.rank) (hmain : t.main = s.main)
    (hworker : t.workerWork = s.workerWork) (hhandlers : t.handlers = s.handlers) :
    OthersLess s t := by
  refine ⟨hmain, ?_⟩
  rw [othersWork, othersWork, handlersWork, handlersWork, hworker, hhandlers, hp, hq]
  omega

/-- Once `g_stop` is set, the cursor thread has one more pass at most. -/
theorem cursorStep_less (hstop : s.stop = true) {a : Answer}
    (hstep : s.cursorStep a s.cursor = some t) : OthersLess s t := by
  cases hp : s.cursor with
  | absent =>
      rw [hp] at hstep
      cases hstep
  | ended =>
      rw [hp] at hstep
      cases hstep
  | head =>
      rw [hp, Process.cursorStep, if_pos hstop] at hstep
      cases hstep
      exact .cursorGoes .ended hp rfl (by decide) rfl rfl rfl
  | stopCursor =>
      rw [hp] at hstep
      cases hstep
      refine .cursorGoes _ hp rfl ?_ rfl rfl rfl
      dsimp only [cursorAt]
      split_ifs <;> decide
  | stopCapture =>
      rw [hp] at hstep
      cases hstep
      refine .cursorGoes _ hp rfl ?_ rfl rfl rfl
      dsimp only [cursorAt]
      split_ifs <;> decide
  | polling =>
      rw [hp] at hstep
      cases a with
      | failed =>
          cases hstep
          exact .cursorGoes .failed hp rfl (by decide) rfl rfl rfl
      | _ =>
          cases hstep
          exact .cursorGoes .sleeping hp rfl (by decide) rfl rfl rfl
  | failed =>
      rw [hp] at hstep
      cases hstep
      exact .cursorGoes .shutdown hp rfl (by decide) rfl rfl rfl
  | shutdown =>
      rw [hp] at hstep
      cases hstep
      exact .cursorGoes .ended hp rfl (by decide) rfl rfl rfl
  | sleeping =>
      rw [hp] at hstep
      cases hstep
      exact .cursorGoes .head hp rfl (by decide) rfl rfl rfl

theorem OthersLess.handlerAt {u : Process} {i : Nat} {p q : HandlerPoint}
    (hi : s.handlers[i]? = some p) (hrank : q.rank < p.rank)
    (hsame : (u.main, u.worker, u.state, u.cursor, u.handlers) =
      (s.main, s.worker, s.state, s.cursor, s.handlers)) : OthersLess s (u.handlerAt i q) := by
  simp only [Prod.mk.injEq] at hsame
  obtain ⟨hmain, hworker, hstate, hcursor, hhandlers⟩ := hsame
  refine ⟨hmain, ?_⟩
  have hsum := sum_map_set HandlerPoint.rank q hi
  simp only [othersWork, workerWork, handlersWork, Process.handlerAt, hworker, hstate, hcursor,
    hhandlers]
  omega

/-- A call of `ConsoleControlHandler` comes to its end. -/
theorem handlerStep_less {i : Nat} {p : HandlerPoint} (hi : s.handlers[i]? = some p)
    (hstep : s.handlerStep i p = some t) : OthersLess s t := by
  cases p with
  | stop =>
      cases hstep
      exact .handlerAt hi (by decide) rfl
  | closing slot c =>
      simp only [Process.handlerStep] at hstep
      split at hstep
      · next t' c' heq =>
          cases hstep
          obtain ⟨hsame, hless⟩ := closeSocket_less heq
          have hrank := hless c' rfl
          refine .handlerAt hi ?_ hsame
          cases slot <;> simp only [HandlerPoint.rank] <;> omega
      · next t' heq =>
          cases hstep
          obtain ⟨hsame, -⟩ := closeSocket_less heq
          have hrank := CloseSocket.rank_le c
          have hexchange : CloseSocket.exchange.rank = 3 := rfl
          refine .handlerAt hi ?_ hsame
          cases slot <;> simp only [HandlerPoint.after, HandlerPoint.rank, hexchange] <;> omega
  | returned => cases hstep

/-- Each step of a thread lowers the work, once `g_stop` is set. -/
theorem work_lt (hstop : s.stop = true) {e : Event} (hown : s.OwnStep e)
    (hstep : s.next e = some t) : t.work < s.work := by
  cases e with
  | main a => exact work_lt_of_main (mainStep_less hstop hstep)
  | worker a => exact work_lt_of_others (workerStep_less hstop hstep)
  | cursor a => exact work_lt_of_others (cursorStep_less hstop hstep)
  | handler i =>
      obtain ⟨p, hi, hstep⟩ := Option.bind_eq_some_iff.1 hstep
      exact work_lt_of_others (handlerStep_less hi hstep)
  | control => cases hown
  | connect i => cases hown
  | arrive i chunk => cases hown
  | hangUp i => cases hown
  | fail i => cases hown

/-! ## Somebody can move -/

/-- What the threads that others wait for need. -/
structure Live (s : Process) : Prop where
  worker : s.main.point.hasWorker = true → s.worker.point.isAbsent = false
  cursor : s.main.point.hasCursor = true → s.cursor.isAbsent = false
  listener : s.main.listener = none → s.main.point.lacksListener = true
  /-- If `g_stop` is set while `main` waits for a client, then whoever has set it has closed the
  listener or will do so. -/
  control : s.main.point.isAccepting = true → s.stop = true →
    s.listener = none ∨ ∃ p ∈ s.handlers, p.clears = true

/-- What `Live` says of two points that follow each other. -/
def lives (p q : MainPoint) : Bool :=
  (!q.hasWorker || p.hasWorker) && (!q.hasCursor || p.hasCursor) &&
    (!p.lacksListener || q.lacksListener) && !q.isAccepting

/-- `main` goes on, and the threads stay as they are. -/
theorem Live.turn (h : s.Live) {p : MainPoint} (q : MainPoint) (hp : s.main.point = p)
    (hq : t.main.point = q) (hlives : lives p q = true)
    (hsame : (t.worker.point, t.cursor, t.main.listener) =
      (s.worker.point, s.cursor, s.main.listener)) : t.Live := by
  simp only [lives, Bool.and_eq_true, Bool.not_eq_true'] at hlives
  obtain ⟨⟨⟨hworker, hcursor⟩, hlistener⟩, haccepting⟩ := hlives
  simp only [Prod.mk.injEq] at hsame
  obtain ⟨hsameWorker, hsameCursor, hsameListener⟩ := hsame
  subst hp hq
  refine ⟨fun hhas ↦ ?_, fun hhas ↦ ?_, fun hnone ↦ ?_, fun hat ↦ ?_⟩
  · rw [hsameWorker]
    exact h.worker (imp_of_or hworker hhas)
  · rw [hsameCursor]
    exact h.cursor (imp_of_or hcursor hhas)
  · exact imp_of_or hlistener (h.listener (hsameListener ▸ hnone))
  · cases haccepting.symm.trans hat

/-- `main` goes on and does nothing else. -/
theorem Live.mainAt (h : s.Live) {p q : MainPoint} (hp : s.main.point = p)
    (hlives : lives p q = true) : (s.mainAt q).Live :=
  h.turn q hp rfl hlives rfl

/-- The handshake starts no thread. -/
theorem Live.receive (h : s.Live) {line : Text} (hp : s.main.point = .receiving line)
    (hstep : s.receive line = some t) : t.Live := by
  unfold Process.receive at hstep
  split at hstep
  · cases hstep
    exact h.mainAt hp rfl
  · split at hstep
    · split_ifs at hstep
      cases hstep
      exact h.mainAt hp rfl
    · split at hstep
      · cases hstep
        unfold Process.handshake
        split
        · exact h.turn (.waiting true .head) hp rfl rfl rfl
        · exact h.turn (.closing .session .exchange) hp rfl rfl rfl
      · next line' _ =>
        split_ifs at hstep
        · cases hstep
          exact h.turn (.receiving line') hp rfl rfl rfl
        · cases hstep
          exact h.turn (.closing .session .exchange) hp rfl rfl rfl

theorem Live.stopWaiting (h : s.Live) {first : Bool} {p : WaitPoint}
    (hp : s.main.point = .waiting first p) : (s.stopWaiting first).Live := by
  cases first with
  | true => exact h.mainAt hp rfl
  | false => exact h.mainAt hp rfl

theorem lives_waiting (first : Bool) (p q : WaitPoint) :
    lives (.waiting first p) (.waiting first q) = true := by
  cases first <;> rfl

/-- Nor does the wait for a frame. -/
theorem Live.waitForFrame (h : s.Live) {first : Bool} {p : WaitPoint} {a : Answer}
    (hp : s.main.point = .waiting first p) : (s.waitForFrame first a p).Live := by
  cases p with
  | head =>
      rw [Process.waitForFrame]
      split_ifs
      · exact h.stopWaiting hp
      · exact h.mainAt hp (lives_waiting ..)
      · exact h.mainAt hp (lives_waiting ..)
  | externalStop =>
      rw [Process.waitForFrame]
      split_ifs
      · exact h.stopWaiting hp
      · exact h.mainAt hp (lives_waiting ..)
  | connected =>
      rw [Process.waitForFrame]
      split_ifs
      · exact h.mainAt hp (lives_waiting ..)
      · exact h.stopWaiting hp
  | reading =>
      cases a with
      | frame frame => cases first <;> exact h.mainAt hp rfl
      | failed => exact h.stopWaiting hp
      | _ => exact h.mainAt hp (lives_waiting ..)
  | event =>
      cases a with
      | failed => exact h.stopWaiting hp
      | _ => exact h.mainAt hp (lives_waiting ..)
  | clock =>
      cases a with
      | elapsed => cases first <;> exact h.mainAt hp rfl
      | _ => exact h.mainAt hp (lives_waiting ..)

/-- Nor does a call before the loop. -/
theorem Live.prepare (h : s.Live) {p q : MainPoint} {a : Answer} (hp : s.main.point = p)
    (hcaught : lives p .caught = true) (hlives : lives p q = true) : (s.prepare q a).Live := by
  cases a with
  | failed => exact h.mainAt hp hcaught
  | _ => exact h.mainAt hp hlives

/-- `main` keeps the invariant: it starts the threads before it can wait for them. -/
theorem Live.mainStep (h : s.Live) {a : Answer} (hstep : s.mainStep a s.main.point = some t) :
    t.Live := by
  cases hp : s.main.point with
  | create =>
      rw [hp] at hstep
      cases a with
      | socket handle =>
          simp only [Process.mainStep] at hstep
          split_ifs at hstep
          cases hstep
          exact ⟨by rintro ⟨⟩, by rintro ⟨⟩, by rintro ⟨⟩, by rintro ⟨⟩⟩
      | failed =>
          cases hstep
          exact h.mainAt hp rfl
      | _ => cases hstep
  | storeListener =>
      rw [hp] at hstep
      cases hstep
      exact h.turn .bind hp rfl rfl rfl
  | bind =>
      rw [hp] at hstep
      cases hstep
      exact h.prepare hp rfl rfl
  | listen =>
      rw [hp] at hstep
      cases hstep
      exact h.prepare hp rfl rfl
  | enablePrivilege =>
      rw [hp] at hstep
      cases hstep
      exact h.prepare hp rfl rfl
  | openRing =>
      rw [hp] at hstep
      cases hstep
      exact h.prepare hp rfl rfl
  | head =>
      rw [hp, Process.mainStep] at hstep
      split_ifs at hstep with hcond
      · cases hstep
        exact h.mainAt hp rfl
      · cases hstep
        refine ⟨by rintro ⟨⟩, by rintro ⟨⟩, fun hnone ↦ ?_, fun _ hstop ↦ ?_⟩
        · exact absurd (h.listener hnone) (by rw [hp]; rintro ⟨⟩)
        · exact absurd (show (s.stop || s.frameLimit s.main.encodedFrames) = true by
            rw [show s.stop = true from hstop, Bool.true_or]) hcond
  | accepting =>
      rw [hp] at hstep
      obtain ⟨listener, -, hstep⟩ := Option.bind_eq_some_iff.1 hstep
      unfold Process.accept at hstep
      split at hstep
      · cases hstep
        exact h.mainAt hp rfl
      · split at hstep
        · split_ifs at hstep
          cases hstep
          exact h.turn .storeClient hp rfl rfl rfl
        · cases hstep
  | acceptFailed =>
      rw [hp] at hstep
      cases hstep
      exact h.turn (.closing .loop .exchange) hp rfl rfl rfl
  | storeClient =>
      rw [hp] at hstep
      cases hstep
      exact h.turn .configure hp rfl rfl rfl
  | configure =>
      rw [hp] at hstep
      cases a with
      | failed =>
          cases hstep
          exact h.mainAt hp rfl
      | _ =>
          simp only [Process.mainStep] at hstep
          split_ifs at hstep
          cases hstep
          exact h.mainAt hp rfl
  | receiving line =>
      rw [hp] at hstep
      exact h.receive hp hstep
  | waiting first point =>
      rw [hp] at hstep
      cases hstep
      exact h.waitForFrame hp
  | responding frame =>
      rw [hp] at hstep
      cases a with
      | failed =>
          cases hstep
          exact h.mainAt hp rfl
      | _ =>
          cases hstep
          exact ⟨by rintro ⟨⟩, by rintro ⟨⟩,
            fun hnone ↦ absurd (h.listener hnone) (by rw [hp]; rintro ⟨⟩), by rintro ⟨⟩⟩
  | publishingFirst frame =>
      rw [hp] at hstep
      simp only [Process.mainStep] at hstep
      split at hstep
      · cases hstep
        exact h.turn .startCursor hp rfl rfl rfl
      · cases hstep
        exact h.mainAt hp rfl
  | startCursor =>
      rw [hp] at hstep
      cases hstep
      exact ⟨by rintro ⟨⟩, fun _ ↦ rfl,
        fun hnone ↦ absurd (h.listener hnone) (by rw [hp]; rintro ⟨⟩), by rintro ⟨⟩⟩
  | startWorker =>
      rw [hp] at hstep
      cases hstep
      exact ⟨fun _ ↦ rfl, fun _ ↦ h.cursor (by rw [hp]; rfl),
        fun hnone ↦ absurd (h.listener hnone) (by rw [hp]; rintro ⟨⟩), by rintro ⟨⟩⟩
  | loopStop =>
      rw [hp] at hstep
      cases hstep
      refine h.mainAt hp ?_
      split_ifs <;> rfl
  | loopCapture =>
      rw [hp] at hstep
      cases hstep
      refine h.mainAt hp ?_
      split_ifs <;> rfl
  | loopFrames =>
      rw [hp] at hstep
      cases hstep
      refine h.mainAt hp ?_
      split_ifs <;> rfl
  | publishing frame =>
      rw [hp] at hstep
      cases hstep
      refine h.turn _ hp rfl ?_ rfl
      dsimp only [Process.mainAt]
      split_ifs <;> rfl
  | publishingHeartbeat =>
      rw [hp] at hstep
      cases hstep
      refine h.turn _ hp rfl ?_ rfl
      dsimp only [Process.mainAt]
      split_ifs <;> rfl
  | closeQueue =>
      rw [hp] at hstep
      cases hstep
      exact h.turn .joinWorker hp rfl rfl rfl
  | joinWorker =>
      rw [hp] at hstep
      simp only [Process.mainStep] at hstep
      split_ifs at hstep
      cases hstep
      exact h.mainAt hp rfl
  | stopCursor =>
      rw [hp] at hstep
      cases hstep
      exact h.turn .joinCursor hp rfl rfl rfl
  | joinCursor =>
      rw [hp] at hstep
      simp only [Process.mainStep] at hstep
      split_ifs at hstep
      cases hstep
      exact h.mainAt hp rfl
  | storeEncoded =>
      rw [hp] at hstep
      cases hstep
      exact h.turn (.closing .session .exchange) hp rfl rfl rfl
  | caught =>
      rw [hp] at hstep
      cases hstep
      refine h.turn _ hp rfl ?_ rfl
      dsimp only
      split_ifs <;> rfl
  | closing site c =>
      rw [hp] at hstep
      simp only [Process.mainStep] at hstep
      split at hstep
      · next t' c' heq =>
          cases hstep
          obtain ⟨hsame, -⟩ := closeSocket_less heq
          simp only [Prod.mk.injEq] at hsame
          refine h.turn (.closing site c') hp rfl (by cases site <;> rfl) ?_
          simp only [Process.mainAt, hsame]
      · next t' heq =>
          cases hstep
          obtain ⟨hsame, -⟩ := closeSocket_less heq
          simp only [Prod.mk.injEq] at hsame
          refine h.turn (CloseSite.next site) hp rfl (by cases site <;> rfl) ?_
          simp only [Process.mainAt, hsame]
  | ended =>
      rw [hp] at hstep
      cases hstep

/-- A step of another thread, which is not absent after it. -/
theorem Live.beside (h : s.Live) (hbeside : Beside s t) (hstop : t.stop = s.stop)
    (hworker : s.worker.point.isAbsent = false → t.worker.point.isAbsent = false)
    (hcursor : s.cursor.isAbsent = false → t.cursor.isAbsent = false) : t.Live := by
  obtain ⟨⟨-, hdata⟩, hmain⟩ := hbeside
  simp only [Prod.mk.injEq] at hdata
  obtain ⟨-, hlistener, -, -, -, -, hhandlers⟩ := hdata
  refine ⟨fun hhas ↦ ?_, fun hhas ↦ ?_, fun hnone ↦ ?_, fun hat hset ↦ ?_⟩
  · exact hworker (h.worker (hmain ▸ hhas))
  · exact hcursor (h.cursor (hmain ▸ hhas))
  · rw [hmain] at hnone ⊢
    exact h.listener hnone
  · rw [hlistener, hhandlers]
    exact h.control (hmain ▸ hat) (hstop ▸ hset)

/-- The worker stays until `main` has joined it, and does not touch `g_stop`. -/
theorem workerStep_present {a : Answer} {p : WorkerPoint} (hstep : s.workerStep a p = some t) :
    t.stop = s.stop ∧ (s.worker.point = p → t.worker.point.isAbsent = false) := by
  cases p with
  | absent => cases hstep
  | ended => cases hstep
  | waiting =>
      simp only [Process.workerStep, Option.some.injEq] at hstep
      subst hstep
      refine ⟨rfl, fun _ ↦ ?_⟩
      dsimp only
      split <;> rfl
  | replacing =>
      rw [Process.workerStep] at hstep
      split at hstep
      · cases hstep
        exact ⟨rfl, fun hp ↦ by rw [hp]; rfl⟩
      · cases hstep
        exact ⟨rfl, fun _ ↦ rfl⟩
  | leaving =>
      rw [Process.workerStep] at hstep
      split_ifs at hstep
      · cases hstep
        exact ⟨rfl, fun _ ↦ rfl⟩
      · cases hstep
        cases a with
        | _ => exact ⟨rfl, fun _ ↦ rfl⟩
  | _ =>
      cases a with
      | _ =>
          cases hstep
          refine ⟨rfl, fun _ ↦ ?_⟩
          first
            | rfl
            | (dsimp only [Process.workerAt]
               split_ifs <;> rfl)

/-- So does the cursor thread. -/
theorem cursorStep_present {a : Answer} {p : CursorPoint} (hstep : s.cursorStep a p = some t) :
    t.stop = s.stop ∧ t.cursor.isAbsent = false := by
  cases p with
  | absent => cases hstep
  | ended => cases hstep
  | _ =>
      cases a with
      | _ =>
          cases hstep
          refine ⟨rfl, ?_⟩
          first
            | rfl
            | (dsimp only [Process.cursorAt]
               split_ifs <;> rfl)

/-- The other calls stay where they are. -/
theorem mem_set_of_mem {l : List HandlerPoint} {i : Nat} {p : HandlerPoint} (q : HandlerPoint)
    (hmem : p ∈ l) : p ∈ l.set i q ∨ l[i]? = some p := by
  obtain ⟨j, hj⟩ := List.mem_iff_getElem?.1 hmem
  by_cases hij : i = j
  · subst hij
    exact .inr hj
  · exact .inl (List.mem_of_getElem? ((List.getElem?_set_ne hij).trans hj))

theorem mem_set_self {l : List HandlerPoint} {i : Nat} {p : HandlerPoint} (q : HandlerPoint)
    (hi : l[i]? = some p) : q ∈ l.set i q := by
  obtain ⟨hlt, -⟩ := List.getElem?_eq_some_iff.1 hi
  exact List.mem_of_getElem? (List.getElem?_set_self hlt)

/-- What `CloseSocket` does to the variables. -/
theorem closeSocket_slots {slot : Slot} {c : CloseSocket} {r : Option CloseSocket}
    (hstep : s.closeSocket slot c = (t, r)) :
    t.stop = s.stop ∧ (t.listener = none ∨ t.listener = s.listener) ∧
      (slot = .listener → c = .exchange → t.listener = none) := by
  cases c with
  | exchange =>
      rw [Process.closeSocket] at hstep
      split at hstep
      · next hnone =>
          cases hstep
          refine ⟨rfl, .inr rfl, ?_⟩
          rintro rfl -
          exact hnone
      · cases hstep
        cases slot with
        | client => exact ⟨rfl, .inr rfl, by rintro ⟨⟩⟩
        | listener => exact ⟨rfl, .inl rfl, fun _ _ ↦ rfl⟩
  | shutdown handle =>
      cases hstep
      exact ⟨rfl, .inr rfl, by rintro - ⟨⟩⟩
  | closesocket handle =>
      cases hstep
      exact ⟨rfl, .inr rfl, by rintro - ⟨⟩⟩

/-- A step of a call of `ConsoleControlHandler` keeps the invariant. -/
theorem Live.handlerStep (h : s.Live) {i : Nat} {p : HandlerPoint}
    (hi : s.handlers[i]? = some p) (hstep : s.handlerStep i p = some t) : t.Live := by
  rcases handlerStep_cases hstep with ⟨rfl, rfl⟩ | ⟨slot, c, u, r, rfl, hclose, rfl⟩
  · exact ⟨h.worker, h.cursor, h.listener,
      fun _ _ ↦ .inr ⟨.closing .client .exchange, mem_set_self _ hi, rfl⟩⟩
  · obtain ⟨hsame, -⟩ := closeSocket_less hclose
    simp only [Prod.mk.injEq] at hsame
    obtain ⟨hmain, hworker, -, hcursor, hhandlers⟩ := hsame
    obtain ⟨hstop, hlistener, hcleared⟩ := closeSocket_slots hclose
    refine ⟨fun hhas ↦ ?_, fun hhas ↦ ?_, fun hnone ↦ ?_, fun hat hset ↦ ?_⟩
    · exact hworker ▸ h.worker (hmain ▸ hhas)
    · exact hcursor ▸ h.cursor (hmain ▸ hhas)
    · exact hmain ▸ h.listener (hmain ▸ hnone)
    · rcases h.control (hmain ▸ hat) (hstop ▸ hset) with hnone | ⟨p, hp, hclears⟩
      · exact .inl (hlistener.elim id fun hsame ↦ hsame.trans hnone)
      · simp only [Process.handlerAt, hhandlers]
        rcases mem_set_of_mem (i := i) (r.elim (HandlerPoint.after slot) (.closing slot)) hp
          with hmem | hpi
        · exact .inr ⟨p, hmem, hclears⟩
        · -- the call that moves was the one that was to take the listener
          obtain rfl := Option.some.inj (hi.symm.trans hpi)
          cases slot with
          | client =>
              refine .inr ⟨_, mem_set_self _ hi, ?_⟩
              cases r <;> rfl
          | listener =>
              cases c with
              | exchange => exact .inl (hcleared rfl rfl)
              | shutdown handle => cases hclears
              | closesocket handle => cases hclears

/-- A step of any thread, or of the network, keeps the invariant. -/
theorem Live.next (h : s.Live) {e : Event} (hstep : s.next e = some t) : t.Live := by
  cases e with
  | main a => exact h.mainStep hstep
  | worker a =>
      obtain ⟨hbeside, hcursor, -⟩ := workerStep_beside hstep
      obtain ⟨hstop, hpresent⟩ := workerStep_present hstep
      exact h.beside hbeside hstop (fun _ ↦ hpresent rfl) (by rw [hcursor]; exact id)
  | cursor a =>
      obtain ⟨hbeside, hworker, -⟩ := cursorStep_beside hstep
      obtain ⟨hstop, hpresent⟩ := cursorStep_present hstep
      exact h.beside hbeside hstop (by rw [hworker]; exact id) fun _ ↦ hpresent
  | handler i =>
      obtain ⟨p, hi, hstep⟩ := Option.bind_eq_some_iff.1 hstep
      exact h.handlerStep hi hstep
  | control =>
      cases hstep
      refine ⟨h.worker, h.cursor, h.listener, fun hat hset ↦ ?_⟩
      refine (h.control hat hset).imp_right fun ⟨p, hp, hclears⟩ ↦ ?_
      exact ⟨p, List.mem_append_left _ hp, hclears⟩
  | connect i =>
      cases hstep
      exact ⟨h.worker, h.cursor, h.listener, h.control⟩
  | arrive i chunk =>
      cases hstep
      exact ⟨h.worker, h.cursor, h.listener, h.control⟩
  | hangUp i =>
      cases hstep
      exact ⟨h.worker, h.cursor, h.listener, h.control⟩
  | fail i =>
      cases hstep
      exact ⟨h.worker, h.cursor, h.listener, h.control⟩

theorem Live.new (frames : Nat) : (Process.new frames).Live where
  worker := nofun
  cursor := nofun
  listener _ := rfl
  control := nofun

/-- The invariant holds in every run. -/
theorem Live.run {frames : Nat} (h : Run (Process.new frames) s) : s.Live :=
  run_preserves (fun h ⟨_, _, hnext⟩ ↦ h.next hnext) (.new frames) h

/-- No thread of the host runs. -/
def Over (s : Process) : Prop :=
  s.main.point = .ended ∧ s.worker.point.alive = false ∧ s.cursor.alive = false ∧
    ∀ p ∈ s.handlers, p = .returned

/-- `ReadHandshake` waits for a client that sends nothing and stays. -/
def Silent (s : Process) : Prop :=
  (∀ p ∈ s.handlers, p = .returned) ∧ ∃ line x, s.main.point = .receiving line ∧
    s.connection s.main.client = some x ∧ x.input = [] ∧ x.hungUp = false

/-- The encoder does not return to the worker, and `main` waits in `worker.join()`. -/
def Stuck (s : Process) : Prop :=
  s.main.point = .joinWorker ∧ s.Encodes ∧ s.cursor.alive = false ∧
    ∀ p ∈ s.handlers, p = .returned

/-- One of the threads makes a step, whether the encoder returns or not. -/
def CanStep (s : Process) : Prop := ∃ t, Moves next DueStep s t

/-- A step that comes about need only be possible. -/
theorem canStep_of_next {e : Event} (hdue : s.DueStep e) (hnext : (s.next e).isSome = true) :
    s.CanStep := by
  obtain ⟨t, ht⟩ := Option.isSome_iff_exists.1 hnext
  exact ⟨t, e, hdue, ht⟩

/-- What comes about is one of the steps that end the host. -/
theorem CanStep.own (h : s.CanStep) : ∃ t, Moves next OwnStep s t := by
  obtain ⟨t, e, hdue, hnext⟩ := h
  refine ⟨t, e, ?_, hnext⟩
  cases e with
  | main a => trivial
  | worker a => trivial
  | cursor a => trivial
  | handler i => trivial
  | control => exact hdue
  | connect i => exact hdue
  | arrive i chunk => exact hdue
  | hangUp i => exact hdue
  | fail i => exact hdue

/-- A call of `ConsoleControlHandler` that has not returned goes on. -/
theorem handler_canStep {p : HandlerPoint} (hmem : p ∈ s.handlers) (hp : p ≠ .returned) :
    s.CanStep := by
  obtain ⟨i, hi⟩ := List.mem_iff_getElem?.1 hmem
  apply canStep_of_next (e := .handler i) trivial
  rw [Process.next, hi]
  cases p with
  | stop => rfl
  | closing slot c =>
      simp only [Option.bind_some, Process.handlerStep]
      split <;> rfl
  | returned => exact absurd rfl hp

/-- The worker waits for nobody but the encoder. -/
theorem worker_next (halive : s.worker.point.alive = true) :
    (s.next (.worker .done)).isSome = true := by
  cases hp : s.worker.point with
  | absent => cases hp ▸ halive
  | ended => cases hp ▸ halive
  | replacing =>
      rw [Process.next, hp, Process.workerStep]
      split <;> rfl
  | leaving =>
      rw [Process.next, hp, Process.workerStep]
      split <;> rfl
  | _ =>
      rw [Process.next, hp]
      rfl

/-- So does the cursor thread until it has ended. -/
theorem cursor_canStep (halive : s.cursor.alive = true) : s.CanStep := by
  cases hp : s.cursor with
  | absent => cases hp ▸ halive
  | ended => cases hp ▸ halive
  | _ =>
      apply canStep_of_next (e := .cursor .done) trivial
      rw [Process.next, hp]
      rfl

/-- `main` waits for a client, for what the client sends, and for the two threads. -/
theorem main_canStep (hended : s.main.point ≠ .ended)
    (haccepting : s.main.point = .accepting →
      ∃ l, s.main.listener = some l ∧ s.connection l = none)
    (hreceiving : ∀ line x, s.main.point = .receiving line →
      s.connection s.main.client = some x → x.input ≠ [] ∨ x.hungUp = true)
    (hworker : s.main.point = .joinWorker → s.worker.point = .ended)
    (hcursor : s.main.point = .joinCursor → s.cursor = .ended) : s.CanStep := by
  cases hp : s.main.point with
  | create =>
      apply canStep_of_next (e := .main .failed) trivial
      rw [Process.next, hp]
      rfl
  | accepting =>
      obtain ⟨l, hl, hnone⟩ := haccepting hp
      apply canStep_of_next (e := .main .done) trivial
      rw [Process.next, hp, Process.mainStep, hl, Option.bind_some, Process.accept, hnone]
      rfl
  | configure =>
      -- the handle may have been closed, and then the call fails
      apply canStep_of_next (e := .main .failed) trivial
      rw [Process.next, hp]
      rfl
  | receiving line =>
      apply canStep_of_next (e := .main .done) trivial
      rw [Process.next, hp, Process.mainStep, Process.receive]
      split
      · rfl
      · next x hx =>
        split
        · next hinput =>
          rw [if_pos ((hreceiving line x hp hx).resolve_left (absurd hinput))]
          rfl
        · split
          · rfl
          · split_ifs <;> rfl
  | responding frame =>
      apply canStep_of_next (e := .main .done) trivial
      rw [Process.next, hp]
      rfl
  | publishingFirst frame =>
      apply canStep_of_next (e := .main .done) trivial
      rw [Process.next, hp, Process.mainStep]
      split <;> rfl
  | joinWorker =>
      apply canStep_of_next (e := .main .done) trivial
      rw [Process.next, hp, Process.mainStep, if_pos (hworker hp)]
      rfl
  | joinCursor =>
      apply canStep_of_next (e := .main .done) trivial
      rw [Process.next, hp, Process.mainStep, if_pos (hcursor hp)]
      rfl
  | closing site c =>
      apply canStep_of_next (e := .main .done) trivial
      rw [Process.next, hp, Process.mainStep]
      split <;> rfl
  | ended => exact absurd hp hended
  | _ =>
      apply canStep_of_next (e := .main .done) trivial
      rw [Process.next, hp]
      rfl

/-- A listener that is in nobody's hands and in no variable is closed. -/
theorem connection_listener (hheld : s.Held) (hp : s.main.point = .accepting)
    (hlistener : s.listener = none) (hreturned : ∀ p ∈ s.handlers, p = .returned) (l : Nat) :
    s.connection l = none := by
  have hhandlers : s.inHandlers l = 0 := by
    rw [inHandlers, List.sum_eq_zero_iff_forall_eq_nat]
    intro n hn
    obtain ⟨p, hp, rfl⟩ := List.mem_map.1 hn
    rw [hreturned p hp]
    rfl
  have hcount : s.sockets.openCount l = 0 := by
    rw [hheld.held l, inSlots, hheld.clientFree (by rw [hp]; rfl), hlistener,
      handles_eq_nil (by rw [hp]; rfl), hhandlers]
    rfl
  rw [Process.connection, HandleTable.lookup_eq_none.2 hcount]
  rfl

theorem eq_ended_of_not_alive {p : WorkerPoint} (halive : ¬p.alive = true)
    (habsent : p.isAbsent = false) : p = .ended := by
  cases p with
  | absent => cases habsent
  | ended => rfl
  | _ => exact absurd rfl halive

theorem cursor_eq_ended {p : CursorPoint} (halive : ¬p.alive = true)
    (habsent : p.isAbsent = false) : p = .ended := by
  cases p with
  | absent => cases habsent
  | ended => rfl
  | _ => exact absurd rfl halive

/-- Once `g_stop` is set, nothing but a silent client and the encoder hold up the end. -/
theorem canStep (hheld : s.Held) (hlive : s.Live) (hstop : s.stop = true) (hover : ¬s.Over)
    (hsilent : ¬s.Silent) (hencoder : ¬s.Stuck) : s.CanStep := by
  by_contra hstuck
  have hreturned : ∀ p ∈ s.handlers, p = .returned := by
    intro p hmem
    by_contra hp
    exact hstuck (handler_canStep hmem hp)
  have hcursor : ¬s.cursor.alive = true := fun halive ↦ hstuck (cursor_canStep halive)
  have haccepting : s.main.point = .accepting →
      ∃ l, s.main.listener = some l ∧ s.connection l = none := by
    intro hp
    have hnone : s.listener = none := by
      rcases hlive.control (by rw [hp]; rfl) hstop with hnone | ⟨p, hmem, hclears⟩
      · exact hnone
      · rw [hreturned p hmem] at hclears
        cases hclears
    cases hl : s.main.listener with
    | none => exact absurd (hlive.listener hl) (by rw [hp]; nofun)
    | some l => exact ⟨l, rfl, connection_listener hheld hp hnone hreturned l⟩
  have hreceiving : ∀ line x, s.main.point = .receiving line →
      s.connection s.main.client = some x → x.input ≠ [] ∨ x.hungUp = true := by
    intro line x hp hx
    by_contra hquiet
    rw [not_or, not_not] at hquiet
    exact hsilent ⟨hreturned, line, x, hp, hx, hquiet.1, Bool.eq_false_iff.2 hquiet.2⟩
  have hjoin : s.main.point = .joinCursor → s.cursor = .ended := fun hp ↦
    cursor_eq_ended hcursor (hlive.cursor (by rw [hp]; rfl))
  by_cases hworker : s.worker.point.alive = true
  · -- the worker is in the encoder, and `main` can go on until it joins the worker
    have hencodes : s.Encodes := by
      by_contra hencodes
      exact hstuck (canStep_of_next (e := .worker .done) hencodes (worker_next hworker))
    have hhas := hheld.worker hworker
    refine hstuck (main_canStep (fun hended ↦ ?_) haccepting hreceiving (fun hp ↦ ?_) hjoin)
    · rw [hended] at hhas
      cases hhas
    · exact absurd ⟨hp, hencodes, Bool.eq_false_iff.2 hcursor, hreturned⟩ hencoder
  · refine hstuck (main_canStep (fun hended ↦ ?_) haccepting hreceiving (fun hp ↦ ?_) hjoin)
    · exact hover ⟨hended, Bool.eq_false_iff.2 hworker, Bool.eq_false_iff.2 hcursor, hreturned⟩
    · exact eq_ended_of_not_alive hworker (hlive.worker (by rw [hp]; rfl))

/-- If the encoder returns, the worker goes on. -/
theorem Stuck.own (h : s.Stuck) : ∃ t, Moves next OwnStep s t := by
  have halive : s.worker.point.alive = true := by
    have hencodes := h.2.1
    unfold Encodes at hencodes
    cases hp : s.worker.point with
    | absent =>
        rw [hp] at hencodes
        cases hencodes
    | ended =>
        rw [hp] at hencodes
        cases hencodes
    | _ => rfl
  obtain ⟨t, ht⟩ := Option.isSome_iff_exists.1 (worker_next halive)
  exact ⟨t, .worker .done, trivial, ht⟩

/-! ## A client that is known to `ConsoleControlHandler` -/

/-- Nothing comes over the handle any more. -/
def Dead (s : Process) (handle : Nat) : Prop :=
  s.sockets.AllNamed handle fun x ↦ x.shutdown = true ∨ x.failed = true

/-- The connection is over, or a call of `ConsoleControlHandler` is going to end it. -/
def Attended (s : Process) : Prop :=
  s.Dead s.main.client ∨
    s.client = some s.main.client ∧ (∃ p ∈ s.handlers, p = .stop ∨ p = .closing .client .exchange) ∨
    .closing .client (.shutdown s.main.client) ∈ s.handlers

/-- Nothing comes over a dead handle. -/
theorem Dead.connection {handle : Nat} (h : s.Dead handle) : s.connection handle = none := by
  rw [Process.connection, Option.filter_eq_none_iff]
  intro x hx
  rcases HandleTable.AllNamed.lookup h hx with hshutdown | hfailed
  · simp [hshutdown]
  · simp [hfailed]

/-- A dead handle stays dead when something is shut down. -/
theorem Dead.shutdown {handle : Nat} (h : s.Dead handle) (h' : Nat) :
    (s.shutdown h').Dead handle :=
  HandleTable.AllNamed.update h h' fun _ _ ↦ .inl rfl

/-- `shutdown` ends what comes over a handle. -/
theorem dead_shutdown (h : s.Table) (handle : Nat) : (s.shutdown handle).Dead handle :=
  HandleTable.allNamed_update (h.once handle) fun _ ↦ .inl rfl

/-- `CloseSocket` revives nothing, and ends what it has taken. -/
theorem closeSocket_dead (h : s.Table) {slot : Slot} {c : CloseSocket} {r : Option CloseSocket}
    (hstep : s.closeSocket slot c = (t, r)) (handle : Nat) :
    (s.Dead handle → t.Dead handle) ∧ (c = .shutdown handle → t.Dead handle) := by
  cases c with
  | exchange =>
      rw [Process.closeSocket] at hstep
      split at hstep
      · cases hstep
        exact ⟨id, by rintro ⟨⟩⟩
      · cases hstep
        cases slot with
        | client => exact ⟨id, by rintro ⟨⟩⟩
        | listener => exact ⟨id, by rintro ⟨⟩⟩
  | shutdown handle' =>
      cases hstep
      refine ⟨fun hdead ↦ hdead.shutdown handle', ?_⟩
      rintro ⟨⟩
      exact dead_shutdown h handle
  | closesocket handle' =>
      cases hstep
      exact ⟨fun hdead ↦ HandleTable.AllNamed.close hdead handle', by rintro ⟨⟩⟩

/-- What `CloseSocket` leaves of the client. -/
theorem closeSocket_client {slot : Slot} {c : CloseSocket} {r : Option CloseSocket}
    (hstep : s.closeSocket slot c = (t, r)) {handle : Nat} (hclient : s.client = some handle) :
    t.client = some handle ∨ slot = .client ∧ c = .exchange ∧ r = some (.shutdown handle) := by
  cases c with
  | exchange =>
      cases slot with
      | client =>
          rw [Process.closeSocket, Process.slot, hclient] at hstep
          cases hstep
          exact .inr ⟨rfl, rfl, rfl⟩
      | listener =>
          rw [Process.closeSocket] at hstep
          split at hstep
          · cases hstep
            exact .inl hclient
          · cases hstep
            exact .inl hclient
  | shutdown handle' =>
      cases hstep
      exact .inl hclient
  | closesocket handle' =>
      cases hstep
      exact .inl hclient

/-- The call that attends to the client goes on, and in the end the client is dead. -/
theorem Attended.handlerStep (h : s.Attended) (htable : s.Table) {i : Nat} {p : HandlerPoint}
    (hi : s.handlers[i]? = some p) (hstep : s.handlerStep i p = some t) : t.Attended := by
  rcases handlerStep_cases hstep with ⟨rfl, rfl⟩ | ⟨slot, c, u, r, rfl, hclose, rfl⟩
  · rcases h with hdead | ⟨hclient, -⟩ | hmem
    · exact .inl hdead
    · exact .inr (.inl ⟨hclient, _, mem_set_self _ hi, .inr rfl⟩)
    · rcases mem_set_of_mem (.closing .client .exchange) hmem with hmem | hpi
      · exact .inr (.inr hmem)
      · cases hi.symm.trans hpi
  · obtain ⟨hsame, -⟩ := closeSocket_less hclose
    simp only [Prod.mk.injEq] at hsame
    obtain ⟨hmain, -, -, -, hhandlers⟩ := hsame
    obtain ⟨hdies, hended⟩ := closeSocket_dead htable hclose s.main.client
    rw [Attended, show (u.handlerAt i _).main = u.main from rfl, hmain]
    rcases h with hdead | ⟨hclient, p, hmem, hp⟩ | hmem
    · exact .inl (hdies hdead)
    · rcases closeSocket_client hclose hclient with hclient' | ⟨rfl, rfl, rfl⟩
      · rcases mem_set_of_mem (i := i) (r.elim (HandlerPoint.after slot) (.closing slot)) hmem
          with hmem | hpi
        · refine .inr (.inl ⟨hclient', p, ?_, hp⟩)
          rw [Process.handlerAt, hhandlers]
          exact hmem
        · -- the call that moves takes the client out of its variable
          obtain rfl := Option.some.inj (hi.symm.trans hpi)
          obtain ⟨rfl, rfl⟩ := HandlerPoint.closing.inj (hp.resolve_left (by rintro ⟨⟩))
          rw [Process.closeSocket, Process.slot, hclient] at hclose
          cases hclose
          cases hclient'
      · refine .inr (.inr ?_)
        rw [Process.handlerAt, hhandlers]
        exact mem_set_self _ hi
    · rcases mem_set_of_mem (i := i) (r.elim (HandlerPoint.after slot) (.closing slot)) hmem
        with hmem | hpi
      · refine .inr (.inr ?_)
        rw [Process.handlerAt, hhandlers]
        exact hmem
      · obtain ⟨rfl, rfl⟩ := HandlerPoint.closing.inj (Option.some.inj (hi.symm.trans hpi))
        exact .inl (hended rfl)

/-- `main` has got so far that it does not accept a client any more, and if it serves one without
looking at `g_stop`, then the client is attended to. -/
structure Reached (s : Process) : Prop where
  rank : s.main.point.rank ≤ 32 + kMaxHandshakeBytes
  attended : 31 ≤ s.main.point.rank → s.Attended

/-- Only two points are as far from the end. -/
theorem point_of_rank {p : MainPoint} (hle : 31 ≤ p.rank)
    (hrank : p.rank ≤ 32 + kMaxHandshakeBytes) : p = .configure ∨ ∃ line, p = .receiving line := by
  cases p with
  | configure => exact .inl rfl
  | receiving line => exact .inr ⟨line, rfl⟩
  | waiting first q =>
      exfalso
      cases first <;> cases q <;> simp [MainPoint.rank, WaitPoint.rank] at hle
  | closing site c =>
      have hc := CloseSocket.rank_le c
      cases site <;> simp only [MainPoint.rank] at hle <;> omega
  | _ =>
      simp only [MainPoint.rank] at hle hrank
      omega

/-- `main` comes closer to its end, and its client stays attended to until the handshake is over. -/
theorem Reached.mainStep (h : s.Reached) (hstop : s.stop = true) {a : Answer}
    (hstep : s.mainStep a s.main.point = some t) : t.Reached := by
  have hless := (mainStep_less hstop hstep).rank
  refine ⟨by have := h.rank; omega, fun hle ↦ ?_⟩
  have hattended := h.attended (by omega)
  rcases point_of_rank (by omega) h.rank with hp | ⟨line, hp⟩
  · rw [hp] at hstep
    cases a with
    | failed =>
        cases hstep
        simp [mainAt, MainPoint.rank] at hle
    | _ =>
        simp only [Process.mainStep] at hstep
        split_ifs at hstep
        cases hstep
        exact hattended
  · rw [hp, Process.mainStep, Process.receive] at hstep
    split at hstep
    · cases hstep
      simp [leaveSession, mainAt, MainPoint.rank, CloseSocket.rank] at hle
    · next x hx =>
      have hlater (f : Socket → Socket) (point : MainPoint) :
          Attended ({ s with sockets := s.sockets.update s.main.client f }.mainAt point) := by
        rcases hattended with hdead | hattended
        · cases hdead.connection.symm.trans hx
        · exact .inr hattended
      split at hstep
      · split_ifs at hstep
        cases hstep
        simp [leaveSession, mainAt, MainPoint.rank, CloseSocket.rank] at hle
      · split at hstep
        · cases hstep
          unfold Process.handshake
          split
          · exact hlater _ _
          · exact hlater _ _
        · split_ifs at hstep
          · cases hstep
            exact hlater _ _
          · cases hstep
            exact hlater _ _

/-- Other threads keep what has been reached. -/
theorem Reached.beside (h : s.Reached) (hmain : t.main = s.main)
    (hattended : s.Attended → t.Attended) : t.Reached := by
  refine ⟨hmain ▸ h.rank, fun hle ↦ hattended (h.attended (hmain ▸ hle))⟩

/-- The threads of a session look at `g_stop`. -/
theorem rank_of_hasCursor {p : MainPoint} (h : p.hasCursor = true) : p.rank < 31 := by
  cases p with
  | waiting first q =>
      cases first with
      | true => cases h
      | false => cases q <;> decide
  | closing site c => cases h
  | publishing frame => simp [MainPoint.rank]
  | receiving line => cases h
  | responding frame => cases h
  | publishingFirst frame => cases h
  | _ => first | decide | cases h

theorem hasCursor_of_hasWorker {p : MainPoint} (h : p.hasWorker = true) : p.hasCursor = true := by
  cases p with
  | _ => first | exact h | rfl

/-- A step of any thread keeps it. -/
theorem Reached.next (h : s.Reached) (hheld : s.Held) (hstop : s.stop = true) {e : Event}
    (hown : s.OwnStep e) (hstep : s.next e = some t) : t.Reached := by
  cases e with
  | main a => exact h.mainStep hstop hstep
  | worker a =>
      obtain ⟨⟨-, hmain⟩, -, halive⟩ := workerStep_beside hstep
      have hrank := rank_of_hasCursor (hasCursor_of_hasWorker (hheld.worker halive))
      exact ⟨hmain ▸ h.rank, fun hle ↦ absurd hle (hmain ▸ not_le.2 hrank)⟩
  | cursor a =>
      obtain ⟨⟨-, hmain⟩, -, halive⟩ := cursorStep_beside hstep
      have hrank := rank_of_hasCursor (hheld.cursor halive)
      exact ⟨hmain ▸ h.rank, fun hle ↦ absurd hle (hmain ▸ not_le.2 hrank)⟩
  | handler i =>
      obtain ⟨p, hi, hstep⟩ := Option.bind_eq_some_iff.1 hstep
      refine h.beside (handlerStep_less hi hstep).main fun hattended ↦ ?_
      exact hattended.handlerStep hheld.table hi hstep
  | control => cases hown
  | connect i => cases hown
  | arrive i chunk => cases hown
  | hangUp i => cases hown
  | fail i => cases hown

/-- A client that is attended to does not stay silent. -/
theorem Reached.not_silent (h : s.Reached) : ¬s.Silent := by
  rintro ⟨hreturned, line, x, hp, hx, -, -⟩
  have hle : 31 ≤ s.main.point.rank := by
    rw [hp]
    exact Nat.le_add_right 31 _
  rcases h.attended hle with hdead | ⟨-, p, hmem, hp | hp⟩ | hmem
  · cases hdead.connection.symm.trans hx
  · cases hp.symm.trans (hreturned p hmem)
  · cases hp.symm.trans (hreturned p hmem)
  · cases hreturned _ hmem

/-! ## The end -/

theorem closeSocket_frames {slot : Slot} {c : CloseSocket} {r : Option CloseSocket}
    (hstep : s.closeSocket slot c = (t, r)) : t.frames = s.frames := by
  cases c with
  | exchange =>
      rw [Process.closeSocket] at hstep
      split at hstep
      · cases hstep
        rfl
      · cases hstep
        cases slot <;> rfl
  | shutdown handle =>
      cases hstep
      rfl
  | closesocket handle =>
      cases hstep
      rfl

theorem waitForFrame_same (first : Bool) (a : Answer) (p : WaitPoint) :
    (s.waitForFrame first a p).stop = s.stop ∧ (s.waitForFrame first a p).frames = s.frames := by
  unfold Process.waitForFrame Process.stopWaiting
  split
  all_goals
    split_ifs
    all_goals first
      | exact ⟨rfl, rfl⟩
      | (split <;> exact ⟨rfl, rfl⟩)

/-- `main` does not touch `g_stop`, and nothing touches the limit. -/
theorem mainStep_same {a : Answer} {p : MainPoint} (hstep : s.mainStep a p = some t) :
    t.stop = s.stop ∧ t.frames = s.frames := by
  cases p with
  | create =>
      cases a with
      | socket handle =>
          simp only [Process.mainStep] at hstep
          split_ifs at hstep
          cases hstep
          exact ⟨rfl, rfl⟩
      | failed =>
          cases hstep
          exact ⟨rfl, rfl⟩
      | _ => cases hstep
  | accepting =>
      obtain ⟨listener, -, hstep⟩ := Option.bind_eq_some_iff.1 hstep
      unfold Process.accept at hstep
      split at hstep
      · cases hstep
        exact ⟨rfl, rfl⟩
      · split at hstep
        · split_ifs at hstep
          cases hstep
          exact ⟨rfl, rfl⟩
        · cases hstep
  | receiving line =>
      simp only [Process.mainStep, Process.receive] at hstep
      split at hstep
      · cases hstep
        exact ⟨rfl, rfl⟩
      · split at hstep
        · split_ifs at hstep
          cases hstep
          exact ⟨rfl, rfl⟩
        · split at hstep
          · cases hstep
            unfold Process.handshake
            split <;> exact ⟨rfl, rfl⟩
          · split_ifs at hstep <;> cases hstep <;> exact ⟨rfl, rfl⟩
  | waiting first q =>
      cases hstep
      exact waitForFrame_same first a q
  | publishingFirst frame =>
      simp only [Process.mainStep] at hstep
      split at hstep <;> cases hstep <;> exact ⟨rfl, rfl⟩
  | joinWorker =>
      simp only [Process.mainStep] at hstep
      split_ifs at hstep
      cases hstep
      exact ⟨rfl, rfl⟩
  | joinCursor =>
      simp only [Process.mainStep] at hstep
      split_ifs at hstep
      cases hstep
      exact ⟨rfl, rfl⟩
  | closing site c =>
      simp only [Process.mainStep] at hstep
      split at hstep
      · next heq =>
          cases hstep
          have hframes := closeSocket_frames heq
          exact ⟨(closeSocket_slots heq).1, hframes⟩
      · next heq =>
          cases hstep
          have hframes := closeSocket_frames heq
          exact ⟨(closeSocket_slots heq).1, hframes⟩
  | configure =>
      cases a with
      | failed =>
          cases hstep
          exact ⟨rfl, rfl⟩
      | _ =>
          simp only [Process.mainStep] at hstep
          split_ifs at hstep
          cases hstep
          exact ⟨rfl, rfl⟩
  | ended => cases hstep
  | _ =>
      cases a with
      | _ =>
          cases hstep
          exact ⟨rfl, rfl⟩

/-- `g_stop` stays set. -/
theorem stop_next {e : Event} (hstop : s.stop = true) (hstep : s.next e = some t) :
    t.stop = true := by
  cases e with
  | main a => exact (mainStep_same hstep).1.trans hstop
  | worker a => exact (workerStep_present hstep).1.trans hstop
  | cursor a => exact (cursorStep_present hstep).1.trans hstop
  | handler i =>
      obtain ⟨p, -, hstep⟩ := Option.bind_eq_some_iff.1 hstep
      rcases handlerStep_cases hstep with ⟨rfl, rfl⟩ | ⟨slot, c, u, r, rfl, hclose, rfl⟩
      · rfl
      · exact (closeSocket_slots hclose).1.trans hstop
  | control =>
      cases hstep
      exact hstop
  | connect i =>
      cases hstep
      exact hstop
  | arrive i chunk =>
      cases hstep
      exact hstop
  | hangUp i =>
      cases hstep
      exact hstop
  | fail i =>
      cases hstep
      exact hstop

/-- What all results about the end need of a state. -/
structure Ending (s : Process) : Prop where
  held : s.Held
  live : s.Live
  stop : s.stop = true

/-- Every step keeps it. -/
theorem Ending.next (h : s.Ending) {e : Event} (hstep : s.next e = some t) : t.Ending :=
  ⟨h.held.next hstep, h.live.next hstep, stop_next h.stop hstep⟩

/-- What holds whenever nothing due can move is reached. -/
theorem Ending.settles {P I : Process → Prop} {due : Process → Process → Prop} (h : s.Ending)
    (hI : I s)
    (hnext : ∀ {s t : Process} {e : Event}, s.Ending → I s → s.OwnStep e → s.next e = some t → I t)
    (hcan : ∀ {s : Process}, s.Ending → I s → ¬P s → ∃ t, due s t) :
    Settles (Moves Process.next OwnStep) due P s := by
  by_cases hP : P s
  · exact .here hP
  apply Settles.of_measure (I := fun s ↦ s.Ending ∧ I s ∧ ¬P s) work ?_ ⟨h, hI, hP⟩
  rintro s ⟨h, hI, hP⟩
  refine ⟨hcan h hI hP, ?_⟩
  rintro t ⟨e, hown, hstep⟩
  by_cases hdone : P t
  · exact .inl hdone
  · right
    exact ⟨⟨h.next hstep, hnext h hI hown hstep, hdone⟩, work_lt h.stop hown hstep⟩

/-- If the encoder returns, it does not hold up the end. -/
theorem Ending.own_canStep (h : s.Ending) (hover : ¬s.Over) (hsilent : ¬s.Silent) :
    ∃ t, Moves Process.next OwnStep s t := by
  by_cases hencoder : s.Stuck
  · exact hencoder.own
  · exact (canStep h.held h.live h.stop hover hsilent hencoder).own

/-- Whoever makes the handshake, if anyone does, is attended to, and `main` does not wait for
another client. -/
theorem reached_of_attended (haccepting : s.main.point ≠ .accepting)
    (hstore : s.main.point ≠ .storeClient)
    (hattended :
      (s.main.point = .configure ∨ ∃ line, s.main.point = .receiving line) → s.Attended) :
    s.Reached := by
  have hrank : s.main.point.rank ≤ 32 + kMaxHandshakeBytes := by
    cases hp : s.main.point with
    | accepting => exact absurd hp haccepting
    | storeClient => exact absurd hp hstore
    | waiting first q =>
        cases first <;> cases q <;> simp [MainPoint.rank, WaitPoint.rank, kMaxHandshakeBytes]
    | closing site c =>
        have hc := CloseSocket.rank_le c
        cases site <;> simp only [MainPoint.rank] <;> omega
    | _ =>
        simp only [MainPoint.rank]
        omega
  exact ⟨hrank, fun hle ↦ hattended (point_of_rank hle hrank)⟩

/-- **Control-C ends the host.**  Once `g_stop` is set, `main`, the worker, the cursor thread and
the calls of `ConsoleControlHandler` all come to their end, or `ReadHandshake` is left to wait
for a silent client, or the worker is left in a call of the encoder that does not return.  If
the encoder's calls return, only the first two can happen.  No client is left waiting, if `main`
does not wait for another client any more and whoever is making the handshake is known to
`ConsoleControlHandler`. -/
theorem control_ends_host {frames : Nat} (h : Run (Process.new frames) s)
    (hstop : s.stop = true) :
    Settles (Moves next OwnStep) (Moves next DueStep) (fun s ↦ s.Over ∨ s.Silent ∨ s.Stuck) s ∧
    Inevitable (Moves next OwnStep) (fun s ↦ s.Over ∨ s.Silent) s ∧
    (s.main.point ≠ .accepting → s.main.point ≠ .storeClient →
      ((s.main.point = .configure ∨ ∃ line, s.main.point = .receiving line) → s.Attended) →
      Settles (Moves next OwnStep) (Moves next DueStep) (fun s ↦ s.Over ∨ s.Stuck) s ∧
      Inevitable (Moves next OwnStep) Over s) := by
  have hending : s.Ending := ⟨Held.run h, Live.run h, hstop⟩
  refine ⟨?_, Settles.inevitable ?_, fun haccepting hstore hattended ↦ ?_⟩
  · refine hending.settles (I := fun _ ↦ True) trivial (fun _ _ _ _ ↦ trivial) ?_
    intro s h _ hP
    rw [not_or, not_or] at hP
    exact canStep h.held h.live h.stop hP.1 hP.2.1 hP.2.2
  · refine hending.settles (I := fun _ ↦ True) trivial (fun _ _ _ _ ↦ trivial) ?_
    intro s h _ hP
    rw [not_or] at hP
    exact h.own_canStep hP.1 hP.2
  · have hreached := reached_of_attended haccepting hstore hattended
    have hkeeps {s t : Process} {e : Event} (h : s.Ending) (hreached : s.Reached)
        (hown : s.OwnStep e) (hstep : s.next e = some t) : t.Reached :=
      hreached.next h.held h.stop hown hstep
    constructor
    · refine hending.settles hreached hkeeps fun h hreached hP ↦ ?_
      rw [not_or] at hP
      exact canStep h.held h.live h.stop hP.1 hreached.not_silent hP.2
    · refine Settles.inevitable (hending.settles hreached hkeeps fun h hreached hP ↦ ?_)
      exact h.own_canStep hP hreached.not_silent

/-- Control-C is pressed during a handshake, and `g_stop` is set. -/
def duringHandshake : List Event :=
  [.main (.socket 5)] ++ List.replicate 6 (.main .done) ++ serve .control ++ [.handler 0]

/-- The call has returned when `main` stores the client. -/
def beforeStore : List Event :=
  [.main (.socket 5)] ++ List.replicate 6 (.main .done) ++
    [.connect 0, .main (.socket 7), .control] ++ List.replicate 5 (.handler 0) ++
    List.replicate 2 (.main .done)

/-- A client asks for frames. -/
def greeting : Chunk where
  bytes := ("\x7b\"protocol\":1,\"device\":\"d\",\"width\":2,\"height\":2," ++
    "\"decoder\":[\"h264\"]\x7d\n").toList.map ascii
  pos := by decide
  le := by decide

/-- Control-C is pressed while the worker is in `EncodeFrame`, and all others end. -/
def duringEncoding : List Event :=
  [.main (.socket 5)] ++ List.replicate 6 (.main .done) ++ serve (.arrive 1 greeting) ++
    List.replicate 3 (.main .done) ++ [.main (.frame {})] ++ List.replicate 4 (.main .done) ++
    List.replicate 7 (.worker .done) ++ [.control] ++ List.replicate 7 (.handler 0) ++
    [.cursor .done] ++ List.replicate 2 (.main .done)

theorem control_ends_host_handshake :
    (∃ s, Run (Process.new 0) s ∧ s.main.point = .receiving [] ∧
      Inevitable (Moves next OwnStep) Over s) ∧
    (∃ s, Run (Process.new 0) s ∧ s.stop = true ∧ s.Silent) ∧
    ∃ s, Run (Process.new 0) s ∧ s.stop = true ∧ s.Stuck := by
  refine ⟨?_, ?_, ?_⟩
  · obtain ⟨s, hrun, hp, hclient, hsame, hhandlers, hstop⟩ :=
      show ∃ s, Run (Process.new 0) s ∧ s.main.point = .receiving [] ∧ s.client = some 7 ∧
          s.main.client = 7 ∧ s.handlers = [.closing .client .exchange] ∧ s.stop = true from
        exists_run duringHandshake (by decide +kernel)
    refine ⟨s, hrun, hp, ((control_ends_host hrun hstop).2.2 (by rw [hp]; nofun)
      (by rw [hp]; nofun) fun _ ↦ .inr (.inl ⟨by rw [hclient, hsame], _, ?_, .inr rfl⟩)).2⟩
    rw [hhandlers]
    exact List.mem_singleton_self _
  · obtain ⟨s, hrun, hstop, hp, hhandlers, hquiet⟩ :=
      show ∃ s, Run (Process.new 0) s ∧ s.stop = true ∧ s.main.point = .receiving [] ∧
          s.handlers = [.returned] ∧
          (s.connection s.main.client).any (fun x ↦ x.input.isEmpty && !x.hungUp) = true from
        exists_run beforeStore (by decide +kernel)
    obtain ⟨x, hx, hquiet⟩ := (Option.any_eq_true ..).1 hquiet
    simp only [Bool.and_eq_true, List.isEmpty_iff, Bool.not_eq_true'] at hquiet
    refine ⟨s, hrun, hstop, fun p hmem ↦ ?_, [], x, hp, hx, hquiet⟩
    rw [hhandlers] at hmem
    exact List.mem_singleton.1 hmem
  · obtain ⟨s, hrun, hstop, hp, hworker, hcursor, hhandlers⟩ :=
      show ∃ s, Run (Process.new 0) s ∧ s.stop = true ∧ s.main.point = .joinWorker ∧
          s.worker.point = .encoding ∧ s.cursor = .ended ∧ s.handlers = [.returned] from
        exists_run duringEncoding (by decide +kernel)
    refine ⟨s, hrun, hstop, hp, ?_, by rw [hcursor]; rfl, fun p hmem ↦ ?_⟩
    · rw [Encodes, hworker]
      trivial
    · rw [hhandlers] at hmem
      exact List.mem_singleton.1 hmem

end Process

end SecondScreen.Host.Serving
