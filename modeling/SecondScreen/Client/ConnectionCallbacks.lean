import SecondScreen.Client.ConnectionOwnership
import SecondScreen.Client.HandshakeResponse
import SecondScreen.Client.StreamReceiver

/-!
# The callbacks of the connection loops

The `notify…` of `ConnectionManager.java` ask `isCurrent` and then call the listener, in
two steps.  Here a connection loop also goes through these; all else is as before
(`Listening.run_connections`).

A callback is current exactly if nothing has been stopped since its loop asked
(`callbacks_current`).
-/

namespace SecondScreen.Client

open SecondScreen.Conc Relation

/-- The methods of `Listener`, with what they are given. -/
inductive Callback
  | onConnecting
  | onConnected (info : ConnectionInfo)
  | onCursor (state : CursorState)
  | onError (message : String)
  | onDisconnected
deriving DecidableEq

/-- How far a loop is with the callbacks of the point that it is at. -/
inductive Notice
  | /-- At the `isCurrent(token)` of the `catch` block. -/
    asking
  | /-- At a `notify…`. -/
    due
  | /-- `isCurrent` has been true, and the listener is about to be called. -/
    checked (callback : Callback)
  | done
deriving DecidableEq

/-- What there is to notify when a loop comes to a point. -/
def LoopPoint.notice : LoopPoint → Notice
  | .failed => .asking
  | .connecting | .receiving | .sleeping => .due
  | _ => .done

/-- The `notify…` of a point; that of `receiving` is the one before `receiver.run`. -/
def LoopPoint.notifies : LoopPoint → Callback → Bool
  | .connecting, .onConnecting => true
  | .receiving, .onConnected _ => true
  | .failed, .onError _ => true
  | .sleeping, .onDisconnected => true
  | _, _ => false

/-- A call of the listener, with the fields at that time. -/
structure Called where
  token : Nat
  callback : Callback
  generation : Nat
  running : Bool
  /-- There has been a `stop` since the loop asked `isCurrent`. -/
  stopped : Bool
deriving DecidableEq

def Called.Current (c : Called) : Prop := c.generation = c.token ∧ c.running = true

instance (c : Called) : Decidable c.Current := inferInstanceAs (Decidable (_ ∧ _))

/-- The connections with their listener. -/
structure Listening where
  connections : Connections := {}
  notices : Nat → Notice := fun _ ↦ .done
  /-- For each loop, whether there has been a `stop` since it last asked. -/
  stopped : Nat → Bool := fun _ ↦ false
  calls : List Called := []

inductive ListeningEvent
  | connection (event : ConnectionEvent)
  | /-- The `if (isCurrent(token))` of the `catch` block. -/
    ask (token : Nat)
  | /-- The `if (isCurrent(token))` of a `notify…`. -/
    notify (token : Nat) (callback : Callback)
  | /-- The call of the listener. -/
    listener (token : Nat)

namespace Listening

variable (s : Listening)

/-- The event is the synchronized block of a `stop`. -/
def stops : ConnectionEvent → Bool
  | .block caller _ => (s.connections.callers caller).head? == some .stop
  | _ => false

/-- What is left to notify; a loop goes on only when there is nothing. -/
def afterEvent (connections : Connections) : ConnectionEvent → Nat → Notice
  | .loop token _ => Function.update s.notices token (connections.loops token).point.notice
  | _ => s.notices

/-- A loop between two callbacks does not yet go on. -/
def blocked : ConnectionEvent → Bool
  | .loop token _ => s.notices token != .done
  | _ => false

/-- The loop is at a `notify…` with the callback; `receiver.run` makes any number of
`onCursor`. -/
def mayNotify (token : Nat) (callback : Callback) : Bool :=
  match s.notices token, (s.connections.loops token).point, callback with
  | .due, point, callback => point.notifies callback
  | .done, .receiving, .onCursor _ => true
  | _, _, _ => false

def next (s : Listening) : ListeningEvent → Option Listening
  | .connection event =>
      if s.blocked event then none
      else
        (s.connections.next event).map fun connections ↦
          { s with
            connections
            notices := s.afterEvent connections event
            stopped := fun k ↦ s.stopped k || s.stops event }
  | .ask token =>
      if s.notices token = .asking then
        let notice := if s.connections.manager.isCurrent token then .due else .done
        some { s with notices := Function.update s.notices token notice }
      else none
  | .notify token callback =>
      if s.mayNotify token callback then
        if s.connections.manager.isCurrent token then
          some { s with
            notices := Function.update s.notices token (.checked callback)
            stopped := Function.update s.stopped token false }
        else some { s with notices := Function.update s.notices token .done }
      else none
  | .listener token =>
      match s.notices token with
      | .checked callback =>
          some { s with
            notices := Function.update s.notices token .done
            calls := s.calls ++
              [⟨token, callback, s.connections.manager.generation,
                s.connections.manager.running, s.stopped token⟩] }
      | _ => none

/-- Any sequence of steps. -/
abbrev Run : Listening → Listening → Prop := ReflTransGen (Moves next fun _ _ ↦ True)

/-- No `stop` comes between a loop's `isCurrent` and the call of the listener that
follows it. -/
def Apart (s : Listening) : ListeningEvent → Prop
  | .connection event => s.stops event = true → ∀ k callback, s.notices k ≠ .checked callback
  | _ => True

/-- The event is that of a `stop`. -/
def stopsNow : ListeningEvent → Bool
  | .connection event => s.stops event
  | _ => false

variable {s} {t : Listening} {k token : Nat}

/-- A step that stops nothing comes between no check and its call. -/
theorem Apart.of_quiet {event : ListeningEvent} (h : s.stopsNow event = false) :
    s.Apart event := by
  cases event with
  | connection event => exact fun hstops ↦ Bool.noConfusion (h.symm.trans hstops)
  | ask token | notify token callback | listener token => trivial

/-! ## The generation -/

/-- From one state of the manager to the next, with or without a `stop`. -/
structure Goes (m m' : ConnectionManager) (stops : Bool) : Prop where
  le : m.generation ≤ m'.generation
  stopped : stops = true → m.generation < m'.generation
  kept : stops = false → m.running = true → m'.generation = m.generation ∧ m'.running = true

theorem Goes.same {m m' : ConnectionManager} (hgeneration : m'.generation = m.generation)
    (hrunning : m'.running = m.running) : Goes m m' false where
  le := hgeneration.ge
  stopped h := by cases h
  kept _ h := ⟨hgeneration, hrunning.trans h⟩

/-- Apart from a `stop`, nothing supersedes the loop of a running manager. -/
theorem next_goes {connections : Connections} {event : ConnectionEvent}
    (h : s.connections.next event = some connections) :
    Goes s.connections.manager connections.manager (s.stops event) := by
  cases event with
  | call caller call =>
      simp only [Connections.next] at h
      split_ifs at h
      cases h
      exact .same rfl rfl
  | block caller isValid =>
      simp only [Connections.next] at h
      split at h <;> cases h
      next block rest hblocks =>
      have hstops : s.stops (.block caller isValid) = (some block == some .stop) := by
        rw [stops, hblocks]
        rfl
      rw [hstops]
      cases block with
      | readSurface | setClosed => exact .same rfl rfl
      | stop =>
          refine ⟨Nat.le_succ _, fun _ ↦ Nat.lt_succ_self _, fun hfalse ↦ ?_⟩
          cases hfalse
      | start surface =>
          show Goes _ (ConnectionManager.start _ _ _).1 false
          simp only [ConnectionManager.start]
          split_ifs with hinvalid hclosed hrunning
          · exact .same rfl rfl
          · exact .same rfl rfl
          · exact .same rfl rfl
          · refine ⟨Nat.le_succ _, fun htrue ↦ ?_, fun _ h ↦ absurd h hrunning⟩
            cases htrue
  | loop token outcome =>
      obtain ⟨hgeneration, hrunning⟩ := (Connections.loopStep_effect h).generation
      exact .same hgeneration hrunning
  | receiverCloses receiver =>
      simp only [Connections.next] at h
      split_ifs at h
      cases h
      exact .same rfl rfl

/-! ## Each callback -/

/-- A loop that is about to call the listener is still the current one, unless there has been a
`stop` since it asked. -/
structure Inv (s : Listening) : Prop where
  current : ∀ k callback, s.notices k = .checked callback → s.stopped k = false →
    s.connections.manager.generation = k ∧ s.connections.manager.running = true
  superseded : ∀ k callback, s.notices k = .checked callback → s.stopped k = true →
    k < s.connections.manager.generation
  calls : ∀ c ∈ s.calls, c.Current ↔ c.stopped = false

theorem Inv.initial : Inv {} where
  current _ _ h := by cases h
  superseded _ _ h := by cases h
  calls _ h := by cases h

/-- A loop that is not about to call the listener now was not before, or has just asked. -/
theorem Inv.of_notices (h : Inv s) {notices : Nat → Notice}
    (hnotices : ∀ k callback, notices k = .checked callback → s.notices k = .checked callback) :
    Inv { s with notices } where
  current k callback hk := h.current k callback (hnotices k callback hk)
  superseded k callback hk := h.superseded k callback (hnotices k callback hk)
  calls := h.calls

/-- A loop's own notice becomes one that needs no check. -/
theorem update_checked {notices : Nat → Notice} {notice : Notice}
    (hnotice : ∀ callback, notice ≠ .checked callback) (k : Nat) (callback : Callback)
    (h : Function.update notices token notice k = .checked callback) :
    notices k = .checked callback := by
  rcases eq_or_ne k token with rfl | hne
  · rw [Function.update_self] at h
    exact absurd h (hnotice callback)
  · rwa [Function.update_of_ne hne] at h

/-- A loop checks only when it is about to call. -/
theorem notice_ne_checked (point : LoopPoint) (callback : Callback) :
    point.notice ≠ .checked callback := by
  cases point <;> exact Notice.noConfusion

theorem afterEvent_checked {connections : Connections} (event : ConnectionEvent) (k : Nat)
    (callback : Callback) (h : s.afterEvent connections event k = .checked callback) :
    s.notices k = .checked callback := by
  cases event with
  | loop token outcome => exact update_checked (notice_ne_checked _) k callback h
  | call | block | receiverCloses => exact h

/-- A step of the connections, after which a loop may have something to tell. -/
theorem Inv.connection (h : Inv s) {event : ConnectionEvent} {connections : Connections}
    (hnext : s.connections.next event = some connections) :
    Inv { s with
      connections
      notices := s.afterEvent connections event
      stopped := fun k ↦ s.stopped k || s.stops event } where
  current k callback hk hstopped := by
    obtain ⟨hbefore, hstops⟩ := Bool.or_eq_false_iff.1 hstopped
    have hchecked := afterEvent_checked event k callback hk
    obtain ⟨hgeneration, hrunning⟩ := h.current k callback hchecked hbefore
    obtain ⟨hkept, hruns⟩ := (next_goes hnext).kept hstops hrunning
    exact ⟨hkept.trans hgeneration, hruns⟩
  superseded k callback hk hstopped := by
    have hchecked := afterEvent_checked event k _ hk
    rcases Bool.or_eq_true_iff.1 hstopped with hbefore | hstops
    · exact (h.superseded k callback hchecked hbefore).trans_le (next_goes hnext).le
    · apply lt_of_le_of_lt _ ((next_goes hnext).stopped hstops)
      cases hbefore : s.stopped k with
      | false => exact (h.current k callback hchecked hbefore).1.ge
      | true => exact (h.superseded k callback hchecked hbefore).le
  calls := h.calls

/-- A step of a loop, of a caller or of a callback. -/
theorem Inv.next (h : Inv s) {event : ListeningEvent} (hnext : s.next event = some t) :
    Inv t := by
  cases event with
  | connection event =>
      simp only [Listening.next] at hnext
      split_ifs at hnext
      obtain ⟨connections, hconnections, rfl⟩ := Option.map_eq_some_iff.1 hnext
      exact h.connection hconnections
  | ask token =>
      simp only [Listening.next] at hnext
      split_ifs at hnext <;> cases hnext <;> apply h.of_notices <;> apply update_checked <;>
        exact fun _ ↦ Notice.noConfusion
  | notify token callback =>
      simp only [Listening.next] at hnext
      split_ifs at hnext with hmay hcurrent <;> cases hnext
      · obtain ⟨⟨-, hrunning⟩, hgeneration⟩ := ConnectionManager.isCurrent_iff.1 hcurrent
        refine ⟨fun k callback hk hstopped ↦ ?_, fun k callback hk hstopped ↦ ?_, h.calls⟩
        · rcases eq_or_ne k token with rfl | hne
          · exact ⟨hgeneration, hrunning⟩
          · simp only [Function.update_of_ne hne] at hk hstopped
            exact h.current k callback hk hstopped
        · rcases eq_or_ne k token with rfl | hne
          · simp only [Function.update_self] at hstopped
            cases hstopped
          · simp only [Function.update_of_ne hne] at hk hstopped
            exact h.superseded k callback hk hstopped
      · exact h.of_notices (update_checked fun _ ↦ Notice.noConfusion)
  | listener token =>
      simp only [Listening.next] at hnext
      split at hnext <;> cases hnext
      next callback hchecked =>
      have hcleared : Inv { s with notices := Function.update s.notices token .done } :=
        h.of_notices (update_checked fun _ ↦ Notice.noConfusion)
      refine ⟨hcleared.current, hcleared.superseded, fun c hc ↦ ?_⟩
      rcases List.mem_append.1 hc with hc | hc
      · exact h.calls c hc
      · obtain rfl := List.mem_singleton.1 hc
        show (_ = token ∧ _) ↔ s.stopped token = false
        cases hstopped : s.stopped token with
        | false => simpa using h.current token callback hchecked hstopped
        | true =>
            have hlt := h.superseded token callback hchecked hstopped
            constructor
            · rintro ⟨hgeneration, -⟩
              exact absurd hgeneration hlt.ne'
            · intro hfalse
              cases hfalse

/-- The invariant holds in every run. -/
theorem Inv.run (h : Run s t) (hs : Inv s) : Inv t :=
  run_preserves (fun h ⟨_, _, hnext⟩ ↦ h.next hnext) hs h

/-! ## Runs without such a `stop` -/

/-- No loop has been stopped between its `isCurrent` and the call of the listener. -/
structure Undisturbed (s : Listening) : Prop where
  checked : ∀ k callback, s.notices k = .checked callback → s.stopped k = false
  calls : ∀ c ∈ s.calls, c.stopped = false

/-- Fewer checks are outstanding. -/
theorem Undisturbed.of_notices (h : Undisturbed s) {notices : Nat → Notice}
    (hnotices : ∀ k callback, notices k = .checked callback → s.notices k = .checked callback) :
    Undisturbed { s with notices } where
  checked k callback hk := h.checked k callback (hnotices k callback hk)
  calls := h.calls

/-- A step that does not come between a check and its call. -/
theorem Undisturbed.next (h : Undisturbed s) {event : ListeningEvent} (hapart : s.Apart event)
    (hnext : s.next event = some t) : Undisturbed t := by
  cases event with
  | connection event =>
      simp only [Listening.next] at hnext
      split_ifs at hnext
      obtain ⟨connections, hconnections, rfl⟩ := Option.map_eq_some_iff.1 hnext
      refine ⟨fun k callback hk ↦ ?_, h.calls⟩
      have hchecked := afterEvent_checked event k callback hk
      apply Bool.or_eq_false_iff.2 ⟨h.checked k callback hchecked, ?_⟩
      apply Bool.eq_false_iff.2
      exact fun hstops ↦ hapart hstops k callback hchecked
  | ask token =>
      simp only [Listening.next] at hnext
      split_ifs at hnext <;> cases hnext <;> apply h.of_notices <;> apply update_checked <;>
        exact fun _ ↦ Notice.noConfusion
  | notify token callback =>
      simp only [Listening.next] at hnext
      split_ifs at hnext with hmay hcurrent <;> cases hnext
      · refine ⟨fun k callback hk ↦ ?_, h.calls⟩
        rcases eq_or_ne k token with rfl | hne
        · exact Function.update_self ..
        · simp only [Function.update_of_ne hne] at hk ⊢
          exact h.checked k callback hk
      · exact h.of_notices (update_checked fun _ ↦ Notice.noConfusion)
  | listener token =>
      simp only [Listening.next] at hnext
      split at hnext <;> cases hnext
      next callback hchecked =>
      have hcleared : Undisturbed { s with notices := Function.update s.notices token .done } :=
        h.of_notices (update_checked fun _ ↦ Notice.noConfusion)
      refine ⟨hcleared.checked, fun c hc ↦ ?_⟩
      rcases List.mem_append.1 hc with hc | hc
      · exact h.calls c hc
      · obtain rfl := List.mem_singleton.1 hc
        exact h.checked token callback hchecked

theorem Undisturbed.initial : Undisturbed {} where
  checked _ _ h := by cases h
  calls _ h := by cases h

/-- So it is in a run of such steps. -/
theorem Undisturbed.run (h : ReflTransGen (Moves Listening.next Apart) s t) (hs : Undisturbed s) :
    Undisturbed t :=
  run_preserves (fun h ⟨_, hapart, hnext⟩ ↦ h.next hapart hnext) hs h

/-! ## The connections below -/

/-- The connections of a run make a run of their own. -/
theorem run_connections (h : Run s t) : Connections.Run s.connections t.connections := by
  induction h with
  | refl => exact .refl
  | @tail t u _ hstep ih =>
      obtain ⟨event, -, hnext⟩ := hstep
      cases event with
      | connection event =>
          simp only [Listening.next] at hnext
          split_ifs at hnext
          obtain ⟨connections, hconnections, rfl⟩ := Option.map_eq_some_iff.1 hnext
          exact ih.tail ⟨event, trivial, hconnections⟩
      | ask token | notify token callback =>
          simp only [Listening.next] at hnext
          split_ifs at hnext <;> cases hnext <;> exact ih
      | listener token =>
          simp only [Listening.next] at hnext
          split at hnext <;> cases hnext
          exact ih

/-! ## The result -/

/-- **When callbacks are current.**  If no `stop` comes between the `isCurrent` of a loop and
the call of the listener that follows it, every callback is made while its loop has the current
token and the manager is running; and in any run, those callbacks are current before which no
`stop` has come like that, and no others. -/
theorem callbacks_current (s : Listening) :
    (ReflTransGen (Moves next Apart) {} s → ∀ c ∈ s.calls, c.Current) ∧
    (Run {} s → ∀ c ∈ s.calls, c.Current ↔ c.stopped = false) := by
  have hany : Run {} s → ∀ c ∈ s.calls, c.Current ↔ c.stopped = false :=
    fun hrun ↦ (Inv.run hrun .initial).calls
  refine ⟨fun hrun c hc ↦ ?_, hany⟩
  have hfree : Run {} s := by
    refine ReflTransGen.mono ?_ _ _ hrun
    rintro a b ⟨event, -, hnext⟩
    exact ⟨event, trivial, hnext⟩
  exact (hany hfree c hc).2 ((Undisturbed.run hrun .initial).calls c hc)

/-- A loop starts, and tells the listener that it is connecting; then `stop` is called. -/
def connecting : List ListeningEvent :=
  [.connection (.call 0 (.start (some 0))), .connection (.block 0 true),
   .connection (.loop 1 .done), .notify 1 .onConnecting, .listener 1, .connection (.call 0 .stop)]

def beforeStop : Listening :=
  (follow next (fun s event ↦ s.stopsNow event = false) {} connecting).getD {}

/-- Another loop starts and does the same. -/
def reconnecting : List ListeningEvent :=
  [.connection (.call 0 (.start (some 0))), .connection (.block 0 true),
   .connection (.loop 3 .done), .notify 3 .onConnecting, .listener 3]

/-- No loop is between its `isCurrent` and its callback. -/
theorem beforeStop_notices : beforeStop.notices = fun _ ↦ .done := by
  have hupdates : beforeStop.notices = Function.update (Function.update
      (Function.update (fun _ ↦ .done) 1 .due) 1 (.checked .onConnecting)) 1 .done := rfl
  rw [hupdates, Function.update_idem, Function.update_idem, Function.update_eq_self]

theorem callbacks_current_reconnecting : ∃ s : Listening,
    s.calls = [⟨1, .onConnecting, 1, true, false⟩, ⟨3, .onConnecting, 3, true, false⟩] ∧
      ∀ c ∈ s.calls, c.Current := by
  have hquiet {s t : Listening}
      (h : ReflTransGen (Moves next fun s event ↦ s.stopsNow event = false) s t) :
      ReflTransGen (Moves next Apart) s t :=
    ReflTransGen.mono (fun _ _ ⟨event, hquiet, hnext⟩ ↦ ⟨event, .of_quiet hquiet, hnext⟩) _ _ h
  have hfollow : follow next (fun s event ↦ s.stopsNow event = false) {} connecting =
      some beforeStop := rfl
  have hbefore : ReflTransGen (Moves next Apart) {} beforeStop := hquiet (run_of_follow hfollow)
  obtain ⟨t, hstop⟩ : ∃ t, beforeStop.next (.connection (.block 0 true)) = some t := ⟨_, rfl⟩
  have hapart : beforeStop.Apart (.connection (.block 0 true)) := by
    intro _ k callback
    rw [beforeStop_notices]
    nofun
  obtain ⟨s, hrun, hcalls⟩ : ∃ s : Listening,
      ReflTransGen (Moves next fun s event ↦ s.stopsNow event = false) t s ∧
        s.calls = [⟨1, .onConnecting, 1, true, false⟩, ⟨3, .onConnecting, 3, true, false⟩] := by
    cases hstop
    exact exists_run reconnecting (by decide)
  exact ⟨s, hcalls, (callbacks_current s).1
    ((hbefore.tail ⟨_, hapart, hstop⟩).trans (hquiet hrun))⟩

/-- A `stop` between the `isCurrent` of `notifyConnecting` and its callback. -/
def lateCallback : List ListeningEvent :=
  [.connection (.call 0 (.start (some 0))), .connection (.block 0 true),
   .connection (.loop 1 .done), .notify 1 .onConnecting,
   .connection (.call 0 .stop), .connection (.block 0 true), .listener 1]

theorem callback_after_stop : ¬∀ s, Run {} s → ∀ c ∈ s.calls, c.Current := by
  intro hall
  obtain ⟨s, hrun, hcalls⟩ : ∃ s : Listening, Run {} s ∧
      s.calls = [⟨1, .onConnecting, 2, false, true⟩] := exists_run lateCallback (by decide)
  have hcurrent := hall s hrun _ (by rw [hcalls]; exact List.mem_singleton_self _)
  exact absurd hcurrent.1 (by decide)

end Listening

end SecondScreen.Client
