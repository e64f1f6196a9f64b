import Mathlib.Data.List.Nodup
import SecondScreen.Conc.Runs
import SecondScreen.Host.Serving

/-!
# Who closes a socket

`main` and every call of `ConsoleControlHandler` may close the sockets, and a handle that was
closed may be given out again.  A handle is at each time in one of the two variables, or in the
hands of the thread that has just made the socket or has just taken it out of its variable
(`Held`); so it is closed once, and while it is open.
-/

namespace SecondScreen.Host.Serving

open SecondScreen.Conc SecondScreen.Json SecondScreen.Machine Relation

/-! ## The invariant -/

/-- The handle that has been taken out of its variable. -/
def CloseSocket.handles : CloseSocket → List Nat
  | .exchange => []
  | .shutdown handle | .closesocket handle => [handle]

def Main.handles (m : Main) : List Nat :=
  match m.point with
  | .storeListener => m.listener.toList
  | .storeClient => [m.client]
  | .closing _ c => c.handles
  | _ => []

def HandlerPoint.handles : HandlerPoint → List Nat
  | .closing _ c => c.handles
  | .stop | .returned => []

/-- `StreamClient` runs, or the client is made ready for it. -/
def MainPoint.serving : MainPoint → Bool
  | .configure | .receiving _ | .waiting _ _ | .responding _ | .publishingFirst _ | .startCursor
  | .startWorker | .loopStop | .loopCapture | .loopFrames | .publishing _ | .publishingHeartbeat
  | .closeQueue | .joinWorker | .stopCursor | .joinCursor | .storeEncoded => true
  | _ => false

/-- A client has been accepted. -/
def MainPoint.hasConnection : MainPoint → Bool
  | .storeClient => true
  | point => point.serving

def MainPoint.isCreate : MainPoint → Bool
  | .create => true
  | _ => false

/-- `g_client` holds nothing. -/
def MainPoint.clientFree : MainPoint → Bool
  | .caught | .closing .session .exchange | .closing .caughtListener _
  | .closing .caughtClient .exchange => false
  | point => !point.serving

/-- `g_listener` holds nothing. -/
def MainPoint.listenerFree : MainPoint → Bool
  | .create | .storeListener | .closing .loop (.shutdown _) | .closing .loop (.closesocket _)
  | .closing .caughtListener (.shutdown _) | .closing .caughtListener (.closesocket _)
  | .closing .caughtClient _ | .ended => true
  | _ => false

/-- The worker may run. -/
def MainPoint.hasWorker : MainPoint → Bool
  | .loopStop | .loopCapture | .loopFrames | .waiting false _ | .publishing _
  | .publishingHeartbeat | .closeQueue | .joinWorker => true
  | _ => false

/-- The cursor thread may run. -/
def MainPoint.hasCursor : MainPoint → Bool
  | .startWorker | .stopCursor | .joinCursor => true
  | point => point.hasWorker

/-- `main` has a handle that is in no variable. -/
def MainPoint.holds : MainPoint → Bool
  | .storeListener | .storeClient | .closing _ (.shutdown _) | .closing _ (.closesocket _) => true
  | _ => false

def WorkerPoint.alive : WorkerPoint → Bool
  | .absent | .ended => false
  | _ => true

def CursorPoint.alive : CursorPoint → Bool
  | .absent | .ended => false
  | _ => true

namespace Process

/-- How often a handle is in a variable. -/
def inSlots (s : Process) (h : Nat) : Nat :=
  s.client.toList.count h + s.listener.toList.count h

def inHandlers (s : Process) (h : Nat) : Nat :=
  (s.handlers.map fun p ↦ p.handles.count h).sum

/-- The calls of `closesocket`, and the handles that are open. -/
structure Table (s : Process) : Prop where
  once : ∀ h, s.sockets.openCount h ≤ 1
  closes : ∃ places : List Nat, s.closes = places.map some ∧ places.Nodup ∧
    ∀ i, i ∈ places ↔ s.sockets.ClosedAt i

/-- Every open handle is in exactly one place; the points of `main` say which variables are empty
and which threads may run. -/
structure Held (s : Process) : Prop where
  table : s.Table
  held : ∀ h, s.sockets.openCount h = s.inSlots h + s.main.handles.count h + s.inHandlers h
  clientFree : s.main.point.clientFree = true → s.client = none
  listenerFree : s.main.point.listenerFree = true → s.listener = none
  noListener : s.main.listener = none → s.listener = none
  created : s.main.point.isCreate = true → s.sockets.length = 0
  listenerNames : ∀ l, s.main.listener = some l → s.sockets.Names l 0
  connection : s.main.point.hasConnection = true → s.sockets.Names s.main.client s.main.connection
  worker : s.worker.point.alive = true → s.main.point.hasWorker = true
  cursor : s.cursor.alive = true → s.main.point.hasCursor = true

/-- `main` or a call of `ConsoleControlHandler` is in `CloseSocket`. -/
def InClose (s : Process) (c : CloseSocket) : Prop :=
  (∃ site, s.main.point = .closing site c) ∨ ∃ slot, .closing slot c ∈ s.handlers

/-- The handle is in its variable, or a call of `CloseSocket` has taken it out and has not closed
it yet. -/
def ToClose (s : Process) (handle : Nat) : Prop :=
  s.client = some handle ∨ s.listener = some handle ∨ ∃ c, s.InClose c ∧ handle ∈ c.handles

variable {s t : Process}

/-! ## Steps that leave the handles alone -/

/-- A step after which the same handles are in the same variables and hands. -/
structure SameHandles (s t : Process) : Prop where
  sockets : t.sockets.SameKeys s.sockets
  data : (t.client, t.listener, t.closes, t.main.listener, t.main.client, t.main.connection,
      t.handlers) =
    (s.client, s.listener, s.closes, s.main.listener, s.main.client, s.main.connection,
      s.handlers)

/-- What a socket has received does not change which handles are open. -/
theorem Table.sameHandles (h : s.Table) (hsame : SameHandles s t) : t.Table := by
  obtain ⟨hkeys, hdata⟩ := hsame
  simp only [Prod.mk.injEq] at hdata
  obtain ⟨places, hcloses, hnodup, hclosed⟩ := h.closes
  refine ⟨fun handle ↦ (hkeys.openCount handle).trans_le (h.once handle), places, ?_, hnodup, ?_⟩
  · rw [hdata.2.2.1, hcloses]
  · intro i
    exact (hclosed i).trans hkeys.closedAt_iff.symm

/-- What the invariant says of two points that follow each other, if no handle moves. -/
structure Follows (p q : MainPoint) : Prop where
  clientFree : q.clientFree = true → p.clientFree = true
  listenerFree : q.listenerFree = true → p.listenerFree = true
  isCreate : q.isCreate = true → p.isCreate = true
  connection : q.hasConnection = true → p.hasConnection = true

theorem Follows.refl (p : MainPoint) : Follows p p := ⟨id, id, id, id⟩

/-- If no handle moves, the points of the threads decide. -/
theorem Held.sameHandles (h : s.Held) (hsame : SameHandles s t)
    (hpoint : Follows s.main.point t.main.point) (hhandles : t.main.handles = s.main.handles)
    (hworker : t.worker.point.alive = true → t.main.point.hasWorker = true)
    (hcursor : t.cursor.alive = true → t.main.point.hasCursor = true) : t.Held := by
  have htable := h.table.sameHandles hsame
  obtain ⟨hkeys, hdata⟩ := hsame
  simp only [Prod.mk.injEq] at hdata
  obtain ⟨hclient, hlistener, -, hmain, hmainClient, hconnection, hhandlers⟩ := hdata
  refine ⟨htable, fun handle ↦ ?_, fun hfree ↦ ?_, fun hfree ↦ ?_, fun hnone ↦ ?_,
    fun hcreate ↦ ?_, fun l hl ↦ ?_, fun hserving ↦ ?_, hworker, hcursor⟩
  · rw [hkeys.openCount, h.held, inSlots, inSlots, inHandlers, inHandlers, hclient, hlistener,
      hhandlers, hhandles]
  · rw [hclient]
    exact h.clientFree (hpoint.clientFree hfree)
  · rw [hlistener]
    exact h.listenerFree (hpoint.listenerFree hfree)
  · rw [hlistener]
    exact h.noListener (hmain ▸ hnone)
  · rw [hkeys.length]
    exact h.created (hpoint.isCreate hcreate)
  · exact hkeys.names (h.listenerNames l (hmain ▸ hl))
  · rw [hmainClient, hconnection]
    exact hkeys.names (h.connection (hpoint.connection hserving))

/-! ## `CloseSocket` -/

/-- What `CloseSocket` does to the variables and the table. -/
structure Closes (s : Process) (slot : Slot) (c : CloseSocket) (t : Process)
    (r : Option CloseSocket) : Prop where
  table : t.Table
  held : ∀ h, t.inSlots h + (r.toList.flatMap CloseSocket.handles).count h +
    s.sockets.openCount h = s.inSlots h + c.handles.count h + t.sockets.openCount h
  client : t.client = none ∨ t.client = s.client ∧ ¬(slot = .client ∧ c = .exchange)
  listener : t.listener = none ∨ t.listener = s.listener ∧ ¬(slot = .listener ∧ c = .exchange)
  next : r = none ∨ ∃ handle, r = some (.shutdown handle) ∨ r = some (.closesocket handle)
  names : ∀ h i, s.sockets.Names h i → t.sockets.Names h i
  length : t.sockets.length = s.sockets.length
  rest : (t.main, t.worker, t.cursor, t.handlers) = (s.main, s.worker, s.cursor, s.handlers)

/-- A handle that is open is closed, and the socket is one that was not closed before. -/
theorem Table.closesocket (h : s.Table) {handle : Nat} (hopen : 0 < s.sockets.openCount handle) :
    (s.closesocket handle).Table := by
  obtain ⟨places, hcloses, hnodup, hclosed⟩ := h.closes
  obtain ⟨i, hi⟩ := HandleTable.exists_resolve hopen
  refine ⟨fun h' ↦ ?_, places ++ [i], ?_, ?_, ?_⟩
  · exact (HandleTable.openCount_close ..).trans_le ((Nat.sub_le _ _).trans (h.once h'))
  · rw [Process.closesocket, hcloses, hi, List.map_append, List.map_singleton]
  · refine List.nodup_append.2 ⟨hnodup, List.nodup_singleton i, fun j hj k hk ↦ ?_⟩
    rw [List.mem_singleton.1 hk]
    exact ((hclosed j).1 hj).ne_of_resolve hi
  · intro j
    rw [List.mem_append, List.mem_singleton, hclosed j]
    exact (HandleTable.closedAt_close hi j).symm

/-- `CloseSocket` passes the handle on from the variable to itself to `closesocket`. -/
theorem closeSocket_closes (h : s.Table) (slot : Slot) (c : CloseSocket)
    (hopen : ∀ handle ∈ c.handles, 0 < s.sockets.openCount handle) :
    Closes s slot c (s.closeSocket slot c).1 (s.closeSocket slot c).2 := by
  cases c with
  | exchange =>
      unfold Process.closeSocket
      cases hslot : s.slot slot with
      | none =>
          cases slot with
          | client =>
              exact ⟨h, fun _ ↦ rfl, .inl hslot, .inr ⟨rfl, by rintro ⟨⟨⟩, -⟩⟩, .inl rfl,
                fun _ _ ↦ id, rfl, rfl⟩
          | listener =>
              exact ⟨h, fun _ ↦ rfl, .inr ⟨rfl, by rintro ⟨⟨⟩, -⟩⟩, .inl hslot, .inl rfl,
                fun _ _ ↦ id, rfl, rfl⟩
      | some handle =>
          cases slot with
          | client =>
              have hclient : s.client = some handle := hslot
              refine ⟨⟨h.once, h.closes⟩, fun h' ↦ ?_, .inl rfl, .inr ⟨rfl, by rintro ⟨⟨⟩, -⟩⟩,
                .inr ⟨handle, .inl rfl⟩, fun _ _ ↦ id, rfl, rfl⟩
              simp only [inSlots, clearSlot, hclient, CloseSocket.handles, Option.toList_some,
                Option.toList_none, List.flatMap_cons, List.flatMap_nil, List.count_nil,
                List.append_nil]
              omega
          | listener =>
              have hlistener : s.listener = some handle := hslot
              refine ⟨⟨h.once, h.closes⟩, fun h' ↦ ?_, .inr ⟨rfl, by rintro ⟨⟨⟩, -⟩⟩, .inl rfl,
                .inr ⟨handle, .inl rfl⟩, fun _ _ ↦ id, rfl, rfl⟩
              simp only [inSlots, clearSlot, hlistener, CloseSocket.handles, Option.toList_some,
                Option.toList_none, List.flatMap_cons, List.flatMap_nil, List.count_nil,
                List.append_nil]
              omega
  | shutdown handle =>
      have hkeys := HandleTable.sameKeys_update s.sockets handle fun x ↦ { x with shutdown := true }
      refine ⟨h.sameHandles ⟨hkeys, rfl⟩, fun h' ↦ ?_, .inr ⟨rfl, by rintro ⟨-, ⟨⟩⟩⟩,
        .inr ⟨rfl, by rintro ⟨-, ⟨⟩⟩⟩, .inr ⟨handle, .inr rfl⟩, fun _ _ ↦ hkeys.names,
        hkeys.length, rfl⟩
      have hcount := hkeys.openCount h'
      simp only [Process.closeSocket, Process.shutdown, inSlots, hcount, CloseSocket.handles,
        Option.toList_some, List.flatMap_cons, List.flatMap_nil, List.append_nil]
  | closesocket handle =>
      refine ⟨h.closesocket (hopen handle (List.mem_singleton_self handle)), fun h' ↦ ?_,
        .inr ⟨rfl, by rintro ⟨-, ⟨⟩⟩⟩, .inr ⟨rfl, by rintro ⟨-, ⟨⟩⟩⟩, .inl rfl,
        fun _ _ hnames ↦ hnames.close handle, HandleTable.length_close .., rfl⟩
      have hcount := HandleTable.openCount_close s.sockets handle h'
      have hone := hopen handle (List.mem_singleton_self handle)
      simp only [Process.closeSocket, Process.closesocket, inSlots, hcount, CloseSocket.handles,
        Option.toList_none, List.flatMap_nil, List.count_nil, List.count_singleton]
      by_cases hh : handle = h'
      · subst hh
        simp only [beq_self_eq_true, if_true]
        omega
      · simp only [beq_iff_eq, hh, if_false]
        omega

/-! ## `main` -/

/-- `main` goes on from one point to the other with no handle in its hands, as far as the
invariant can tell. -/
def turn (p q : MainPoint) : Bool :=
  (!q.clientFree || p.clientFree) && (!q.listenerFree || p.listenerFree) &&
    (!q.isCreate || p.isCreate) && (!q.hasConnection || p.hasConnection) && !p.holds && !q.holds

/-- The other threads may go on as well. -/
def quiet (p q : MainPoint) : Bool :=
  turn p q && (!p.hasWorker || q.hasWorker) && (!p.hasCursor || q.hasCursor)

/-- At most points `main` has nothing in its hands. -/
theorem handles_eq_nil {m : Main} (h : m.point.holds = false) : m.handles = [] := by
  obtain ⟨point, listener, client, connection, encodedFrames, exitCode⟩ := m
  cases point with
  | closing site c =>
      cases c with
      | exchange => rfl
      | shutdown handle => cases h
      | closesocket handle => cases h
  | storeListener => cases h
  | storeClient => cases h
  | _ => rfl

theorem imp_of_or {a b : Bool} (h : (!a || b) = true) : a = true → b = true := by
  rintro rfl
  exact h

/-- `main` goes on with empty hands, and what threads it leaves running may run at the new point. -/
theorem Held.turn (h : s.Held) {p q : MainPoint} (hp : s.main.point = p)
    (hturn : Process.turn p q = true) (hsame : SameHandles s t) (hq : t.main.point = q)
    (hworker : t.worker.point.alive = true → q.hasWorker = true)
    (hcursor : t.cursor.alive = true → q.hasCursor = true) : t.Held := by
  simp only [Process.turn, Bool.and_eq_true, Bool.not_eq_true'] at hturn
  obtain ⟨⟨⟨⟨⟨hclient, hlistener⟩, hcreate⟩, hconnection⟩, hholds⟩, hholds'⟩ := hturn
  subst hp hq
  refine h.sameHandles hsame ⟨imp_of_or hclient, imp_of_or hlistener, imp_of_or hcreate,
    imp_of_or hconnection⟩ ?_ hworker hcursor
  rw [handles_eq_nil hholds, handles_eq_nil hholds']

/-- The same where no thread is started. -/
theorem Held.quiet (h : s.Held) {p q : MainPoint} (hp : s.main.point = p)
    (hquiet : Process.quiet p q = true) (hsame : SameHandles s t) (hq : t.main.point = q)
    (hworker : t.worker.point.alive = true → s.worker.point.alive = true)
    (hcursor : t.cursor.alive = true → s.cursor.alive = true) : t.Held := by
  simp only [Process.quiet, Bool.and_eq_true] at hquiet
  obtain ⟨⟨hturn, hhasWorker⟩, hhasCursor⟩ := hquiet
  refine h.turn hp hturn hsame hq (fun halive ↦ ?_) fun halive ↦ ?_
  · exact imp_of_or hhasWorker (hp ▸ h.worker (hworker halive))
  · exact imp_of_or hhasCursor (hp ▸ h.cursor (hcursor halive))

/-- `main` goes on and does nothing else. -/
theorem Held.mainAt (h : s.Held) {p q : MainPoint} (hp : s.main.point = p)
    (hquiet : Process.quiet p q = true) : (s.mainAt q).Held :=
  h.quiet hp hquiet ⟨rfl, rfl⟩ rfl id id

/-- The handshake reads from the client and moves no handle. -/
theorem Held.receive (h : s.Held) {line : Text} (hp : s.main.point = .receiving line)
    (hstep : s.receive line = some t) : t.Held := by
  unfold Process.receive at hstep
  split at hstep
  · cases hstep
    exact h.mainAt hp rfl
  · split at hstep
    · split_ifs at hstep
      cases hstep
      exact h.mainAt hp rfl
    · have hkeys (f : Socket → Socket) :=
        HandleTable.sameKeys_update s.sockets s.main.client f
      split at hstep
      · cases hstep
        unfold Process.handshake
        split
        · exact h.quiet hp rfl ⟨hkeys _, rfl⟩ rfl id id
        · exact h.quiet hp rfl ⟨hkeys _, rfl⟩ rfl id id
      · split_ifs at hstep
        · cases hstep
          exact h.quiet hp rfl ⟨hkeys _, rfl⟩ rfl id id
        · cases hstep
          exact h.quiet hp rfl ⟨hkeys _, rfl⟩ rfl id id

/-- Nor does giving up the wait for a frame. -/
theorem Held.stopWaiting (h : s.Held) {first : Bool} {p : WaitPoint}
    (hp : s.main.point = .waiting first p) : (s.stopWaiting first).Held := by
  cases first with
  | true => exact h.mainAt hp rfl
  | false => exact h.mainAt hp rfl

theorem quiet_waiting (first : Bool) (p q : WaitPoint) :
    Process.quiet (.waiting first p) (.waiting first q) = true := by
  cases first <;> rfl

/-- Nor does the wait for a frame, the first one or a later one. -/
theorem Held.waitForFrame (h : s.Held) {first : Bool} {p : WaitPoint} {a : Answer}
    (hp : s.main.point = .waiting first p) : (s.waitForFrame first a p).Held := by
  cases p with
  | head =>
      rw [Process.waitForFrame]
      split_ifs
      · exact h.stopWaiting hp
      · exact h.mainAt hp (quiet_waiting ..)
      · exact h.mainAt hp (quiet_waiting ..)
  | externalStop =>
      rw [Process.waitForFrame]
      split_ifs
      · exact h.stopWaiting hp
      · exact h.mainAt hp (quiet_waiting ..)
  | connected =>
      rw [Process.waitForFrame]
      split_ifs
      · exact h.mainAt hp (quiet_waiting ..)
      · exact h.stopWaiting hp
  | reading =>
      cases a with
      | frame frame => cases first <;> exact h.mainAt hp rfl
      | failed => exact h.stopWaiting hp
      | _ => exact h.mainAt hp (quiet_waiting ..)
  | event =>
      cases a with
      | failed => exact h.stopWaiting hp
      | _ => exact h.mainAt hp (quiet_waiting ..)
  | clock =>
      cases a with
      | elapsed => cases first <;> exact h.mainAt hp rfl
      | _ => exact h.mainAt hp (quiet_waiting ..)

/-- A call before the loop succeeds, or it throws. -/
theorem Held.prepare (h : s.Held) {p q : MainPoint} {a : Answer} (hp : s.main.point = p)
    (hcaught : Process.quiet p .caught = true) (hquiet : Process.quiet p q = true) :
    (s.prepare q a).Held := by
  cases a with
  | failed => exact h.mainAt hp hcaught
  | _ => exact h.mainAt hp hquiet

/-- A new socket is in the hands of `main`. -/
theorem Table.allocate (h : s.Table) {handle : Nat} (hfree : s.sockets.openCount handle = 0)
    (ht : t.sockets = s.sockets.allocate handle {}) (hcloses : t.closes = s.closes) : t.Table := by
  obtain ⟨places, hplaces, hnodup, hclosed⟩ := h.closes
  refine ⟨fun h' ↦ ?_, places, hcloses.trans hplaces, hnodup, fun i ↦ ?_⟩
  · have hone := h.once h'
    rw [ht, HandleTable.openCount_allocate]
    split_ifs with hh
    · subst hh
      omega
    · exact hone
  · rw [ht]
    exact (hclosed i).trans (HandleTable.closedAt_allocate ..).symm

/-- The first socket is the listener. -/
theorem Held.create (h : s.Held) {handle : Nat} (hp : s.main.point = .create)
    (hfree : s.sockets.openCount handle = 0) : Held { s with
      sockets := s.sockets.allocate handle {}
      main := { s.main with point := .storeListener, listener := some handle } } where
  table := h.table.allocate hfree rfl rfl
  held h' := by
    have hheld := h.held h'
    rw [handles_eq_nil (by rw [hp]; rfl), List.count_nil] at hheld
    rw [HandleTable.openCount_allocate, hheld]
    simp only [Main.handles, Option.toList_some, List.count_singleton, beq_iff_eq, inSlots,
      inHandlers]
    omega
  clientFree _ := h.clientFree (by rw [hp]; rfl)
  listenerFree _ := h.listenerFree (by rw [hp]; rfl)
  noListener := nofun
  created := nofun
  listenerNames := by
    rintro l ⟨⟩
    have hnames := HandleTable.names_allocate hfree ({} : Socket)
    rw [h.created (by rw [hp]; rfl)] at hnames
    exact hnames
  connection := nofun
  worker halive := absurd (h.worker halive) (by rw [hp]; nofun)
  cursor halive := absurd (h.cursor halive) (by rw [hp]; nofun)

/-- A handle over which something can come is open. -/
theorem openCount_of_connection {handle : Nat} {x : Socket}
    (hconnection : s.connection handle = some x) : s.sockets.openCount handle ≠ 0 := by
  intro hcount
  rw [Process.connection, HandleTable.lookup_eq_none.2 hcount] at hconnection
  cases hconnection

/-- The new handle is none that is open, so that the listener keeps its own. -/
theorem Held.accept (h : s.Held) {listener : Nat} {a : Answer} (hp : s.main.point = .accepting)
    (hlistener : s.main.listener = some listener) (hstep : s.accept listener a = some t) :
    t.Held := by
  unfold Process.accept at hstep
  split at hstep
  · cases hstep
    exact h.mainAt hp rfl
  · next x hconnection =>
    split at hstep
    · next handle =>
      split_ifs at hstep with hcond
      push Not at hcond
      cases hstep
      let update := fun x : Socket ↦ { x with backlog := x.backlog - 1 }
      have hkeys : HandleTable.SameKeys (s.sockets.update listener update) s.sockets :=
        HandleTable.sameKeys_update s.sockets listener update
      have hfree := (hkeys.openCount handle).trans hcond.2
      have htable : Table { s with sockets := s.sockets.update listener update } :=
        h.table.sameHandles ⟨hkeys, rfl⟩
      refine ⟨htable.allocate hfree rfl rfl, fun h' ↦ ?_, fun _ ↦ ?_, nofun,
        fun hnone ↦ h.noListener hnone, nofun, fun l hl ↦ ?_, fun _ ↦ ?_, fun halive ↦ ?_,
        fun halive ↦ ?_⟩
      · have hheld := h.held h'
        rw [handles_eq_nil (by rw [hp]; rfl), List.count_nil] at hheld
        rw [HandleTable.openCount_allocate, hkeys.openCount, hheld]
        simp only [Main.handles, List.count_singleton, beq_iff_eq, inSlots, inHandlers]
        omega
      · exact h.clientFree (by rw [hp]; rfl)
      · refine (hkeys.names (h.listenerNames l hl)).allocate (fun heq ↦ ?_) {}
        obtain rfl := Option.some.inj (hlistener.symm.trans hl)
        exact openCount_of_connection hconnection (heq ▸ hcond.2)
      · have hnames := HandleTable.names_allocate hfree ({} : Socket)
        rw [hkeys.length] at hnames
        exact hnames
      · exact absurd (h.worker halive) (by rw [hp]; nofun)
      · exact absurd (h.cursor halive) (by rw [hp]; nofun)
    · cases hstep

/-- After `CloseSocket` the hands of `main` are empty. -/
theorem CloseSite.handles_next (site : CloseSite) (m : Main) :
    Main.handles { m with point := Process.CloseSite.next site } = [] := by
  cases site <;> rfl

/-- The sum over a list in which one entry is replaced. -/
theorem sum_map_set {α : Type} (f : α → Nat) {l : List α} {i : Nat} {a : α} (b : α)
    (hi : l[i]? = some a) : ((l.set i b).map f).sum + f a = (l.map f).sum + f b := by
  induction l generalizing i with
  | nil => cases hi
  | cons c l ih =>
      cases i with
      | zero =>
          cases hi
          simp only [List.set_cons_zero, List.map_cons, List.sum_cons]
          omega
      | succ i =>
          have hsum := ih (i := i) hi
          simp only [List.set_cons_succ, List.map_cons, List.sum_cons]
          omega

/-- The handles are in the hands of another call. -/
theorem inHandlers_set {i : Nat} {p : HandlerPoint} (q : HandlerPoint)
    (hi : s.handlers[i]? = some p) (h : Nat) :
    (s.handlerAt i q).inHandlers h + p.handles.count h = s.inHandlers h + q.handles.count h :=
  sum_map_set (fun p ↦ p.handles.count h) q hi

/-- What one call holds all calls hold. -/
theorem count_le_inHandlers {i : Nat} {p : HandlerPoint} (hi : s.handlers[i]? = some p)
    (h : Nat) : p.handles.count h ≤ s.inHandlers h := by
  have hset := inHandlers_set .returned hi h
  rw [show HandlerPoint.returned.handles = [] from rfl, List.count_nil] at hset
  omega

/-- A handle that is to be closed is open. -/
theorem Held.openCount_pos (h : s.Held) {handle : Nat} (hclose : s.ToClose handle) :
    0 < s.sockets.openCount handle := by
  have hheld := h.held handle
  rcases hclose with hclient | hlistener | ⟨c, ⟨site, hp⟩ | ⟨slot, hmem⟩, hc⟩
  · rw [inSlots, hclient, Option.toList_some, List.count_singleton_self] at hheld
    omega
  · rw [inSlots, hlistener, Option.toList_some, List.count_singleton_self] at hheld
    omega
  · rw [show s.main.handles = c.handles by rw [Main.handles, hp]] at hheld
    have hcount := List.count_pos_iff.2 hc
    omega
  · obtain ⟨i, hi⟩ := List.mem_iff_getElem?.1 hmem
    have hle := count_le_inHandlers hi handle
    have hcount : 0 < (HandlerPoint.closing slot c).handles.count handle := List.count_pos_iff.2 hc
    omega

/-- `CloseSocket` finds the handle open. -/
theorem Held.closes (h : s.Held) {slot : Slot} {c : CloseSocket} {r : Option CloseSocket}
    (hin : s.InClose c) (hclose : s.closeSocket slot c = (t, r)) : Closes s slot c t r := by
  have hcloses := closeSocket_closes h.table slot c fun handle hmem ↦
    h.openCount_pos (.inr (.inr ⟨c, hin, hmem⟩))
  rwa [hclose] at hcloses

/-- `main` is in `CloseSocket`. -/
theorem Held.closing (h : s.Held) {site : CloseSite} {c : CloseSocket}
    (hp : s.main.point = .closing site c) {r : Option CloseSocket} {q : MainPoint}
    (hcloses : Closes s site.slot c t r)
    (hq : q = r.elim (CloseSite.next site) (.closing site)) : (t.mainAt q).Held := by
  obtain ⟨htable, hheld, hclient, hlistener, hnext, hnames, -, hrest⟩ := hcloses
  simp only [Prod.mk.injEq] at hrest
  obtain ⟨hmain, hworker, hcursor, hhandlers⟩ := hrest
  have hhandles : (t.mainAt q).main.handles = r.toList.flatMap CloseSocket.handles := by
    subst hq
    cases r with
    | none => exact CloseSite.handles_next site t.main
    | some c => exact (List.append_nil _).symm
  have hs : s.main.handles = c.handles := by rw [Main.handles, hp]
  refine ⟨⟨htable.once, htable.closes⟩, fun h' ↦ ?_, fun hfree ↦ ?_, fun hfree ↦ ?_,
    fun hnone ↦ ?_, fun hcreate ↦ ?_, fun l hl ↦ hnames l 0 (h.listenerNames l (hmain ▸ hl)),
    fun hconnection ↦ ?_, fun halive ↦ ?_, fun halive ↦ ?_⟩
  · have hcount := h.held h'
    have hcloses := hheld h'
    rw [hs] at hcount
    rw [hhandles]
    simp only [inHandlers, inSlots, Process.mainAt, hhandlers] at hcount hcloses ⊢
    omega
  · rcases hclient with hnone | ⟨hsame, hslot⟩
    · exact hnone
    · refine hsame.trans (h.clientFree ?_)
      rw [hp]
      subst hq
      rcases hnext with rfl | ⟨handle, rfl | rfl⟩
      all_goals
        cases site
        all_goals
          cases c
          all_goals first
            | rfl
            | exact absurd ⟨rfl, rfl⟩ hslot
            | cases hfree
  · rcases hlistener with hnone | ⟨hsame, hslot⟩
    · exact hnone
    · refine hsame.trans (h.listenerFree ?_)
      rw [hp]
      subst hq
      rcases hnext with rfl | ⟨handle, rfl | rfl⟩
      all_goals
        cases site
        all_goals
          cases c
          all_goals first
            | rfl
            | exact absurd ⟨rfl, rfl⟩ hslot
            | cases hfree
  · have hnone' := h.noListener (hmain ▸ hnone)
    rcases hlistener with hnone | ⟨hsame, -⟩
    · exact hnone
    · exact hsame.trans hnone'
  · subst hq
    cases r with
    | none => cases site <;> cases hcreate
    | some c => cases hcreate
  · subst hq
    cases r with
    | none => cases site <;> cases hconnection
    | some c => cases hconnection
  · exact absurd (h.worker (hworker ▸ halive)) (by rw [hp]; nofun)
  · exact absurd (h.cursor (hcursor ▸ halive)) (by rw [hp]; nofun)

/-- `main` keeps the invariant. -/
theorem Held.mainStep (h : s.Held) {a : Answer} (hstep : s.mainStep a s.main.point = some t) :
    t.Held := by
  cases hp : s.main.point with
  | create =>
      rw [hp] at hstep
      cases a with
      | socket handle =>
          simp only [Process.mainStep] at hstep
          split_ifs at hstep with hfree
          cases hstep
          exact h.create hp (not_not.1 hfree)
      | failed =>
          cases hstep
          exact h.mainAt hp rfl
      | _ => cases hstep
  | storeListener =>
      rw [hp] at hstep
      cases hstep
      have hhandles : s.main.handles = s.main.listener.toList := by rw [Main.handles, hp]
      have hnone := h.listenerFree (by rw [hp]; rfl)
      refine ⟨⟨h.table.once, h.table.closes⟩, fun h' ↦ ?_, fun _ ↦ h.clientFree (by rw [hp]; rfl),
        nofun, fun hnone ↦ hnone, nofun, h.listenerNames, nofun, fun halive ↦ ?_, fun halive ↦ ?_⟩
      · have hheld := h.held h'
        rw [hhandles] at hheld
        simp only [inSlots, inHandlers, hnone, Process.mainAt, Main.handles, Option.toList_none,
          List.count_nil] at hheld ⊢
        omega
      · exact absurd (h.worker halive) (by rw [hp]; nofun)
      · exact absurd (h.cursor halive) (by rw [hp]; nofun)
  | bind =>
      rw [hp] at hstep
      cases hstep
      exact h.prepare hp rfl rfl
  | listen =>
      rw [hp] at hstep
      cases hstep
      exact h.prepare hp rfl rfl
  | enablePrivilege =>
      rw [hp] at hstep
      cases hstep
      exact h.prepare hp rfl rfl
  | openRing =>
      rw [hp] at hstep
      cases hstep
      exact h.prepare hp rfl rfl
  | head =>
      rw [hp] at hstep
      cases hstep
      refine h.mainAt hp ?_
      split_ifs <;> rfl
  | accepting =>
      rw [hp] at hstep
      obtain ⟨listener, hlistener, hstep⟩ := Option.bind_eq_some_iff.1 hstep
      exact h.accept hp hlistener hstep
  | acceptFailed =>
      rw [hp] at hstep
      cases hstep
      exact h.quiet hp rfl ⟨rfl, rfl⟩ rfl id id
  | storeClient =>
      rw [hp] at hstep
      cases hstep
      have hhandles : s.main.handles = [s.main.client] := by rw [Main.handles, hp]
      have hnone := h.clientFree (by rw [hp]; rfl)
      refine ⟨⟨h.table.once, h.table.closes⟩, fun h' ↦ ?_, nofun, nofun, h.noListener, nofun,
        h.listenerNames, fun _ ↦ h.connection (by rw [hp]; rfl), fun halive ↦ ?_, fun halive ↦ ?_⟩
      · have hheld := h.held h'
        rw [hhandles] at hheld
        simp only [inSlots, inHandlers, hnone, Process.mainAt, Main.handles, Option.toList_none,
          Option.toList_some, List.count_nil] at hheld ⊢
        omega
      · exact absurd (h.worker halive) (by rw [hp]; nofun)
      · exact absurd (h.cursor halive) (by rw [hp]; nofun)
  | configure =>
      rw [hp] at hstep
      cases a with
      | failed =>
          cases hstep
          exact h.mainAt hp rfl
      | _ =>
          simp only [Process.mainStep] at hstep
          split_ifs at hstep
          cases hstep
          exact h.mainAt hp rfl
  | receiving line =>
      rw [hp] at hstep
      exact h.receive hp hstep
  | waiting first point =>
      rw [hp] at hstep
      cases hstep
      exact h.waitForFrame hp
  | responding frame =>
      rw [hp] at hstep
      cases a with
      | failed =>
          cases hstep
          exact h.mainAt hp rfl
      | _ =>
          cases hstep
          exact h.quiet hp rfl ⟨rfl, rfl⟩ rfl nofun nofun
  | publishingFirst frame =>
      rw [hp] at hstep
      simp only [Process.mainStep] at hstep
      split at hstep
      · cases hstep
        exact h.quiet hp rfl ⟨rfl, rfl⟩ rfl id id
      · cases hstep
        exact h.mainAt hp rfl
  | startCursor =>
      rw [hp] at hstep
      cases hstep
      refine h.turn hp rfl ⟨rfl, rfl⟩ rfl (fun halive ↦ ?_) fun _ ↦ rfl
      exact absurd (h.worker halive) (by rw [hp]; nofun)
  | startWorker =>
      rw [hp] at hstep
      cases hstep
      exact h.turn hp rfl ⟨rfl, rfl⟩ rfl (fun _ ↦ rfl) fun _ ↦ rfl
  | loopStop =>
      rw [hp] at hstep
      cases hstep
      refine h.mainAt hp ?_
      split_ifs <;> rfl
  | loopCapture =>
      rw [hp] at hstep
      cases hstep
      refine h.mainAt hp ?_
      split_ifs <;> rfl
  | loopFrames =>
      rw [hp] at hstep
      cases hstep
      refine h.mainAt hp ?_
      split_ifs <;> rfl
  | publishing frame =>
      rw [hp] at hstep
      cases hstep
      refine h.quiet hp ?_ ⟨rfl, rfl⟩ rfl id id
      split_ifs <;> rfl
  | publishingHeartbeat =>
      rw [hp] at hstep
      cases hstep
      refine h.quiet hp ?_ ⟨rfl, rfl⟩ rfl id id
      split_ifs <;> rfl
  | closeQueue =>
      rw [hp] at hstep
      cases hstep
      exact h.quiet hp rfl ⟨rfl, rfl⟩ rfl id id
  | joinWorker =>
      rw [hp] at hstep
      simp only [Process.mainStep] at hstep
      split_ifs at hstep with hended
      cases hstep
      refine h.turn hp rfl ⟨rfl, rfl⟩ rfl (fun halive ↦ ?_) fun _ ↦ rfl
      exact absurd (show s.worker.point.alive = true from halive) (by rw [hended]; nofun)
  | stopCursor =>
      rw [hp] at hstep
      cases hstep
      exact h.quiet hp rfl ⟨rfl, rfl⟩ rfl id id
  | joinCursor =>
      rw [hp] at hstep
      simp only [Process.mainStep] at hstep
      split_ifs at hstep with hended
      cases hstep
      refine h.turn hp rfl ⟨rfl, rfl⟩ rfl (fun halive ↦ ?_) fun halive ↦ ?_
      · exact absurd (h.worker halive) (by rw [hp]; nofun)
      · exact absurd (show s.cursor.alive = true from halive) (by rw [hended]; nofun)
  | storeEncoded =>
      rw [hp] at hstep
      cases hstep
      exact h.quiet hp rfl ⟨rfl, rfl⟩ rfl id id
  | caught =>
      rw [hp] at hstep
      cases hstep
      have hworker (halive : s.worker.point.alive = true) : False :=
        absurd (h.worker halive) (by rw [hp]; nofun)
      have hcursor (halive : s.cursor.alive = true) : False :=
        absurd (h.cursor halive) (by rw [hp]; nofun)
      have hhandles := handles_eq_nil (m := s.main) (by rw [hp]; rfl)
      cases hlistener : s.main.listener with
      | some handle =>
          exact h.turn hp (q := .closing .caughtListener .exchange) rfl ⟨rfl, by rw [hlistener]⟩ rfl
            (fun halive ↦ (hworker halive).elim) fun halive ↦ (hcursor halive).elim
      | none =>
          refine ⟨⟨h.table.once, h.table.closes⟩, fun h' ↦ ?_, nofun,
            fun _ ↦ h.noListener hlistener, fun _ ↦ h.noListener hlistener, nofun, h.listenerNames,
            nofun, fun halive ↦ (hworker halive).elim, fun halive ↦ (hcursor halive).elim⟩
          rw [h.held h', hhandles]
          rfl
  | closing site c =>
      rw [hp] at hstep
      simp only [Process.mainStep] at hstep
      split at hstep
      · next t' c' heq =>
          cases hstep
          exact h.closing hp (h.closes (.inl ⟨site, hp⟩) heq) rfl
      · next t' heq =>
          cases hstep
          exact h.closing hp (h.closes (.inl ⟨site, hp⟩) heq) rfl
  | ended =>
      rw [hp] at hstep
      cases hstep

/-! ## The other threads -/

/-- What a step of a thread other than `main` leaves alone. -/
structure Beside (s t : Process) : Prop where
  same : SameHandles s t
  main : t.main = s.main

/-- Other threads keep the invariant unless they start. -/
theorem Held.beside (h : s.Held) (hbeside : Beside s t)
    (hworker : t.worker.point.alive = true → s.worker.point.alive = true)
    (hcursor : t.cursor.alive = true → s.cursor.alive = true) : t.Held := by
  obtain ⟨hsame, hmain⟩ := hbeside
  refine h.sameHandles hsame (hmain ▸ .refl _) (by rw [hmain]) (fun halive ↦ ?_) fun halive ↦ ?_
  · rw [hmain]
    exact h.worker (hworker halive)
  · rw [hmain]
    exact h.cursor (hcursor halive)

/-- `shutdown` closes nothing. -/
theorem shutdown_beside (s : Process) (handle : Nat) : Beside s (s.shutdown handle) :=
  ⟨⟨HandleTable.sameKeys_update .., rfl⟩, rfl⟩

/-- The worker touches no handle; it may shut the client down. -/
theorem workerStep_beside {a : Answer} {p : WorkerPoint} (hstep : s.workerStep a p = some t) :
    Beside s t ∧ t.cursor = s.cursor ∧ p.alive = true := by
  cases p with
  | absent => cases hstep
  | ended => cases hstep
  | timeout =>
      cases a with
      | _ =>
          cases hstep
          exact ⟨⟨⟨rfl, rfl⟩, rfl⟩, rfl, rfl⟩
  | replacing =>
      rw [Process.workerStep] at hstep
      split at hstep
      · cases hstep
        exact ⟨⟨⟨rfl, rfl⟩, rfl⟩, rfl, rfl⟩
      · cases hstep
        exact ⟨⟨⟨rfl, rfl⟩, rfl⟩, rfl, rfl⟩
  | leaving =>
      rw [Process.workerStep] at hstep
      split_ifs at hstep
      · cases hstep
        exact ⟨⟨⟨rfl, rfl⟩, rfl⟩, rfl, rfl⟩
      · cases hstep
        cases a with
        | _ => exact ⟨⟨⟨rfl, rfl⟩, rfl⟩, rfl, rfl⟩
  | caughtShutdown =>
      cases hstep
      have hbeside := shutdown_beside s s.main.client
      exact ⟨⟨⟨hbeside.same.sockets, rfl⟩, rfl⟩, rfl, rfl⟩
  | _ =>
      cases a with
      | _ =>
          cases hstep
          exact ⟨⟨⟨rfl, rfl⟩, rfl⟩, rfl, rfl⟩

/-- Neither does the cursor thread. -/
theorem cursorStep_beside {a : Answer} {p : CursorPoint} (hstep : s.cursorStep a p = some t) :
    Beside s t ∧ t.worker = s.worker ∧ p.alive = true := by
  cases p with
  | absent => cases hstep
  | ended => cases hstep
  | shutdown =>
      cases hstep
      have hbeside := shutdown_beside s s.main.client
      exact ⟨⟨⟨hbeside.same.sockets, rfl⟩, rfl⟩, rfl, rfl⟩
  | _ =>
      cases a with
      | _ =>
          cases hstep
          exact ⟨⟨⟨rfl, rfl⟩, rfl⟩, rfl, rfl⟩

/-- A call of `ConsoleControlHandler` is in `CloseSocket`. -/
theorem Held.handlerCloses (h : s.Held) {i : Nat} {slot : Slot} {c : CloseSocket}
    (hi : s.handlers[i]? = some (.closing slot c)) {r : Option CloseSocket} {q : HandlerPoint}
    (hcloses : Closes s slot c t r) (hq : q.handles = r.toList.flatMap CloseSocket.handles) :
    (t.handlerAt i q).Held := by
  obtain ⟨htable, hheld, hclient, hlistener, -, hnames, hlength, hrest⟩ := hcloses
  simp only [Prod.mk.injEq] at hrest
  obtain ⟨hmain, hworker, hcursor, hhandlers⟩ := hrest
  refine ⟨⟨htable.once, htable.closes⟩, fun h' ↦ ?_, fun hfree ↦ ?_, fun hfree ↦ ?_,
    fun hnone ↦ ?_, fun hcreate ↦ ?_, fun l hl ↦ hnames l 0 (h.listenerNames l (hmain ▸ hl)),
    fun hconnection ↦ ?_, fun halive ↦ ?_, fun halive ↦ ?_⟩
  · have hcount := h.held h'
    have hcloses := hheld h'
    have hset := inHandlers_set (s := t) q (hhandlers ▸ hi) h'
    rw [← hq] at hcloses
    simp only [inHandlers, inSlots, Process.handlerAt, hhandlers, hmain,
      HandlerPoint.handles] at hcount hcloses hset ⊢
    omega
  · have hnone := h.clientFree (hmain ▸ hfree)
    exact hclient.elim id fun hsame ↦ hsame.1.trans hnone
  · have hnone := h.listenerFree (hmain ▸ hfree)
    exact hlistener.elim id fun hsame ↦ hsame.1.trans hnone
  · have hnone := h.noListener (hmain ▸ hnone)
    exact hlistener.elim id fun hsame ↦ hsame.1.trans hnone
  · exact hlength.trans (h.created (hmain ▸ hcreate))
  · have hserved := hnames _ _ (h.connection (hmain ▸ hconnection))
    exact hmain ▸ hserved
  · exact hmain ▸ h.worker (hworker ▸ halive)
  · exact hmain ▸ h.cursor (hcursor ▸ halive)

/-- A step of a call of `ConsoleControlHandler` keeps the invariant. -/
theorem Held.handlerStep (h : s.Held) {i : Nat} {p : HandlerPoint}
    (hi : s.handlers[i]? = some p) (hstep : s.handlerStep i p = some t) : t.Held := by
  cases p with
  | stop =>
      cases hstep
      have hset (h' : Nat) := inHandlers_set (.closing .client .exchange) hi h'
      refine ⟨⟨h.table.once, h.table.closes⟩, fun h' ↦ ?_, h.clientFree, h.listenerFree,
        h.noListener, h.created, h.listenerNames, h.connection, h.worker, h.cursor⟩
      have hheld := h.held h'
      have hset' := hset h'
      simp only [inHandlers, inSlots, Process.handlerAt, HandlerPoint.handles,
        CloseSocket.handles, List.count_nil] at hheld hset' ⊢
      omega
  | closing slot c =>
      have hin : s.InClose c := .inr ⟨slot, List.mem_of_getElem? hi⟩
      simp only [Process.handlerStep] at hstep
      split at hstep
      · next t' c' heq =>
          cases hstep
          exact h.handlerCloses hi (h.closes hin heq) (List.append_nil _).symm
      · next t' heq =>
          cases hstep
          refine h.handlerCloses hi (h.closes hin heq) ?_
          cases slot <;> rfl
  | returned => cases hstep

/-! ## Runs -/

/-- What comes over the network is in the socket, whatever its handle. -/
theorem socketEvent_beside (s : Process) (i : Nat) (f : Socket → Socket) :
    Beside s (s.socketEvent i f) :=
  ⟨⟨HandleTable.sameKeys_updateAt .., rfl⟩, rfl⟩

theorem Held.socketEvent (h : s.Held) (i : Nat) (f : Socket → Socket) :
    (s.socketEvent i f).Held :=
  h.beside (socketEvent_beside s i f) id id

/-- A step of any thread, or of the network, keeps the invariant. -/
theorem Held.next (h : s.Held) {e : Event} (hstep : s.next e = some t) : t.Held := by
  cases e with
  | main a => exact h.mainStep hstep
  | worker a =>
      obtain ⟨hbeside, hcursor, halive⟩ := workerStep_beside hstep
      exact h.beside hbeside (fun _ ↦ halive) (by rw [hcursor]; exact id)
  | cursor a =>
      obtain ⟨hbeside, hworker, halive⟩ := cursorStep_beside hstep
      exact h.beside hbeside (by rw [hworker]; exact id) fun _ ↦ halive
  | handler i =>
      obtain ⟨p, hi, hstep⟩ := Option.bind_eq_some_iff.1 hstep
      exact h.handlerStep hi hstep
  | control =>
      cases hstep
      refine ⟨⟨h.table.once, h.table.closes⟩, fun h' ↦ ?_, h.clientFree, h.listenerFree,
        h.noListener, h.created, h.listenerNames, h.connection, h.worker, h.cursor⟩
      have hheld := h.held h'
      simp only [inHandlers, inSlots, List.map_append, List.sum_append, List.map_singleton,
        HandlerPoint.handles, List.count_nil, List.sum_singleton] at hheld ⊢
      omega
  | connect i =>
      cases hstep
      exact h.socketEvent i _
  | arrive i chunk =>
      cases hstep
      exact h.socketEvent i _
  | hangUp i =>
      cases hstep
      exact h.socketEvent i _
  | fail i =>
      cases hstep
      exact h.socketEvent i _

/-- Before the listener is made there is no socket. -/
theorem Held.new (frames : Nat) : (Process.new frames).Held where
  table := ⟨fun _ ↦ Nat.zero_le 1, [], rfl, List.nodup_nil, fun _ ↦ iff_of_false nofun nofun⟩
  held _ := rfl
  clientFree _ := rfl
  listenerFree _ := rfl
  noListener _ := rfl
  created _ := rfl
  listenerNames := nofun
  connection := nofun
  worker := nofun
  cursor := nofun

/-- A run of the process, whatever happens. -/
abbrev Run : Process → Process → Prop := ReflTransGen (Moves next fun _ _ ↦ True)

/-- The invariant holds in every run. -/
theorem Held.run {frames : Nat} (h : Run (Process.new frames) s) : s.Held :=
  run_preserves (fun h ⟨_, _, hnext⟩ ↦ h.next hnext) (.new frames) h

/-! ## What a handle names -/

/-- What a step of `main` does with the handles. -/
theorem mainStep_cases {a : Answer} {p : MainPoint} (hp : s.main.point = p)
    (hstep : s.mainStep a p = some t) :
    SameHandles s t ∨
    (∃ handle, p = .create ∧ s.sockets.openCount handle = 0 ∧
      t = { s with
        sockets := s.sockets.allocate handle {}
        main := { s.main with point := .storeListener, listener := some handle } }) ∨
    (p = .storeListener ∧ t = { s with listener := s.main.listener }.mainAt .bind) ∨
    (∃ handle sockets, p = .accepting ∧ HandleTable.SameKeys sockets s.sockets ∧
      s.sockets.openCount handle = 0 ∧
      t = { s with
        sockets := sockets.allocate handle {}
        main := { s.main with
          point := .storeClient
          client := handle
          connection := s.sockets.length } }) ∨
    (p = .storeClient ∧ t = { s with client := some s.main.client }.mainAt .configure) ∨
    ∃ site c u r, p = .closing site c ∧ s.closeSocket site.slot c = (u, r) ∧
      t = u.mainAt (r.elim (CloseSite.next site) (.closing site)) := by
  cases p with
  | create =>
      cases a with
      | socket handle =>
          simp only [Process.mainStep] at hstep
          split_ifs at hstep with hfree
          cases hstep
          exact .inr (.inl ⟨handle, rfl, not_not.1 hfree, rfl⟩)
      | failed =>
          cases hstep
          exact .inl ⟨rfl, rfl⟩
      | _ => cases hstep
  | storeListener =>
      cases hstep
      exact .inr (.inr (.inl ⟨rfl, rfl⟩))
  | accepting =>
      obtain ⟨listener, -, hstep⟩ := Option.bind_eq_some_iff.1 hstep
      unfold Process.accept at hstep
      split at hstep
      · cases hstep
        exact .inl ⟨rfl, rfl⟩
      · split at hstep
        · split_ifs at hstep with hcond
          push Not at hcond
          cases hstep
          exact .inr (.inr (.inr (.inl ⟨_, _, rfl, HandleTable.sameKeys_update .., hcond.2, rfl⟩)))
        · cases hstep
  | storeClient =>
      cases hstep
      exact .inr (.inr (.inr (.inr (.inl ⟨rfl, rfl⟩))))
  | receiving line =>
      left
      simp only [Process.mainStep, Process.receive] at hstep
      split at hstep
      · cases hstep
        exact ⟨rfl, rfl⟩
      · split at hstep
        · split_ifs at hstep
          cases hstep
          exact ⟨rfl, rfl⟩
        · have hkeys (f : Socket → Socket) :=
            HandleTable.sameKeys_update s.sockets s.main.client f
          split at hstep
          · cases hstep
            unfold Process.handshake
            split <;> exact ⟨hkeys _, rfl⟩
          · split_ifs at hstep <;> cases hstep <;> exact ⟨hkeys _, rfl⟩
  | waiting first point =>
      cases hstep
      left
      unfold Process.waitForFrame Process.stopWaiting
      split
      all_goals
        split_ifs
        all_goals first
          | exact ⟨rfl, rfl⟩
          | (split <;> exact ⟨rfl, rfl⟩)
  | configure =>
      left
      cases a with
      | failed =>
          cases hstep
          exact ⟨rfl, rfl⟩
      | _ =>
          simp only [Process.mainStep] at hstep
          split_ifs at hstep
          cases hstep
          exact ⟨rfl, rfl⟩
  | publishingFirst frame =>
      left
      simp only [Process.mainStep] at hstep
      split at hstep <;> cases hstep <;> exact ⟨rfl, rfl⟩
  | joinWorker =>
      left
      simp only [Process.mainStep] at hstep
      split_ifs at hstep
      cases hstep
      exact ⟨rfl, rfl⟩
  | joinCursor =>
      left
      simp only [Process.mainStep] at hstep
      split_ifs at hstep
      cases hstep
      exact ⟨rfl, rfl⟩
  | closing site c =>
      simp only [Process.mainStep] at hstep
      split at hstep
      · next u c' heq =>
          cases hstep
          exact .inr (.inr (.inr (.inr (.inr ⟨site, c, u, some c', rfl, heq, rfl⟩))))
      · next u heq =>
          cases hstep
          exact .inr (.inr (.inr (.inr (.inr ⟨site, c, u, none, rfl, heq, rfl⟩))))
  | ended => cases hstep
  | _ =>
      cases a with
      | _ =>
          cases hstep
          exact .inl ⟨rfl, rfl⟩

/-- What a step of a call of `ConsoleControlHandler` is. -/
theorem handlerStep_cases {i : Nat} {p : HandlerPoint} (hstep : s.handlerStep i p = some t) :
    (p = .stop ∧ t = { s with stop := true }.handlerAt i (.closing .client .exchange)) ∨
    ∃ slot c u r, p = .closing slot c ∧ s.closeSocket slot c = (u, r) ∧
      t = u.handlerAt i (r.elim (HandlerPoint.after slot) (.closing slot)) := by
  cases p with
  | stop =>
      cases hstep
      exact .inl ⟨rfl, rfl⟩
  | closing slot c =>
      simp only [Process.handlerStep] at hstep
      split at hstep
      · next u c' heq =>
          cases hstep
          exact .inr ⟨slot, c, u, some c', rfl, heq, rfl⟩
      · next u heq =>
          cases hstep
          exact .inr ⟨slot, c, u, none, rfl, heq, rfl⟩
  | returned => cases hstep

/-- Whoever steps, only `main` and the calls of `ConsoleControlHandler` touch the handles. -/
theorem next_cases {e : Event} (hstep : s.next e = some t) :
    (∃ a, e = .main a) ∨ (∃ i, e = .handler i) ∨
    (e = .control ∧ t = { s with handlers := s.handlers ++ [.stop] }) ∨ SameHandles s t := by
  cases e with
  | main a => exact .inl ⟨a, rfl⟩
  | handler i => exact .inr (.inl ⟨i, rfl⟩)
  | control =>
      cases hstep
      exact .inr (.inr (.inl ⟨rfl, rfl⟩))
  | worker a => exact .inr (.inr (.inr (workerStep_beside hstep).1.same))
  | cursor a => exact .inr (.inr (.inr (cursorStep_beside hstep).1.same))
  | connect i =>
      cases hstep
      exact .inr (.inr (.inr (socketEvent_beside ..).same))
  | arrive i chunk =>
      cases hstep
      exact .inr (.inr (.inr (socketEvent_beside ..).same))
  | hangUp i =>
      cases hstep
      exact .inr (.inr (.inr (socketEvent_beside ..).same))
  | fail i =>
      cases hstep
      exact .inr (.inr (.inr (socketEvent_beside ..).same))

/-- A handle that is open does not come to name another socket. -/
theorem Held.names_next (h : s.Held) {e : Event} (hstep : s.next e = some t) {handle i : Nat}
    (hopen : 0 < s.sockets.openCount handle) (hnames : s.sockets.Names handle i) :
    t.sockets.Names handle i := by
  have hallocate {sockets : HandleTable Socket} (hkeys : sockets.SameKeys s.sockets) {fresh : Nat}
      (hfree : s.sockets.openCount fresh = 0) : (sockets.allocate fresh {}).Names handle i := by
    refine (hkeys.names hnames).allocate ?_ {}
    rintro rfl
    omega
  rcases next_cases hstep with ⟨a, rfl⟩ | ⟨j, rfl⟩ | ⟨rfl, rfl⟩ | hsame
  · rcases mainStep_cases rfl hstep with hsame | ⟨fresh, -, hfree, rfl⟩ | ⟨-, rfl⟩ |
      ⟨fresh, sockets, -, hkeys, hfree, rfl⟩ | ⟨-, rfl⟩ | ⟨site, c, u, r, hp, hclose, rfl⟩
    · exact hsame.sockets.names hnames
    · exact hallocate rfl hfree
    · exact hnames
    · exact hallocate hkeys hfree
    · exact hnames
    · exact (h.closes (.inl ⟨site, hp⟩) hclose).names handle i hnames
  · obtain ⟨p, hj, hstep⟩ := Option.bind_eq_some_iff.1 hstep
    rcases handlerStep_cases hstep with ⟨rfl, rfl⟩ | ⟨slot, c, u, r, rfl, hclose, rfl⟩
    · exact hnames
    · exact (h.closes (.inr ⟨slot, List.mem_of_getElem? hj⟩) hclose).names handle i hnames
  · exact hnames
  · exact hsame.sockets.names hnames

/-- What is in the variables is what `main` has put there. -/
structure Stored (s : Process) : Prop where
  client : ∀ handle, s.client = some handle →
    handle = s.main.client ∧ s.sockets.Names handle s.main.connection
  listener : ∀ handle, s.listener = some handle → s.main.listener = some handle

/-- What the variables still hold after a step is named as before. -/
theorem Stored.keeps (h : s.Stored) (hheld : s.Held) {e : Event} (hstep : s.next e = some t)
    (hclient : t.client = none ∨ t.client = s.client)
    (hlistener : t.listener = none ∨ t.listener = s.listener)
    (hmain : (t.main.listener, t.main.client, t.main.connection) =
      (s.main.listener, s.main.client, s.main.connection)) : t.Stored := by
  simp only [Prod.mk.injEq] at hmain
  obtain ⟨hmainListener, hmainClient, hconnection⟩ := hmain
  constructor
  · intro handle hhandle
    rcases hclient with hnone | hsame
    · cases hnone.symm.trans hhandle
    · have hs := hsame.symm.trans hhandle
      obtain ⟨heq, hnames⟩ := h.client handle hs
      rw [hmainClient, hconnection]
      exact ⟨heq, hheld.names_next hstep (hheld.openCount_pos (.inl hs)) hnames⟩
  · intro handle hhandle
    rcases hlistener with hnone | hsame
    · cases hnone.symm.trans hhandle
    · rw [hmainListener]
      exact h.listener handle (hsame.symm.trans hhandle)

/-- A step keeps it, for only `main` stores into the variables. -/
theorem Stored.next (h : s.Stored) (hheld : s.Held) {e : Event} (hstep : s.next e = some t) :
    t.Stored := by
  have hsameCase (hsame : SameHandles s t) : t.Stored := by
    have hdata := hsame.data
    simp only [Prod.mk.injEq] at hdata
    obtain ⟨hclient, hlistener, -, hmainListener, hmainClient, hconnection, -⟩ := hdata
    exact h.keeps hheld hstep (.inr hclient) (.inr hlistener)
      (by rw [hmainListener, hmainClient, hconnection])
  rcases next_cases hstep with ⟨a, rfl⟩ | ⟨i, rfl⟩ | ⟨rfl, rfl⟩ | hsame
  · rcases mainStep_cases rfl hstep with hsame | ⟨fresh, hp, -, rfl⟩ | ⟨hp, rfl⟩ |
      ⟨fresh, sockets, hp, -, -, rfl⟩ | ⟨hp, rfl⟩ | ⟨site, c, u, r, hp, hclose, rfl⟩
    · exact hsameCase hsame
    · have hclient := hheld.clientFree (by rw [hp]; rfl)
      have hlistener := hheld.listenerFree (by rw [hp]; rfl)
      constructor
      · intro handle hhandle
        cases hclient.symm.trans hhandle
      · intro handle hhandle
        cases hlistener.symm.trans hhandle
    · exact ⟨h.client, fun _ ↦ id⟩
    · have hclient := hheld.clientFree (by rw [hp]; rfl)
      refine ⟨fun handle hhandle ↦ ?_, h.listener⟩
      cases hclient.symm.trans hhandle
    · refine ⟨?_, h.listener⟩
      rintro handle ⟨⟩
      exact ⟨rfl, hheld.connection (by rw [hp]; rfl)⟩
    · have hcloses := hheld.closes (.inl ⟨site, hp⟩) hclose
      have hmain := (Prod.mk.inj hcloses.rest).1
      exact h.keeps hheld hstep (hcloses.client.imp_right And.left)
        (hcloses.listener.imp_right And.left) (by rw [Process.mainAt, hmain])
  · obtain ⟨p, hi, hhandler⟩ := Option.bind_eq_some_iff.1 hstep
    rcases handlerStep_cases hhandler with ⟨rfl, rfl⟩ | ⟨slot, c, u, r, rfl, hclose, rfl⟩
    · exact h.keeps hheld hstep (.inr rfl) (.inr rfl) rfl
    · have hcloses := hheld.closes (.inr ⟨slot, List.mem_of_getElem? hi⟩) hclose
      have hmain := (Prod.mk.inj hcloses.rest).1
      exact h.keeps hheld hstep (hcloses.client.imp_right And.left)
        (hcloses.listener.imp_right And.left) (by rw [Process.handlerAt, hmain])
  · exact h.keeps hheld hstep (.inr rfl) (.inr rfl) rfl
  · exact hsameCase hsame

/-- It holds in every run. -/
theorem Stored.run {frames : Nat} (h : Run (Process.new frames) s) : s.Stored :=
  (run_preserves (I := fun s ↦ Held s ∧ Stored s)
    (fun h ⟨_, _, hnext⟩ ↦ ⟨h.1.next hnext, h.2.next h.1 hnext⟩) ⟨.new frames, nofun, nofun⟩ h).2

/-- Runs on which a handle stays to be closed. -/
abbrev RunToClose (handle : Nat) : Process → Process → Prop :=
  ReflTransGen fun s t ↦ Moves next (fun _ _ ↦ True) s t ∧ t.ToClose handle

/-- A handle names the same socket until it is closed. -/
theorem Held.resolve_run (h : s.Held) {handle i : Nat} (hclose : s.ToClose handle)
    (hresolve : s.sockets.resolve handle = some i) (hrun : RunToClose handle s t) :
    t.sockets.resolve handle = some i := by
  have hnames := HandleTable.names_of_resolve (h.table.once handle) hresolve
  obtain ⟨ht, hclose, hnames⟩ : t.Held ∧ t.ToClose handle ∧ t.sockets.Names handle i := by
    refine run_preserves (I := fun t ↦ Held t ∧ t.ToClose handle ∧ t.sockets.Names handle i)
      ?_ ⟨h, hclose, hnames⟩ hrun
    rintro u v ⟨hu, hclose, hnames⟩ ⟨⟨e, -, hnext⟩, hlater⟩
    exact ⟨hu.next hnext, hlater, hu.names_next hnext (hu.openCount_pos hclose) hnames⟩
  exact hnames.resolve_eq (ht.openCount_pos hclose)

/-! ## The result -/

/-- The worker runs within `StreamClient`. -/
theorem serving_of_hasWorker {p : MainPoint} (h : p.hasWorker = true) : p.serving = true := by
  cases p with
  | waiting first point => rfl
  | _ => first | rfl | cases h

/-- So does the cursor thread. -/
theorem serving_of_hasCursor {p : MainPoint} (h : p.hasCursor = true) : p.serving = true := by
  cases p with
  | waiting first point => rfl
  | _ => first | rfl | cases h

/-- `StreamClient` is called for a client that was accepted. -/
theorem hasConnection_of_serving {p : MainPoint} (h : p.serving = true) :
    p.hasConnection = true := by
  cases p with
  | _ => first | rfl | cases h

/-- However often Control-C is pressed and whenever handles are used again: `closesocket` is
called for sockets that are open, and once for each; while a client is served, its handle names
its connection or nothing, and the handle of the listener names the listener or nothing; what is
in `g_client` and `g_listener` names the connection and the listener, and still does so when
`CloseSocket` has taken it out, until it is closed; the threads of a session run only while it is
served; and when `main` and the calls of `ConsoleControlHandler` have ended, every socket has been
closed. -/
theorem sockets_closed_once {frames : Nat} (h : Run (Process.new frames) s) :
    (∃ places : List Nat, s.closes = places.map some ∧ places.Nodup) ∧
    (s.main.point.serving = true →
      ∀ i, s.sockets.resolve s.main.client = some i → i = s.main.connection) ∧
    (∀ l i, s.main.listener = some l → s.sockets.resolve l = some i → i = 0) ∧
    (∀ handle, s.ToClose handle → ∃ i, s.sockets.resolve handle = some i ∧
      (s.client = some handle → i = s.main.connection) ∧ (s.listener = some handle → i = 0) ∧
      ∀ t, RunToClose handle s t → t.sockets.resolve handle = some i) ∧
    (s.worker.point.alive = true ∨ s.cursor.alive = true → s.main.point.serving = true) ∧
    (s.main.point = .ended → (∀ p ∈ s.handlers, p = .returned) →
      ∀ i < s.sockets.length, some i ∈ s.closes) := by
  have hheld := Held.run h
  obtain ⟨places, hplaces, hnodup, hclosed⟩ := hheld.table.closes
  refine ⟨⟨places, hplaces, hnodup⟩, fun hserving i hi ↦ ?_, fun l i hl hi ↦ ?_,
    fun handle hclose ↦ ?_, ?_, ?_⟩
  · exact (hheld.connection (hasConnection_of_serving hserving)).resolve hi
  · exact (hheld.listenerNames l hl).resolve hi
  · have hstored := Stored.run h
    obtain ⟨i, hi⟩ := HandleTable.exists_resolve (hheld.openCount_pos hclose)
    refine ⟨i, hi, fun hclient ↦ ?_, fun hlistener ↦ ?_, fun t ↦ hheld.resolve_run hclose hi⟩
    · exact (hstored.client handle hclient).2.resolve hi
    · exact (hheld.listenerNames handle (hstored.listener handle hlistener)).resolve hi
  · rintro (halive | halive)
    · exact serving_of_hasWorker (hheld.worker halive)
    · exact serving_of_hasCursor (hheld.cursor halive)
  · intro hended hreturned i hi
    have hhandlers (h' : Nat) : s.inHandlers h' = 0 := by
      rw [inHandlers, List.sum_eq_zero_iff_forall_eq_nat]
      intro n hn
      obtain ⟨p, hp, rfl⟩ := List.mem_map.1 hn
      rw [hreturned p hp]
      rfl
    -- nobody holds a handle, so that none is open
    have hcount (h' : Nat) : s.sockets.openCount h' = 0 := by
      rw [hheld.held h', inSlots, hheld.clientFree (by rw [hended]; rfl),
        hheld.listenerFree (by rw [hended]; rfl), handles_eq_nil (by rw [hended]; rfl), hhandlers]
      rfl
    have hopen : s.sockets[i].isOpen = false := by
      refine Bool.eq_false_iff.2 fun hopen ↦ ?_
      have hnone := List.countP_eq_zero.1 (hcount s.sockets[i].handle) s.sockets[i]
        (List.getElem_mem hi)
      exact hnone (HandleTable.opens_iff.2 ⟨hopen, rfl⟩)
    rw [hplaces]
    exact List.mem_map_of_mem ((hclosed i).2 ⟨_, List.getElem?_eq_getElem hi, hopen⟩)

/-- A client is accepted and made ready, and then something happens. -/
def serve (e : Event) : List Event :=
  [.connect 0, .main (.socket 7)] ++ List.replicate 2 (.main .done) ++ [e]

/-- The first client hangs up, the second one gets its handle, and then Control-C is pressed. -/
def twoClients : List Event :=
  [.main (.socket 5)] ++ List.replicate 6 (.main .done) ++
    serve (.hangUp 1) ++ List.replicate 5 (.main .done) ++
    serve .control ++ List.replicate 7 (.handler 0) ++ List.replicate 4 (.main .done)

theorem sockets_closed_once_twoClients : ∃ s, Run (Process.new 0) s ∧
    s.closes = [some 1, some 2, some 0] ∧ ∀ i < s.sockets.length, some i ∈ s.closes := by
  obtain ⟨s, hrun, hended, hhandlers, hcloses⟩ :=
    show ∃ s, Run (Process.new 0) s ∧ s.main.point = .ended ∧ s.handlers = [.returned] ∧
        s.closes = [some 1, some 2, some 0] from
      exists_run twoClients (by decide +kernel)
  refine ⟨s, hrun, hcloses, (sockets_closed_once hrun).2.2.2.2.2 hended fun p hp ↦ ?_⟩
  rw [hhandlers] at hp
  exact List.mem_singleton.1 hp

end Process

end SecondScreen.Host.Serving
