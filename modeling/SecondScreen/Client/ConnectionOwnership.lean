import SecondScreen.Client.ConnectionManager
import SecondScreen.Conc.Runs

/-!
# Who owns the connection

The active socket and receiver belong to the loop with the current token, and a loop that
is superseded neither sets nor clears them.  What such a loop still closes is its own.
-/

namespace SecondScreen.Client

open SecondScreen.Conc Relation

/-- At these points a loop has no socket. -/
def LoopPoint.Idle : LoopPoint → Prop
  | .absent | .head | .connecting | .ended | .sleeping | .exited => True
  | _ => False

/-- At these points a loop has no receiver. -/
def LoopPoint.Early : LoopPoint → Prop
  | .installingSocket | .handshaking | .checking | .creating => True
  | point => point.Idle

theorem LoopPoint.Idle.early {point : LoopPoint} (h : point.Idle) : point.Early := by
  cases point <;> first | exact h | trivial

namespace ConnectionManager

variable {m m' : ConnectionManager} {token socket : Nat}

theorem isCurrent_iff :
    m.isCurrent token = true ↔ (m.closed = false ∧ m.running = true) ∧ m.generation = token := by
  simp [isCurrent]

theorem installActiveSocket_true (h : m.installActiveSocket token socket = (true, m')) :
    m.running = true ∧ m.generation = token ∧ m' = { m with activeSocket := some socket } := by
  simp only [installActiveSocket] at h
  split_ifs at h with hrefused
  · cases h
  · simp only [Bool.or_eq_true, Bool.not_eq_true', bne_iff_ne, not_or, ne_eq,
      Bool.not_eq_false, not_not] at hrefused
    exact ⟨hrefused.1.2, hrefused.2, (Prod.mk.inj h).2.symm⟩

theorem installActiveReceiver_true {receiver : Receiver}
    (h : m.installActiveReceiver token socket receiver = (true, m')) :
    m.running = true ∧ m.generation = token ∧ m.activeSocket = some socket ∧
      m' = { m with activeReceiver := some receiver } := by
  simp only [installActiveReceiver] at h
  split_ifs at h with hrefused
  · cases h
  · simp only [Bool.or_eq_true, Bool.not_eq_true', bne_iff_ne, not_or, ne_eq,
      Bool.not_eq_false, not_not] at hrefused
    exact ⟨hrefused.1.1.2, hrefused.1.2, hrefused.2, (Prod.mk.inj h).2.symm⟩

end ConnectionManager

namespace Connections

/-- Any sequence of steps. -/
abbrev Run : Connections → Connections → Prop := ReflTransGen (Moves next fun _ _ ↦ True)

/-- The socket belongs to the loop with the current token, which has installed it and has
not yet given it back. -/
structure Held (s : Connections) (x : Nat) (receiver : Option Receiver) : Prop where
  running : s.manager.running = true
  socket : (s.loops s.manager.generation).socket = some x
  point : (s.loops s.manager.generation).point ≠ .closingSocket
  installed : ⟨s.manager.generation, x, receiver, s.manager.generation, true⟩ ∈ s.installed

structure Inv (s : Connections) : Prop where
  fresh : ∀ k, s.manager.generation < k → (s.loops k).point = .absent
  idle : ∀ k, (s.loops k).point.Idle → (s.loops k).socket = none
  early : ∀ k, (s.loops k).point.Early → (s.loops k).receiver = none
  receiver : ∀ k r, (s.loops k).receiver = some r → (s.loops k).socket = some r.socket
  owner : ∀ k x, (s.loops k).socket = some x → s.sockets[x]? = some k
  /-- A socket is closed, or still with the loop to which it was returned. -/
  kept : ∀ x k, s.sockets[x]? = some k → x ∈ s.closedSockets ∨ (s.loops k).socket = some x
  activeSocket : ∀ x, s.manager.activeSocket = some x → s.Held x none
  activeReceiver : ∀ r, s.manager.activeReceiver = some r →
    s.Held r.socket (some r) ∧ (s.loops s.manager.generation).receiver = some r
  installed : ∀ e ∈ s.installed, e.token = e.generation ∧ e.running = true

variable {s t : Connections} {token : Nat}

theorem Inv.initial : Inv {} where
  fresh _ _ := rfl
  idle _ _ := rfl
  early _ _ := rfl
  receiver _ _ h := by cases h
  owner _ _ h := by cases h
  kept _ _ h := by cases h
  activeSocket _ h := by cases h
  activeReceiver _ h := by cases h
  installed _ h := by cases h

/-! ## The steps of a loop -/

/-- A loop has gone on with what it has. -/
structure GoesOn (loop loop' : Loop) : Prop where
  socket : loop'.socket = loop.socket
  receiver : loop'.receiver = loop.receiver
  absent : loop.point = .absent → loop'.point = .absent
  idle : loop'.point.Idle → loop.point.Idle
  early : loop'.point.Early → loop.point.Early
  closing : loop'.point = .closingSocket → loop.point = .closingSocket

theorem GoesOn.refl (loop : Loop) : GoesOn loop loop := ⟨rfl, rfl, id, id, id, id⟩

theorem GoesOn.update {loop : Loop} (h : GoesOn (s.loops token) loop) (k : Nat) :
    GoesOn (s.loops k) (Function.update s.loops token loop k) := by
  rcases eq_or_ne k token with rfl | hne
  · rwa [Function.update_self]
  · rw [Function.update_of_ne hne]
    exact .refl _

theorem Held.of_goesOn {x : Nat} {receiver : Option Receiver} (h : s.Held x receiver)
    (hloops : ∀ k, GoesOn (s.loops k) (t.loops k))
    (hgeneration : t.manager.generation = s.manager.generation)
    (hrunning : t.manager.running = s.manager.running)
    (hinstalled : s.installed ⊆ t.installed) : t.Held x receiver where
  running := hrunning.trans h.running
  socket := by
    rw [hgeneration, (hloops _).socket]
    exact h.socket
  point := by
    rw [hgeneration]
    exact fun hclosing ↦ h.point ((hloops _).closing hclosing)
  installed := by
    rw [hgeneration]
    exact hinstalled h.installed

/-- The loops go on, the manager is as it was, and some sockets may have been closed. -/
theorem Inv.of_goesOn (h : Inv s) (hloops : ∀ k, GoesOn (s.loops k) (t.loops k))
    (hgeneration : t.manager.generation = s.manager.generation)
    (hrunning : t.manager.running = s.manager.running)
    (hsocket : t.manager.activeSocket = s.manager.activeSocket)
    (hreceiver : t.manager.activeReceiver = s.manager.activeReceiver)
    (hsockets : t.sockets = s.sockets) (hclosed : s.closedSockets ⊆ t.closedSockets)
    (hinstalled : t.installed = s.installed) : Inv t where
  fresh k hk := (hloops k).absent (h.fresh k (hgeneration ▸ hk))
  idle k hk := by
    rw [(hloops k).socket]
    exact h.idle k ((hloops k).idle hk)
  early k hk := by
    rw [(hloops k).receiver]
    exact h.early k ((hloops k).early hk)
  receiver k r hr := by
    rw [(hloops k).receiver] at hr
    rw [(hloops k).socket]
    exact h.receiver k r hr
  owner k x hx := by
    rw [(hloops k).socket] at hx
    rw [hsockets]
    exact h.owner k x hx
  kept x k hx := by
    rw [hsockets] at hx
    rw [(hloops k).socket]
    exact (h.kept x k hx).imp (hclosed ·) id
  activeSocket x hx :=
    (h.activeSocket x (hsocket ▸ hx)).of_goesOn hloops hgeneration hrunning
      (hinstalled ▸ List.Subset.refl _)
  activeReceiver r hr := by
    obtain ⟨hheld, hlocal⟩ := h.activeReceiver r (hreceiver ▸ hr)
    constructor
    · exact hheld.of_goesOn hloops hgeneration hrunning (hinstalled ▸ List.Subset.refl _)
    · rw [hgeneration, (hloops _).receiver]
      exact hlocal
  installed := by
    rw [hinstalled]
    exact h.installed

/-! ## What is active -/

theorem Held.install {x : Nat} {receiver : Option Receiver} (h : s.Held x receiver)
    (e : Installed) : Held { s with installed := s.installed ++ [e] } x receiver :=
  ⟨h.running, h.socket, h.point, List.mem_append_left _ h.installed⟩

theorem Inv.install (h : Inv s) {e : Installed} (he : e.token = e.generation ∧ e.running = true) :
    Inv { s with installed := s.installed ++ [e] } where
  fresh := h.fresh
  idle := h.idle
  early := h.early
  receiver := h.receiver
  owner := h.owner
  kept := h.kept
  activeSocket x hx := (h.activeSocket x hx).install e
  activeReceiver r hr := ⟨(h.activeReceiver r hr).1.install e, (h.activeReceiver r hr).2⟩
  installed e' he' := by
    rcases List.mem_append.1 he' with he' | he'
    · exact h.installed e' he'
    · rw [List.mem_singleton.1 he']
      exact he

/-- Only the active socket and receiver change. -/
theorem Inv.of_active (h : Inv s) {m : ConnectionManager}
    (hgeneration : m.generation = s.manager.generation)
    (hsocket : ∀ x, m.activeSocket = some x → Held { s with manager := m } x none)
    (hreceiver : ∀ r, m.activeReceiver = some r → Held { s with manager := m } r.socket (some r) ∧
      (s.loops s.manager.generation).receiver = some r) : Inv { s with manager := m } where
  fresh k hk := h.fresh k (hgeneration ▸ hk)
  idle := h.idle
  early := h.early
  receiver := h.receiver
  owner := h.owner
  kept := h.kept
  activeSocket := hsocket
  activeReceiver r hr := by
    show _ ∧ (s.loops m.generation).receiver = some r
    rw [hgeneration]
    exact hreceiver r hr
  installed := h.installed

theorem Held.of_manager {x : Nat} {receiver : Option Receiver} (h : s.Held x receiver)
    {m : ConnectionManager} (hgeneration : m.generation = s.manager.generation)
    (hrunning : m.running = s.manager.running) : Held { s with manager := m } x receiver where
  running := hrunning.trans h.running
  socket := by
    show (s.loops m.generation).socket = some x
    rw [hgeneration]
    exact h.socket
  point := by
    show (s.loops m.generation).point ≠ .closingSocket
    rw [hgeneration]
    exact h.point
  installed := by
    show ⟨m.generation, x, receiver, m.generation, true⟩ ∈ s.installed
    rw [hgeneration]
    exact h.installed

/-- The loop takes up or gives up a socket or a receiver; it holds nothing active. -/
theorem Inv.of_update (h : Inv s) {loop : Loop} {sockets : List Nat} {closedSockets : List Nat}
    {receivers : List Receiver} (hpresent : (s.loops token).point ≠ .absent)
    (hidle : loop.point.Idle → loop.socket = none)
    (hearly : loop.point.Early → loop.receiver = none)
    (hreceiver : ∀ r, loop.receiver = some r → loop.socket = some r.socket)
    (howner : ∀ x, loop.socket = some x → sockets[x]? = some token)
    (hsockets : ∀ x k : Nat, k ≠ token → (sockets[x]? = some k ↔ s.sockets[x]? = some k))
    (hkept : ∀ x : Nat, sockets[x]? = some token → x ∈ closedSockets ∨ loop.socket = some x)
    (hclosed : s.closedSockets ⊆ closedSockets)
    (hsocket : ∀ x, s.manager.activeSocket = some x → s.manager.generation = token →
      loop.socket = some x ∧ loop.point ≠ .closingSocket)
    (hactive : ∀ r, s.manager.activeReceiver = some r → s.manager.generation = token →
      (loop.socket = some r.socket ∧ loop.point ≠ .closingSocket) ∧ loop.receiver = some r) :
    Inv { s with
      sockets, closedSockets, receivers
      loops := Function.update s.loops token loop } := by
  have hheld {x : Nat} {receiver : Option Receiver} (hx : s.Held x receiver)
      (hown : s.manager.generation = token →
        loop.socket = some x ∧ loop.point ≠ .closingSocket) : Held { s with
        sockets, closedSockets, receivers
        loops := Function.update s.loops token loop } x receiver := by
    refine ⟨hx.running, ?_, ?_, hx.installed⟩ <;> simp only [Function.update_apply]
    · split_ifs with hk
      · exact (hown hk).1
      · exact hx.socket
    · split_ifs with hk
      · exact (hown hk).2
      · exact hx.point
  refine ⟨fun k hk ↦ ?_, fun k hk ↦ ?_, fun k hk ↦ ?_, fun k r hr ↦ ?_, fun k x hx ↦ ?_,
    fun x k hx ↦ ?_, fun x hx ↦ hheld (h.activeSocket x hx) (hsocket x hx), fun r hr ↦ ?_,
    h.installed⟩
  · have hne : k ≠ token := by
      rintro rfl
      exact hpresent (h.fresh k hk)
    show (Function.update s.loops token loop k).point = .absent
    rw [Function.update_of_ne hne]
    exact h.fresh k hk
  · simp only [Function.update_apply] at hk ⊢
    split_ifs at hk ⊢ with heq
    · exact hidle hk
    · exact h.idle k hk
  · simp only [Function.update_apply] at hk ⊢
    split_ifs at hk ⊢ with heq
    · exact hearly hk
    · exact h.early k hk
  · simp only [Function.update_apply] at hr ⊢
    split_ifs at hr ⊢ with heq
    · exact hreceiver r hr
    · exact h.receiver k r hr
  · simp only [Function.update_apply] at hx
    split_ifs at hx with heq
    · rw [heq]
      exact howner x hx
    · exact (hsockets x k heq).2 (h.owner k x hx)
  · simp only [Function.update_apply]
    split_ifs with heq
    · exact hkept x (heq ▸ hx)
    · have hold : s.sockets[x]? = some k := (hsockets x k heq).1 hx
      exact (h.kept x k hold).imp (hclosed ·) id
  · obtain ⟨hx, hlocal⟩ := h.activeReceiver r hr
    refine ⟨hheld hx fun hk ↦ (hactive r hr hk).1, ?_⟩
    simp only [Function.update_apply]
    split_ifs with hk
    · exact (hactive r hr hk).2
    · exact hlocal

/-! ## From point to point -/

/-- A loop that goes on keeps the invariant. -/
theorem Inv.setLoop (h : Inv s) {loop : Loop} (hloop : GoesOn (s.loops token) loop) :
    Inv (s.setLoop token loop) :=
  h.of_goesOn hloop.update rfl rfl rfl rfl rfl (List.Subset.refl _) rfl

/-- At a point that is not idle, and on to another such point. -/
theorem goesOn_at {loop : Loop} {point : LoopPoint} (returning : Bool) (hpoint : ¬ point.Idle)
    (habsent : loop.point ≠ .absent) (hearly : point.Early → loop.point.Early)
    (hclosing : point ≠ .closingSocket) : GoesOn loop { loop with point, returning } :=
  ⟨rfl, rfl, (absurd · habsent), (absurd · hpoint), hearly, (absurd · hclosing)⟩

theorem goesOn_unwind {loop : Loop} (caught : Bool) (habsent : loop.point ≠ .absent) :
    GoesOn loop (loop.unwind caught) := by
  cases caught with
  | true => exact goesOn_at loop.returning id habsent (absurd · id) nofun
  | false => exact goesOn_at true id habsent (absurd · id) nofun

/-- From an idle point to another. -/
theorem goesOn_idle {loop : Loop} {point : LoopPoint} (hidle : loop.point.Idle)
    (habsent : loop.point ≠ .absent) (hclosing : point ≠ .closingSocket) :
    GoesOn loop (loop.at point) := by
  exact ⟨rfl, rfl, (absurd · habsent), fun _ ↦ hidle, fun _ ↦ hidle.early, (absurd · hclosing)⟩

theorem Inv.head (h : Inv s) (hpoint : (s.loops token).point = .head) :
    Inv (s.setLoop token { point := .connecting }) := by
  refine h.setLoop ⟨?_, ?_, fun habsent ↦ ?_, fun _ ↦ ?_, fun _ ↦ ?_, nofun⟩
  · exact (h.idle token (hpoint ▸ trivial)).symm
  · exact (h.early token (hpoint ▸ trivial)).symm
  · rw [hpoint] at habsent
    cases habsent
  · rw [hpoint]
    trivial
  · rw [hpoint]
    trivial

/-- `connectSocket` returns a socket. -/
theorem Inv.connect (h : Inv s) (hpoint : (s.loops token).point = .connecting) :
    Inv { s with
      sockets := s.sockets ++ [token]
      loops := Function.update s.loops token
        { s.loops token with point := .installingSocket, socket := some s.sockets.length } } := by
  have hidle : (s.loops token).socket = none := h.idle token (hpoint ▸ trivial)
  have hearly : (s.loops token).receiver = none := h.early token (hpoint ▸ trivial)
  apply h.of_update
  · rw [hpoint]
    nofun
  · exact False.elim
  · exact fun _ ↦ hearly
  · intro r hr
    rw [hearly] at hr
    cases hr
  · intro x hx
    cases hx
    exact List.getElem?_concat_length
  · intro x k hk
    rcases Nat.lt_trichotomy x s.sockets.length with hlt | rfl | hgt
    · rw [List.getElem?_append_left hlt]
    · rw [List.getElem?_concat_length, List.getElem?_eq_none le_rfl]
      simpa using hk.symm
    · have hge : (s.sockets ++ [token]).length ≤ x := by
        rw [List.length_append]
        exact hgt
      rw [List.getElem?_eq_none hge, List.getElem?_eq_none hgt.le]
  · intro x hx
    rcases Nat.lt_or_ge x s.sockets.length with hlt | hge
    · rw [List.getElem?_append_left hlt] at hx
      refine (h.kept x token hx).imp_right fun hx ↦ ?_
      rw [hidle] at hx
      cases hx
    · have hlt := (List.getElem?_eq_some_iff.1 hx).1
      rw [List.length_append, List.length_singleton] at hlt
      exact .inr (congrArg some (by omega))
  · exact List.Subset.refl _
  · rintro x hx rfl
    rw [(h.activeSocket x hx).socket] at hidle
    cases hidle
  · rintro r hr rfl
    rw [(h.activeReceiver r hr).2] at hearly
    cases hearly

/-- The loop of the current token installs its socket. -/
theorem Inv.installSocket (h : Inv s) {socket : Nat} {manager : ConnectionManager}
    (hpoint : (s.loops token).point = .installingSocket)
    (hsocket : (s.loops token).socket = some socket)
    (hinstall : s.manager.installActiveSocket token socket = (true, manager)) :
    Inv { s with
      manager
      loops := Function.update s.loops token ((s.loops token).at .handshaking)
      installed := s.installed ++
        [⟨token, socket, none, s.manager.generation, s.manager.running⟩] } := by
  obtain ⟨hrunning, rfl, rfl⟩ := ConnectionManager.installActiveSocket_true hinstall
  have hloop : GoesOn (s.loops s.manager.generation)
      ((s.loops s.manager.generation).at .handshaking) :=
    goesOn_at _ id (by rw [hpoint]; nofun) (fun _ ↦ hpoint ▸ trivial) nofun
  have ht := (h.setLoop hloop).install
    (e := ⟨s.manager.generation, socket, none, s.manager.generation, s.manager.running⟩)
    ⟨rfl, hrunning⟩
  refine ht.of_active (m := { s.manager with activeSocket := some socket }) rfl (fun x hx ↦ ?_)
    fun r hr ↦ ?_
  · cases hx
    refine ⟨hrunning, ?_, ?_, ?_⟩
    · exact (hloop.update _).socket.trans hsocket
    · show (Function.update s.loops s.manager.generation _ s.manager.generation).point ≠ _
      rw [Function.update_self]
      nofun
    · rw [hrunning]
      exact List.mem_append_right _ List.mem_cons_self
  · exact ⟨(ht.activeReceiver r hr).1.of_manager rfl rfl, (ht.activeReceiver r hr).2⟩

theorem Inv.create (h : Inv s) {socket : Nat}
    (hpoint : (s.loops token).point = .creating)
    (hsocket : (s.loops token).socket = some socket) (id : Nat) (receivers : List Receiver) :
    Inv { s with
      receivers
      loops := Function.update s.loops token
        { s.loops token with point := .installingReceiver, receiver := some ⟨id, socket⟩ } } := by
  have hearly : (s.loops token).receiver = none := h.early token (hpoint ▸ trivial)
  apply h.of_update
  · rw [hpoint]
    nofun
  · exact False.elim
  · exact False.elim
  · intro r hr
    cases hr
    exact hsocket
  · exact fun x hx ↦ h.owner token x hx
  · exact fun _ _ _ ↦ Iff.rfl
  · exact fun x hx ↦ h.kept x token hx
  · exact List.Subset.refl _
  · rintro x hx rfl
    exact ⟨(h.activeSocket x hx).socket, nofun⟩
  · rintro r hr rfl
    rw [(h.activeReceiver r hr).2] at hearly
    cases hearly

/-- The loop of the current token installs its receiver. -/
theorem Inv.installReceiver (h : Inv s) {receiver : Receiver} {manager : ConnectionManager}
    (hpoint : (s.loops token).point = .installingReceiver)
    (hreceiver : (s.loops token).receiver = some receiver)
    (hinstall : s.manager.installActiveReceiver token receiver.socket receiver = (true, manager)) :
    Inv { s with
      manager := { manager with streamStarted := true }
      loops := Function.update s.loops token ((s.loops token).at .receiving)
      installed := s.installed ++
        [⟨token, receiver.socket, some receiver, s.manager.generation, s.manager.running⟩] } := by
  obtain ⟨hrunning, rfl, -, rfl⟩ := ConnectionManager.installActiveReceiver_true hinstall
  have hloop : GoesOn (s.loops s.manager.generation)
      ((s.loops s.manager.generation).at .receiving) :=
    goesOn_at _ id (by rw [hpoint]; nofun) False.elim nofun
  have ht := (h.setLoop hloop).install
    (e := ⟨s.manager.generation, receiver.socket, some receiver, s.manager.generation,
      s.manager.running⟩) ⟨rfl, hrunning⟩
  refine ht.of_active
    (m := { s.manager with activeReceiver := some receiver, streamStarted := true }) rfl
    (fun x hx ↦ (ht.activeSocket x hx).of_manager rfl rfl) fun r hr ↦ ?_
  cases hr
  refine ⟨⟨hrunning, ?_, ?_, ?_⟩, (hloop.update _).receiver.trans hreceiver⟩
  · exact (hloop.update _).socket.trans (h.receiver _ _ hreceiver)
  · show (Function.update s.loops s.manager.generation _ s.manager.generation).point ≠ _
    rw [Function.update_self]
    nofun
  · rw [hrunning]
    exact List.mem_append_right _ List.mem_cons_self

/-- What is active after `clearActiveResources` was so before, and is not the loop's. -/
theorem clear_active {m : ConnectionManager} {socket : Option Nat} {receiver : Option Receiver} :
    (∀ x, (m.clearActiveResources socket receiver).activeSocket = some x →
      m.activeSocket = some x ∧ socket ≠ some x) ∧
    ∀ r, (m.clearActiveResources socket receiver).activeReceiver = some r →
      m.activeReceiver = some r ∧ receiver ≠ some r := by
  simp only [ConnectionManager.clearActiveResources]
  constructor <;> intro x hx <;> split_ifs at hx with heq <;> refine ⟨hx, fun hsame ↦ heq ?_⟩ <;>
    rw [hx, hsame]

theorem Inv.clear (h : Inv s) (hpoint : (s.loops token).point = .clearing) :
    Inv { s with
      manager := s.manager.clearActiveResources (s.loops token).socket (s.loops token).receiver
      loops := Function.update s.loops token ((s.loops token).at .closingSocket) } := by
  have hclear : Inv { s with
      manager := s.manager.clearActiveResources (s.loops token).socket (s.loops token).receiver } :=
    h.of_active rfl
      (fun x hx ↦ (h.activeSocket x (clear_active.1 x hx).1).of_manager rfl rfl)
      fun r hr ↦ ⟨(h.activeReceiver r (clear_active.2 r hr).1).1.of_manager rfl rfl,
        (h.activeReceiver r (clear_active.2 r hr).1).2⟩
  apply hclear.of_update
  · show (s.loops token).point ≠ .absent
    rw [hpoint]
    nofun
  · exact False.elim
  · exact False.elim
  · exact fun r hr ↦ h.receiver token r hr
  · exact fun x hx ↦ h.owner token x hx
  · exact fun _ _ _ ↦ Iff.rfl
  · exact fun x hx ↦ h.kept x token hx
  · exact List.Subset.refl _
  · intro x hx (htoken : s.manager.generation = token)
    obtain ⟨hactive, hne⟩ := clear_active.1 x hx
    exact absurd (htoken ▸ (h.activeSocket x hactive).socket) hne
  · intro r hr (htoken : s.manager.generation = token)
    obtain ⟨hactive, hne⟩ := clear_active.2 r hr
    exact absurd (htoken ▸ (h.activeReceiver r hactive).2) hne

/-- The last step of a turn. -/
theorem Inv.closeSocket (h : Inv s) (hpoint : (s.loops token).point = .closingSocket)
    (point : LoopPoint) :
    Inv { s with
      closedSockets := s.closedSockets ++ (s.loops token).socket.toList
      loops := Function.update s.loops token { point } } := by
  apply h.of_update
  · rw [hpoint]
    nofun
  · exact fun _ ↦ rfl
  · exact fun _ ↦ rfl
  · exact nofun
  · exact nofun
  · exact fun _ _ _ ↦ Iff.rfl
  · intro x hx
    rcases h.kept x token hx with hclosed | hlocal
    · exact .inl (List.mem_append_left _ hclosed)
    · rw [hlocal]
      exact .inl (List.mem_append_right _ List.mem_cons_self)
  · exact List.subset_append_left _ _
  · rintro x hx rfl
    exact absurd hpoint (h.activeSocket x hx).point
  · rintro r hr rfl
    exact absurd hpoint (h.activeReceiver r hr).1.point

/-! ## What a step can do -/

/-- What one step of a loop can do. -/
inductive LoopEffect (s : Connections) (token : Nat) : Connections → Prop
  | goesOn {loop : Loop} {closedSockets : List Nat} (hloop : GoesOn (s.loops token) loop)
      (hclosed : s.closedSockets ⊆ closedSockets)
      (hown : ∀ x ∈ closedSockets, x ∈ s.closedSockets ∨ (s.loops token).socket = some x ∨
        (s.loops token).receiver.map Receiver.socket = some x) :
      LoopEffect s token { s with
        closedSockets
        loops := Function.update s.loops token loop }
  | head (hpoint : (s.loops token).point = .head) :
      LoopEffect s token (s.setLoop token { point := .connecting })
  | connect (hpoint : (s.loops token).point = .connecting) :
      LoopEffect s token { s with
        sockets := s.sockets ++ [token]
        loops := Function.update s.loops token
          { s.loops token with point := .installingSocket, socket := some s.sockets.length } }
  | installSocket {socket : Nat} {manager : ConnectionManager}
      (hpoint : (s.loops token).point = .installingSocket)
      (hsocket : (s.loops token).socket = some socket)
      (hinstall : s.manager.installActiveSocket token socket = (true, manager)) :
      LoopEffect s token { s with
        manager
        loops := Function.update s.loops token ((s.loops token).at .handshaking)
        installed := s.installed ++
          [⟨token, socket, none, s.manager.generation, s.manager.running⟩] }
  | create {socket : Nat} (hpoint : (s.loops token).point = .creating)
      (hsocket : (s.loops token).socket = some socket) (id : Nat) (receivers : List Receiver) :
      LoopEffect s token { s with
        receivers
        loops := Function.update s.loops token
          { s.loops token with point := .installingReceiver, receiver := some ⟨id, socket⟩ } }
  | installReceiver {receiver : Receiver} {manager : ConnectionManager}
      (hpoint : (s.loops token).point = .installingReceiver)
      (hreceiver : (s.loops token).receiver = some receiver)
      (hinstall :
        s.manager.installActiveReceiver token receiver.socket receiver = (true, manager)) :
      LoopEffect s token { s with
        manager := { manager with streamStarted := true }
        loops := Function.update s.loops token ((s.loops token).at .receiving)
        installed := s.installed ++
          [⟨token, receiver.socket, some receiver, s.manager.generation, s.manager.running⟩] }
  | clear (hpoint : (s.loops token).point = .clearing) :
      LoopEffect s token { s with
        manager := s.manager.clearActiveResources (s.loops token).socket (s.loops token).receiver
        loops := Function.update s.loops token ((s.loops token).at .closingSocket) }
  | closeSocket (hpoint : (s.loops token).point = .closingSocket) (point : LoopPoint) :
      LoopEffect s token { s with
        closedSockets := s.closedSockets ++ (s.loops token).socket.toList
        loops := Function.update s.loops token { point } }

/-- A step that sets only where the loop is. -/
theorem LoopEffect.setLoop {loop : Loop} (hloop : GoesOn (s.loops token) loop) :
    LoopEffect s token (s.setLoop token loop) :=
  .goesOn hloop (List.Subset.refl _) fun _ ↦ .inl

/-- A step that also closes a socket of the loop. -/
theorem LoopEffect.close {loop : Loop} {socket : Option Nat}
    (hloop : GoesOn (s.loops token) loop)
    (hown : socket = (s.loops token).socket ∨
      socket = (s.loops token).receiver.map Receiver.socket) :
    LoopEffect s token { s with
      closedSockets := s.closedSockets ++ socket.toList
      loops := Function.update s.loops token loop } := by
  refine .goesOn hloop (List.subset_append_left _ _) fun x hx ↦ ?_
  rcases List.mem_append.1 hx with hx | hx
  · exact .inl hx
  · rw [Option.mem_toList] at hx
    right
    rcases hown with hown | hown
    · exact .inl (hown ▸ hx)
    · exact .inr (hown ▸ hx)

/-- An exception takes the loop to its handler, where it has one. -/
theorem thrown_effect {caught : Bool} (hstep : s.loopStep token (.thrown caught) = some t) :
    LoopEffect s token t := by
  cases hpoint : (s.loops token).point with
  | connecting | handshaking | creating | receiving =>
      simp only [loopStep, hpoint] at hstep
      cases hstep
      exact .setLoop (goesOn_unwind caught (by simp [hpoint]))
  | failed =>
      simp only [loopStep, hpoint] at hstep
      cases hstep
      exact .setLoop (goesOn_at _ id (by simp [hpoint]) False.elim nofun)
  | ended | sleeping =>
      simp only [loopStep, hpoint] at hstep
      cases hstep
      exact .setLoop (goesOn_idle (hpoint ▸ trivial) (by simp [hpoint]) nofun)
  | absent | exited | head | installingSocket | refused | checking | installingReceiver
  | receiverRefused | closingReceiver | clearing | closingSocket =>
      simp [loopStep, hpoint] at hstep

/-- A step that succeeds goes on to the next point of the loop. -/
theorem done_effect (hstep : s.loopStep token .done = some t) : LoopEffect s token t := by
  cases hpoint : (s.loops token).point with
  | absent | exited => simp [loopStep, hpoint] at hstep
  | head =>
      simp only [loopStep, hpoint] at hstep
      split_ifs at hstep <;> cases hstep
      · exact .head hpoint
      · exact .setLoop (goesOn_idle (hpoint ▸ trivial) (by simp [hpoint]) nofun)
  | connecting =>
      simp only [loopStep, hpoint] at hstep
      cases hstep
      exact .connect hpoint
  | installingSocket =>
      simp only [loopStep, hpoint] at hstep
      obtain ⟨socket, hsocket, rfl⟩ := Option.map_eq_some_iff.1 hstep
      split
      · exact .setLoop (goesOn_at _ id (by simp [hpoint]) False.elim nofun)
      · next hinstall => exact .installSocket hpoint hsocket hinstall
  | refused | receiverRefused | closingReceiver =>
      simp only [loopStep, hpoint] at hstep
      cases hstep
      apply LoopEffect.close
      · exact goesOn_at _ id (by simp [hpoint]) False.elim nofun
      · simp
  | handshaking =>
      simp only [loopStep, hpoint] at hstep
      cases hstep
      exact .setLoop (goesOn_at _ id (by simp [hpoint]) (fun _ ↦ hpoint ▸ trivial) nofun)
  | checking =>
      simp only [loopStep, hpoint] at hstep
      split_ifs at hstep <;> cases hstep
      · exact .setLoop (goesOn_at _ id (by simp [hpoint]) (fun _ ↦ hpoint ▸ trivial) nofun)
      · exact .setLoop (goesOn_at _ id (by simp [hpoint]) False.elim nofun)
  | creating =>
      simp only [loopStep, hpoint] at hstep
      obtain ⟨socket, hsocket, rfl⟩ := Option.map_eq_some_iff.1 hstep
      exact .create hpoint hsocket _ _
  | installingReceiver =>
      simp only [loopStep, hpoint] at hstep
      obtain ⟨receiver, hreceiver, rfl⟩ := Option.map_eq_some_iff.1 hstep
      split
      · exact .setLoop (goesOn_at _ id (by simp [hpoint]) False.elim nofun)
      · next hinstall => exact .installReceiver hpoint hreceiver hinstall
  | receiving | failed =>
      simp only [loopStep, hpoint] at hstep
      cases hstep
      exact .setLoop (goesOn_at _ id (by simp [hpoint]) False.elim nofun)
  | clearing =>
      simp only [loopStep, hpoint] at hstep
      cases hstep
      exact .clear hpoint
  | closingSocket =>
      simp only [loopStep, hpoint] at hstep
      cases hstep
      exact .closeSocket hpoint _
  | ended | sleeping =>
      have hgo {point : LoopPoint} (hclosing : point ≠ .closingSocket) :
          GoesOn (s.loops token) ((s.loops token).at point) :=
        goesOn_idle (hpoint ▸ trivial) (by simp [hpoint]) hclosing
      simp only [loopStep, hpoint] at hstep
      split_ifs at hstep <;> cases hstep <;> exact .setLoop (hgo nofun)

theorem loopStep_effect {outcome : Outcome} (hstep : s.loopStep token outcome = some t) :
    LoopEffect s token t := by
  cases outcome with
  | done => exact done_effect hstep
  | thrown => exact thrown_effect hstep

theorem Inv.loopEffect (h : Inv s) (heffect : LoopEffect s token t) : Inv t := by
  cases heffect with
  | goesOn hloop hclosed => exact h.of_goesOn hloop.update rfl rfl rfl rfl rfl hclosed rfl
  | head hpoint => exact h.head hpoint
  | connect hpoint => exact h.connect hpoint
  | installSocket hpoint hsocket hinstall => exact h.installSocket hpoint hsocket hinstall
  | create hpoint hsocket id receivers => exact h.create hpoint hsocket id receivers
  | installReceiver hpoint hreceiver hinstall =>
      exact h.installReceiver hpoint hreceiver hinstall
  | clear hpoint => exact h.clear hpoint
  | closeSocket hpoint point => exact h.closeSocket hpoint point

/-! ## A superseded loop -/

/-- A loop closes only sockets of its own. -/
theorem LoopEffect.closes_own (heffect : LoopEffect s token t) (h : Inv s) {x : Nat}
    (hx : x ∈ t.closedSockets) : x ∈ s.closedSockets ∨ s.sockets[x]? = some token := by
  have hlocal {x : Nat} (hx : (s.loops token).socket = some x) := h.owner token x hx
  cases heffect with
  | goesOn hloop hclosed hown =>
      rcases hown x hx with hx | hx | hx
      · exact .inl hx
      · exact .inr (hlocal hx)
      · obtain ⟨r, hr, rfl⟩ := Option.map_eq_some_iff.1 hx
        exact .inr (hlocal (h.receiver token r hr))
  | closeSocket =>
      rcases List.mem_append.1 hx with hx | hx
      · exact .inl hx
      · rw [Option.mem_toList] at hx
        exact .inr (hlocal hx)
  | head | connect | installSocket | create | installReceiver | clear => exact .inl hx

/-- A loop whose token is not the current one leaves the active socket and receiver alone. -/
theorem LoopEffect.superseded (heffect : LoopEffect s token t) (h : Inv s)
    (hne : s.manager.generation ≠ token) :
    t.manager.activeSocket = s.manager.activeSocket ∧
      t.manager.activeReceiver = s.manager.activeReceiver ∧ t.installed = s.installed := by
  cases heffect with
  | goesOn | head | connect | create | closeSocket => exact ⟨rfl, rfl, rfl⟩
  | installSocket hpoint hsocket hinstall =>
      exact absurd (ConnectionManager.installActiveSocket_true hinstall).2.1 hne
  | installReceiver hpoint hreceiver hinstall =>
      exact absurd (ConnectionManager.installActiveReceiver_true hinstall).2.1 hne
  | clear =>
      refine ⟨?_, ?_, rfl⟩
      · show (if s.manager.activeSocket = (s.loops token).socket then none
          else s.manager.activeSocket) = s.manager.activeSocket
        split_ifs with heq
        · cases hsocket : s.manager.activeSocket with
          | none => rfl
          | some x =>
              have hown := h.owner _ x (h.activeSocket x hsocket).socket
              rw [h.owner token x (heq ▸ hsocket)] at hown
              exact absurd (Option.some.inj hown).symm hne
        · rfl
      · show (if s.manager.activeReceiver = (s.loops token).receiver then none
          else s.manager.activeReceiver) = s.manager.activeReceiver
        split_ifs with heq
        · cases hreceiver : s.manager.activeReceiver with
          | none => rfl
          | some r =>
              have hown := h.owner _ r.socket (h.activeReceiver r hreceiver).1.socket
              rw [h.owner token r.socket (h.receiver token r (heq ▸ hreceiver))] at hown
              exact absurd (Option.some.inj hown).symm hne
        · rfl

/-! ## The callers -/

/-- Nothing that the invariant is about changes. -/
theorem Inv.of_callers (h : Inv s) (callers : Nat → List Block) :
    Inv { s with callers } :=
  h.of_goesOn (fun _ ↦ .refl _) rfl rfl rfl rfl rfl (List.Subset.refl _) rfl

/-- A new loop begins. -/
theorem Inv.begin (h : Inv s) (surface : Option Nat) (hrunning : s.manager.running = false) :
    Inv { s with
      manager := { s.manager with
        surface
        running := true
        generation := s.manager.generation + 1
        executor := some (s.manager.generation + 1) }
      loops := Function.update s.loops (s.manager.generation + 1) { point := .head } } := by
  have habsent := h.fresh (s.manager.generation + 1) (Nat.lt_succ_self _)
  have hsocket : (s.loops (s.manager.generation + 1)).socket = none :=
    h.idle _ (habsent ▸ trivial)
  have hreceiver : (s.loops (s.manager.generation + 1)).receiver = none :=
    h.early _ (habsent ▸ trivial)
  refine ⟨fun k hk ↦ ?_, fun k hk ↦ ?_, fun k hk ↦ ?_, fun k r hr ↦ ?_, fun k x hx ↦ ?_,
    fun x k hx ↦ ?_, fun x hx ↦ ?_, fun r hr ↦ ?_, h.installed⟩
  · show (Function.update s.loops (s.manager.generation + 1) _ k).point = .absent
    rw [Function.update_of_ne (Nat.ne_of_gt hk)]
    exact h.fresh k (Nat.lt_of_succ_lt hk)
  · simp only [Function.update_apply] at hk ⊢
    split_ifs at hk ⊢ with heq
    · rfl
    · exact h.idle k hk
  · simp only [Function.update_apply] at hk ⊢
    split_ifs at hk ⊢ with heq
    · rfl
    · exact h.early k hk
  · simp only [Function.update_apply] at hr ⊢
    split_ifs at hr ⊢ with heq
    exact h.receiver k r hr
  · simp only [Function.update_apply] at hx
    split_ifs at hx with heq
    exact h.owner k x hx
  · simp only [Function.update_apply]
    rcases h.kept x k hx with hclosed | hlocal
    · exact .inl hclosed
    · split_ifs with heq
      · rw [heq, hsocket] at hlocal
        cases hlocal
      · exact .inr hlocal
  · rw [(h.activeSocket x hx).running] at hrunning
    cases hrunning
  · rw [(h.activeReceiver r hr).1.running] at hrunning
    cases hrunning

theorem Inv.stop (h : Inv s) : Inv { s with
    manager := s.manager.stop.1
    closedSockets := s.closedSockets ++ s.manager.stop.2 } where
  fresh k hk := h.fresh k (Nat.lt_of_succ_lt hk)
  idle := h.idle
  early := h.early
  receiver := h.receiver
  owner := h.owner
  kept x k hx := (h.kept x k hx).imp_left (List.mem_append_left _)
  activeSocket x hx := by cases hx
  activeReceiver r hr := by cases hr
  installed := h.installed

theorem Inv.blockStep (h : Inv s) (caller : Nat) (isValid : Bool) (rest : List Block)
    (block : Block) : Inv (s.blockStep caller isValid rest block) := by
  cases block with
  | readSurface => exact h.of_callers _
  | setClosed =>
      exact h.of_goesOn (fun _ ↦ .refl _) rfl rfl rfl rfl rfl (List.Subset.refl _) rfl
  | stop => exact h.stop.of_callers _
  | start surface =>
      simp only [Connections.blockStep, ConnectionManager.start]
      split_ifs with hinvalid hclosed hrunning
      · exact h.of_callers _
      · exact h.of_callers _
      · exact h.of_goesOn (fun _ ↦ .refl _) rfl rfl rfl rfl rfl (List.Subset.refl _) rfl
      · exact (h.begin surface (Bool.eq_false_iff.2 hrunning)).of_callers _

theorem Inv.next (h : Inv s) {event : ConnectionEvent} (hnext : s.next event = some t) :
    Inv t := by
  cases event with
  | call caller call =>
      simp only [Connections.next] at hnext
      split_ifs at hnext
      cases hnext
      exact h.of_callers _
  | block caller isValid =>
      simp only [Connections.next] at hnext
      split at hnext <;> cases hnext
      exact h.blockStep ..
  | loop token outcome => exact h.loopEffect (loopStep_effect hnext)
  | receiverCloses receiver =>
      simp only [Connections.next] at hnext
      split_ifs at hnext
      cases hnext
      exact h.of_goesOn (fun _ ↦ .refl _) rfl rfl rfl rfl rfl (List.subset_append_left _ _) rfl

theorem Inv.run (h : Run s t) (hs : Inv s) : Inv t :=
  run_preserves (fun h ⟨_, _, hnext⟩ ↦ h.next hnext) hs h

/-! ## After `stop` -/

/-- Nothing has been started since the generation was `n`, or a newer loop has. -/
def Since (n : Nat) (s : Connections) : Prop :=
  n < s.manager.generation ∨ s.manager.generation = n ∧ s.manager.running = false

theorem LoopEffect.generation (h : LoopEffect s token t) :
    t.manager.generation = s.manager.generation ∧ t.manager.running = s.manager.running := by
  cases h with
  | goesOn | head | connect | create | closeSocket | clear => exact ⟨rfl, rfl⟩
  | installSocket hpoint hsocket hinstall =>
      obtain ⟨-, -, rfl⟩ := ConnectionManager.installActiveSocket_true hinstall
      exact ⟨rfl, rfl⟩
  | installReceiver hpoint hreceiver hinstall =>
      obtain ⟨-, -, -, rfl⟩ := ConnectionManager.installActiveReceiver_true hinstall
      exact ⟨rfl, rfl⟩

theorem Since.next {n : Nat} (h : Since n s) {event : ConnectionEvent}
    (hnext : s.next event = some t) : Since n t := by
  have hle : n ≤ s.manager.generation := by
    rcases h with hlt | ⟨heq, -⟩
    · exact hlt.le
    · exact heq.ge
  cases event with
  | call caller call =>
      simp only [Connections.next] at hnext
      split_ifs at hnext
      cases hnext
      exact h
  | block caller isValid =>
      simp only [Connections.next] at hnext
      split at hnext <;> cases hnext
      next block rest _ =>
      cases block with
      | readSurface | setClosed => exact h
      | stop => exact .inl (Nat.lt_succ_of_le hle)
      | start surface =>
          simp only [Connections.blockStep, ConnectionManager.start]
          split_ifs
          · exact h
          · exact h
          · exact h
          · exact .inl (Nat.lt_succ_of_le hle)
  | loop token outcome =>
      obtain ⟨hgeneration, hrunning⟩ := (loopStep_effect hnext).generation
      rwa [Since, hgeneration, hrunning]
  | receiverCloses receiver =>
      simp only [Connections.next] at hnext
      split_ifs at hnext
      cases hnext
      exact h

theorem Since.run {n : Nat} (h : Since n s) (hrun : Run s t) : Since n t :=
  run_preserves (fun h ⟨_, _, hnext⟩ ↦ h.next hnext) h hrun

theorem Since.newer (h : Since t.manager.generation s) (hinv : Inv s) {x : Nat}
    {receiver : Option Receiver} (hheld : s.Held x receiver) :
    ∃ k, t.manager.generation < k ∧ s.sockets[x]? = some k := by
  refine ⟨s.manager.generation, ?_, hinv.owner _ x hheld.socket⟩
  rcases h with hlt | ⟨-, hrunning⟩
  · exact hlt
  · rw [hheld.running] at hrunning
    cases hrunning

/-! ## The result -/

/-- **Connection ownership.**  Whatever callers and loops do: what is active was installed
by the loop of the current token while the manager was running; a superseded loop
installs nothing, clears nothing and closes only its own sockets; after `stop` nothing is
active until a newer loop installs its own; and the sockets of a loop that has exited are
closed. -/
theorem connection_ownership (h : Run {} s) :
    (∀ x, s.manager.activeSocket = some x → s.manager.running = true ∧
      s.sockets[x]? = some s.manager.generation ∧
      ⟨s.manager.generation, x, none, s.manager.generation, true⟩ ∈ s.installed) ∧
    (∀ r, s.manager.activeReceiver = some r → s.manager.running = true ∧
      s.sockets[r.socket]? = some s.manager.generation ∧
      ⟨s.manager.generation, r.socket, some r, s.manager.generation, true⟩ ∈ s.installed) ∧
    (∀ e ∈ s.installed, e.token = e.generation ∧ e.running = true) ∧
    (∀ token outcome t, s.next (.loop token outcome) = some t →
      (s.manager.generation ≠ token →
        t.manager.activeSocket = s.manager.activeSocket ∧
        t.manager.activeReceiver = s.manager.activeReceiver ∧ t.installed = s.installed) ∧
      ∀ x ∈ t.closedSockets, x ∈ s.closedSockets ∨ s.sockets[x]? = some token) ∧
    (∀ caller isValid rest t, s.callers caller = .stop :: rest →
      s.next (.block caller isValid) = some t →
      t.manager.activeSocket = none ∧ t.manager.activeReceiver = none ∧
      ∀ u, Run t u →
        (∀ x, u.manager.activeSocket = some x →
          ∃ k, t.manager.generation < k ∧ u.sockets[x]? = some k) ∧
        ∀ r, u.manager.activeReceiver = some r →
          ∃ k, t.manager.generation < k ∧ u.sockets[r.socket]? = some k) ∧
    ∀ k, (s.loops k).point = .exited → ∀ x, s.sockets[x]? = some k → x ∈ s.closedSockets := by
  have hinv := Inv.run h .initial
  refine ⟨fun x hx ↦ ?_, fun r hr ↦ ?_, hinv.installed, fun token outcome t hstep ↦ ?_,
    fun caller isValid rest t hblocks hstep ↦ ?_, fun k hexited x hx ↦ ?_⟩
  · have hheld := hinv.activeSocket x hx
    exact ⟨hheld.running, hinv.owner _ x hheld.socket, hheld.installed⟩
  · have hheld := (hinv.activeReceiver r hr).1
    exact ⟨hheld.running, hinv.owner _ r.socket hheld.socket, hheld.installed⟩
  · have heffect := loopStep_effect hstep
    exact ⟨heffect.superseded hinv, fun x hx ↦ heffect.closes_own hinv hx⟩
  · have ht := hinv.next hstep
    simp only [next, hblocks] at hstep
    cases hstep
    refine ⟨rfl, rfl, fun u hrun ↦ ?_⟩
    have hu := Inv.run hrun ht
    have hsince := Since.run (.inr ⟨rfl, rfl⟩) hrun
    exact ⟨fun x hx ↦ hsince.newer hu (hu.activeSocket x hx),
      fun r hr ↦ hsince.newer hu (hu.activeReceiver r hr).1⟩
  · rcases hinv.kept x k hx with hclosed | hlocal
    · exact hclosed
    · rw [hinv.idle k (hexited ▸ trivial)] at hlocal
      cases hlocal

/-- A loop is stopped in its handshake, and ends while the next one connects. -/
def supersededLoop : List ConnectionEvent :=
  [.call 0 (.start (some 0)), .block 0 true, .loop 1 .done, .loop 1 .done, .loop 1 .done,
   .call 0 .reconnect, .block 0 true, .block 0 true, .block 0 true,
   .loop 3 .done, .loop 3 .done, .loop 3 .done,
   .loop 1 (.thrown true), .loop 1 .done, .loop 1 .done, .loop 1 .done, .loop 1 .done,
   .loop 1 .done]

theorem connection_ownership_supersededLoop : ∃ s : Connections, Run {} s ∧
    s.manager.activeSocket = some 1 ∧ s.sockets[1]? = some 3 ∧ s.sockets[0]? = some 1 ∧
      0 ∈ s.closedSockets ∧ s.manager.running = true := by
  obtain ⟨s, hrun, hactive, hsockets, hexited⟩ : ∃ s : Connections, Run {} s ∧
      s.manager.activeSocket = some 1 ∧ s.sockets = [1, 3] ∧ (s.loops 1).point = .exited :=
    exists_run supersededLoop (by decide)
  obtain ⟨hsocket, -, -, -, -, hclosed⟩ := connection_ownership hrun
  refine ⟨s, hrun, hactive, ?_, ?_, ?_, (hsocket 1 hactive).1⟩
  · rw [hsockets]
    rfl
  · rw [hsockets]
    rfl
  · exact hclosed 1 hexited 0 (by rw [hsockets]; rfl)

end Connections

end SecondScreen.Client
