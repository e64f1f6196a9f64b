import SecondScreen.Client.ReceiverThreads
import SecondScreen.Conc.Runs

/-!
# How a receiver ends

Four kinds of threads may end a receiver, and each of them sets `closed`, closes the queue and
closes the socket, in this order and with others in between.  What is set is never taken back,
so the assertion about a thread survives the steps of the others (`Grows`), and `Inv` needs a
proof for the thread that moves only.
-/

namespace SecondScreen.Client.Receiving

open SecondScreen.Machine SecondScreen.Conc Relation

/-! ## The invariant -/

namespace Session

/-- What counts as an end of the stream that `run` has to report. -/
def Failed (s : Session) : Prop :=
  s.decoderFailure.isSome = true ∨ s.reader.terminalError.isSome = true ∨ s.reader.uncaught = true

/-- The end of the stream has a reason. -/
def Ending (s : Session) : Prop := s.stopRequested = true ∨ s.Failed

/-- What has been done of the closing when `c` is next. -/
def Passed (s : Session) : Closing → Prop
  | .flag => True
  | .queue => s.closed = true
  | .socket => s.queue.closed = true

/-- A thread is about to do `c`. -/
def At (s : Session) (c : Closing) : Prop :=
  s.reader.point = .closing c ∨ s.decoderThread = .closing c ∨ s.watchdogThread = .closing c ∨
    .closing c ∈ s.closers

/-- Whether the codec is the reader's to hand on. -/
def hasCodec : ReaderPoint → Bool
  | .newThread _ | .startingThread _ => true
  | _ => false

/-- Whether the decoder thread runs. -/
def isAlive : DecoderPoint → Bool
  | .absent | .ended => false
  | _ => true

/-- `run` has not started the other threads. -/
def Early (s : Session) : Prop := s.decoderThread = .absent ∧ s.watchdogThread = .absent

/-- The assertion about `run`. -/
def ReaderOk (s : Session) : ReaderPoint → Prop
  | .idle | .reading true | .dispatching true _ | .heartbeat true _ | .video true _ _
  | .starting _ | .newThread _ | .startingThread _ => s.Early
  | .offering true _ | .counting true | .startingWatchdog => s.watchdogThread = .absent
  | .reading false | .dispatching false _ | .heartbeat false _ | .video false _ _
  | .offering false _ | .counting false | .head | .checking | .caught _ => True
  | .closing c => s.Ending ∧ s.Passed c
  | .interruptDecoder | .joinDecoder | .interruptWatchdog | .joinWatchdog =>
      s.socketClosed = true ∧ s.Ending
  | .readFailure => s.socketClosed = true ∧ s.Ending ∧ s.reader.uncaught = false
  | .reporting failure =>
      s.socketClosed = true ∧ (∀ t, failure = some t → s.decoderFailure = some t) ∧
        (s.stopRequested = true ∨ failure.isSome = true ∨ s.reader.terminalError.isSome = true)
  | .ended .returned => s.socketClosed = true ∧ s.stopRequested = true
  | .ended (.threw e) =>
      s.Early ∨ s.socketClosed = true ∧
        ((∃ t, s.decoderFailure = some t ∧ e = asIOException "H.264 decoder stopped" t) ∨
          s.reader.terminalError = some e)
  | .ended .died => s.Early ∨ s.socketClosed = true ∧ s.reader.uncaught = true

/-- The assertion about `decodeLoop`. -/
def DecoderOk (s : Session) : DecoderPoint → Prop
  | .absent | .head | .taking | .waiting true | .decoding _ | .stamping _ _ | .submitting _ => True
  | .waiting false => s.queue.closed = false
  | .caught t => t = .interrupted → s.socketClosed = true ∧ s.Ending
  | .recording t => t = .interrupted → s.socketClosed = true ∧ s.Failed
  | .closing c => (s.stopRequested = true ∨ s.decoderFailure.isSome = true) ∧ s.Passed c
  | .releasing | .ended => s.closed = true

/-- The assertion about `watchdogLoop`. -/
def WatchdogOk (s : Session) : WatchdogPoint → Prop
  | .closing c => s.decoderFailure.isSome = true ∧ s.Passed c
  | .ended => s.closed = true
  | _ => True

/-- The assertion about a call of `close`. -/
def CloserOk (s : Session) : CloserPoint → Prop
  | .stop => True
  | .closing c => s.stopRequested = true ∧ s.Passed c
  | .interrupt | .returned => s.stopRequested = true ∧ s.socketClosed = true

structure Inv (s : Session) : Prop where
  queueFirst : s.socketClosed = true → s.queue.closed = true
  flagFirst : s.queue.closed = true → s.closed = true
  ending : s.closed = true → s.Ending
  /-- What is set first is followed by the rest. -/
  closing : s.closed = true → s.socketClosed = true ∨ ∃ c, s.At c
  decoderInterrupted : s.decoderInterrupted = true → s.socketClosed = true ∧ s.Ending
  watchdogInterrupted : s.watchdogInterrupted = true → s.socketClosed = true
  /-- An interrupt is recorded only if something else has ended the stream. -/
  masked : s.decoderFailure = some .interrupted →
    s.reader.terminalError.isSome = true ∨ s.reader.uncaught = true
  /-- Only the threads that `run` starts record a failure. -/
  fresh : s.Early → s.decoderFailure = none
  codec : s.decoder.started = (hasCodec s.reader.point || isAlive s.decoderThread)
  reader : s.ReaderOk s.reader.point
  decoder : s.DecoderOk s.decoderThread
  watchdog : s.WatchdogOk s.watchdogThread
  closers : ∀ point ∈ s.closers, s.CloserOk point

/-! ## What is never taken back -/

/-- What is set in `s` is set in `t`. -/
structure Grows (s t : Session) : Prop where
  closed : s.closed = true → t.closed = true
  queue : s.queue.closed = true → t.queue.closed = true
  socket : s.socketClosed = true → t.socketClosed = true
  stop : s.stopRequested = true → t.stopRequested = true
  failure : ∀ f, s.decoderFailure = some f → t.decoderFailure = some f
  terminalError : s.reader.terminalError.isSome = true → t.reader.terminalError.isSome = true
  uncaught : s.reader.uncaught = true → t.reader.uncaught = true

variable {s t : Session}

theorem Grows.failure_isSome (hg : Grows s t) (h : s.decoderFailure.isSome = true) :
    t.decoderFailure.isSome = true := by
  obtain ⟨f, hf⟩ := Option.isSome_iff_exists.1 h
  rw [hg.failure f hf]
  rfl

theorem Failed.mono (h : s.Failed) (hg : Grows s t) : t.Failed :=
  h.imp hg.failure_isSome (Or.imp hg.terminalError hg.uncaught)

theorem Ending.mono (h : s.Ending) (hg : Grows s t) : t.Ending :=
  h.imp hg.stop fun h ↦ h.mono hg

theorem Passed.mono {c : Closing} (h : s.Passed c) (hg : Grows s t) : t.Passed c := by
  cases c with
  | flag => trivial
  | queue => exact hg.closed h
  | socket => exact hg.queue h

theorem CloserOk.mono {p : CloserPoint} (h : s.CloserOk p) (hg : Grows s t) : t.CloserOk p := by
  cases p with
  | stop => trivial
  | closing c => exact ⟨hg.stop h.1, h.2.mono hg⟩
  | interrupt => exact ⟨hg.stop h.1, hg.socket h.2⟩
  | returned => exact ⟨hg.stop h.1, hg.socket h.2⟩

theorem WatchdogOk.mono {p : WatchdogPoint} (h : s.WatchdogOk p) (hg : Grows s t) :
    t.WatchdogOk p := by
  cases p with
  | closing c => exact ⟨hg.failure_isSome h.1, h.2.mono hg⟩
  | ended => exact hg.closed h
  | _ => trivial

/-- The decoder thread does not wait, unnotified, for a queue that is closed. -/
theorem DecoderOk.mono {p : DecoderPoint} (h : s.DecoderOk p) (hg : Grows s t)
    (hwait : p = .waiting false → t.queue.closed = false) : t.DecoderOk p := by
  cases p with
  | waiting notified =>
      cases notified with
      | true => trivial
      | false => exact hwait rfl
  | caught x => exact fun hx ↦ ⟨hg.socket (h hx).1, (h hx).2.mono hg⟩
  | recording x => exact fun hx ↦ ⟨hg.socket (h hx).1, (h hx).2.mono hg⟩
  | closing c => exact ⟨h.1.imp hg.stop hg.failure_isSome, h.2.mono hg⟩
  | releasing => exact hg.closed h
  | ended => exact hg.closed h
  | _ => trivial

/-- What `run` itself has noted down is not changed by the others. -/
theorem ReaderOk.mono {p : ReaderPoint} (h : s.ReaderOk p) (hg : Grows s t)
    (hterminal : t.reader.terminalError = s.reader.terminalError)
    (huncaught : t.reader.uncaught = s.reader.uncaught)
    (hdecoder : s.decoderThread = .absent → t.decoderThread = .absent)
    (hwatchdog : s.watchdogThread = .absent → t.watchdogThread = .absent) : t.ReaderOk p := by
  have hearly : s.Early → t.Early := And.imp hdecoder hwatchdog
  cases p with
  | idle => exact hearly h
  | reading first => cases first with
    | true => exact hearly h
    | false => trivial
  | dispatching first frame => cases first with
    | true => exact hearly h
    | false => trivial
  | heartbeat first now => cases first with
    | true => exact hearly h
    | false => trivial
  | video first frame recording => cases first with
    | true => exact hearly h
    | false => trivial
  | starting frame => exact hearly h
  | newThread frame => exact hearly h
  | startingThread frame => exact hearly h
  | offering first frame => cases first with
    | true => exact hwatchdog h
    | false => trivial
  | counting first => cases first with
    | true => exact hwatchdog h
    | false => trivial
  | startingWatchdog => exact hwatchdog h
  | head => trivial
  | checking => trivial
  | caught e => trivial
  | closing c => exact ⟨h.1.mono hg, h.2.mono hg⟩
  | interruptDecoder => exact ⟨hg.socket h.1, h.2.mono hg⟩
  | joinDecoder => exact ⟨hg.socket h.1, h.2.mono hg⟩
  | interruptWatchdog => exact ⟨hg.socket h.1, h.2.mono hg⟩
  | joinWatchdog => exact ⟨hg.socket h.1, h.2.mono hg⟩
  | readFailure => exact ⟨hg.socket h.1, h.2.1.mono hg, huncaught.trans h.2.2⟩
  | reporting failure =>
      refine ⟨hg.socket h.1, fun x hx ↦ hg.failure x (h.2.1 x hx), ?_⟩
      exact h.2.2.imp hg.stop (Or.imp_right hg.terminalError)
  | ended result =>
      cases result with
      | returned => exact ⟨hg.socket h.1, hg.stop h.2⟩
      | threw e =>
          refine h.imp hearly (And.imp hg.socket (Or.imp ?_ fun he ↦ hterminal.trans he))
          rintro ⟨x, hx, he⟩
          exact ⟨x, hg.failure x hx, he⟩
      | died => exact h.imp hearly (And.imp hg.socket fun hu ↦ huncaught.trans hu)

/-! ## Steps of one thread -/

/-- The invariant does not look at what arrives, at the clock and at the statistics. -/
theorem Inv.data (h : Inv s) {stats : StreamStats} {input : InputStream} {endOfStream : Bool}
    {clock : Int} {times passTimes : Times} :
    Inv { s with stats, input, endOfStream, clock, times, passTimes } :=
  ⟨h.1, h.2, h.3, h.4, h.5, h.6, h.7, h.8, h.9, h.10, h.11, h.12, h.13⟩

/-- `run` goes on to another point, and may note down why it ends. -/
theorem Inv.withReader (h : Inv s) {r : Reader} {q : ReaderPoint} (hq : s.reader.point = q)
    (hterminal : s.reader.terminalError.isSome = true → r.terminalError.isSome = true)
    (huncaught : s.reader.uncaught = true → r.uncaught = true)
    (hp : ({ s with reader := r }).ReaderOk r.point)
    (hcodec : hasCodec r.point = hasCodec q)
    (hclosing : ∀ c, q = .closing c → s.socketClosed = true ∨ ∃ c, r.point = .closing c) :
    Inv { s with reader := r } := by
  have hgrows : Grows s { s with reader := r } :=
    ⟨id, id, id, id, fun _ ↦ id, hterminal, huncaught⟩
  exact {
    queueFirst := h.queueFirst
    flagFirst := h.flagFirst
    ending := fun hc ↦ (h.ending hc).mono hgrows
    closing := by
      intro hclosed
      rcases h.closing hclosed with hsocket | ⟨c, hreader | hothers⟩
      · exact .inl hsocket
      · exact (hclosing c (hq.symm.trans hreader)).imp_right fun ⟨c, hp⟩ ↦ ⟨c, .inl hp⟩
      · exact .inr ⟨c, .inr hothers⟩
    decoderInterrupted := fun hi ↦ (h.decoderInterrupted hi).imp_right fun he ↦ he.mono hgrows
    watchdogInterrupted := h.watchdogInterrupted
    masked := fun hf ↦ (h.masked hf).imp hterminal huncaught
    fresh := h.fresh
    codec := by
      rw [hcodec, ← hq]
      exact h.codec
    reader := hp
    decoder := h.decoder.mono hgrows fun hwait ↦ by
      have hdecoder := h.decoder
      rwa [hwait] at hdecoder
    watchdog := h.watchdog.mono hgrows
    closers := fun p hp ↦ (h.closers p hp).mono hgrows }

/-- `run` goes on to another point. -/
theorem Inv.readerAt (h : Inv s) {p q : ReaderPoint} (hq : s.reader.point = q)
    (hp : s.ReaderOk p) (hcodec : hasCodec p = hasCodec q)
    (hclosing : ∀ c, q = .closing c → s.socketClosed = true ∨ ∃ c, p = .closing c) :
    Inv (s.readerAt p) :=
  h.withReader hq id id hp hcodec hclosing

/-- The decoder thread goes on to another point. -/
theorem Inv.decoderAt (h : Inv s) {p q : DecoderPoint} (hq : s.decoderThread = q)
    (hp : s.DecoderOk p) (halive : isAlive q = true ∧ isAlive p = true)
    (hclosing : ∀ c, q = .closing c → s.socketClosed = true ∨ ∃ c, p = .closing c) :
    Inv (s.decoderAt p) where
  queueFirst := h.queueFirst
  flagFirst := h.flagFirst
  ending := h.ending
  closing hclosed := by
    rcases h.closing hclosed with hsocket | ⟨c, hreader | hdecoder | hothers⟩
    · exact .inl hsocket
    · exact .inr ⟨c, .inl hreader⟩
    · refine (hclosing c (hq.symm.trans hdecoder)).imp_right ?_
      exact fun ⟨c, hp⟩ ↦ ⟨c, .inr (.inl hp)⟩
    · exact .inr ⟨c, .inr (.inr hothers)⟩
  decoderInterrupted := h.decoderInterrupted
  watchdogInterrupted := h.watchdogInterrupted
  masked := h.masked
  fresh hearly := by
    obtain ⟨rfl, -⟩ : p = .absent ∧ _ := hearly
    cases halive.2
  codec := by
    have hcodec := h.codec
    rw [hq, halive.1] at hcodec
    rw [show (s.decoderAt p).decoderThread = p from rfl, halive.2]
    exact hcodec
  reader := by
    refine h.reader.mono ⟨id, id, id, id, fun _ ↦ id, id, id⟩ rfl rfl (fun habsent ↦ ?_) id
    rw [← hq, habsent] at halive
    cases halive.1
  decoder := hp
  watchdog := h.watchdog
  closers := h.closers

/-- The watchdog goes on to another point. -/
theorem Inv.watchdogAt (h : Inv s) {p q : WatchdogPoint} (hq : s.watchdogThread = q)
    (hp : s.WatchdogOk p) (hstarted : q ≠ .absent ∧ p ≠ .absent)
    (hclosing : ∀ c, q = .closing c → s.socketClosed = true ∨ ∃ c, p = .closing c) :
    Inv (s.watchdogAt p) where
  queueFirst := h.queueFirst
  flagFirst := h.flagFirst
  ending := h.ending
  closing hclosed := by
    rcases h.closing hclosed with hsocket | ⟨c, hreader | hdecoder | hwatchdog | hcloser⟩
    · exact .inl hsocket
    · exact .inr ⟨c, .inl hreader⟩
    · exact .inr ⟨c, .inr (.inl hdecoder)⟩
    · refine (hclosing c (hq.symm.trans hwatchdog)).imp_right ?_
      exact fun ⟨c, hp⟩ ↦ ⟨c, .inr (.inr (.inl hp))⟩
    · exact .inr ⟨c, .inr (.inr (.inr hcloser))⟩
  decoderInterrupted := h.decoderInterrupted
  watchdogInterrupted := h.watchdogInterrupted
  masked := h.masked
  fresh hearly := absurd hearly.2 hstarted.2
  codec := h.codec
  reader := h.reader.mono ⟨id, id, id, id, fun _ ↦ id, id, id⟩ rfl rfl id
    fun habsent ↦ absurd (hq.symm.trans habsent) hstarted.1
  decoder := h.decoder
  watchdog := hp
  closers := h.closers

/-- A call of `close` goes on to another point. -/
theorem Inv.closerAt (h : Inv s) {i : Nat} {q p : CloserPoint} (hi : s.closers[i]? = some q)
    (hp : s.CloserOk p)
    (hclosing : ∀ c, q = .closing c → s.socketClosed = true ∨ ∃ c, p = .closing c) :
    Inv (s.closerAt i p) where
  queueFirst := h.queueFirst
  flagFirst := h.flagFirst
  ending := h.ending
  closing hclosed := by
    obtain ⟨hlt, hget⟩ := List.getElem?_eq_some_iff.1 hi
    have hset : p ∈ s.closers.set i p := List.mem_set hlt p
    rcases h.closing hclosed with hsocket | ⟨c, hreader | hdecoder | hwatchdog | hcloser⟩
    · exact .inl hsocket
    · exact .inr ⟨c, .inl hreader⟩
    · exact .inr ⟨c, .inr (.inl hdecoder)⟩
    · exact .inr ⟨c, .inr (.inr (.inl hwatchdog))⟩
    · -- the closer that is found may be the one that moves
      by_cases hq : q = .closing c
      · refine (hclosing c hq).imp_right ?_
        rintro ⟨c, rfl⟩
        exact ⟨c, .inr (.inr (.inr hset))⟩
      · obtain ⟨j, hj, hjget⟩ := List.getElem_of_mem hcloser
        have hne : i ≠ j := by
          rintro rfl
          exact hq (hget.symm.trans hjget)
        have hmem : (s.closers.set i p)[j]? = some (.closing c) := by
          rw [List.getElem?_set_ne hne, List.getElem?_eq_getElem hj, hjget]
        exact .inr ⟨c, .inr (.inr (.inr (List.mem_of_getElem? hmem)))⟩
  decoderInterrupted := h.decoderInterrupted
  watchdogInterrupted := h.watchdogInterrupted
  masked := h.masked
  fresh := h.fresh
  codec := h.codec
  reader := h.reader
  decoder := h.decoder
  watchdog := h.watchdog
  closers := by
    intro q hq
    rcases List.mem_or_eq_of_mem_set hq with hq | rfl
    · exact h.closers q hq
    · exact hp

/-- `notifyAll` only wakes. -/
theorem Inv.notifyAll (h : Inv s) : Inv s.notifyAll := by
  cases hp : s.decoderThread with
  | waiting notified =>
      rw [Session.notifyAll, hp]
      exact h.decoderAt hp trivial ⟨rfl, rfl⟩ nofun
  | _ =>
      have hsame : s.decoderThread.notify = s.decoderThread := by
        rw [hp]
        rfl
      rw [Session.notifyAll, hsame]
      exact h

theorem notify_ne_waiting (p : DecoderPoint) : p.notify ≠ .waiting false := by
  cases p <;> nofun

/-- A call of the queue that does not close it. -/
theorem Inv.withQueue (h : Inv s) {queue : LatestFrameQueue EncodedFrame}
    (hclosed : queue.closed = s.queue.closed) : Inv { s with queue } := by
  have hgrows : Grows s { s with queue } := ⟨id, hclosed.trans, id, id, fun _ ↦ id, id, id⟩
  have hopen : s.decoderThread = .waiting false → queue.closed = false := by
    intro hwait
    have hdecoder := h.decoder
    rw [hwait] at hdecoder
    exact hclosed.trans hdecoder
  exact {
    queueFirst := fun hs ↦ hclosed.trans (h.queueFirst hs)
    flagFirst := fun hq ↦ h.flagFirst (hclosed.symm.trans hq)
    ending := h.ending
    closing := h.closing
    decoderInterrupted := h.decoderInterrupted
    watchdogInterrupted := h.watchdogInterrupted
    masked := h.masked
    fresh := h.fresh
    codec := h.codec
    reader := h.reader.mono hgrows rfl rfl id id
    decoder := h.decoder.mono hgrows hopen
    watchdog := h.watchdog.mono hgrows
    closers := fun p hp ↦ (h.closers p hp).mono hgrows }

/-- One of the three steps of the closing, by whatever thread. -/
theorem Inv.close (h : Inv s) {c : Closing} (hpassed : s.Passed c) (hending : s.Ending)
    (hat : s.At c) : Inv (s.close c) := by
  cases c with
  | flag =>
      have hgrows : Grows s { s with closed := true } :=
        ⟨fun _ ↦ rfl, id, id, id, fun _ ↦ id, id, id⟩
      exact {
        queueFirst := h.queueFirst
        flagFirst := fun _ ↦ rfl
        ending := fun _ ↦ hending
        closing := fun _ ↦ .inr ⟨.flag, hat⟩
        decoderInterrupted := h.decoderInterrupted
        watchdogInterrupted := h.watchdogInterrupted
        masked := h.masked
        fresh := h.fresh
        codec := h.codec
        reader := h.reader.mono hgrows rfl rfl id id
        decoder := h.decoder.mono hgrows fun hwait ↦ by
          have hdecoder := h.decoder
          rwa [hwait] at hdecoder
        watchdog := h.watchdog.mono hgrows
        closers := fun p hp ↦ (h.closers p hp).mono hgrows }
  | queue =>
      -- those who wait are notified first, so that nobody waits for the closed queue
      have hnotified := h.notifyAll
      have hgrows : Grows s.notifyAll { s.notifyAll with queue := s.queue.close } :=
        ⟨id, fun _ ↦ rfl, id, id, fun _ ↦ id, id, id⟩
      exact {
        queueFirst := fun _ ↦ rfl
        flagFirst := fun _ ↦ hpassed
        ending := hnotified.ending
        closing := hnotified.closing
        decoderInterrupted := hnotified.decoderInterrupted
        watchdogInterrupted := hnotified.watchdogInterrupted
        masked := hnotified.masked
        fresh := hnotified.fresh
        codec := hnotified.codec
        reader := hnotified.reader.mono hgrows rfl rfl id id
        decoder := hnotified.decoder.mono hgrows fun hwait ↦
          absurd hwait (notify_ne_waiting s.decoderThread)
        watchdog := hnotified.watchdog.mono hgrows
        closers := fun p hp ↦ (hnotified.closers p hp).mono hgrows }
  | socket =>
      have hgrows : Grows s { s with socketClosed := true } :=
        ⟨id, id, fun _ ↦ rfl, id, fun _ ↦ id, id, id⟩
      exact {
        queueFirst := fun _ ↦ hpassed
        flagFirst := h.flagFirst
        ending := h.ending
        closing := fun _ ↦ .inl rfl
        decoderInterrupted := fun hi ↦ ⟨rfl, (h.decoderInterrupted hi).2⟩
        watchdogInterrupted := fun _ ↦ rfl
        masked := h.masked
        fresh := h.fresh
        codec := h.codec
        reader := h.reader.mono hgrows rfl rfl id id
        decoder := h.decoder.mono hgrows fun hwait ↦ by
          have hdecoder := h.decoder
          rwa [hwait] at hdecoder
        watchdog := h.watchdog.mono hgrows
        closers := fun p hp ↦ (h.closers p hp).mono hgrows }

/-- The first failure is kept. -/
theorem Inv.compareAndSet (h : Inv s) {x : Throwable} (hx : x = .interrupted → s.Failed)
    (hstarted : ¬s.Early) : Inv (s.compareAndSet x) := by
  have hgrows : Grows s (s.compareAndSet x) := by
    refine ⟨id, id, id, id, fun f hf ↦ ?_, id, id⟩
    rw [Session.compareAndSet, hf]
    rfl
  exact {
    queueFirst := h.queueFirst
    flagFirst := h.flagFirst
    ending := fun hc ↦ (h.ending hc).mono hgrows
    closing := h.closing
    decoderInterrupted := fun hi ↦ (h.decoderInterrupted hi).imp_right fun he ↦ he.mono hgrows
    watchdogInterrupted := h.watchdogInterrupted
    masked := by
      intro hmasked
      cases hf : s.decoderFailure with
      | some f =>
          rw [hgrows.failure f hf] at hmasked
          exact h.masked (hf.trans hmasked)
      | none =>
          have hx' : x = .interrupted := by
            simpa [Session.compareAndSet, hf] using hmasked
          rcases hx hx' with hsome | hfailed
          · rw [hf] at hsome
            cases hsome
          · exact hfailed
    fresh := fun hearly ↦ absurd hearly hstarted
    codec := h.codec
    reader := h.reader.mono hgrows rfl rfl id id
    decoder := h.decoder.mono hgrows fun hwait ↦ by
      have hdecoder := h.decoder
      rwa [hwait] at hdecoder
    watchdog := h.watchdog.mono hgrows
    closers := fun p hp ↦ (h.closers p hp).mono hgrows }

/-! ## The steps of `run` -/

/-- An exception in `readVideoPacket` ends `run`, one in the loop leads to its `catch` block. -/
theorem Inv.readerThrows (h : Inv s) {q : ReaderPoint} {first : Bool} (hq : s.reader.point = q)
    (hearly : first = true → s.Early) (e : IOException) (hcodec : hasCodec q = false)
    (hclosing : ∀ c, q ≠ .closing c) : Inv (s.readerThrows first e) := by
  cases first with
  | true => exact h.readerAt hq (.inl (hearly rfl)) hcodec.symm fun c hc ↦ absurd hc (hclosing c)
  | false => exact h.readerAt hq trivial hcodec.symm fun c hc ↦ absurd hc (hclosing c)

theorem Inv.readerDies (h : Inv s) {q : ReaderPoint} {first : Bool} (hq : s.reader.point = q)
    (hearly : first = true → s.Early) (hcodec : hasCodec q = false)
    (hclosing : ∀ c, q ≠ .closing c) : Inv (s.readerDies first) := by
  cases first with
  | true => exact h.readerAt hq (.inl (hearly rfl)) hcodec.symm fun c hc ↦ absurd hc (hclosing c)
  | false =>
      exact h.withReader (r := { s.reader with point := .closing .flag, uncaught := true }) hq id
        (fun _ ↦ rfl) ⟨.inr (.inr (.inr rfl)), trivial⟩ hcodec.symm
        fun c hc ↦ absurd hc (hclosing c)

theorem Inv.again (h : Inv s) {q : ReaderPoint} {first : Bool} (hq : s.reader.point = q)
    (hearly : first = true → s.Early) (hcodec : hasCodec q = false)
    (hclosing : ∀ c, q ≠ .closing c) : Inv (s.readerAt (again first)) := by
  cases first with
  | true => exact h.readerAt hq (hearly rfl) hcodec.symm fun c hc ↦ absurd hc (hclosing c)
  | false => exact h.readerAt hq trivial hcodec.symm fun c hc ↦ absurd hc (hclosing c)

theorem Inv.read (h : Inv s) {first : Bool} (hq : s.reader.point = .reading first)
    (hearly : first = true → s.Early) {a : Answer} (hstep : s.read first a = some t) : Inv t := by
  cases a with
  | done =>
      rw [Session.read] at hstep
      split at hstep
      · next frame input _ =>
        cases hstep
        have hinput : Inv { s with input } := h.data
        have hok : ∀ p, (first = true → s.Early → s.ReaderOk p) →
            (first = false → s.ReaderOk p) → hasCodec p = false →
              Inv ({ s with input }.readerAt p) := by
          intro p htrue hfalse hcodec
          apply hinput.readerAt hq ?_ hcodec nofun
          cases first with
          | true => exact htrue rfl (hearly rfl)
          | false => exact hfalse rfl
        split_ifs
        · exact hok _ (fun hf he ↦ hf ▸ he) (fun hf ↦ hf ▸ trivial) rfl
        · exact hok _ (fun hf he ↦ hf ▸ he) (fun hf ↦ hf ▸ trivial) rfl
        · exact hok _ (fun hf he ↦ hf ▸ he) (fun hf ↦ hf ▸ trivial) rfl
      · next message _ =>
        split_ifs at hstep
        cases hstep
        exact h.readerThrows hq hearly _ rfl nofun
      · cases hstep
        exact h.readerThrows hq hearly _ rfl nofun
  | failed message =>
      cases hstep
      exact h.readerThrows hq hearly _ rfl nofun
  | threw message =>
      cases hstep
      exact h.readerDies hq hearly rfl nofun
  | codec answers => cases hstep

theorem Inv.dispatch (h : Inv s) {first : Bool} {frame : EncodedFrame}
    (hq : s.reader.point = .dispatching first frame) (hearly : first = true → s.Early)
    {a : Answer} (hstep : s.dispatch first frame a = some t) : Inv t := by
  cases a with
  | done =>
      rw [Session.dispatch] at hstep
      split at hstep
      · cases hstep
        exact h.readerThrows hq hearly _ rfl nofun
      · cases hstep
        exact h.again hq hearly rfl nofun
  | threw message =>
      rw [Session.dispatch] at hstep
      split at hstep
      · cases hstep
        exact h.readerDies hq hearly rfl nofun
      · cases hstep
  | failed message => cases hstep
  | codec answers => cases hstep

theorem Inv.recordHeartbeat (h : Inv s) {first : Bool} {now : Option Int}
    (hq : s.reader.point = .heartbeat first now) (hearly : first = true → s.Early) :
    Inv (s.recordHeartbeat first now) := by
  cases now with
  | none =>
      refine h.readerAt hq ?_ rfl nofun
      cases first with
      | true => exact hearly rfl
      | false => trivial
  | some now =>
      exact (h.again hq hearly rfl nofun).data

theorem Inv.recordVideo (h : Inv s) {first : Bool} {frame : EncodedFrame} {recording : Recording}
    (hq : s.reader.point = .video first frame recording) (hearly : first = true → s.Early) :
    Inv (s.recordVideo first frame recording) := by
  have hok : ∀ recording, s.ReaderOk (.video first frame recording) := by
    intro recording
    cases first with
    | true => exact hearly rfl
    | false => trivial
  cases recording with
  | count =>
      exact (h.readerAt hq (hok .readClock) rfl nofun).data
  | readClock => exact h.readerAt hq (hok _) rfl nofun
  | packetStamp now =>
      exact (h.readerAt hq (hok (.frameStamp now)) rfl nofun).data
  | frameStamp now =>
      cases first with
      | true =>
          exact (h.readerAt hq (p := .starting frame) (hearly rfl) rfl nofun).data
      | false =>
          exact (h.readerAt hq (p := .offering false frame) trivial rfl nofun).data

theorem offer_closed (q : LatestFrameQueue EncodedFrame) (frame : EncodedFrame) :
    (q.offer EncodedFrame.randomAccess frame).closed = q.closed := by
  unfold LatestFrameQueue.offer
  split_ifs <;> rfl

theorem Inv.offer (h : Inv s) (frame : EncodedFrame) : Inv (s.offer frame) := by
  have hqueue := h.withQueue (offer_closed s.queue frame)
  unfold Session.offer
  split_ifs
  · exact hqueue
  · exact hqueue.notifyAll

/-- The codec passes to the decoder thread when that starts. -/
theorem Inv.startThread (h : Inv s) {frame : EncodedFrame}
    (hq : s.reader.point = .startingThread frame) (hearly : s.Early) :
    Inv ((s.decoderAt .head).readerAt (.offering true frame)) where
  queueFirst := h.queueFirst
  flagFirst := h.flagFirst
  ending := h.ending
  closing hclosed := by
    rcases h.closing hclosed with hsocket | ⟨c, hreader | hdecoder | hothers⟩
    · exact .inl hsocket
    · cases hq.symm.trans hreader
    · cases hearly.1.symm.trans hdecoder
    · exact .inr ⟨c, .inr (.inr hothers)⟩
  decoderInterrupted := h.decoderInterrupted
  watchdogInterrupted := h.watchdogInterrupted
  masked := h.masked
  fresh := nofun
  codec := by
    have hcodec := h.codec
    rw [hq] at hcodec
    exact hcodec
  reader := hearly.2
  decoder := trivial
  watchdog := h.watchdog
  closers := h.closers

/-- The codec passes to `run` when it is started. -/
theorem Inv.startCodec (h : Inv s) {frame : EncodedFrame} {decoder : VideoDecoder}
    (hq : s.reader.point = .starting frame) (hearly : s.Early) (hstarted : decoder.started = true) :
    Inv ({ s with decoder }.readerAt (.newThread frame)) where
  queueFirst := h.queueFirst
  flagFirst := h.flagFirst
  ending := h.ending
  closing hclosed := by
    rcases h.closing hclosed with hsocket | ⟨c, hreader | hothers⟩
    · exact .inl hsocket
    · cases hq.symm.trans hreader
    · exact .inr ⟨c, .inr hothers⟩
  decoderInterrupted := h.decoderInterrupted
  watchdogInterrupted := h.watchdogInterrupted
  masked := h.masked
  fresh := h.fresh
  codec := hstarted
  reader := hearly
  decoder := h.decoder
  watchdog := h.watchdog
  closers := h.closers

theorem startDecoder_ok {info : ConnectionInfo} {failure : Option String} {d : VideoDecoder}
    (h : startDecoder info failure = .ok d) : d.started = true := by
  unfold startDecoder at h
  split_ifs at h
  cases failure with
  | some message => cases h
  | none =>
      cases h
      rfl

theorem offer_reader (s : Session) (frame : EncodedFrame) : (s.offer frame).reader = s.reader := by
  unfold Session.offer
  split_ifs <;> rfl

theorem offer_watchdogThread (s : Session) (frame : EncodedFrame) :
    (s.offer frame).watchdogThread = s.watchdogThread := by
  unfold Session.offer
  split_ifs <;> rfl

/-- `run` starts the watchdog. -/
theorem Inv.startWatchdog (h : Inv s) (hq : s.reader.point = .startingWatchdog) :
    Inv ((s.watchdogAt .head).readerAt .head) := by
  have hok := h.reader
  rw [hq] at hok
  have hreader : Inv (s.readerAt .head) := h.readerAt hq trivial rfl nofun
  exact {
    queueFirst := h.queueFirst
    flagFirst := h.flagFirst
    ending := h.ending
    closing := by
      intro hclosed
      rcases hreader.closing hclosed with hsocket | ⟨c, hc | hdecoder | hwatchdog | hcloser⟩
      · exact .inl hsocket
      · cases hc
      · exact .inr ⟨c, .inr (.inl hdecoder)⟩
      · cases hok.symm.trans hwatchdog
      · exact .inr ⟨c, .inr (.inr (.inr hcloser))⟩
    decoderInterrupted := h.decoderInterrupted
    watchdogInterrupted := h.watchdogInterrupted
    masked := h.masked
    fresh := nofun
    codec := hreader.codec
    reader := trivial
    decoder := h.decoder
    watchdog := trivial
    closers := h.closers }

/-- The decoder thread may be interrupted once the socket is closed. -/
theorem Inv.interruptDecoder (h : Inv s) (interrupted : Bool) (hsocket : s.socketClosed = true)
    (hending : s.Ending) : Inv { s with decoderInterrupted := interrupted } :=
  ⟨h.1, h.2, h.3, h.4, fun _ ↦ ⟨hsocket, hending⟩, h.6, h.7, h.8, h.9, h.10, h.11, h.12, h.13⟩

/-- `run` returns only if a stop was requested; else it throws what has ended the stream. -/
theorem reportOk {failure : Option Throwable} (hok : s.ReaderOk (.reporting failure)) :
    s.ReaderOk (.ended (s.report failure)) := by
  obtain ⟨hsocket, hfailure, hreason⟩ := hok
  unfold Session.report
  split
  · next f heq =>
    split_ifs at heq
    exact .inr ⟨hsocket, .inl ⟨f, hfailure f heq, rfl⟩⟩
  · next e _ hterminal => exact .inr ⟨hsocket, .inr hterminal⟩
  · next heq hterminal =>
    refine ⟨hsocket, ?_⟩
    split_ifs at heq with hstop
    · exact hstop
    · rcases hreason with hstop | hsome | hsome
      · exact hstop
      · rw [heq] at hsome
        cases hsome
      · rw [hterminal] at hsome
        cases hsome

/-- `run` keeps the invariant. -/
theorem Inv.readerStep (h : Inv s) {a : Answer}
    (hstep : s.readerStep a s.reader.point = some t) : Inv t := by
  have hok := h.reader
  cases hq : s.reader.point with
  | idle =>
      rw [hq] at hstep hok
      cases hstep
      exact h.readerAt hq hok rfl nofun
  | reading first =>
      rw [hq] at hstep hok
      exact h.read hq (fun hf ↦ by rwa [hf] at hok) hstep
  | dispatching first frame =>
      rw [hq] at hstep hok
      exact h.dispatch hq (fun hf ↦ by rwa [hf] at hok) hstep
  | heartbeat first now =>
      rw [hq] at hstep hok
      cases hstep
      exact h.recordHeartbeat hq fun hf ↦ by rwa [hf] at hok
  | video first frame recording =>
      rw [hq] at hstep hok
      cases hstep
      exact h.recordVideo hq fun hf ↦ by rwa [hf] at hok
  | starting frame =>
      rw [hq] at hstep hok
      simp only [Session.readerStep] at hstep
      split at hstep
      · cases hstep
        exact h.readerAt hq (.inl hok) rfl nofun
      · next hstart =>
        cases hstep
        exact h.startCodec hq hok (startDecoder_ok hstart)
  | newThread frame =>
      rw [hq] at hstep hok
      cases hstep
      exact h.readerAt hq hok rfl nofun
  | startingThread frame =>
      rw [hq] at hstep hok
      cases hstep
      exact h.startThread hq hok
  | offering first frame =>
      rw [hq] at hstep hok
      cases hstep
      refine (h.offer frame).readerAt ((congrArg _ (offer_reader s frame)).trans hq) ?_ rfl nofun
      cases first with
      | true => exact (offer_watchdogThread s frame).trans hok
      | false => trivial
  | counting first =>
      rw [hq] at hstep hok
      cases hstep
      have hqueue : Inv { s with queue := s.queue.takeDroppedFrames.2 } := h.withQueue rfl
      cases first with
      | true => exact hqueue.readerAt hq (p := .startingWatchdog) hok rfl nofun
      | false => exact hqueue.readerAt hq (p := .head) trivial rfl nofun
  | startingWatchdog =>
      rw [hq] at hstep
      cases hstep
      exact h.startWatchdog hq
  | head =>
      rw [hq] at hstep
      cases hstep
      split_ifs with hclosed
      · exact h.readerAt hq ⟨h.ending hclosed, trivial⟩ rfl nofun
      · exact h.readerAt hq trivial rfl nofun
  | checking =>
      rw [hq, Session.readerStep] at hstep
      split at hstep
      · cases hstep
        exact h.readerAt hq trivial rfl nofun
      · cases hstep
        exact h.readerAt hq trivial rfl nofun
  | caught e =>
      rw [hq, Session.readerStep] at hstep
      split_ifs at hstep with hstop
      · cases hstep
        exact h.withReader (r := { s.reader with point := .closing .flag }) hq id id
          ⟨.inl hstop, trivial⟩ rfl nofun
      · cases hstep
        exact h.withReader
          (r := { s.reader with point := .closing .flag, terminalError := some e }) hq
          (fun _ ↦ rfl) id ⟨.inr (.inr (.inl rfl)), trivial⟩ rfl nofun
  | closing c =>
      rw [hq] at hstep hok
      cases hstep
      have hclose := h.close hok.2 hok.1 (.inl hq)
      cases c with
      | flag => exact hclose.readerAt hq ⟨hok.1, rfl⟩ rfl fun _ _ ↦ .inr ⟨_, rfl⟩
      | queue => exact hclose.readerAt hq ⟨hok.1, rfl⟩ rfl fun _ _ ↦ .inr ⟨_, rfl⟩
      | socket =>
          exact hclose.readerAt hq (p := .interruptDecoder) ⟨rfl, hok.1⟩ rfl
            fun _ _ ↦ .inl rfl
  | interruptDecoder =>
      rw [hq] at hstep hok
      cases hstep
      exact (h.interruptDecoder true hok.1 hok.2).readerAt hq hok rfl nofun
  | joinDecoder =>
      rw [hq] at hstep hok
      cases hstep
      exact h.readerAt hq hok rfl nofun
  | interruptWatchdog =>
      rw [hq] at hstep hok
      cases hstep
      have hinterrupted : Inv { s with watchdogInterrupted := true } :=
        ⟨h.1, h.2, h.3, h.4, h.5, fun _ ↦ hok.1, h.7, h.8, h.9, h.10, h.11, h.12, h.13⟩
      exact hinterrupted.readerAt hq hok rfl nofun
  | joinWatchdog =>
      rw [hq] at hstep hok
      cases hstep
      split_ifs with huncaught
      · exact h.readerAt hq (.inr ⟨hok.1, huncaught⟩) rfl nofun
      · exact h.readerAt hq ⟨hok.1, hok.2, Bool.eq_false_iff.2 huncaught⟩ rfl nofun
  | readFailure =>
      rw [hq] at hstep hok
      cases hstep
      obtain ⟨hsocket, hending, hcaught⟩ := hok
      refine h.readerAt hq ⟨hsocket, fun _ ↦ id, hending.imp_right fun hfailed ↦ ?_⟩ rfl
        nofun
      rcases hfailed with hfailure | hterminal | huncaught
      · exact .inl hfailure
      · exact .inr hterminal
      · exact absurd (huncaught.symm.trans hcaught) nofun
  | reporting failure =>
      rw [hq] at hstep hok
      cases hstep
      exact h.readerAt hq (reportOk hok) rfl nofun
  | ended result =>
      rw [hq] at hstep
      cases hstep

/-! ## The steps of the other threads -/

theorem submit_started (d : VideoDecoder) (frame : EncodedFrame) (a : CodecAnswers) :
    (d.submit frame a).decoder.started = d.started := by
  unfold VideoDecoder.submit
  split
  · rfl
  · split
    · rfl
    · split_ifs
      · rfl
      · split
        · rfl
        · split_ifs
          · rfl
          · split <;> rfl

theorem decode_started (d : VideoDecoder) (frame : EncodedFrame) (a : CodecAnswers) :
    (d.decode frame a).decoder.started = d.started := by
  unfold VideoDecoder.decode
  simp only
  split_ifs
  · rfl
  · rfl
  · exact submit_started _ frame a
  · exact submit_started _ frame a

/-- `decode` leaves the codec started, if it is. -/
theorem Inv.withDecoder (h : Inv s) {decoder : VideoDecoder}
    (hstarted : decoder.started = s.decoder.started) : Inv { s with decoder } :=
  ⟨h.1, h.2, h.3, h.4, h.5, h.6, h.7, h.8, hstarted.trans h.codec, h.10, h.11, h.12, h.13⟩

/-- While `run` has the codec, there is no decoder thread. -/
theorem early_of_hasCodec {p : ReaderPoint} (h : s.ReaderOk p) (hp : hasCodec p = true) :
    s.Early := by
  cases p with
  | newThread frame => exact h
  | startingThread frame => exact h
  | _ => cases hp

theorem take_closed {q q' : LatestFrameQueue EncodedFrame} {r : Option EncodedFrame}
    (h : q.take = some (r, q')) : q'.closed = q.closed := by
  obtain ⟨-, -, -, -, hclosed⟩ | ⟨-, hq⟩ := LatestFrameQueue.take_cases h
  · exact hclosed
  · rw [hq]

theorem closed_of_take {q q' : LatestFrameQueue EncodedFrame} (h : q.take = some (none, q')) :
    q.closed = true := by
  unfold LatestFrameQueue.take at h
  split at h
  · cases h
  · split_ifs at h with hclosed
    exact hclosed

theorem open_of_take {q : LatestFrameQueue EncodedFrame} (h : q.take = none) :
    q.closed = false := by
  unfold LatestFrameQueue.take at h
  split at h
  · cases h
  · split_ifs at h with hclosed
    exact Bool.eq_false_iff.2 hclosed

theorem Inv.take (h : Inv s) (hq : s.decoderThread = .taking) : Inv s.take := by
  unfold Session.take
  split
  · next htake => exact (h.withQueue (take_closed htake)).decoderAt hq trivial ⟨rfl, rfl⟩ nofun
  · next htake => exact h.decoderAt hq (h.flagFirst (closed_of_take htake)) ⟨rfl, rfl⟩ nofun
  · next htake =>
    split_ifs with hinterrupted
    · obtain ⟨hsocket, hending⟩ := h.decoderInterrupted hinterrupted
      exact (h.interruptDecoder false hsocket hending).decoderAt hq
        (fun _ ↦ ⟨hsocket, hending⟩) ⟨rfl, rfl⟩ nofun
    · exact h.decoderAt hq (open_of_take htake) ⟨rfl, rfl⟩ nofun

/-- `decodeLoop` keeps the invariant. -/
theorem Inv.decoderStep (h : Inv s) {a : Answer}
    (hstep : s.decoderStep a s.decoderThread = some t) : Inv t := by
  have hok := h.decoder
  cases hq : s.decoderThread with
  | absent =>
      rw [hq] at hstep
      cases hstep
  | head =>
      rw [hq] at hstep
      cases hstep
      split_ifs with hclosed
      · exact h.decoderAt hq hclosed ⟨rfl, rfl⟩ nofun
      · exact h.decoderAt hq trivial ⟨rfl, rfl⟩ nofun
  | taking =>
      rw [hq] at hstep
      cases hstep
      exact h.take hq
  | waiting notified =>
      rw [hq] at hstep
      cases a with
      | threw message =>
          simp only [Session.decoderStep] at hstep
          split_ifs at hstep with hinterrupted
          cases hstep
          obtain ⟨hsocket, hending⟩ := h.decoderInterrupted hinterrupted
          exact (h.interruptDecoder false hsocket hending).decoderAt hq
            (fun _ ↦ ⟨hsocket, hending⟩) ⟨rfl, rfl⟩ nofun
      | _ =>
          simp only [Session.decoderStep] at hstep
          split_ifs at hstep
          cases hstep
          exact h.decoderAt hq trivial ⟨rfl, rfl⟩ nofun
  | decoding frame =>
      rw [hq, Session.decoderStep] at hstep
      split_ifs at hstep
      · cases hstep
        exact h.decoderAt hq trivial ⟨rfl, rfl⟩ nofun
      · cases hstep
        exact h.decoderAt hq nofun ⟨rfl, rfl⟩ nofun
  | stamping frame now =>
      rw [hq] at hstep
      cases hstep
      exact (h.decoderAt hq (p := .submitting frame) trivial ⟨rfl, rfl⟩ nofun).data
  | submitting frame =>
      rw [hq, Session.decoderStep] at hstep
      cases a with
      | codec answers =>
          have hdecode := h.withDecoder (decode_started s.decoder frame answers)
          rw [Session.submit] at hstep
          split at hstep
          · cases hstep
            exact hdecode.decoderAt hq nofun ⟨rfl, rfl⟩ nofun
          · cases hstep
            exact hdecode.decoderAt hq trivial ⟨rfl, rfl⟩ nofun
      | threw message =>
          cases hstep
          exact h.decoderAt hq nofun ⟨rfl, rfl⟩ nofun
      | done => cases hstep
      | failed message => cases hstep
  | caught x =>
      rw [hq, Session.decoderStep] at hstep
      rw [hq] at hok
      split_ifs at hstep with hstop hx
      · cases hstep
        exact h.decoderAt hq (h.flagFirst (h.queueFirst (hok hx).1)) ⟨rfl, rfl⟩ nofun
      · cases hstep
        exact h.decoderAt hq ⟨.inl hstop, trivial⟩ ⟨rfl, rfl⟩ nofun
      · cases hstep
        exact h.decoderAt hq (fun hx ↦ ⟨(hok hx).1, (hok hx).2.resolve_left hstop⟩) ⟨rfl, rfl⟩
          nofun
  | recording x =>
      rw [hq, Session.decoderStep] at hstep
      rw [hq] at hok
      have hset := h.compareAndSet (fun hx ↦ (hok hx).2)
        fun hearly ↦ absurd (hq.symm.trans hearly.1) nofun
      cases hstep
      split_ifs with hx
      · exact hset.decoderAt hq (h.flagFirst (h.queueFirst (hok hx).1)) ⟨rfl, rfl⟩ nofun
      · refine hset.decoderAt hq ⟨.inr ?_, trivial⟩ ⟨rfl, rfl⟩ nofun
        rw [Session.compareAndSet]
        cases s.decoderFailure <;> rfl
  | closing c =>
      rw [hq] at hstep hok
      cases hstep
      have hending : s.Ending := hok.1.imp_right .inl
      have hclose := h.close hok.2 hending (.inr (.inl hq))
      cases c with
      | flag => exact hclose.decoderAt hq ⟨hok.1, rfl⟩ ⟨rfl, rfl⟩ fun _ _ ↦ .inr ⟨_, rfl⟩
      | queue =>
          refine hclose.decoderAt (q := .closing .queue) ?_ ⟨hok.1, rfl⟩ ⟨rfl, rfl⟩
            fun _ _ ↦ .inr ⟨_, rfl⟩
          exact (congrArg DecoderPoint.notify hq)
      | socket =>
          exact hclose.decoderAt hq (p := .releasing) (h.flagFirst hok.2) ⟨rfl, rfl⟩
            fun _ _ ↦ .inl rfl
  | releasing =>
      rw [hq] at hstep hok
      cases hstep
      have hreader : hasCodec s.reader.point = false := by
        rw [Bool.eq_false_iff]
        intro hcodec
        cases hq.symm.trans (early_of_hasCodec h.reader hcodec).1
      exact {
        queueFirst := h.queueFirst
        flagFirst := h.flagFirst
        ending := h.ending
        closing := by
          intro hclosed
          rcases h.closing hclosed with hsocket | ⟨c, hc | hdecoder | hothers⟩
          · exact .inl hsocket
          · exact .inr ⟨c, .inl hc⟩
          · cases hq.symm.trans hdecoder
          · exact .inr ⟨c, .inr (.inr hothers)⟩
        decoderInterrupted := h.decoderInterrupted
        watchdogInterrupted := h.watchdogInterrupted
        masked := h.masked
        fresh := nofun
        codec := ((Bool.or_false _).trans hreader).symm
        reader := h.reader.mono ⟨id, id, id, id, fun _ ↦ id, id, id⟩ rfl rfl
          (fun habsent ↦ absurd (hq.symm.trans habsent) nofun) id
        decoder := hok
        watchdog := h.watchdog
        closers := h.closers }
  | ended =>
      rw [hq] at hstep
      cases hstep

/-- `watchdogLoop` keeps the invariant. -/
theorem Inv.watchdogStep (h : Inv s) {a : Answer}
    (hstep : s.watchdogStep a s.watchdogThread = some t) : Inv t := by
  have hok := h.watchdog
  cases hq : s.watchdogThread with
  | absent =>
      rw [hq] at hstep
      cases hstep
  | head =>
      rw [hq] at hstep
      cases hstep
      split_ifs with hclosed
      · exact h.watchdogAt hq hclosed ⟨nofun, nofun⟩ nofun
      · exact h.watchdogAt hq trivial ⟨nofun, nofun⟩ nofun
  | sleeping =>
      rw [hq] at hstep
      cases a with
      | threw message =>
          simp only [Session.watchdogStep] at hstep
          split_ifs at hstep with hinterrupted
          cases hstep
          have hsocket := h.watchdogInterrupted hinterrupted
          have hcleared : Inv { s with watchdogInterrupted := false } :=
            ⟨h.1, h.2, h.3, h.4, h.5, nofun, h.7, h.8, h.9, h.10, h.11, h.12, h.13⟩
          exact hcleared.watchdogAt hq (h.flagFirst (h.queueFirst hsocket)) ⟨nofun, nofun⟩ nofun
      | _ =>
          cases hstep
          exact h.watchdogAt hq trivial ⟨nofun, nofun⟩ nofun
  | awake =>
      rw [hq] at hstep
      cases hstep
      split_ifs with hclosed
      · exact h.watchdogAt hq hclosed ⟨nofun, nofun⟩ nofun
      · exact h.watchdogAt hq trivial ⟨nofun, nofun⟩ nofun
  | readVideoPackets =>
      rw [hq] at hstep
      cases hstep
      exact (h.watchdogAt hq (p := .readLastPacket _) trivial ⟨nofun, nofun⟩ nofun).data
  | readLastPacket snapshot =>
      rw [hq] at hstep
      cases hstep
      exact h.watchdogAt hq trivial ⟨nofun, nofun⟩ nofun
  | readLastFrame snapshot =>
      rw [hq] at hstep
      cases hstep
      exact h.watchdogAt hq trivial ⟨nofun, nofun⟩ nofun
  | readLastActivity snapshot =>
      rw [hq] at hstep
      cases hstep
      exact h.watchdogAt hq trivial ⟨nofun, nofun⟩ nofun
  | deciding snapshot =>
      rw [hq, Session.watchdogStep] at hstep
      split at hstep
      · cases hstep
        exact h.watchdogAt hq trivial ⟨nofun, nofun⟩ nofun
      · cases hstep
        exact h.watchdogAt hq trivial ⟨nofun, nofun⟩ nofun
  | failing message =>
      rw [hq] at hstep
      cases hstep
      have hset : Inv (s.compareAndSet (.io (.io message))) :=
        h.compareAndSet nofun fun hearly ↦ absurd (hq.symm.trans hearly.2) nofun
      refine hset.watchdogAt hq ⟨?_, trivial⟩ ⟨nofun, nofun⟩ nofun
      rw [Session.compareAndSet]
      cases s.decoderFailure <;> rfl
  | closing c =>
      rw [hq] at hstep hok
      cases hstep
      have hending : s.Ending := .inr (.inl hok.1)
      have hclose := h.close hok.2 hending (.inr (.inr (.inl hq)))
      cases c with
      | flag => exact hclose.watchdogAt hq ⟨hok.1, rfl⟩ ⟨nofun, nofun⟩ fun _ _ ↦ .inr ⟨_, rfl⟩
      | queue => exact hclose.watchdogAt hq ⟨hok.1, rfl⟩ ⟨nofun, nofun⟩ fun _ _ ↦ .inr ⟨_, rfl⟩
      | socket =>
          exact hclose.watchdogAt hq (p := .ended) (h.flagFirst hok.2) ⟨nofun, nofun⟩
            fun _ _ ↦ .inl rfl
  | ended =>
      rw [hq] at hstep
      cases hstep

/-- A call of `close` keeps the invariant. -/
theorem Inv.closerStep (h : Inv s) {i : Nat} {seen : Bool} {q : CloserPoint}
    (hq : s.closers[i]? = some q) (hstep : s.closerStep i seen q = some t) : Inv t := by
  have hok := h.closers q (List.mem_of_getElem? hq)
  cases q with
  | stop =>
      cases hstep
      have hgrows : Grows s { s with stopRequested := true } :=
        ⟨id, id, id, fun _ ↦ rfl, fun _ ↦ id, id, id⟩
      have hstop : Inv { s with stopRequested := true } := {
        queueFirst := h.queueFirst
        flagFirst := h.flagFirst
        ending := fun _ ↦ .inl rfl
        closing := h.closing
        decoderInterrupted := fun hi ↦ (h.decoderInterrupted hi).imp_right fun he ↦ he.mono hgrows
        watchdogInterrupted := h.watchdogInterrupted
        masked := h.masked
        fresh := h.fresh
        codec := h.codec
        reader := h.reader.mono hgrows rfl rfl id id
        decoder := h.decoder.mono hgrows fun hwait ↦ by
          have hdecoder := h.decoder
          rwa [hwait] at hdecoder
        watchdog := h.watchdog.mono hgrows
        closers := fun p hp ↦ (h.closers p hp).mono hgrows }
      exact hstop.closerAt hq ⟨rfl, trivial⟩ nofun
  | closing c =>
      cases hstep
      have hclose := h.close hok.2 (.inl hok.1) (.inr (.inr (.inr (List.mem_of_getElem? hq))))
      cases c with
      | flag => exact hclose.closerAt hq ⟨hok.1, rfl⟩ fun _ _ ↦ .inr ⟨_, rfl⟩
      | queue => exact hclose.closerAt hq ⟨hok.1, rfl⟩ fun _ _ ↦ .inr ⟨_, rfl⟩
      | socket => exact hclose.closerAt hq (p := .interrupt) ⟨hok.1, rfl⟩ fun _ _ ↦ .inl rfl
  | interrupt =>
      cases hstep
      have hinterrupt := h.interruptDecoder (s.decoderInterrupted || seen) hok.2 (.inl hok.1)
      exact hinterrupt.closerAt hq hok nofun
  | returned => cases hstep

/-! ## Runs -/

/-- One more call of `close` changes nothing yet. -/
theorem Inv.callClose (h : Inv s) : Inv { s with closers := s.closers ++ [.stop] } where
  queueFirst := h.queueFirst
  flagFirst := h.flagFirst
  ending := h.ending
  closing hclosed := by
    rcases h.closing hclosed with hsocket | ⟨c, hreader | hdecoder | hwatchdog | hcloser⟩
    · exact .inl hsocket
    · exact .inr ⟨c, .inl hreader⟩
    · exact .inr ⟨c, .inr (.inl hdecoder)⟩
    · exact .inr ⟨c, .inr (.inr (.inl hwatchdog))⟩
    · exact .inr ⟨c, .inr (.inr (.inr (List.mem_append_left _ hcloser)))⟩
  decoderInterrupted := h.decoderInterrupted
  watchdogInterrupted := h.watchdogInterrupted
  masked := h.masked
  fresh := h.fresh
  codec := h.codec
  reader := h.reader
  decoder := h.decoder
  watchdog := h.watchdog
  closers := by
    intro p hp
    rcases List.mem_append.1 hp with hp | hp
    · exact h.closers p hp
    · cases List.mem_singleton.1 hp
      trivial

theorem Inv.step (h : Inv s) {event : Event} (hstep : s.step event = some t) : Inv t := by
  cases event with
  | reader a => exact h.readerStep hstep
  | decoder a => exact h.decoderStep hstep
  | watchdog a => exact h.watchdogStep hstep
  | closer i seen =>
      obtain ⟨q, hq, hstep⟩ := Option.bind_eq_some_iff.1 hstep
      exact h.closerStep hq hstep
  | close =>
      cases hstep
      exact h.callClose
  | arrive portion =>
      simp only [Session.step] at hstep
      split_ifs at hstep
      cases hstep
      exact h.data
  | hangUp =>
      cases hstep
      exact h.data
  | spurious =>
      simp only [Session.step] at hstep
      split at hstep
      · next hq =>
        cases hstep
        exact h.decoderAt hq trivial ⟨rfl, rfl⟩ nofun
      · cases hstep

theorem Inv.next (h : Inv s) {e : Int × Event} (hstep : s.next e = some t) : Inv t := by
  unfold Session.next at hstep
  split_ifs at hstep
  have hclock : Inv { s with clock := e.1 } := h.data
  exact hclock.step hstep

/-- Any sequence of steps of the threads. -/
abbrev Run : Session → Session → Prop := ReflTransGen (Moves next fun _ _ ↦ True)

/-- A receiver that was just constructed, at some time. -/
def new (info : ConnectionInfo) (clock : Int) : Session := { info, clock }

theorem Inv.new (info : ConnectionInfo) (clock : Int) : Inv (new info clock) where
  queueFirst := nofun
  flagFirst := nofun
  ending := nofun
  closing := nofun
  decoderInterrupted := nofun
  watchdogInterrupted := nofun
  masked := nofun
  fresh _ := rfl
  codec := rfl
  reader := ⟨rfl, rfl⟩
  decoder := trivial
  watchdog := trivial
  closers := nofun

theorem Inv.run {info : ConnectionInfo} {clock : Int} (h : Run (Session.new info clock) s) :
    Inv s :=
  run_preserves (fun h ⟨_, _, hnext⟩ ↦ h.next hnext) (.new info clock) h

/-! ## What a step leaves set -/

/-- All that is set. -/
def flags (s : Session) :
    (Bool × Bool × Bool × Bool) × Option Throwable × Option IOException × Bool :=
  ((s.closed, s.queue.closed, s.socketClosed, s.stopRequested), s.decoderFailure,
    s.reader.terminalError, s.reader.uncaught)

/-- A step that sets nothing. -/
theorem Grows.same (h : t.flags = s.flags) : Grows s t := by
  simp only [flags, Prod.mk.injEq] at h
  obtain ⟨⟨hclosed, hqueue, hsocket, hstop⟩, hfailure, hterminal, huncaught⟩ := h
  exact {
    closed := hclosed.trans
    queue := hqueue.trans
    socket := hsocket.trans
    stop := hstop.trans
    failure := fun _ ↦ hfailure.trans
    terminalError := fun h ↦ by rwa [hterminal]
    uncaught := huncaught.trans }

/-- A step that `run` does not make. -/
structure Aside (s t : Session) : Prop extends Grows s t where
  reader : t.reader = s.reader

theorem Aside.same (h : t.flags = s.flags) (hreader : t.reader = s.reader) : Aside s t :=
  ⟨.same h, hreader⟩

theorem Grows.trans {u : Session} (hst : Grows s t) (htu : Grows t u) : Grows s u where
  closed := htu.closed ∘ hst.closed
  queue := htu.queue ∘ hst.queue
  socket := htu.socket ∘ hst.socket
  stop := htu.stop ∘ hst.stop
  failure f := htu.failure f ∘ hst.failure f
  terminalError := htu.terminalError ∘ hst.terminalError
  uncaught := htu.uncaught ∘ hst.uncaught

theorem grows_close (s : Session) (c : Closing) : Grows s (s.close c) := by
  cases c with
  | flag => exact ⟨fun _ ↦ rfl, id, id, id, fun _ ↦ id, id, id⟩
  | queue => exact ⟨id, fun _ ↦ rfl, id, id, fun _ ↦ id, id, id⟩
  | socket => exact ⟨id, id, fun _ ↦ rfl, id, fun _ ↦ id, id, id⟩

theorem reader_close (s : Session) (c : Closing) : (s.close c).reader = s.reader := by
  cases c <;> rfl

theorem grows_compareAndSet (s : Session) (x : Throwable) : Grows s (s.compareAndSet x) := by
  refine ⟨id, id, id, id, fun f hf ↦ ?_, id, id⟩
  rw [Session.compareAndSet, hf]
  rfl

theorem grows_offer (s : Session) (frame : EncodedFrame) : Grows s (s.offer frame) := by
  have hclosed := offer_closed s.queue frame
  unfold Session.offer
  split_ifs
  · exact ⟨id, hclosed.trans, id, id, fun _ ↦ id, id, id⟩
  · exact ⟨id, hclosed.trans, id, id, fun _ ↦ id, id, id⟩

theorem aside_take (s : Session) : Aside s s.take := by
  unfold Session.take
  split
  · next htake => exact ⟨⟨id, (take_closed htake).trans, id, id, fun _ ↦ id, id, id⟩, rfl⟩
  · exact .same rfl rfl
  · split_ifs
    · exact .same rfl rfl
    · exact .same rfl rfl

theorem grows_readerDies (s : Session) (first : Bool) : Grows s (s.readerDies first) := by
  unfold Session.readerDies
  split_ifs
  · exact .same rfl
  · exact ⟨id, id, id, id, fun _ ↦ id, id, fun _ ↦ rfl⟩

theorem grows_read {first : Bool} {a : Answer} (hstep : s.read first a = some t) :
    Grows s t := by
  cases a with
  | done =>
      rw [Session.read] at hstep
      split at hstep
      · cases hstep
        exact .same rfl
      · split_ifs at hstep
        cases hstep
        exact .same rfl
      · cases hstep
        exact .same rfl
  | failed message =>
      cases hstep
      exact .same rfl
  | threw message =>
      cases hstep
      exact grows_readerDies s first
  | codec answers => cases hstep

theorem grows_dispatch {first : Bool} {frame : EncodedFrame} {a : Answer}
    (hstep : s.dispatch first frame a = some t) : Grows s t := by
  cases a with
  | done =>
      rw [Session.dispatch] at hstep
      split at hstep
      · cases hstep
        exact .same rfl
      · cases hstep
        exact .same rfl
  | threw message =>
      rw [Session.dispatch] at hstep
      split at hstep
      · cases hstep
        exact grows_readerDies s first
      · cases hstep
  | failed message => cases hstep
  | codec answers => cases hstep

theorem grows_readerStep {a : Answer} {p : ReaderPoint} (hstep : s.readerStep a p = some t) :
    Grows s t := by
  cases p with
  | reading first => exact grows_read hstep
  | dispatching first frame => exact grows_dispatch hstep
  | heartbeat first now =>
      cases hstep
      cases now with
      | none => exact .same rfl
      | some now => exact .same rfl
  | video first frame recording =>
      cases hstep
      cases recording with
      | _ => exact .same rfl
  | starting frame =>
      simp only [Session.readerStep] at hstep
      split at hstep
      · cases hstep
        exact .same rfl
      · cases hstep
        exact .same rfl
  | offering first frame =>
      cases hstep
      exact (grows_offer s frame).trans (.same rfl)
  | checking =>
      rw [Session.readerStep] at hstep
      split at hstep
      · cases hstep
        exact .same rfl
      · cases hstep
        exact .same rfl
  | caught e =>
      rw [Session.readerStep] at hstep
      split_ifs at hstep
      · cases hstep
        exact .same rfl
      · cases hstep
        exact ⟨id, id, id, id, fun _ ↦ id, fun _ ↦ rfl, id⟩
  | closing c =>
      cases hstep
      exact (grows_close s c).trans (.same rfl)
  | ended result => cases hstep
  | _ =>
      cases hstep
      exact .same rfl

theorem aside_decoderStep {a : Answer} {p : DecoderPoint} (hstep : s.decoderStep a p = some t) :
    Aside s t := by
  cases p with
  | absent => cases hstep
  | ended => cases hstep
  | taking =>
      cases hstep
      exact aside_take s
  | waiting notified =>
      cases a with
      | _ =>
          simp only [Session.decoderStep] at hstep
          split_ifs at hstep
          cases hstep
          exact .same rfl rfl
  | decoding frame =>
      rw [Session.decoderStep] at hstep
      split_ifs at hstep
      · cases hstep
        exact .same rfl rfl
      · cases hstep
        exact .same rfl rfl
  | submitting frame =>
      rw [Session.decoderStep] at hstep
      cases a with
      | codec answers =>
          rw [Session.submit] at hstep
          split at hstep
          · cases hstep
            exact .same rfl rfl
          · cases hstep
            exact .same rfl rfl
      | threw message =>
          cases hstep
          exact .same rfl rfl
      | done => cases hstep
      | failed message => cases hstep
  | caught x =>
      rw [Session.decoderStep] at hstep
      split_ifs at hstep
      · cases hstep
        exact .same rfl rfl
      · cases hstep
        exact .same rfl rfl
      · cases hstep
        exact .same rfl rfl
  | recording x =>
      cases hstep
      exact ⟨(grows_compareAndSet s x).trans (.same rfl), rfl⟩
  | closing c =>
      cases hstep
      exact ⟨(grows_close s c).trans (.same rfl), reader_close s c⟩
  | _ =>
      cases hstep
      exact .same rfl rfl

theorem aside_watchdogStep {a : Answer} {p : WatchdogPoint} (hstep : s.watchdogStep a p = some t) :
    Aside s t := by
  cases p with
  | absent => cases hstep
  | ended => cases hstep
  | sleeping =>
      cases a with
      | threw message =>
          simp only [Session.watchdogStep] at hstep
          split_ifs at hstep
          cases hstep
          exact .same rfl rfl
      | _ =>
          cases hstep
          exact .same rfl rfl
  | deciding snapshot =>
      rw [Session.watchdogStep] at hstep
      split at hstep
      · cases hstep
        exact .same rfl rfl
      · cases hstep
        exact .same rfl rfl
  | failing message =>
      cases hstep
      exact ⟨(grows_compareAndSet s _).trans (.same rfl), rfl⟩
  | closing c =>
      cases hstep
      exact ⟨(grows_close s c).trans (.same rfl), reader_close s c⟩
  | _ =>
      cases hstep
      exact .same rfl rfl

theorem aside_closerStep {i : Nat} {seen : Bool} {p : CloserPoint}
    (hstep : s.closerStep i seen p = some t) : Aside s t := by
  cases p with
  | stop =>
      cases hstep
      exact ⟨⟨id, id, id, fun _ ↦ rfl, fun _ ↦ id, id, id⟩, rfl⟩
  | closing c =>
      cases hstep
      exact ⟨(grows_close s c).trans (.same rfl), reader_close s c⟩
  | interrupt =>
      cases hstep
      exact .same rfl rfl
  | returned => cases hstep

theorem Grows.ofClock {now : Int} (h : Grows { s with clock := now } t) : Grows s t :=
  ⟨h.closed, h.queue, h.socket, h.stop, h.failure, h.terminalError, h.uncaught⟩

/-- A step is one of `run`, or leaves `run` where it is. -/
theorem next_cases {e : Int × Event} (hstep : s.next e = some t) :
    (∃ a, ({ s with clock := e.1 }).readerStep a s.reader.point = some t) ∨ Aside s t := by
  unfold Session.next at hstep
  split_ifs at hstep
  cases he : e.2 with
  | reader a =>
      rw [he] at hstep
      exact .inl ⟨a, hstep⟩
  | decoder a =>
      obtain ⟨hgrows, hreader⟩ := aside_decoderStep (he ▸ hstep)
      exact .inr ⟨hgrows.ofClock, hreader⟩
  | watchdog a =>
      obtain ⟨hgrows, hreader⟩ := aside_watchdogStep (he ▸ hstep)
      exact .inr ⟨hgrows.ofClock, hreader⟩
  | closer i seen =>
      rw [he] at hstep
      obtain ⟨q, -, hstep⟩ := Option.bind_eq_some_iff.1 hstep
      obtain ⟨hgrows, hreader⟩ := aside_closerStep hstep
      exact .inr ⟨hgrows.ofClock, hreader⟩
  | close =>
      rw [he] at hstep
      cases hstep
      exact .inr (.same rfl rfl)
  | arrive portion =>
      rw [he] at hstep
      simp only [Session.step] at hstep
      split_ifs at hstep
      cases hstep
      exact .inr (.same rfl rfl)
  | hangUp =>
      rw [he] at hstep
      cases hstep
      exact .inr (.same rfl rfl)
  | spurious =>
      rw [he] at hstep
      simp only [Session.step] at hstep
      split at hstep
      · cases hstep
        exact .inr (.same rfl rfl)
      · cases hstep

/-- No step takes back what is set. -/
theorem grows_next {e : Int × Event} (hstep : s.next e = some t) : Grows s t := by
  rcases next_cases hstep with ⟨a, hreader⟩ | haside
  · exact (grows_readerStep hreader).ofClock
  · exact haside.toGrows

/-! ## What `run` reports -/

/-- `run` has read the failure, or has ended. -/
def isLate : ReaderPoint → Bool
  | .reporting _ | .ended _ => true
  | _ => false

theorem read_late {a : Answer} (hstep : s.read false a = some t) :
    isLate t.reader.point = false := by
  cases a with
  | done =>
      rw [Session.read] at hstep
      split at hstep
      · next frame input _ =>
        cases hstep
        change isLate (if frame.heartbeat then _ else if frame.control then _ else _) = false
        split_ifs <;> rfl
      · split_ifs at hstep
        cases hstep
        rfl
      · cases hstep
        rfl
  | failed message =>
      cases hstep
      rfl
  | threw message =>
      cases hstep
      rfl
  | codec answers => cases hstep

theorem dispatch_late {frame : EncodedFrame} {a : Answer}
    (hstep : s.dispatch false frame a = some t) : isLate t.reader.point = false := by
  cases a with
  | done =>
      rw [Session.dispatch] at hstep
      split at hstep
      · cases hstep
        rfl
      · cases hstep
        rfl
  | threw message =>
      rw [Session.dispatch] at hstep
      split at hstep
      · cases hstep
        rfl
      · cases hstep
  | failed message => cases hstep
  | codec answers => cases hstep

/-- How `run` comes to its end. -/
theorem readerStep_late {a : Answer} {p : ReaderPoint} (hok : s.ReaderOk p)
    (hstep : s.readerStep a p = some t) (hlate : isLate t.reader.point = true) :
    s.Early ∨ p = .joinWatchdog ∧ t.reader.point = .ended .died ∨
      p = .readFailure ∧ t.reader.point = .reporting s.decoderFailure ∨
      ∃ failure, p = .reporting failure ∧ t.reader.point = .ended (s.report failure) := by
  cases p with
  | idle => exact .inl hok
  | reading first =>
      cases first with
      | true => exact .inl hok
      | false => exact absurd (hlate.symm.trans (read_late hstep)) nofun
  | dispatching first frame =>
      cases first with
      | true => exact .inl hok
      | false => exact absurd (hlate.symm.trans (dispatch_late hstep)) nofun
  | heartbeat first now =>
      cases first with
      | true => exact .inl hok
      | false =>
          cases hstep
          cases now <;> cases hlate
  | video first frame recording =>
      cases first with
      | true => exact .inl hok
      | false =>
          cases hstep
          cases recording <;> cases hlate
  | starting frame => exact .inl hok
  | newThread frame => exact .inl hok
  | startingThread frame => exact .inl hok
  | offering first frame =>
      cases hstep
      cases hlate
  | counting first =>
      cases hstep
      cases first <;> cases hlate
  | head =>
      cases hstep
      change isLate (if s.closed then _ else _) = true at hlate
      split_ifs at hlate <;> cases hlate
  | checking =>
      rw [Session.readerStep] at hstep
      split at hstep <;> cases hstep <;> cases hlate
  | caught e =>
      cases hstep
      cases hlate
  | closing c =>
      cases hstep
      cases c <;> cases hlate
  | joinWatchdog =>
      cases hstep
      change isLate (if s.reader.uncaught then _ else _) = true at hlate
      split_ifs at hlate with huncaught
      · refine .inr (.inl ⟨rfl, ?_⟩)
        change (if s.reader.uncaught then _ else _) = _
        rw [if_pos huncaught]
      · cases hlate
  | readFailure =>
      cases hstep
      exact .inr (.inr (.inl ⟨rfl, rfl⟩))
  | reporting failure =>
      cases hstep
      exact .inr (.inr (.inr ⟨failure, rfl, rfl⟩))
  | ended result => cases hstep
  | _ =>
      cases hstep
      cases hlate

/-- `run` has found the failure, if it is late enough. -/
structure Noted (failure : Throwable) (s : Session) : Prop where
  recorded : s.decoderFailure = some failure
  read : ∀ x, s.reader.point = .reporting x → x = some failure
  reported : ∀ result, s.reader.point = .ended result → s.stopRequested = true ∨
    result = .died ∨ result = .threw (asIOException "H.264 decoder stopped" failure)

theorem Noted.next {failure : Throwable} (h : s.Noted failure) (hinv : s.Inv) {e : Int × Event}
    (hstep : s.next e = some t) : t.Noted failure := by
  have hgrows := grows_next hstep
  have hrecorded := hgrows.failure failure h.recorded
  rcases next_cases hstep with ⟨a, hreader⟩ | haside
  · have hearly : ¬s.Early := by
      intro hearly
      cases h.recorded.symm.trans (hinv.fresh hearly)
    have hlate := fun hlate ↦ (readerStep_late (s := { s with clock := e.1 })
      (Inv.data hinv).reader hreader
      hlate).resolve_left hearly
    constructor
    · exact hrecorded
    · intro x hx
      rcases hlate (by rw [hx]; rfl) with ⟨-, ht⟩ | ⟨-, ht⟩ | ⟨failure, -, ht⟩
      · cases hx.symm.trans ht
      · cases hx.symm.trans ht
        exact h.recorded
      · cases hx.symm.trans ht
    · intro result hresult
      rcases hlate (by rw [hresult]; rfl) with ⟨-, ht⟩ | ⟨-, ht⟩ | ⟨x, hp, ht⟩
      · cases hresult.symm.trans ht
        exact .inr (.inl rfl)
      · cases hresult.symm.trans ht
      · cases hresult.symm.trans ht
        rw [h.read x hp]
        cases hstop : s.stopRequested with
        | true => exact .inl (hgrows.stop hstop)
        | false => exact .inr (.inr rfl)
  · constructor
    · exact hrecorded
    · exact fun x hx ↦ h.read x (haside.reader ▸ hx)
    · exact fun result hresult ↦
        (h.reported result (haside.reader ▸ hresult)).imp_left hgrows.stop

theorem Noted.run {failure : Throwable} (h : s.Noted failure) (hinv : s.Inv) (hrun : Run s t) :
    t.Noted failure := by
  have hboth : t.Noted failure ∧ t.Inv := by
    apply run_preserves (I := fun s ↦ Noted failure s ∧ Inv s) ?_ ⟨h, hinv⟩ hrun
    rintro s t ⟨h, hinv⟩ ⟨e, -, hnext⟩
    exact ⟨h.next hinv hnext, hinv.next hnext⟩
  exact hboth.1

/-! ## What a receiver guarantees -/

/-- Nothing of the receiver is open. -/
def TornDown (s : Session) : Prop :=
  s.closed = true ∧ s.queue.closed = true ∧ s.socketClosed = true

theorem Inv.tornDown (h : Inv s) (hsocket : s.socketClosed = true) : s.TornDown :=
  ⟨h.flagFirst (h.queueFirst hsocket), h.queueFirst hsocket, hsocket⟩

/-- **The threads of a receiver end together.**  As soon as the receiver is closed, everything
of it is, or some thread is about to close the rest; a thread ends only if the receiver is
closed; `run` and `close` leave nothing open; and the codec is released exactly when the thread
that uses it has ended. -/
theorem threads_end_together {info : ConnectionInfo} {clock : Int}
    (h : Run (Session.new info clock) s) :
    (s.closed = true → s.TornDown ∨ ∃ c, s.At c) ∧
    (s.decoderThread = .ended ∨ s.watchdogThread = .ended → s.closed = true) ∧
    (∀ result, s.reader.point = .ended result → s.decoderThread ≠ .absent → s.TornDown) ∧
    (.returned ∈ s.closers → s.TornDown ∧ s.stopRequested = true) ∧
    (s.decoder.started = true ↔
      hasCodec s.reader.point = true ∨ isAlive s.decoderThread = true) := by
  have hinv := Inv.run h
  refine ⟨fun hclosed ↦ ?_, ?_, ?_, fun hreturned ↦ ?_, ?_⟩
  · exact (hinv.closing hclosed).imp_left hinv.tornDown
  · rintro (hended | hended)
    · have hok := hinv.decoder
      rwa [hended] at hok
    · have hok := hinv.watchdog
      rwa [hended] at hok
  · intro result hended hstarted
    have hok := hinv.reader
    rw [hended] at hok
    have hlate : ¬s.Early := fun hearly ↦ hstarted hearly.1
    cases result with
    | returned => exact hinv.tornDown hok.1
    | threw e => exact hinv.tornDown (hok.resolve_left hlate).1
    | died => exact hinv.tornDown (hok.resolve_left hlate).1
  · obtain ⟨hstop, hsocket⟩ := hinv.closers .returned hreturned
    exact ⟨hinv.tornDown hsocket, hstop⟩
  · rw [hinv.codec, Bool.or_eq_true]

/-- **What `run` reports.**  It returns only if a stop was requested.  What it throws after the
decoder thread was started is the failure that was recorded first, or what ended the loop; the
first one is reported in any case if it was recorded before `run` looks for it and no stop was
requested.  An interrupt of the decoder thread is recorded only if `run` itself was ending with
an exception. -/
theorem run_reports {info : ConnectionInfo} {clock : Int} (h : Run (Session.new info clock) s) :
    (s.reader.point = .ended .returned → s.stopRequested = true) ∧
    (∀ e, s.reader.point = .ended (.threw e) → s.decoderThread ≠ .absent →
      (∃ failure, s.decoderFailure = some failure ∧
        e = asIOException "H.264 decoder stopped" failure) ∨ s.reader.terminalError = some e) ∧
    (∀ failure, s.decoderFailure = some failure → isLate s.reader.point = false →
      ∀ t, Run s t → t.decoderFailure = some failure ∧
        ∀ result, t.reader.point = .ended result → t.stopRequested = true ∨ result = .died ∨
          result = .threw (asIOException "H.264 decoder stopped" failure)) ∧
    (s.decoderFailure = some .interrupted →
      s.reader.terminalError.isSome = true ∨ s.reader.uncaught = true) := by
  have hinv := Inv.run h
  refine ⟨fun hended ↦ ?_, fun e hended hstarted ↦ ?_, ?_, hinv.masked⟩
  · have hok := hinv.reader
    rw [hended] at hok
    exact hok.2
  · have hok := hinv.reader
    rw [hended] at hok
    exact (hok.resolve_left fun hearly ↦ hstarted hearly.1).2
  · intro failure hfailure hlate t hrun
    have hnoted : s.Noted failure := by
      constructor
      · exact hfailure
      · rintro x hx
        rw [hx] at hlate
        cases hlate
      · rintro result hresult
        rw [hresult] at hlate
        cases hlate
    obtain ⟨hrecorded, -, hreported⟩ := hnoted.run hinv hrun
    exact ⟨hrecorded, hreported⟩

/-! ## A run

One unit arrives and is decoded, and the connection is reset while the decoder thread waits for
the next one. -/

/-- A read for which the first portion has enough bytes. -/
theorem readFully_portion {length : Nat} {portion : List UInt8} (input : InputStream)
    (hpos : 0 < length) (hle : length ≤ portion.length) :
    readFully length [] (portion :: input) = .ok (portion.take length,
      if portion.length ≤ length then input else portion.drop length :: input) := by
  rw [readFully, if_pos (show [].length < length from hpos)]
  split
  · next hnone =>
    rw [InputStream.read] at hnone
    split at hnone <;> cases hnone
  · next bytes rest hread =>
    rw [List.length_nil, Nat.sub_zero, InputStream.read] at hread
    rw [List.nil_append]
    split_ifs at hread ⊢ with hall
    · cases hread
      rw [readFully, if_neg (by omega), List.take_of_length_le hall]
    · cases hread
      rw [readFully, if_neg (by rw [List.length_take]; omega)]

def smallUnit : List UInt8 :=
  [0x53, 0x53, 0x56, 0x31, 1, 0, 0, 0, 7, 0, 0, 0, 0, 0, 0, 0, 0, 0, 0, 0, 0, 0, 0, 0, 0x65]

/-- What the unit is read as. -/
def smallFrame : EncodedFrame where
  frameId := 7
  captureTimestampUs := 0
  receivedNanos := 1
  randomAccess := false
  heartbeat := false
  control := false
  controlType := 0
  controlPayload := []
  accessUnit := [0x65]

theorem readPacket_smallUnit : readPacket 1 [smallUnit] = .ok (smallFrame, []) := by
  have hrest : (if smallUnit.length ≤ HEADER_BYTES then [] else [smallUnit.drop HEADER_BYTES]) =
      [[0x65]] := by decide
  have hmagic : getInt (smallUnit.take HEADER_BYTES) 0 = MAGIC := by decide
  have hraw : getInt (smallUnit.take HEADER_BYTES) 4 = 1 := by decide
  have hid : getLong (smallUnit.take HEADER_BYTES) 8 = 7 := by decide
  have htime : getLong (smallUnit.take HEADER_BYTES) 16 = 0 := by decide
  have hlength : ((1 : Int32) &&& ~~~CONTROL_LENGTH_FLAG).toUInt32.toNat = 1 := by decide
  have hflag : (1 : Int32) &&& CONTROL_LENGTH_FLAG = 0 := by decide
  have hnal : findNalUnit [0x65] 5 = none := by
    rw [findNalUnit, findNalUnitFrom]
    rfl
  rw [readPacket, readFully_portion [] (by decide) (by decide), hrest]
  simp only [hmagic, hraw, hid, htime, hlength, hflag, ne_eq, not_true_eq_false]
  rw [readFully_portion [] (by decide) (by decide)]
  simp [hnal, MAX_ACCESS_UNIT_BYTES, smallFrame]

/-- The receiver that waits for its first packet, when the unit is there. -/
def listening : Session :=
  { info := { codec := "h264", width := 1920, height := 1080, fps := 60, bitrate := 8000000 }
    input := [smallUnit]
    clock := 1
    reader := { point := .reading true } }

/-- What follows: the thread for the decoder is started and decodes the unit, the read for the
next one fails, and the decoder thread throws because it is interrupted. -/
def reset : List (Int × Event) :=
  (List.replicate 12 (Event.reader .done) ++ List.replicate 4 (Event.decoder .done) ++
    [Event.decoder (.codec { inputIndex := .ok 0, capacity := some 4 })] ++
    List.replicate 2 (Event.decoder .done) ++ [Event.reader (.failed "Connection reset")] ++
    List.replicate 5 (Event.reader .done) ++ [Event.decoder (.threw none)] ++
    List.replicate 3 (Event.decoder .done) ++ List.replicate 5 (Event.reader .done)).map
    fun event ↦ (1, event)

theorem reset_run : ∃ s, Run (Session.new listening.info 0) s ∧
    s.reader.point = .ended (.threw (.io "H.264 decoder stopped")) ∧
    s.decoderFailure = some .interrupted ∧ s.decoderThread = .ended ∧
    s.decoder.started = false := by
  have hfollow : follow next (fun _ _ ↦ True) (Session.new listening.info 0)
      [(1, .arrive smallUnit), (1, .reader .done)] = some listening := rfl
  have hlisten : Run (Session.new listening.info 0) listening := run_of_follow hfollow
  have hread : listening.next (1, .reader .done) =
      some ({ listening with input := [] }.readerAt (.video true smallFrame .count)) := by
    show listening.read true .done = _
    rw [Session.read, show readPacket (Int64.ofInt listening.clock) listening.input =
      .ok (smallFrame, []) from readPacket_smallUnit]
    rfl
  obtain ⟨s, hrun, hs⟩ :=
    show ∃ s, Run ({ listening with input := [] }.readerAt (.video true smallFrame .count)) s ∧
        s.reader.point = .ended (.threw (.io "H.264 decoder stopped")) ∧
        s.decoderFailure = some .interrupted ∧ s.decoderThread = .ended ∧
        s.decoder.started = false from
      exists_run reset (by decide +kernel)
  exact ⟨s, (hlisten.tail ⟨_, trivial, hread⟩).trans hrun, hs⟩

theorem threads_end_together_reset : ∃ s, Run (Session.new listening.info 0) s ∧
    s.decoderThread = .ended ∧ s.decoder.started = false ∧ s.TornDown := by
  obtain ⟨s, hrun, hended, -, hdecoder, hstarted⟩ := reset_run
  refine ⟨s, hrun, hdecoder, hstarted, ?_⟩
  exact (threads_end_together hrun).2.2.1 _ hended (by rw [hdecoder]; nofun)

/-- The exception of the loop is lost behind the interrupt. -/
theorem run_reports_reset : ∃ s, Run (Session.new listening.info 0) s ∧
    s.reader.point = .ended (.threw (.io "H.264 decoder stopped")) ∧
    (s.reader.terminalError.isSome = true ∨ s.reader.uncaught = true) := by
  obtain ⟨s, hrun, hended, hfailure, -, -⟩ := reset_run
  exact ⟨s, hrun, hended, (run_reports hrun).2.2.2 hfailure⟩

end Session

end SecondScreen.Client.Receiving
