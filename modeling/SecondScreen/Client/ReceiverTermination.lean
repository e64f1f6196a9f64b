import SecondScreen.Client.ReceiverShutdown
import SecondScreen.Wire.Transmission

/-!
# A receiver that is closed ends

Once `closed` is set all threads of the receiver come to their end, however they are scheduled
and whatever the codec, the listener and the rest of the input do, as long as their calls return.
Two waits need another thread for this: `wait()` lasts until whoever has closed the receiver
closes the queue, and a `read` may last until the socket is closed.  A `read` fails for other
reasons as well, but that cannot be relied upon.

Left out are further calls of `close`, the arrival of more input, and `wait()` returning without
a reason: a scheduler that does nothing else could put off the end for ever.
-/

namespace SecondScreen.Client.Receiving

open SecondScreen.Conc Relation

namespace Session

/-! ## How much there is to do -/

/-- Whether `run` is in `readPacket`. -/
def isReading (s : Session) : Bool :=
  match s.reader.point with
  | .reading _ => true
  | _ => false

/-- The steps that end a receiver. -/
def OwnStep (_ : Session) (e : Int × Event) : Prop :=
  match e.2 with
  | .reader _ | .decoder _ | .watchdog _ | .closer _ _ => True
  | .close | .arrive _ | .hangUp | .spurious => False

/-- The steps that come about: a `read` that waits for more need not fail while the socket is
open. -/
def DueStep (s : Session) (e : Int × Event) : Prop :=
  match e.2 with
  | .reader a => a = .done ∨ s.isReading = false ∨ s.socketClosed = true
  | .decoder _ | .watchdog _ | .closer _ _ => True
  | .close | .arrive _ | .hangUp | .spurious => False

def closingRank : Closing → Nat
  | .flag => 3
  | .queue => 2
  | .socket => 1

def readerRank : ReaderPoint → Nat
  | .ended _ => 0
  | .reporting _ => 1
  | .readFailure => 2
  | .joinWatchdog => 3
  | .interruptWatchdog => 4
  | .joinDecoder => 5
  | .interruptDecoder => 6
  | .closing c => 6 + closingRank c
  | .caught _ => 10
  | .head => 11
  | .counting false | .dispatching false _ | .heartbeat false (some _) => 12
  | .offering false _ | .heartbeat false none => 13
  | .video false _ (.frameStamp _) => 14
  | .video false _ (.packetStamp _) => 15
  | .video false _ .readClock => 16
  | .video false _ .count => 17
  | .reading false => 18
  | .checking => 19
  | .startingWatchdog => 20
  | .counting true => 21
  | .offering true _ => 22
  | .startingThread _ => 23
  | .newThread _ => 24
  | .starting _ => 25
  | .video true _ (.frameStamp _) => 26
  | .video true _ (.packetStamp _) => 27
  | .video true _ .readClock => 28
  | .video true _ .count => 29
  | .reading true => 30
  | .dispatching true _ | .heartbeat true (some _) => 31
  | .heartbeat true none => 32
  | .idle => 33

def decoderRank : DecoderPoint → Nat
  | .absent | .ended => 0
  | .releasing => 1
  | .closing c => 1 + closingRank c
  | .recording _ => 5
  | .caught _ => 6
  | .head => 7
  | .submitting _ => 8
  | .stamping _ _ => 9
  | .decoding _ => 10
  | .waiting false => 11
  | .taking => 12
  | .waiting true => 13

def watchdogRank : WatchdogPoint → Nat
  | .absent | .ended => 0
  | .closing c => closingRank c
  | .failing _ => 4
  | .head => 5
  | .deciding _ => 6
  | .readLastActivity _ => 7
  | .readLastFrame _ => 8
  | .readLastPacket _ => 9
  | .readVideoPackets => 10
  | .awake => 11
  | .sleeping => 12

def closerRank : CloserPoint → Nat
  | .returned => 0
  | .interrupt => 1
  | .closing c => 1 + closingRank c
  | .stop => 5

/-- What `run` has to do: a packet that it reads is worth more than what it does with it. -/
def readerWork (s : Session) : Nat := 64 * s.input.flatten.length + readerRank s.reader.point

def othersWork (s : Session) : Nat :=
  watchdogRank s.watchdogThread + (s.closers.map closerRank).sum

/-- A step of `run` may start a thread, and most steps may wake the decoder thread. -/
def work (s : Session) : Nat :=
  4096 * s.readerWork + (64 * s.othersWork + decoderRank s.decoderThread)

theorem decoderRank_le (p : DecoderPoint) : decoderRank p ≤ 13 := by
  unfold decoderRank closingRank
  split <;> try omega
  split <;> omega

theorem watchdogRank_le (p : WatchdogPoint) : watchdogRank p ≤ 12 := by
  unfold watchdogRank closingRank
  split <;> try omega
  split <;> omega

/-! ## Reading takes bytes -/

/-- What is read and what is left are what was there. -/
theorem readFully_flatten {length : Nat} {buffer bytes : List UInt8} {input rest : InputStream}
    (h : readFully length buffer input = .ok (bytes, rest)) :
    buffer ++ input.flatten = bytes ++ rest.flatten := by
  induction buffer, input using readFully.induct length with
  | case1 buffer input hlt hnone =>
      rw [readFully, if_pos hlt] at h
      split at h
      · cases h
      · next hsome => cases hnone.symm.trans hsome
  | case2 buffer input hlt part rest' hread ih =>
      rw [readFully, if_pos hlt] at h
      split at h
      · cases h
      · next hsome =>
        cases hread.symm.trans hsome
        rw [Wire.read_flatten hread, ← List.append_assoc]
        exact ih h
  | case3 buffer input hge =>
      rw [readFully, if_neg hge] at h
      cases h
      rfl

/-- `readFully` takes as many bytes as it was asked for. -/
theorem readFully_length {length : Nat} {bytes : List UInt8} {input rest : InputStream}
    (h : readFully length [] input = .ok (bytes, rest)) :
    input.flatten.length = length + rest.flatten.length := by
  have hflatten := readFully_flatten h
  rw [List.nil_append] at hflatten
  rw [hflatten, List.length_append, Wire.length_readFully (Nat.zero_le _) h]

/-- A packet that is read makes the input shorter. -/
theorem readPacket_length {nanoTime : Int64} {input rest : InputStream} {frame : EncodedFrame}
    (h : readPacket nanoTime input = .ok (frame, rest)) :
    rest.flatten.length < input.flatten.length := by
  unfold readPacket at h
  split at h
  · cases h
  next hheader =>
  have hlength := readFully_length hheader
  have hpos : 0 < HEADER_BYTES := by decide
  simp only at h
  split_ifs at h
  · cases h
    omega
  · split at h
    · cases h
    next hpayload =>
    have hpayload := readFully_length hpayload
    split_ifs at h
    cases h
    omega
  · split at h
    · cases h
    next hpayload =>
    have hpayload := readFully_length hpayload
    cases h
    omega

/-! ## Each step lowers the work -/

variable {s t : Session}

/-- What a step of `run` does to the work. -/
structure ReaderLess (s t : Session) : Prop where
  less : t.readerWork < s.readerWork
  closers : t.closers = s.closers

/-- `run` goes on to a point of lower rank, and leaves the rest of the input. -/
theorem ReaderLess.readerAt {u : Session} {p q : ReaderPoint} (hq : s.reader.point = q)
    (hinput : u.input = s.input) (hclosers : u.closers = s.closers)
    (hrank : readerRank p < readerRank q) : ReaderLess s (u.readerAt p) := by
  refine ⟨?_, hclosers⟩
  rw [readerWork, readerWork, hq, show (u.readerAt p).input = s.input from hinput]
  exact Nat.add_lt_add_left hrank _

/-- One step of `run` counts for more than all that it gives the others to do. -/
theorem work_lt_of_reader (h : ReaderLess s t) : t.work < s.work := by
  have hless := h.less
  have hwatchdog := watchdogRank_le t.watchdogThread
  have hdecoder := decoderRank_le t.decoderThread
  unfold work othersWork
  rw [h.closers]
  omega

theorem readerRank_le (p : ReaderPoint) : readerRank p ≤ 33 := by
  unfold readerRank closingRank
  split <;> try omega
  split <;> omega

/-- Exceptions end `run`, or lead out of its loop. -/
theorem readerThrows_less {first : Bool} {q : ReaderPoint} (hq : s.reader.point = q)
    (hrank : 10 < readerRank q) (e : IOException) : ReaderLess s (s.readerThrows first e) := by
  cases first with
  | true => exact .readerAt hq rfl rfl (Nat.zero_lt_of_lt hrank)
  | false => exact .readerAt hq rfl rfl hrank

/-- An exception leaves `run` closer to its end. -/
theorem readerDies_less {first : Bool} {q : ReaderPoint} (hq : s.reader.point = q)
    (hrank : 10 < readerRank q) : ReaderLess s (s.readerDies first) := by
  cases first with
  | true => exact .readerAt hq rfl rfl (Nat.zero_lt_of_lt hrank)
  | false =>
      refine ⟨?_, rfl⟩
      rw [readerWork, readerWork, hq]
      exact Nat.add_lt_add_left (Nat.lt_of_succ_lt hrank) _

/-- A `read` takes bytes, or it throws. -/
theorem read_less {first : Bool} {a : Answer} (hq : s.reader.point = .reading first)
    (hstep : s.read first a = some t) : ReaderLess s t := by
  have hrank : 10 < readerRank (.reading first) := by cases first <;> decide
  cases a with
  | done =>
      rw [Session.read] at hstep
      split at hstep
      · next frame input hread =>
        cases hstep
        refine ⟨?_, rfl⟩
        have hlt := readPacket_length hread
        have hnext := readerRank_le (if frame.heartbeat then .heartbeat first none
          else if frame.control then .dispatching first frame else .video first frame .count)
        unfold readerWork
        simp only [Session.readerAt]
        omega
      · split_ifs at hstep
        cases hstep
        exact readerThrows_less hq hrank _
      · cases hstep
        exact readerThrows_less hq hrank _
  | failed message =>
      cases hstep
      exact readerThrows_less hq hrank _
  | threw message =>
      cases hstep
      exact readerDies_less hq hrank
  | codec answers => cases hstep

/-- A packet is dispatched once. -/
theorem dispatch_less {first : Bool} {frame : EncodedFrame} {a : Answer}
    (hq : s.reader.point = .dispatching first frame) (hstep : s.dispatch first frame a = some t) :
    ReaderLess s t := by
  have hrank : 11 < readerRank (.dispatching first frame) := by
    cases first <;> simp [readerRank]
  cases a with
  | done =>
      rw [Session.dispatch] at hstep
      split at hstep
      · cases hstep
        exact readerThrows_less hq (Nat.lt_of_succ_lt hrank) _
      · cases hstep
        apply ReaderLess.readerAt hq rfl rfl
        cases first <;> simp [again, readerRank]
  | threw message =>
      rw [Session.dispatch] at hstep
      split at hstep
      · cases hstep
        exact readerDies_less hq (Nat.lt_of_succ_lt hrank)
      · cases hstep
  | failed message => cases hstep
  | codec answers => cases hstep

theorem offer_input (s : Session) (frame : EncodedFrame) :
    (s.offer frame).input = s.input ∧ (s.offer frame).closers = s.closers := by
  unfold Session.offer
  split_ifs
  · exact ⟨rfl, rfl⟩
  · exact ⟨rfl, rfl⟩

theorem close_input (s : Session) (c : Closing) :
    (s.close c).input = s.input ∧ (s.close c).closers = s.closers ∧
      (s.close c).watchdogThread = s.watchdogThread := by
  cases c <;> exact ⟨rfl, rfl, rfl⟩

/-- A step of `run`, once the receiver is closed. -/
theorem readerStep_less (hclosed : s.closed = true) {a : Answer}
    (hstep : s.readerStep a s.reader.point = some t) : ReaderLess s t := by
  cases hq : s.reader.point with
  | reading first =>
      rw [hq] at hstep
      exact read_less hq hstep
  | dispatching first frame =>
      rw [hq] at hstep
      exact dispatch_less hq hstep
  | heartbeat first now =>
      rw [hq] at hstep
      cases hstep
      cases now with
      | none =>
          apply ReaderLess.readerAt hq rfl rfl
          cases first <;> simp [readerRank]
      | some now =>
          refine ⟨?_, rfl⟩
          rw [readerWork, readerWork, hq]
          apply Nat.add_lt_add_left
          cases first <;> simp [Session.recordHeartbeat, Session.readerAt, again, readerRank]
  | video first frame recording =>
      rw [hq] at hstep
      cases hstep
      have hrank : readerRank (s.recordVideo first frame recording).reader.point <
          readerRank (.video first frame recording) := by
        cases recording <;> cases first <;>
          simp [Session.recordVideo, Session.readerAt, readerRank]
      refine ⟨?_, ?_⟩
      · rw [readerWork, readerWork, hq]
        cases recording <;> exact Nat.add_lt_add_left hrank _
      · cases recording <;> rfl
  | starting frame =>
      rw [hq] at hstep
      simp only [Session.readerStep] at hstep
      split at hstep
      · cases hstep
        exact .readerAt hq rfl rfl (by simp [readerRank])
      · cases hstep
        exact .readerAt hq rfl rfl (by simp [readerRank])
  | offering first frame =>
      rw [hq] at hstep
      cases hstep
      obtain ⟨hinput, hclosers⟩ := offer_input s frame
      apply ReaderLess.readerAt hq hinput hclosers
      cases first <;> simp [readerRank]
  | counting first =>
      rw [hq] at hstep
      cases hstep
      refine .readerAt hq rfl rfl ?_
      cases first <;> simp [readerRank]
  | head =>
      rw [hq, Session.readerStep, if_pos hclosed] at hstep
      cases hstep
      exact .readerAt hq rfl rfl (by simp [readerRank, closingRank])
  | checking =>
      rw [hq, Session.readerStep] at hstep
      split at hstep
      · cases hstep
        exact .readerAt hq rfl rfl (by simp [readerRank])
      · cases hstep
        exact .readerAt hq rfl rfl (by simp [readerRank])
  | caught e =>
      rw [hq] at hstep
      cases hstep
      refine ⟨?_, rfl⟩
      rw [readerWork, readerWork, hq]
      exact Nat.add_lt_add_left (by simp [readerRank, closingRank]) _
  | closing c =>
      rw [hq] at hstep
      cases hstep
      obtain ⟨hinput, hclosers, -⟩ := close_input s c
      apply ReaderLess.readerAt hq hinput hclosers
      cases c <;> simp [Closing.next, readerRank, closingRank]
  | joinWatchdog =>
      rw [hq] at hstep
      cases hstep
      apply ReaderLess.readerAt hq rfl rfl
      split_ifs <;> simp [readerRank]
  | ended result =>
      rw [hq] at hstep
      cases hstep
  | _ =>
      rw [hq] at hstep
      cases hstep
      exact .readerAt hq rfl rfl (by simp [readerRank])

/-- What a step of the decoder thread does to the work. -/
structure DecoderLess (s t : Session) : Prop where
  less : decoderRank t.decoderThread < decoderRank s.decoderThread
  reader : t.readerWork = s.readerWork
  others : t.othersWork = s.othersWork

theorem DecoderLess.decoderAt {u : Session} {p q : DecoderPoint} (hq : s.decoderThread = q)
    (hreader : u.readerWork = s.readerWork) (hothers : u.othersWork = s.othersWork)
    (hrank : decoderRank p < decoderRank q) : DecoderLess s (u.decoderAt p) :=
  ⟨hq ▸ hrank, hreader, hothers⟩

/-- A step of the decoder thread. -/
theorem work_lt_of_decoder (h : DecoderLess s t) : t.work < s.work := by
  have hless := h.less
  unfold work
  rw [h.reader, h.others]
  omega

theorem close_work (s : Session) (c : Closing) :
    (s.close c).readerWork = s.readerWork ∧ (s.close c).othersWork = s.othersWork := by
  cases c <;> exact ⟨rfl, rfl⟩

/-- Once it is closed, the queue gives out what it has and then nothing. -/
theorem take_less (hq : s.decoderThread = .taking) : DecoderLess s s.take := by
  unfold Session.take
  split
  · exact .decoderAt hq rfl rfl (by simp [decoderRank])
  · exact .decoderAt hq rfl rfl (by simp [decoderRank])
  · split_ifs
    · exact .decoderAt hq rfl rfl (by simp [decoderRank])
    · exact .decoderAt hq rfl rfl (by simp [decoderRank])

/-- A frame is submitted once. -/
theorem submit_less {frame : EncodedFrame} {a : Answer} (hq : s.decoderThread = .submitting frame)
    (hstep : s.submit frame a = some t) : DecoderLess s t := by
  cases a with
  | codec answers =>
      rw [Session.submit] at hstep
      split at hstep
      · cases hstep
        exact .decoderAt hq rfl rfl (by simp [decoderRank])
      · cases hstep
        exact .decoderAt hq rfl rfl (by simp [decoderRank])
  | threw message =>
      cases hstep
      exact .decoderAt hq rfl rfl (by simp [decoderRank])
  | done => cases hstep
  | failed message => cases hstep

/-- A step of the decoder thread, once the receiver is closed. -/
theorem decoderStep_less (hclosed : s.closed = true) {a : Answer}
    (hstep : s.decoderStep a s.decoderThread = some t) : DecoderLess s t := by
  cases hq : s.decoderThread with
  | absent =>
      rw [hq] at hstep
      cases hstep
  | ended =>
      rw [hq] at hstep
      cases hstep
  | head =>
      rw [hq, Session.decoderStep, if_pos hclosed] at hstep
      cases hstep
      exact .decoderAt hq rfl rfl (by simp [decoderRank])
  | taking =>
      rw [hq] at hstep
      cases hstep
      exact take_less hq
  | waiting notified =>
      rw [hq] at hstep
      cases a with
      | threw message =>
          simp only [Session.decoderStep] at hstep
          split_ifs at hstep
          cases hstep
          refine .decoderAt hq rfl rfl ?_
          cases notified <;> simp [decoderRank]
      | _ =>
          simp only [Session.decoderStep] at hstep
          split_ifs at hstep with hnotified
          cases hstep
          refine .decoderAt hq rfl rfl ?_
          rw [hnotified]
          simp [decoderRank]
  | decoding frame =>
      rw [hq, Session.decoderStep] at hstep
      split_ifs at hstep
      · cases hstep
        exact .decoderAt hq rfl rfl (by simp [decoderRank])
      · cases hstep
        exact .decoderAt hq rfl rfl (by simp [decoderRank])
  | stamping frame now =>
      rw [hq] at hstep
      cases hstep
      refine ⟨?_, rfl, rfl⟩
      rw [hq]
      simp [Session.decoderAt, decoderRank]
  | submitting frame =>
      rw [hq] at hstep
      exact submit_less hq hstep
  | caught x =>
      rw [hq, Session.decoderStep] at hstep
      split_ifs at hstep
      · cases hstep
        exact .decoderAt hq rfl rfl (by simp [decoderRank])
      · cases hstep
        exact .decoderAt hq rfl rfl (by simp [decoderRank, closingRank])
      · cases hstep
        exact .decoderAt hq rfl rfl (by simp [decoderRank])
  | recording x =>
      rw [hq] at hstep
      cases hstep
      refine .decoderAt hq rfl rfl ?_
      split_ifs <;> simp [decoderRank, closingRank]
  | closing c =>
      rw [hq] at hstep
      cases hstep
      obtain ⟨hreader, hothers⟩ := close_work s c
      refine .decoderAt hq hreader hothers ?_
      cases c <;> simp [Closing.next, decoderRank, closingRank]
  | _ =>
      rw [hq] at hstep
      cases hstep
      exact .decoderAt hq rfl rfl (by simp [decoderRank])

/-- What a step of the watchdog or of a call of `close` does to the work. -/
structure OthersLess (s t : Session) : Prop where
  less : t.othersWork < s.othersWork
  reader : t.readerWork = s.readerWork

/-- A step of the watchdog or of a caller of `close`. -/
theorem work_lt_of_others (h : OthersLess s t) : t.work < s.work := by
  have hless := h.less
  have hdecoder := decoderRank_le t.decoderThread
  unfold work
  rw [h.reader]
  omega

theorem OthersLess.watchdogAt {u : Session} {p q : WatchdogPoint} (hq : s.watchdogThread = q)
    (hreader : u.readerWork = s.readerWork) (hclosers : u.closers = s.closers)
    (hrank : watchdogRank p < watchdogRank q) : OthersLess s (u.watchdogAt p) := by
  refine ⟨?_, hreader⟩
  rw [othersWork, othersWork, hq, show (u.watchdogAt p).closers = s.closers from hclosers]
  exact Nat.add_lt_add_right hrank _

/-- A step of the watchdog, once the receiver is closed. -/
theorem watchdogStep_less (hclosed : s.closed = true) {a : Answer}
    (hstep : s.watchdogStep a s.watchdogThread = some t) : OthersLess s t := by
  cases hq : s.watchdogThread with
  | absent =>
      rw [hq] at hstep
      cases hstep
  | ended =>
      rw [hq] at hstep
      cases hstep
  | head =>
      rw [hq, Session.watchdogStep, if_pos hclosed] at hstep
      cases hstep
      exact .watchdogAt hq rfl rfl (by simp [watchdogRank])
  | sleeping =>
      rw [hq] at hstep
      cases a with
      | threw message =>
          simp only [Session.watchdogStep] at hstep
          split_ifs at hstep
          cases hstep
          exact .watchdogAt hq rfl rfl (by simp [watchdogRank])
      | _ =>
          cases hstep
          exact .watchdogAt hq rfl rfl (by simp [watchdogRank])
  | awake =>
      rw [hq, Session.watchdogStep, if_pos hclosed] at hstep
      cases hstep
      exact .watchdogAt hq rfl rfl (by simp [watchdogRank])
  | readVideoPackets =>
      rw [hq] at hstep
      cases hstep
      refine ⟨?_, rfl⟩
      rw [othersWork, othersWork, hq]
      exact Nat.add_lt_add_right (by simp [Session.watchdogAt, watchdogRank]) _
  | deciding snapshot =>
      rw [hq, Session.watchdogStep] at hstep
      split at hstep
      · cases hstep
        exact .watchdogAt hq rfl rfl (by simp [watchdogRank])
      · cases hstep
        exact .watchdogAt hq rfl rfl (by simp [watchdogRank])
  | failing message =>
      rw [hq] at hstep
      cases hstep
      exact .watchdogAt hq rfl rfl (by simp [watchdogRank, closingRank])
  | closing c =>
      rw [hq] at hstep
      cases hstep
      refine .watchdogAt hq (close_work s c).1 (close_input s c).2.1 ?_
      cases c <;> simp [Closing.next, watchdogRank, closingRank]
  | _ =>
      rw [hq] at hstep
      cases hstep
      exact .watchdogAt hq rfl rfl (by simp [watchdogRank])

theorem sum_set_lt {l : List CloserPoint} {i : Nat} {p q : CloserPoint} (hq : l[i]? = some q)
    (hrank : closerRank p < closerRank q) :
    ((l.set i p).map closerRank).sum < (l.map closerRank).sum := by
  induction l generalizing i with
  | nil => cases hq
  | cons r l ih =>
      cases i with
      | zero =>
          cases hq
          exact Nat.add_lt_add_right hrank _
      | succ i => exact Nat.add_lt_add_left (ih hq) _

theorem OthersLess.closerAt {u : Session} {i : Nat} {p q : CloserPoint}
    (hq : s.closers[i]? = some q) (hreader : u.readerWork = s.readerWork)
    (hwatchdog : u.watchdogThread = s.watchdogThread) (hclosers : u.closers = s.closers)
    (hrank : closerRank p < closerRank q) : OthersLess s (u.closerAt i p) := by
  refine ⟨?_, hreader⟩
  have hsum := sum_set_lt hq hrank
  simp only [othersWork, Session.closerAt, hwatchdog, hclosers]
  omega

/-- A call of `close` comes to its end. -/
theorem closerStep_less {i : Nat} {seen : Bool} {q : CloserPoint} (hq : s.closers[i]? = some q)
    (hstep : s.closerStep i seen q = some t) : OthersLess s t := by
  cases q with
  | stop =>
      cases hstep
      exact .closerAt hq rfl rfl rfl (by simp [closerRank, closingRank])
  | closing c =>
      cases hstep
      obtain ⟨-, hclosers, hwatchdog⟩ := close_input s c
      refine .closerAt hq (close_work s c).1 hwatchdog hclosers ?_
      cases c <;> simp [Closing.next, closerRank, closingRank]
  | interrupt =>
      cases hstep
      exact .closerAt hq rfl rfl rfl (by simp [closerRank])
  | returned => cases hstep

/-- Each step of the receiver's threads lowers the work, once it is closed. -/
theorem work_lt (hclosed : s.closed = true) {e : Int × Event} (hown : s.OwnStep e)
    (hstep : s.next e = some t) : t.work < s.work := by
  obtain ⟨now, event⟩ := e
  unfold Session.next at hstep
  split_ifs at hstep
  cases event with
  | reader a =>
      exact work_lt_of_reader (s := { s with clock := now }) (readerStep_less hclosed hstep)
  | decoder a =>
      exact work_lt_of_decoder (s := { s with clock := now }) (decoderStep_less hclosed hstep)
  | watchdog a =>
      exact work_lt_of_others (s := { s with clock := now }) (watchdogStep_less hclosed hstep)
  | closer i seen =>
      obtain ⟨q, hq, hstep⟩ := Option.bind_eq_some_iff.1 hstep
      exact work_lt_of_others (s := { s with clock := now }) (closerStep_less hq hstep)
  | close => cases hown
  | arrive portion => cases hown
  | hangUp => cases hown
  | spurious => cases hown

/-! ## Somebody can move -/

/-- `run` is not under way, nor is any thread or any call of `close`. -/
def Over (s : Session) : Prop :=
  (s.reader.point = .idle ∨ ∃ result, s.reader.point = .ended result) ∧
    (s.decoderThread = .absent ∨ s.decoderThread = .ended) ∧
    (s.watchdogThread = .absent ∨ s.watchdogThread = .ended) ∧
    ∀ point ∈ s.closers, point = .returned

/-- One of the receiver's own threads is about to make a step. -/
def CanStep (s : Session) : Prop := ∃ t, Moves next DueStep s t

/-- A step that comes about need only be possible at the time it is. -/
theorem canStep_of_step (event : Event) (hdue : s.DueStep (s.clock, event))
    (hstep : (s.step event).isSome = true) : s.CanStep := by
  obtain ⟨t, ht⟩ := Option.isSome_iff_exists.1 hstep
  refine ⟨t, (s.clock, event), hdue, ?_⟩
  rw [Session.next, if_neg (lt_irrefl _)]
  exact ht

/-- `closeSocket` ends a `read` that waits; nothing else that `run` does takes another thread. -/
theorem reader_canStep (hreader : ∀ result, s.reader.point ≠ .ended result)
    (hreading : s.isReading = true → s.socketClosed = true) : s.CanStep := by
  cases hq : s.reader.point with
  | reading first =>
      have hsocket : s.socketClosed = true := hreading (by rw [isReading, hq])
      apply canStep_of_step (.reader (.failed "Socket closed")) (.inr (.inr hsocket))
      rw [Session.step, hq]
      rfl
  | dispatching first frame =>
      apply canStep_of_step (.reader .done) (.inl rfl)
      rw [Session.step, hq]
      simp only [Session.readerStep, Session.dispatch]
      split <;> rfl
  | starting frame =>
      apply canStep_of_step (.reader .done) (.inl rfl)
      rw [Session.step, hq]
      simp only [Session.readerStep]
      split <;> rfl
  | checking =>
      apply canStep_of_step (.reader .done) (.inl rfl)
      rw [Session.step, hq, Session.readerStep]
      split <;> rfl
  | ended result => exact absurd hq (hreader result)
  | _ =>
      apply canStep_of_step (.reader .done) (.inl rfl)
      rw [Session.step, hq]
      rfl

/-- The decoder thread waits for nobody, unless it waits for the queue. -/
theorem decoder_canStep (halive : isAlive s.decoderThread = true)
    (hwait : s.decoderThread ≠ .waiting false) : s.CanStep := by
  cases hq : s.decoderThread with
  | absent =>
      rw [hq] at halive
      cases halive
  | ended =>
      rw [hq] at halive
      cases halive
  | waiting notified =>
      cases notified with
      | false => exact absurd hq hwait
      | true =>
          apply canStep_of_step (.decoder .done) trivial
          rw [Session.step, hq]
          rfl
  | submitting frame =>
      apply canStep_of_step (.decoder (.codec { inputIndex := .ok (-1), capacity := none })) trivial
      rw [Session.step, hq, Session.decoderStep, Session.submit]
      split <;> rfl
  | decoding frame =>
      apply canStep_of_step (.decoder .done) trivial
      rw [Session.step, hq, Session.decoderStep]
      split_ifs <;> rfl
  | caught x =>
      apply canStep_of_step (.decoder .done) trivial
      rw [Session.step, hq, Session.decoderStep]
      split_ifs <;> rfl
  | _ =>
      apply canStep_of_step (.decoder .done) trivial
      rw [Session.step, hq]
      rfl

/-- The watchdog goes on until it has ended: it is interrupted, or its sleep is over. -/
theorem watchdog_canStep (hstarted : s.watchdogThread ≠ .absent)
    (hended : s.watchdogThread ≠ .ended) : s.CanStep := by
  cases hq : s.watchdogThread with
  | absent => exact absurd hq hstarted
  | ended => exact absurd hq hended
  | deciding snapshot =>
      apply canStep_of_step (.watchdog .done) trivial
      rw [Session.step, hq, Session.watchdogStep]
      split <;> rfl
  | _ =>
      apply canStep_of_step (.watchdog .done) trivial
      rw [Session.step, hq]
      rfl

/-- A call of `close` that has not returned goes on. -/
theorem closer_canStep {p : CloserPoint} (hmem : p ∈ s.closers) (hp : p ≠ .returned) :
    s.CanStep := by
  obtain ⟨i, hi⟩ := List.mem_iff_getElem?.1 hmem
  apply canStep_of_step (.closer i true) trivial
  rw [Session.step, hi]
  cases p with
  | returned => exact absurd rfl hp
  | _ => rfl

/-- Whoever is about to close something can go on. -/
theorem at_canStep {c : Closing} (h : s.At c) : s.CanStep := by
  rcases h with hreader | hdecoder | hwatchdog | hcloser
  · exact reader_canStep (by rw [hreader]; nofun) (by rw [isReading, hreader]; nofun)
  · exact decoder_canStep (by rw [hdecoder]; rfl) (by rw [hdecoder]; nofun)
  · exact watchdog_canStep (by rw [hwatchdog]; nofun) (by rw [hwatchdog]; nofun)
  · exact closer_canStep hcloser nofun

/-- A closed receiver that is not over can go on. -/
theorem canStep (hinv : s.Inv) (hclosed : s.closed = true) (hover : ¬s.Over) : s.CanStep := by
  by_contra hstuck
  -- nobody is about to close anything, so that all is closed
  have hsocket : s.socketClosed = true := by
    rcases hinv.closing hclosed with hsocket | ⟨c, hat⟩
    · exact hsocket
    · exact absurd (at_canStep hat) hstuck
  apply hover
  refine ⟨?_, ?_, ?_, fun point hpoint ↦ ?_⟩
  · by_contra hreader
    rw [not_or, not_exists] at hreader
    exact hstuck (reader_canStep hreader.2 fun _ ↦ hsocket)
  · by_contra hdecoder
    rw [not_or] at hdecoder
    have halive : isAlive s.decoderThread = true := by
      cases hq : s.decoderThread with
      | absent => exact absurd hq hdecoder.1
      | ended => exact absurd hq hdecoder.2
      | _ => rfl
    refine hstuck (decoder_canStep halive fun hwait ↦ ?_)
    have hopen := hinv.decoder
    rw [hwait] at hopen
    cases (hinv.queueFirst hsocket).symm.trans hopen
  · by_contra hwatchdog
    rw [not_or] at hwatchdog
    exact hstuck (watchdog_canStep hwatchdog.1 hwatchdog.2)
  · by_contra hreturned
    exact hstuck (closer_canStep hpoint hreturned)

/-- **A closed receiver ends.**  Once `closed` is set, whoever has set it, `run`, the decoder
thread, the watchdog and the calls of `close` under way all come to their end, even if a `read`
that waits fails only because the socket is closed. -/
theorem closed_receiver_ends {info : ConnectionInfo} {clock : Int}
    (h : Run (Session.new info clock) s) (hclosed : s.closed = true) :
    Settles (Moves next OwnStep) (Moves next DueStep) Over s := by
  by_cases hover : s.Over
  · exact .here hover
  apply Settles.of_measure (I := fun s ↦ Inv s ∧ s.closed = true ∧ ¬s.Over) work ?_
    ⟨Inv.run h, hclosed, hover⟩
  rintro s ⟨hinv, hclosed, hover⟩
  refine ⟨canStep hinv hclosed hover, ?_⟩
  rintro t ⟨e, hown, hstep⟩
  by_cases hdone : t.Over
  · exact .inl hdone
  · right
    exact ⟨⟨hinv.next hstep, (grows_next hstep).closed hclosed, hdone⟩,
      work_lt hclosed hown hstep⟩

/-- Here `close` has set the flag while `run` waits for its first packet. -/
theorem closed_receiver_ends_stop : ∃ s, Run (Session.new listening.info 0) s ∧
    s.closed = true ∧ s.isReading = true ∧ s.input = [] ∧ s.socketClosed = false ∧
    Settles (Moves next OwnStep) (Moves next DueStep) Over s := by
  obtain ⟨s, hrun, hclosed, hquiet⟩ :=
    show ∃ s, Run (Session.new listening.info 0) s ∧ s.closed = true ∧ s.isReading = true ∧
        s.input = [] ∧ s.socketClosed = false from
      exists_run [(1, .reader .done), (1, .close), (1, .closer 0 true), (1, .closer 0 true)]
        (by decide)
  exact ⟨s, hrun, hclosed, hquiet.1, hquiet.2.1, hquiet.2.2, closed_receiver_ends hrun hclosed⟩

end Session

end SecondScreen.Client.Receiving
