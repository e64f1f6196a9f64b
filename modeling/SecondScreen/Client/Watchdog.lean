import SecondScreen.Client.ReceiverShutdown

/-!
# The watchdog

What the watchdog reads of the statistics need not belong together: `run` and the decoder thread
go on while it reads one field after the other.  Each value that it reads was the last one at some
time since it began, so that it is at least as new as what had been recorded then, and was
recorded before it decides.
-/

namespace SecondScreen.Client.Receiving

open SecondScreen.Conc Relation

namespace Session

variable {s t : Session}

/-! ## The invariant -/

/-- The times are those of the clock, the last one first, and the field holds the last one. -/
structure Recorded (clock : Int) (times : List Int) (last : Int) : Prop where
  last : last = times.head?.getD 0
  sorted : times.Pairwise (· ≥ ·)
  range : ∀ t ∈ times, 0 < t ∧ t ≤ clock

/-- A time that was read and comes next. -/
structure Ready (clock : Int) (times : List Int) (now : Int) : Prop where
  positive : 0 < now
  le : now ≤ clock
  newest : ∀ t ∈ times, t ≤ now

/-- The field as it was at some time since `old` had been recorded. -/
def Between (old times : List Int) (value : Int) : Prop :=
  ∃ l, old.IsSuffix l ∧ l.IsSuffix times ∧ value = l.head?.getD 0

def readerTime : ReaderPoint → Option Int
  | .heartbeat _ (some now) | .video _ _ (.packetStamp now) | .video _ _ (.frameStamp now) =>
      some now
  | _ => none

def decoderTime : DecoderPoint → Option Int
  | .stamping _ now => some now
  | _ => none

/-- What the watchdog has read of the statistics. -/
def Read (s : Session) : WatchdogPoint → Prop
  | .readLastFrame snapshot =>
      Between s.passTimes.packets s.times.packets snapshot.lastPacketReceivedNanos
  | .readLastActivity snapshot =>
      Between s.passTimes.packets s.times.packets snapshot.lastPacketReceivedNanos ∧
        Between s.passTimes.frames s.times.frames snapshot.lastFrameReceivedNanos
  | .deciding snapshot =>
      Between s.passTimes.packets s.times.packets snapshot.lastPacketReceivedNanos ∧
        Between s.passTimes.frames s.times.frames snapshot.lastFrameReceivedNanos ∧
        Between s.passTimes.activity s.times.activity snapshot.lastDecoderActivityNanos
  | _ => True

structure Timely (s : Session) : Prop where
  positive : 0 < s.clock
  packets : Recorded s.clock s.times.packets s.stats.lastPacketReceivedNanos
  frames : Recorded s.clock s.times.frames s.stats.lastFrameReceivedNanos
  activity : Recorded s.clock s.times.activity s.stats.lastDecoderActivityNanos
  reader : ∀ now, readerTime s.reader.point = some now →
    Ready s.clock s.times.packets now ∧ Ready s.clock s.times.frames now
  decoder : ∀ now, decoderTime s.decoderThread = some now → Ready s.clock s.times.activity now
  passPackets : s.passTimes.packets.IsSuffix s.times.packets
  passFrames : s.passTimes.frames.IsSuffix s.times.frames
  passActivity : s.passTimes.activity.IsSuffix s.times.activity
  read : s.Read s.watchdogThread

/-- One more time is recorded. -/
theorem Recorded.cons {clock : Int} {times : List Int} {last now : Int}
    (h : Recorded clock times last) (hnow : Ready clock times now) :
    Recorded clock (now :: times) now where
  last := rfl
  sorted := List.pairwise_cons.2 ⟨hnow.newest, h.sorted⟩
  range := by
    intro t ht
    rcases List.mem_cons.1 ht with rfl | ht
    · exact ⟨hnow.positive, hnow.le⟩
    · exact h.range t ht

/-- Time goes on. -/
theorem Recorded.clock {clock clock' : Int} {times : List Int} {last : Int}
    (h : Recorded clock times last) (hle : clock ≤ clock') : Recorded clock' times last :=
  ⟨h.last, h.sorted, fun t ht ↦ (h.range t ht).imp_right fun ht ↦ ht.trans hle⟩

/-- The clock itself is a time that comes next. -/
theorem Recorded.ready {clock : Int} {times : List Int} {last : Int}
    (h : Recorded clock times last) (hpos : 0 < clock) : Ready clock times clock :=
  ⟨hpos, le_rfl, fun t ht ↦ (h.range t ht).2⟩

theorem Ready.clock {clock clock' : Int} {times : List Int} {now : Int}
    (h : Ready clock times now) (hle : clock ≤ clock') : Ready clock' times now :=
  ⟨h.positive, h.le.trans hle, h.newest⟩

/-- A time may be recorded in two lists. -/
theorem Ready.cons {clock : Int} {times : List Int} {now : Int} (h : Ready clock times now) :
    Ready clock (now :: times) now where
  positive := h.positive
  le := h.le
  newest := by
    intro t ht
    rcases List.mem_cons.1 ht with rfl | ht
    · exact le_rfl
    · exact h.newest t ht

/-- What was read stays between what was recorded then and what is recorded now. -/
theorem Between.mono {old times times' : List Int} {value : Int} (h : Between old times value)
    (htimes : times.IsSuffix times') : Between old times' value := by
  obtain ⟨l, hold, hl, hvalue⟩ := h
  exact ⟨l, hold, hl.trans htimes, hvalue⟩

/-- What is read now. -/
theorem Recorded.between {clock : Int} {old times : List Int} {last : Int}
    (h : Recorded clock times last) (hold : old.IsSuffix times) : Between old times last :=
  ⟨times, hold, List.suffix_refl times, h.last⟩

/-! ## Steps that record nothing -/

/-- A step that neither records nor reads a time. -/
structure Quiet (s t : Session) : Prop where
  data : (t.stats.lastPacketReceivedNanos, t.stats.lastFrameReceivedNanos,
      t.stats.lastDecoderActivityNanos, t.times, t.passTimes, t.clock) =
    (s.stats.lastPacketReceivedNanos, s.stats.lastFrameReceivedNanos,
      s.stats.lastDecoderActivityNanos, s.times, s.passTimes, s.clock)
  reader : readerTime t.reader.point = none ∨ t.reader.point = s.reader.point
  decoder : decoderTime t.decoderThread = none ∨ t.decoderThread = s.decoderThread
  watchdog : (∀ u, Read u t.watchdogThread) ∨ t.watchdogThread = s.watchdogThread

/-- What has been read stays valid when more is recorded. -/
theorem Read.mono {p : WatchdogPoint} (h : s.Read p) (hpass : t.passTimes = s.passTimes)
    (hpackets : s.times.packets.IsSuffix t.times.packets)
    (hframes : s.times.frames.IsSuffix t.times.frames)
    (hactivity : s.times.activity.IsSuffix t.times.activity) : t.Read p := by
  cases p with
  | readLastFrame snapshot =>
      rw [Read, hpass]
      exact Between.mono h hpackets
  | readLastActivity snapshot =>
      rw [Read, hpass]
      exact ⟨Between.mono h.1 hpackets, Between.mono h.2 hframes⟩
  | deciding snapshot =>
      rw [Read, hpass]
      exact ⟨Between.mono h.1 hpackets, Between.mono h.2.1 hframes,
        Between.mono h.2.2 hactivity⟩
  | _ => trivial

/-- A step that neither records nor reads keeps the invariant. -/
theorem Timely.quiet (h : s.Timely) (hquiet : Quiet s t) : t.Timely := by
  obtain ⟨hdata, hreader, hdecoder, hwatchdog⟩ := hquiet
  simp only [Prod.mk.injEq] at hdata
  obtain ⟨hpacket, hframe, hactivity, htimes, hpass, hclock⟩ := hdata
  constructor
  · rw [hclock]
    exact h.positive
  · rw [hclock, htimes, hpacket]
    exact h.packets
  · rw [hclock, htimes, hframe]
    exact h.frames
  · rw [hclock, htimes, hactivity]
    exact h.activity
  · intro now hnow
    rw [hclock, htimes]
    rcases hreader with hnone | hsame
    · cases hnone.symm.trans hnow
    · exact h.reader now (hsame ▸ hnow)
  · intro now hnow
    rw [hclock, htimes]
    rcases hdecoder with hnone | hsame
    · cases hnone.symm.trans hnow
    · exact h.decoder now (hsame ▸ hnow)
  · rw [htimes, hpass]
    exact h.passPackets
  · rw [htimes, hpass]
    exact h.passFrames
  · rw [htimes, hpass]
    exact h.passActivity
  · rcases hwatchdog with hread | hsame
    · exact hread t
    · rw [hsame]
      exact h.read.mono hpass (htimes ▸ List.suffix_refl _) (htimes ▸ List.suffix_refl _)
        (htimes ▸ List.suffix_refl _)

/-- An exception records no time. -/
theorem quiet_readerThrows (s : Session) (first : Bool) (e : IOException) :
    Quiet s (s.readerThrows first e) := by
  refine ⟨rfl, .inl ?_, .inr rfl, .inr rfl⟩
  cases first <;> rfl

theorem quiet_readerDies (s : Session) (first : Bool) : Quiet s (s.readerDies first) := by
  cases first with
  | true => exact ⟨rfl, .inl rfl, .inr rfl, .inr rfl⟩
  | false => exact ⟨rfl, .inl rfl, .inr rfl, .inr rfl⟩

theorem readerTime_again (first : Bool) : readerTime (again first) = none := by
  cases first <;> rfl

/-- A `read` records no time; that of a packet is taken when all of it has come. -/
theorem quiet_read {first : Bool} {a : Answer} (hstep : s.read first a = some t) :
    Quiet s t := by
  cases a with
  | done =>
      rw [Session.read] at hstep
      split at hstep
      · cases hstep
        refine ⟨rfl, .inl ?_, .inr rfl, .inr rfl⟩
        rw [Session.readerAt]
        split_ifs <;> rfl
      · split_ifs at hstep
        cases hstep
        exact quiet_readerThrows s first _
      · cases hstep
        exact quiet_readerThrows s first _
  | failed message =>
      cases hstep
      exact quiet_readerThrows s first _
  | threw message =>
      cases hstep
      exact quiet_readerDies s first
  | codec answers => cases hstep

/-- Nor does dispatching the packet. -/
theorem quiet_dispatch {first : Bool} {frame : EncodedFrame} {a : Answer}
    (hstep : s.dispatch first frame a = some t) : Quiet s t := by
  cases a with
  | done =>
      rw [Session.dispatch] at hstep
      split at hstep
      · cases hstep
        exact quiet_readerThrows s first _
      · cases hstep
        exact ⟨rfl, .inl (readerTime_again first), .inr rfl, .inr rfl⟩
  | threw message =>
      rw [Session.dispatch] at hstep
      split at hstep
      · cases hstep
        exact quiet_readerDies s first
      · cases hstep
  | failed message => cases hstep
  | codec answers => cases hstep

/-- A thread that is notified has no time yet. -/
theorem decoderTime_notify (p : DecoderPoint) :
    decoderTime p.notify = none ∨ p.notify = p := by
  cases p with
  | waiting notified => exact .inl rfl
  | _ => exact .inr rfl

theorem quiet_offer (s : Session) (frame : EncodedFrame) : Quiet s (s.offer frame) := by
  unfold Session.offer
  split_ifs
  · exact ⟨rfl, .inr rfl, .inr rfl, .inr rfl⟩
  · exact ⟨rfl, .inr rfl, decoderTime_notify s.decoderThread, .inr rfl⟩

theorem quiet_close (s : Session) (c : Closing) : Quiet s (s.close c) := by
  cases c with
  | flag => exact ⟨rfl, .inr rfl, .inr rfl, .inr rfl⟩
  | queue => exact ⟨rfl, .inr rfl, decoderTime_notify s.decoderThread, .inr rfl⟩
  | socket => exact ⟨rfl, .inr rfl, .inr rfl, .inr rfl⟩

/-! ## Steps that record -/

/-- A heartbeat is a packet, and is recorded with the time at which it came. -/
theorem Timely.recordHeartbeat (h : s.Timely) {first : Bool} {now : Option Int}
    (hq : s.reader.point = .heartbeat first now) : (s.recordHeartbeat first now).Timely := by
  cases now with
  | none =>
      refine { h with reader := ?_ }
      rintro now ⟨⟩
      exact ⟨h.packets.ready h.positive, h.frames.ready h.positive⟩
  | some now =>
      have hready := h.reader now (by rw [hq]; rfl)
      have hsuffix := List.suffix_cons now s.times.packets
      exact {
        positive := h.positive
        packets := h.packets.cons hready.1
        frames := h.frames
        activity := h.activity
        reader := fun now hnow ↦ absurd ((readerTime_again first).symm.trans hnow) nofun
        decoder := h.decoder
        passPackets := h.passPackets.trans hsuffix
        passFrames := h.passFrames
        passActivity := h.passActivity
        read := h.read.mono rfl hsuffix (List.suffix_refl _) (List.suffix_refl _) }

/-- A frame is recorded as a packet and as a frame, with one time for both. -/
theorem Timely.recordVideo (h : s.Timely) {first : Bool} {frame : EncodedFrame}
    {recording : Recording} (hq : s.reader.point = .video first frame recording) :
    (s.recordVideo first frame recording).Timely := by
  cases recording with
  | count => exact h.quiet ⟨rfl, .inl rfl, .inr rfl, .inr rfl⟩
  | readClock =>
      refine { h with reader := ?_ }
      rintro now ⟨⟩
      exact ⟨h.packets.ready h.positive, h.frames.ready h.positive⟩
  | packetStamp now =>
      have hready := h.reader now (by rw [hq]; rfl)
      have hsuffix := List.suffix_cons now s.times.packets
      exact {
        positive := h.positive
        packets := h.packets.cons hready.1
        frames := h.frames
        activity := h.activity
        reader := by
          rintro now ⟨⟩
          exact ⟨hready.1.cons, hready.2⟩
        decoder := h.decoder
        passPackets := h.passPackets.trans hsuffix
        passFrames := h.passFrames
        passActivity := h.passActivity
        read := h.read.mono rfl hsuffix (List.suffix_refl _) (List.suffix_refl _) }
  | frameStamp now =>
      have hready := h.reader now (by rw [hq]; rfl)
      have hsuffix := List.suffix_cons now s.times.frames
      exact {
        positive := h.positive
        packets := h.packets
        frames := h.frames.cons hready.2
        activity := h.activity
        reader := by
          intro now hnow
          cases first <;> cases hnow
        decoder := h.decoder
        passPackets := h.passPackets
        passFrames := h.passFrames.trans hsuffix
        passActivity := h.passActivity
        read := h.read.mono rfl (List.suffix_refl _) hsuffix (List.suffix_refl _) }

/-- `run` keeps the times. -/
theorem Timely.readerStep (h : s.Timely) {a : Answer}
    (hstep : s.readerStep a s.reader.point = some t) : t.Timely := by
  cases hq : s.reader.point with
  | reading first =>
      rw [hq] at hstep
      exact h.quiet (quiet_read hstep)
  | dispatching first frame =>
      rw [hq] at hstep
      exact h.quiet (quiet_dispatch hstep)
  | heartbeat first now =>
      rw [hq] at hstep
      cases hstep
      exact h.recordHeartbeat hq
  | video first frame recording =>
      rw [hq] at hstep
      cases hstep
      exact h.recordVideo hq
  | starting frame =>
      rw [hq] at hstep
      simp only [Session.readerStep] at hstep
      split at hstep
      · cases hstep
        exact h.quiet ⟨rfl, .inl rfl, .inr rfl, .inr rfl⟩
      · cases hstep
        exact h.quiet ⟨rfl, .inl rfl, .inr rfl, .inr rfl⟩
  | startingThread frame =>
      rw [hq] at hstep
      cases hstep
      exact h.quiet ⟨rfl, .inl rfl, .inl rfl, .inr rfl⟩
  | offering first frame =>
      rw [hq] at hstep
      cases hstep
      obtain ⟨hdata, -, hdecoder, hwatchdog⟩ := quiet_offer s frame
      exact h.quiet ⟨hdata, .inl rfl, hdecoder, hwatchdog⟩
  | counting first =>
      rw [hq] at hstep
      cases hstep
      refine h.quiet ⟨rfl, .inl ?_, .inr rfl, .inr rfl⟩
      cases first <;> rfl
  | startingWatchdog =>
      rw [hq] at hstep
      cases hstep
      exact h.quiet ⟨rfl, .inl rfl, .inr rfl, .inl fun _ ↦ trivial⟩
  | head =>
      rw [hq] at hstep
      cases hstep
      refine h.quiet ⟨rfl, .inl ?_, .inr rfl, .inr rfl⟩
      rw [Session.readerAt]
      split_ifs <;> rfl
  | checking =>
      rw [hq, Session.readerStep] at hstep
      split at hstep
      · cases hstep
        exact h.quiet ⟨rfl, .inl rfl, .inr rfl, .inr rfl⟩
      · cases hstep
        exact h.quiet ⟨rfl, .inl rfl, .inr rfl, .inr rfl⟩
  | closing c =>
      rw [hq] at hstep
      cases hstep
      obtain ⟨hdata, -, hdecoder, hwatchdog⟩ := quiet_close s c
      refine h.quiet ⟨hdata, .inl ?_, hdecoder, hwatchdog⟩
      cases c <;> rfl
  | joinWatchdog =>
      rw [hq] at hstep
      cases hstep
      refine h.quiet ⟨rfl, .inl ?_, .inr rfl, .inr rfl⟩
      rw [Session.readerAt]
      split_ifs <;> rfl
  | ended result =>
      rw [hq] at hstep
      cases hstep
  | _ =>
      rw [hq] at hstep
      cases hstep
      exact h.quiet ⟨rfl, .inl rfl, .inr rfl, .inr rfl⟩

theorem quiet_take (s : Session) : Quiet s s.take := by
  unfold Session.take
  split
  · exact ⟨rfl, .inr rfl, .inl rfl, .inr rfl⟩
  · exact ⟨rfl, .inr rfl, .inl rfl, .inr rfl⟩
  · split_ifs
    · exact ⟨rfl, .inr rfl, .inl rfl, .inr rfl⟩
    · exact ⟨rfl, .inr rfl, .inl rfl, .inr rfl⟩

/-- Nor does `decode`; the time of the activity is taken after it. -/
theorem quiet_submit {frame : EncodedFrame} {a : Answer} (hstep : s.submit frame a = some t) :
    Quiet s t := by
  cases a with
  | codec answers =>
      rw [Session.submit] at hstep
      split at hstep
      · cases hstep
        exact ⟨rfl, .inr rfl, .inl rfl, .inr rfl⟩
      · cases hstep
        exact ⟨rfl, .inr rfl, .inl rfl, .inr rfl⟩
  | threw message =>
      cases hstep
      exact ⟨rfl, .inr rfl, .inl rfl, .inr rfl⟩
  | done => cases hstep
  | failed message => cases hstep

/-- The decoder thread keeps the times. -/
theorem Timely.decoderStep (h : s.Timely) {a : Answer}
    (hstep : s.decoderStep a s.decoderThread = some t) : t.Timely := by
  cases hq : s.decoderThread with
  | absent =>
      rw [hq] at hstep
      cases hstep
  | ended =>
      rw [hq] at hstep
      cases hstep
  | head =>
      rw [hq] at hstep
      cases hstep
      refine h.quiet ⟨rfl, .inr rfl, .inl ?_, .inr rfl⟩
      rw [Session.decoderAt]
      split_ifs <;> rfl
  | taking =>
      rw [hq] at hstep
      cases hstep
      exact h.quiet (quiet_take s)
  | waiting notified =>
      rw [hq] at hstep
      cases a with
      | _ =>
          simp only [Session.decoderStep] at hstep
          split_ifs at hstep
          cases hstep
          exact h.quiet ⟨rfl, .inr rfl, .inl rfl, .inr rfl⟩
  | decoding frame =>
      rw [hq, Session.decoderStep] at hstep
      split_ifs at hstep
      · cases hstep
        refine { h with decoder := ?_ }
        rintro now ⟨⟩
        exact h.activity.ready h.positive
      · cases hstep
        exact h.quiet ⟨rfl, .inr rfl, .inl rfl, .inr rfl⟩
  | stamping frame now =>
      rw [hq] at hstep
      cases hstep
      have hready := h.decoder now (by rw [hq]; rfl)
      have hsuffix := List.suffix_cons now s.times.activity
      exact {
        positive := h.positive
        packets := h.packets
        frames := h.frames
        activity := h.activity.cons hready
        reader := h.reader
        decoder := by rintro _ ⟨⟩
        passPackets := h.passPackets
        passFrames := h.passFrames
        passActivity := h.passActivity.trans hsuffix
        read := h.read.mono rfl (List.suffix_refl _) (List.suffix_refl _) hsuffix }
  | submitting frame =>
      rw [hq] at hstep
      exact h.quiet (quiet_submit hstep)
  | caught x =>
      rw [hq, Session.decoderStep] at hstep
      split_ifs at hstep
      · cases hstep
        exact h.quiet ⟨rfl, .inr rfl, .inl rfl, .inr rfl⟩
      · cases hstep
        exact h.quiet ⟨rfl, .inr rfl, .inl rfl, .inr rfl⟩
      · cases hstep
        exact h.quiet ⟨rfl, .inr rfl, .inl rfl, .inr rfl⟩
  | recording x =>
      rw [hq] at hstep
      cases hstep
      refine h.quiet ⟨rfl, .inr rfl, .inl ?_, .inr rfl⟩
      rw [Session.decoderAt]
      split_ifs <;> rfl
  | closing c =>
      rw [hq] at hstep
      cases hstep
      obtain ⟨hdata, hreader, -, hwatchdog⟩ := quiet_close s c
      refine h.quiet ⟨hdata, hreader, .inl ?_, hwatchdog⟩
      cases c <;> rfl
  | releasing =>
      rw [hq] at hstep
      cases hstep
      exact h.quiet ⟨rfl, .inr rfl, .inl rfl, .inr rfl⟩

/-- The watchdog reads what is recorded. -/
theorem Timely.watchdogStep (h : s.Timely) {a : Answer}
    (hstep : s.watchdogStep a s.watchdogThread = some t) : t.Timely := by
  have hread := h.read
  cases hq : s.watchdogThread with
  | absent =>
      rw [hq] at hstep
      cases hstep
  | ended =>
      rw [hq] at hstep
      cases hstep
  | head =>
      rw [hq] at hstep
      cases hstep
      refine h.quiet ⟨rfl, .inr rfl, .inr rfl, .inl fun u ↦ ?_⟩
      rw [Session.watchdogAt]
      split_ifs <;> trivial
  | sleeping =>
      rw [hq] at hstep
      cases a with
      | threw message =>
          simp only [Session.watchdogStep] at hstep
          split_ifs at hstep
          cases hstep
          exact h.quiet ⟨rfl, .inr rfl, .inr rfl, .inl fun _ ↦ trivial⟩
      | _ =>
          cases hstep
          exact h.quiet ⟨rfl, .inr rfl, .inr rfl, .inl fun _ ↦ trivial⟩
  | awake =>
      rw [hq] at hstep
      cases hstep
      refine h.quiet ⟨rfl, .inr rfl, .inr rfl, .inl fun u ↦ ?_⟩
      rw [Session.watchdogAt]
      split_ifs <;> trivial
  | readVideoPackets =>
      rw [hq] at hstep
      cases hstep
      exact { h with
        passPackets := List.suffix_refl _
        passFrames := List.suffix_refl _
        passActivity := List.suffix_refl _
        read := trivial }
  | readLastPacket snapshot =>
      rw [hq] at hstep
      cases hstep
      exact { h with read := h.packets.between h.passPackets }
  | readLastFrame snapshot =>
      rw [hq] at hstep hread
      cases hstep
      exact { h with read := ⟨hread, h.frames.between h.passFrames⟩ }
  | readLastActivity snapshot =>
      rw [hq] at hstep hread
      cases hstep
      exact { h with read := ⟨hread.1, hread.2, h.activity.between h.passActivity⟩ }
  | deciding snapshot =>
      rw [hq, Session.watchdogStep] at hstep
      split at hstep
      · cases hstep
        exact h.quiet ⟨rfl, .inr rfl, .inr rfl, .inl fun _ ↦ trivial⟩
      · cases hstep
        exact h.quiet ⟨rfl, .inr rfl, .inr rfl, .inl fun _ ↦ trivial⟩
  | failing message =>
      rw [hq] at hstep
      cases hstep
      exact h.quiet ⟨rfl, .inr rfl, .inr rfl, .inl fun _ ↦ trivial⟩
  | closing c =>
      rw [hq] at hstep
      cases hstep
      obtain ⟨hdata, hreader, hdecoder, -⟩ := quiet_close s c
      refine h.quiet ⟨hdata, hreader, hdecoder, .inl fun u ↦ ?_⟩
      cases c <;> trivial

theorem quiet_closerStep {i : Nat} {seen : Bool} {p : CloserPoint}
    (hstep : s.closerStep i seen p = some t) : Quiet s t := by
  cases p with
  | closing c =>
      cases hstep
      obtain ⟨hdata, hreader, hdecoder, hwatchdog⟩ := quiet_close s c
      exact ⟨hdata, hreader, hdecoder, hwatchdog⟩
  | returned => cases hstep
  | _ =>
      cases hstep
      exact ⟨rfl, .inr rfl, .inr rfl, .inr rfl⟩

/-- Time goes by. -/
theorem Timely.clock (h : s.Timely) {now : Int} (hle : s.clock ≤ now) :
    Timely { s with clock := now } where
  positive := lt_of_lt_of_le h.positive hle
  packets := h.packets.clock hle
  frames := h.frames.clock hle
  activity := h.activity.clock hle
  reader t ht := (h.reader t ht).imp (fun h ↦ h.clock hle) fun h ↦ h.clock hle
  decoder t ht := (h.decoder t ht).clock hle
  passPackets := h.passPackets
  passFrames := h.passFrames
  passActivity := h.passActivity
  read := h.read

/-- Every step keeps the invariant. -/
theorem Timely.next (h : s.Timely) {e : Int × Event} (hstep : s.next e = some t) : t.Timely := by
  obtain ⟨now, event⟩ := e
  unfold Session.next at hstep
  split_ifs at hstep with hlt
  have hclock := h.clock (not_lt.1 hlt)
  cases event with
  | reader a => exact hclock.readerStep hstep
  | decoder a => exact hclock.decoderStep hstep
  | watchdog a => exact hclock.watchdogStep hstep
  | closer i seen =>
      obtain ⟨q, -, hstep⟩ := Option.bind_eq_some_iff.1 hstep
      exact hclock.quiet (quiet_closerStep hstep)
  | close =>
      cases hstep
      exact hclock.quiet ⟨rfl, .inr rfl, .inr rfl, .inr rfl⟩
  | arrive portion =>
      simp only [Session.step] at hstep
      split_ifs at hstep
      cases hstep
      exact hclock.quiet ⟨rfl, .inr rfl, .inr rfl, .inr rfl⟩
  | hangUp =>
      cases hstep
      exact hclock.quiet ⟨rfl, .inr rfl, .inr rfl, .inr rfl⟩
  | spurious =>
      simp only [Session.step] at hstep
      split at hstep
      · cases hstep
        exact hclock.quiet ⟨rfl, .inr rfl, .inl rfl, .inr rfl⟩
      · cases hstep

theorem Timely.new (info : ConnectionInfo) {clock : Int} (hclock : 0 < clock) :
    (Session.new info clock).Timely where
  positive := hclock
  packets := ⟨rfl, .nil, nofun⟩
  frames := ⟨rfl, .nil, nofun⟩
  activity := ⟨rfl, .nil, nofun⟩
  reader := nofun
  decoder := nofun
  passPackets := List.suffix_refl _
  passFrames := List.suffix_refl _
  passActivity := List.suffix_refl _
  read := trivial

/-- It holds in every run. -/
theorem Timely.run {info : ConnectionInfo} {clock : Int} (hclock : 0 < clock)
    (h : Run (Session.new info clock) s) : s.Timely :=
  run_preserves (fun h ⟨_, _, hnext⟩ ↦ h.next hnext) (.new info hclock) h

/-! ## What the watchdog says -/

/-- All that was recorded is older than the watchdog allows. -/
def Stale (times : List Int) (now : Int) : Prop :=
  ∀ t ∈ times, now - t > STALL_TIMEOUT_NANOS

/-- If what was read is too old, so is all that had been recorded when the watchdog began. -/
theorem Between.stale {clock now last : Int} {old times : List Int} {value : Int}
    (h : Between old times value) (hrecorded : Recorded clock times last)
    (hvalue : value = 0 ∨ now - value > STALL_TIMEOUT_NANOS) : Stale old now := by
  intro t ht
  obtain ⟨l, hold, hl, rfl⟩ := h
  have htl := hold.subset ht
  cases l with
  | nil => cases htl
  | cons head rest =>
      have hhead := (hrecorded.range head (hl.subset List.mem_cons_self)).1
      have hle : t ≤ head := by
        rcases List.mem_cons.1 htl with rfl | hrest
        · exact le_rfl
        · exact (List.pairwise_cons.1 (hrecorded.sorted.sublist hl.sublist)).1 t hrest
      simp only [List.head?_cons, Option.getD_some] at hvalue
      omega

end Session

end SecondScreen.Client.Receiving
