import Mathlib.Data.Nat.Bitwise
import SecondScreen.Client.StreamReceiver
import SecondScreen.Wire.Framing

/-!
# From the writer to the receiver

What the two threads of the host write, the client reads: the same packets in the
order in which the calls took the mutex, however `send` and `read` divide the
bytes.
-/

namespace SecondScreen.Wire

open SecondScreen.Conc SecondScreen.Conc.System SecondScreen.Machine SecondScreen.Client

/-! ## Reading in portions -/

/-- A read hands out what comes first. -/
theorem read_flatten {length : Nat} {input rest : InputStream} {bytes : List UInt8}
    (h : input.read length = some (bytes, rest)) : input.flatten = bytes ++ rest.flatten := by
  cases input with
  | nil => cases h
  | cons portion input =>
      rw [InputStream.read] at h
      split at h
      · cases h
        rfl
      · cases h
        rw [List.flatten_cons, List.flatten_cons, ← List.append_assoc, List.take_append_drop]

/-- `readFully` takes as many bytes as it is asked for, whatever the portions. -/
theorem readFully_eq {length : Nat} {buffer bytes more : List UInt8} {input : InputStream}
    (hinput : input.flatten = bytes ++ more) (hlength : buffer.length + bytes.length = length) :
    ∃ rest, readFully length buffer input = .ok (buffer ++ bytes, rest) ∧ rest.flatten = more := by
  induction buffer, input using readFully.induct length generalizing bytes with
  | case1 buffer input hlt hnone =>
      cases input with
      | nil =>
          have hnil := List.nil_eq_append_iff.1 hinput
          simp only [hnil.1, List.length_nil] at hlength
          omega
      | cons portion input =>
          rw [InputStream.read] at hnone
          split at hnone <;> cases hnone
  | case2 buffer input hlt part rest hread ih =>
      have hle := (InputStream.read_decreasing hread).1
      have hsplit : part ++ rest.flatten = bytes ++ more :=
        (read_flatten hread).symm.trans hinput
      obtain ⟨tail, rfl, hrest⟩ : ∃ tail, bytes = part ++ tail ∧ rest.flatten = tail ++ more := by
        rcases List.append_eq_append_iff.1 hsplit with ⟨tail, hb, hr⟩ | ⟨tail, hp, hm⟩
        · exact ⟨tail, hb, hr⟩
        · have hnil : tail = [] := by
            have hlen := congrArg List.length hp
            rw [List.length_append] at hlen
            exact List.length_eq_zero_iff.1 (by omega)
          subst hnil
          exact ⟨[], by simpa using hp.symm, by simpa using hm.symm⟩
      obtain ⟨final, hfinal, hmore⟩ := ih hrest (by simp at hlength ⊢; omega)
      refine ⟨final, ?_, hmore⟩
      rw [readFully, if_pos hlt]
      split
      · next hnone => cases hread.symm.trans hnone
      · next hsome =>
        cases hread.symm.trans hsome
        rw [hfinal, List.append_assoc]
  | case3 buffer input hge =>
      have hnil : bytes = [] := List.length_eq_zero_iff.1 (by omega)
      subst hnil
      refine ⟨input, ?_, hinput⟩
      rw [readFully, if_neg hge, List.append_nil]

/-- `readFully` from the beginning. -/
theorem readFully_nil {bytes more : List UInt8} {input : InputStream}
    (hinput : input.flatten = bytes ++ more) :
    ∃ rest, readFully bytes.length [] input = .ok (bytes, rest) ∧ rest.flatten = more :=
  readFully_eq hinput (Nat.zero_add _)

/-! ## The header -/

@[simp] theorem length_writeLe32 (v : UInt32) : (writeLe32 v).length = 4 := length_leBytes 4 _

@[simp] theorem length_writeLe64 (v : UInt64) : (writeLe64 v).length = 8 := length_leBytes 8 _

section Header

variable {encodedLength : UInt32} {frameId timestampUs : UInt64}

theorem length_packetHeader :
    (packetHeader encodedLength frameId timestampUs).length = HEADER_BYTES := by
  simp [packetHeader, HEADER_BYTES]

theorem getInt_magic : getInt (packetHeader encodedLength frameId timestampUs) 0 = MAGIC := by
  have hmagic : kPacketMagic.toInt32 = MAGIC := by decide
  rw [packetHeader, List.append_assoc, List.append_assoc, ← hmagic]
  exact getInt_head kPacketMagic _

theorem getInt_encodedLength :
    getInt (packetHeader encodedLength frameId timestampUs) 4 = encodedLength.toInt32 := by
  rw [packetHeader, List.append_assoc, List.append_assoc, getInt_skip (by simp)]
  exact getInt_head encodedLength _

theorem getLong_frameId :
    getLong (packetHeader encodedLength frameId timestampUs) 8 = frameId.toInt64 := by
  rw [packetHeader, List.append_assoc, getLong_skip (by simp)]
  exact getLong_head frameId _

theorem getLong_timestampUs :
    getLong (packetHeader encodedLength frameId timestampUs) 16 = timestampUs.toInt64 := by
  rw [packetHeader, getLong_skip (by simp), ← List.append_nil (writeLe64 timestampUs)]
  exact getLong_head timestampUs []

end Header

/-! ## The length word -/

/-- The length of an access unit leaves the flag clear. -/
theorem flag_ofNat {n : Nat} (hn : n < 2 ^ 31) :
    (UInt32.ofNat n).toInt32 &&& CONTROL_LENGTH_FLAG = 0 := by
  have hflag : CONTROL_LENGTH_FLAG.toBitVec = BitVec.twoPow 32 31 := by decide
  have hbit : (UInt32.ofNat n).toInt32.toBitVec.getLsbD 31 = false := by
    show (BitVec.ofNat 32 n).getLsbD 31 = false
    rw [BitVec.getLsbD_ofNat, Nat.testBit_lt_two_pow hn, Bool.and_false]
  apply Int32.toBitVec_inj.1
  rw [Int32.toBitVec_and, hflag, BitVec.and_twoPow, hbit]
  rfl

/-- The length of an access unit is what is left without the flag. -/
theorem length_ofNat {n : Nat} (hn : n < 2 ^ 31) :
    ((UInt32.ofNat n).toInt32 &&& ~~~CONTROL_LENGTH_FLAG).toUInt32.toNat = n := by
  have hmask : (~~~CONTROL_LENGTH_FLAG).toBitVec = BitVec.ofNat 32 (2 ^ 31 - 1) := by decide
  show ((UInt32.ofNat n).toInt32 &&& ~~~CONTROL_LENGTH_FLAG).toBitVec.toNat = n
  rw [Int32.toBitVec_and, hmask, BitVec.toNat_and]
  show n % 2 ^ 32 &&& (2 ^ 31 - 1) % 2 ^ 32 = n
  rw [Nat.mod_eq_of_lt (by omega), Nat.mod_eq_of_lt (by omega), Nat.and_two_pow_sub_one_eq_mod,
    Nat.mod_eq_of_lt hn]

/-! ## A packet -/

/-- What a heartbeat is read as. -/
def heartbeatFrame (nanoTime : Int64) : EncodedFrame where
  frameId := 0
  captureTimestampUs := 0
  receivedNanos := nanoTime
  randomAccess := false
  heartbeat := true
  control := false
  controlType := 0
  controlPayload := []
  accessUnit := []

/-- What an access unit is read as. -/
def videoFrame (nanoTime : Int64) (frameId timestampUs : UInt64) (payload : List UInt8) :
    EncodedFrame where
  frameId := frameId.toInt64
  captureTimestampUs := timestampUs.toInt64
  receivedNanos := nanoTime
  randomAccess := (findNalUnit payload 5).isSome
  heartbeat := false
  control := false
  controlType := 0
  controlPayload := []
  accessUnit := payload

/-- What a control packet is read as. -/
def controlFrame (nanoTime : Int64) (now : UInt64) (payload : List UInt8) : EncodedFrame where
  frameId := 0
  captureTimestampUs := now.toInt64
  receivedNanos := nanoTime
  randomAccess := false
  heartbeat := false
  control := true
  controlType := getInt payload 0
  controlPayload := payload.drop 4
  accessUnit := []

section Packet

variable {frameId timestampUs : UInt64} {payload more : List UInt8} {input : InputStream}

theorem readPacket_video (nanoTime : Int64)
    (hinput : input.flatten =
      packetBytes (UInt32.ofNat payload.length) frameId timestampUs payload ++ more)
    (hne : payload ≠ []) (hlength : payload.length ≤ MAX_ACCESS_UNIT_BYTES) :
    ∃ rest, readPacket nanoTime input =
      .ok (videoFrame nanoTime frameId timestampUs payload, rest) ∧ rest.flatten = more := by
  rw [packetBytes, List.append_assoc] at hinput
  obtain ⟨input', hheader, hinput'⟩ := readFully_nil hinput
  obtain ⟨rest, hpayload, hrest⟩ := readFully_nil hinput'
  rw [length_packetHeader] at hheader
  have hpos := List.length_pos_iff.2 hne
  have hlt : payload.length < 2 ^ 31 := hlength.trans_lt (by decide)
  refine ⟨rest, ?_, hrest⟩
  simp only [readPacket, hheader, getInt_magic, getInt_encodedLength, getLong_frameId,
    getLong_timestampUs, flag_ofNat hlt, length_ofNat hlt, hpayload]
  rw [if_neg (not_not.2 rfl), if_neg (not_lt.2 hlength), if_neg hpos.ne', if_neg (not_not.2 rfl)]
  rfl

theorem readPacket_heartbeat (nanoTime : Int64)
    (hinput : input.flatten = packetBytes 0 0 0 [] ++ more) :
    ∃ rest, readPacket nanoTime input = .ok (heartbeatFrame nanoTime, rest) ∧
      rest.flatten = more := by
  rw [packetBytes, List.append_nil] at hinput
  obtain ⟨rest, hheader, hrest⟩ := readFully_nil hinput
  rw [length_packetHeader] at hheader
  refine ⟨rest, ?_, hrest⟩
  have hlength : ((0 : UInt32).toInt32 &&& ~~~CONTROL_LENGTH_FLAG).toUInt32.toNat = 0 := by decide
  simp only [readPacket, hheader, getInt_magic, getInt_encodedLength, getLong_frameId,
    getLong_timestampUs, hlength]
  rw [if_neg (not_not.2 rfl), if_neg (Nat.not_lt_zero _), if_pos trivial, if_neg (by decide)]
  rfl

/-- The length word of a cursor packet: the flag and the length. -/
theorem length_control :
    ((kControlLengthFlag ||| UInt32.ofNat 36).toInt32 &&&
      ~~~CONTROL_LENGTH_FLAG).toUInt32.toNat = 36 := by decide

theorem flag_control :
    (kControlLengthFlag ||| UInt32.ofNat 36).toInt32 &&& CONTROL_LENGTH_FLAG ≠ 0 := by decide

theorem readPacket_control (nanoTime : Int64) {now : UInt64} (hlength : payload.length = 36)
    (hinput : input.flatten =
      packetBytes (kControlLengthFlag ||| UInt32.ofNat payload.length) 0 now payload ++ more) :
    ∃ rest, readPacket nanoTime input = .ok (controlFrame nanoTime now payload, rest) ∧
      rest.flatten = more := by
  rw [packetBytes, List.append_assoc] at hinput
  obtain ⟨input', hheader, hinput'⟩ := readFully_nil hinput
  obtain ⟨rest, hpayload, hrest⟩ := readFully_nil hinput'
  rw [length_packetHeader, hlength] at hheader
  rw [hlength] at hpayload
  refine ⟨rest, ?_, hrest⟩
  simp only [readPacket, hheader, getInt_magic, getInt_encodedLength, getLong_frameId,
    getLong_timestampUs, length_control, hpayload]
  rw [if_neg (not_not.2 rfl), if_neg (by decide), if_neg (by decide), if_pos flag_control,
    if_neg (by omega)]
  rfl

end Packet

/-! ## Cursor updates -/

/-- A size that a cursor update may have passes the receiver's check. -/
theorem int32_range {w : UInt32} (h₀ : 1 ≤ w.toNat) (h₁ : w.toNat ≤ 16384) :
    ¬w.toInt32 ≤ 0 ∧ ¬w.toInt32 > 16384 := by
  have hw : w.toInt32.toInt = w.toNat := by
    show w.toBitVec.toInt = w.toBitVec.toNat
    apply BitVec.toInt_eq_toNat_of_lt
    have : w.toBitVec.toNat = w.toNat := rfl
    omega
  constructor
  · rw [Int32.le_iff_toInt_le, hw]
    show ¬ (w.toNat : Int) ≤ 0
    omega
  · rw [gt_iff_lt, Int32.lt_iff_toInt_lt, hw]
    have : (16384 : Int32).toInt = 16384 := by decide
    omega

/-- What `SendCursor` was given comes out of `dispatchControl`. -/
theorem dispatchControl_cursor (nanoTime : Int64) (now : UInt64) (visible : Bool) (x y : Int32)
    {width height : UInt32} (sequence : UInt64) (hw : 1 ≤ width.toNat ∧ width.toNat ≤ 16384)
    (hh : 1 ≤ height.toNat ∧ height.toNat ≤ 16384) :
    dispatchControl
      (controlFrame nanoTime now (cursorPayload visible x y width height sequence)) =
        .ok (some { visible, x, y
                    width := width.toInt32
                    height := height.toInt32
                    sequence := sequence.toInt64 }) := by
  obtain ⟨body, hbody⟩ : ∃ body, body = writeLe32 kCursorControlVersion ++
      (writeLe32 (if visible then 1 else 0) ++ (writeLe32 x.toUInt32 ++ (writeLe32 y.toUInt32 ++
        (writeLe32 width ++ (writeLe32 height ++ writeLe64 sequence))))) := ⟨_, rfl⟩
  have hpayload : cursorPayload visible x y width height sequence =
      writeLe32 kCursorControlType ++ body := by
    rw [hbody, cursorPayload]
    simp only [List.append_assoc]
  have htype : getInt (writeLe32 kCursorControlType ++ body) 0 = CURSOR_CONTROL_TYPE :=
    getInt_head kCursorControlType body
  have hdrop : (writeLe32 kCursorControlType ++ body).drop 4 = body :=
    List.drop_left' (length_writeLe32 _)
  have hlength : body.length = CURSOR_PAYLOAD_BYTES := by
    rw [hbody]
    simp [CURSOR_PAYLOAD_BYTES]
  have hversion : getInt body 0 = 1 := by
    rw [hbody]
    exact getInt_head kCursorControlVersion _
  have hvisible : getInt body 4 = (if visible then 1 else 0 : UInt32).toInt32 := by
    rw [hbody, getInt_skip (by simp)]
    exact getInt_head _ _
  have hx : getInt body 8 = x := by
    rw [hbody, getInt_skip (by simp), getInt_skip (by simp)]
    exact getInt_head x.toUInt32 _
  have hy : getInt body 12 = y := by
    rw [hbody, getInt_skip (by simp), getInt_skip (by simp), getInt_skip (by simp)]
    exact getInt_head y.toUInt32 _
  have hwidth : getInt body 16 = width.toInt32 := by
    rw [hbody, getInt_skip (by simp), getInt_skip (by simp), getInt_skip (by simp),
      getInt_skip (by simp)]
    exact getInt_head width _
  have hheight : getInt body 20 = height.toInt32 := by
    rw [hbody, getInt_skip (by simp), getInt_skip (by simp), getInt_skip (by simp),
      getInt_skip (by simp), getInt_skip (by simp)]
    exact getInt_head height _
  have hsequence : getLong body 24 = sequence.toInt64 := by
    rw [hbody, getLong_skip (by simp), getLong_skip (by simp), getLong_skip (by simp),
      getLong_skip (by simp), getLong_skip (by simp), getLong_skip (by simp),
      ← List.append_nil (writeLe64 sequence)]
    exact getLong_head sequence []
  have hflag : (decide ((if visible then 1 else 0 : UInt32).toInt32 ≠ 0)) = visible := by
    cases visible <;> decide
  obtain ⟨hw₀, hw₁⟩ := int32_range hw.1 hw.2
  obtain ⟨hh₀, hh₁⟩ := int32_range hh.1 hh.2
  simp only [dispatchControl, controlFrame, hpayload, htype, hdrop, hlength, hversion, hvisible,
    hx, hy, hwidth, hheight, hsequence]
  rw [if_neg (not_not.2 rfl), if_neg (not_not.2 rfl), if_neg, hflag]
  rintro (h | h | h | h | h)
  · exact h rfl
  · exact hw₀ h
  · exact hh₀ h
  · exact hw₁ h
  · exact hh₁ h

/-! ## Packets in a row -/

/-- The calls that the receiver is prepared for. -/
def SendCall.Valid : SendCall → Prop
  | .annexB _ _ payload =>
      hasAnnexBStartCode payload = true ∧ payload.length ≤ 16 * 1024 * 1024
  | .heartbeat => True
  | .cursor _ _ _ width height _ =>
      (1 ≤ width.toNat ∧ width.toNat ≤ 16384) ∧ (1 ≤ height.toNat ∧ height.toNat ≤ 16384)

instance : DecidablePred SendCall.Valid
  | .annexB _ _ _ | .cursor _ _ _ _ _ _ => inferInstanceAs (Decidable (_ ∧ _))
  | .heartbeat => .isTrue trivial

/-- The frame is what the call sent. -/
def SendCall.Shows (call : SendCall) (frame : EncodedFrame) : Prop :=
  match call with
  | .annexB frameId timestampUs payload =>
      frame.heartbeat = false ∧ frame.control = false ∧ frame.frameId.toUInt64 = frameId ∧
        frame.captureTimestampUs.toUInt64 = timestampUs ∧ frame.accessUnit = payload
  | .heartbeat => frame.heartbeat = true
  | .cursor visible x y width height sequence =>
      frame.heartbeat = false ∧ frame.control = true ∧
        ∃ state, dispatchControl frame = .ok (some state) ∧ state.visible = visible ∧
          state.x = x ∧ state.y = y ∧ state.width.toUInt32 = width ∧
            state.height.toUInt32 = height ∧ state.sequence.toUInt64 = sequence

theorem ne_nil_of_hasAnnexBStartCode {payload : List UInt8}
    (h : hasAnnexBStartCode payload = true) : payload ≠ [] := by
  rintro rfl
  cases h

/-- One packet, read from the beginning of a stream. -/
theorem readPacket_packet {call : SendCall} {now : UInt64} {bytes more : List UInt8}
    {input : InputStream} (nanoTime : Int64) (hcall : call.Valid)
    (hp : call.packet now = some bytes) (hinput : input.flatten = bytes ++ more) :
    ∃ frame rest, readPacket nanoTime input = .ok (frame, rest) ∧ rest.flatten = more ∧
      call.Shows frame := by
  cases call with
  | annexB frameId timestampUs payload =>
      obtain ⟨hstart, hlength⟩ := hcall
      have hshort : ¬payload.length > maxUint32 := by
        unfold maxUint32
        omega
      rw [SendCall.packet, if_pos hstart, accessUnitPacket, if_neg hshort, Option.some.injEq] at hp
      rw [← hp] at hinput
      obtain ⟨rest, hread, hrest⟩ :=
        readPacket_video nanoTime hinput (ne_nil_of_hasAnnexBStartCode hstart) hlength
      exact ⟨_, rest, hread, hrest, rfl, rfl, rfl, rfl, rfl⟩
  | heartbeat =>
      have hp : packetBytes 0 0 0 [] = bytes := Option.some.inj hp
      rw [← hp] at hinput
      obtain ⟨rest, hread, hrest⟩ := readPacket_heartbeat nanoTime hinput
      exact ⟨_, rest, hread, hrest, rfl⟩
  | cursor visible x y width height sequence =>
      rw [SendCall.packet, Option.some.injEq] at hp
      rw [← hp] at hinput
      obtain ⟨rest, hread, hrest⟩ :=
        readPacket_control nanoTime (length_cursorPayload visible x y width height sequence) hinput
      exact ⟨_, rest, hread, hrest, rfl, rfl, _,
        dispatchControl_cursor nanoTime now visible x y sequence hcall.1 hcall.2,
        rfl, rfl, rfl, rfl, rfl, rfl⟩

/-- Any number of packets, read from the beginning of a stream. -/
theorem readPackets_entries {more : List UInt8} (entries : List Entry) {times : List Int64}
    {input : InputStream} (htimes : times.length = entries.length)
    (hentries : ∀ e ∈ entries, e.call.Valid ∧ ∃ now, e.call.packet now = some e.bytes)
    (hinput : input.flatten = entries.flatMap Entry.bytes ++ more) :
    ∃ frames rest, readPackets times input = .ok (frames, rest) ∧ rest.flatten = more ∧
      List.Forall₂ (fun e frame ↦ e.call.Shows frame) entries frames := by
  induction entries generalizing times input with
  | nil =>
      obtain rfl := List.length_eq_zero_iff.1 htimes
      exact ⟨[], input, rfl, hinput, .nil⟩
  | cons e entries ih =>
      cases times with
      | nil => cases htimes
      | cons nanoTime times =>
          obtain ⟨hcall, now, hp⟩ := hentries e List.mem_cons_self
          rw [List.flatMap_cons, List.append_assoc] at hinput
          obtain ⟨frame, rest, hread, hrest, hshows⟩ := readPacket_packet nanoTime hcall hp hinput
          obtain ⟨frames, final, hreads, hfinal, hall⟩ :=
            ih (Nat.succ.inj htimes) (fun e' he' ↦ hentries e' (List.mem_cons_of_mem e he')) hrest
          refine ⟨frame :: frames, final, ?_, hfinal, .cons hshows hall⟩
          simp only [readPackets, hread, hreads]

/-! ## The result -/

/-- A valid call has a packet. -/
theorem SendCall.Valid.packet_ne_none {call : SendCall} (h : call.Valid) (now : UInt64) :
    call.packet now ≠ none := by
  cases call with
  | annexB frameId timestampUs payload =>
      obtain ⟨hstart, hlength⟩ := h
      have hshort : ¬payload.length > maxUint32 := by
        unfold maxUint32
        omega
      rw [SendCall.packet, if_pos hstart, accessUnitPacket, if_neg hshort]
      exact Option.some_ne_none _
  | heartbeat => exact Option.some_ne_none _
  | cursor visible x y width height sequence => exact Option.some_ne_none _

/-- **Wire round trip.**  Take any run of the two threads that has come to a point
where nobody holds the mutex and the socket has refused nothing.  However the bytes
are divided into reads, and whatever follows them, `readPacket` consumes exactly
the bytes written and yields what the calls sent, in the order in which they took
the mutex. -/
theorem wire_round_trip {c : WriterConfig} (hrun : Run anySchedule WriterConfig.initial c)
    (hcurrent : c.shared.current = none)
    (hcalls : ∀ e ∈ c.shared.done, e.refused = false ∧ e.call.Valid) {times : List Int64}
    (htimes : times.length = c.shared.done.length) {input : InputStream} {more : List UInt8}
    (hinput : input.flatten = c.shared.sent ++ more) :
    ∃ frames rest, readPackets times input = .ok (frames, rest) ∧ rest.flatten = more ∧
      List.Forall₂ (fun e frame ↦ e.call.Shows frame) c.shared.done frames := by
  obtain ⟨hinv, -⟩ := writer_run (fun _ ↦ True) (fun _ _ _ _ _ _ _ _ ↦ trivial) trivial hrun
  have hentries : c.shared.entries = c.shared.done := by
    rw [Shared.entries, hcurrent, Option.toList_none, List.append_nil]
  rw [hinv.sent, hentries] at hinput
  apply readPackets_entries c.shared.done htimes _ hinput
  intro e he
  obtain ⟨hnot, hvalid⟩ := hcalls e he
  refine ⟨hvalid, ?_⟩
  rcases hinv.done e he with ⟨-, now, h⟩ | ⟨h, -⟩ | ⟨-, -, h⟩
  · exact ⟨now, by rwa [List.append_nil] at h⟩
  · rw [hnot] at h
    cases h
  · exact absurd (h 0) (hvalid.packet_ne_none 0)

/-- An access unit, in three portions, and a cursor update that has waited for it. -/
def videoAndCursor : writerSystem.Schedule :=
  [⟨.worker, .enter (.annexB 7 1234 [0, 0, 1, 0x65, 9])⟩,
    ⟨.cursor, .enter (.cursor true (-5) 7 16 32 1)⟩] ++
  answers .worker [{}, {}, { sent := .accepted 10 }, {}, { sent := .accepted 14 }, {},
    { sent := .accepted 5 }, {}] ++
  answers .cursor [{}, {}, {}, { sent := .accepted 24 }, {}, { sent := .accepted 36 }, {}]

/-- The two packets, read in two portions with an empty read in between. -/
theorem wire_round_trip_video_and_cursor : ∃ c : WriterConfig,
    Run anySchedule WriterConfig.initial c ∧ c.shared.done.length = 2 ∧
      ∃ frames rest, readPackets [100, 200] [c.shared.sent.take 31, [], c.shared.sent.drop 31] =
        .ok (frames, rest) ∧ rest.flatten = [] ∧
          List.Forall₂ (fun e frame ↦ e.call.Shows frame) c.shared.done frames := by
  have hfollow : (WriterConfig.initial.follow anySchedule videoAndCursor).map (fun c ↦
      (c.shared.done.length, c.shared.current.isNone,
        decide (∀ e ∈ c.shared.done, e.refused = false ∧ e.call.Valid))) =
        some (2, true, true) := by decide +kernel
  obtain ⟨c, hc, hfacts⟩ := Option.map_eq_some_iff.1 hfollow
  simp only [Prod.mk.injEq, Option.isNone_iff_eq_none, decide_eq_true_eq] at hfacts
  obtain ⟨hlength, hcurrent, hcalls⟩ := hfacts
  have hrun := Config.run_of_follow hc
  have hinput : ([c.shared.sent.take 31, [], c.shared.sent.drop 31] : InputStream).flatten =
      c.shared.sent ++ [] := by simp
  have htimes : ([100, 200] : List Int64).length = c.shared.done.length := hlength.symm
  exact ⟨c, hrun, hlength, wire_round_trip hrun hcurrent hcalls htimes hinput⟩

end SecondScreen.Wire
