import SecondScreen.Wire.RoundTrip

/-!
# A call on a willing socket

What a call of the writer sends when no other thread is in between and the socket
takes whatever it is given; and which lengths of an access unit the receiver reads
back.  The writer refuses only lengths of more than 32 bits, but the receiver takes
the topmost of these bits for the flag of a control packet, and has a limit of its
own (`length_read_back_iff`).
-/

namespace SecondScreen.Wire

open SecondScreen.Conc SecondScreen.Machine SecondScreen.Client

/-! ## The socket -/

/-- The socket is always ready and takes all that it is given; the state is what it
has taken. -/
def willing : Prog.Handler WireOp (List UInt8)
  | _, .lock, sent => ((), sent)
  | _, .unlock, sent => ((), sent)
  | _, .nowMicros, sent => (0, sent)
  | _, .select, sent => (.ready, sent)
  | _, .send chunk, sent => (.accepted chunk.length, sent ++ chunk)

/-- What a call sends, and how it ends. -/
def transmit (p : Prog WireOp SendResult) : SendResult × List UInt8 := p.eval willing []

theorem eval_sendLoop (data sent : List UInt8) :
    (sendLoop data).eval willing sent = (.ok (), sent ++ data) := by
  induction data using sendLoop.induct generalizing sent with
  | case1 => simp [sendLoop]
  | case2 data hdata ih =>
      have hpos := List.length_pos_iff.2 hdata
      obtain ⟨count, hcount⟩ : ∃ count, (data.take maxInt).length = count + 1 := by
        refine ⟨(data.take maxInt).length - 1, ?_⟩
        rw [List.length_take]
        have hmax : 0 < maxInt := by decide
        omega
      have htake : data.take maxInt = data.take (count + 1) := by
        rw [List.length_take] at hcount
        rcases min_choice maxInt data.length with h | h
        · rw [← hcount, h]
        · rw [← hcount, h, List.take_of_length_le (by omega), List.take_length]
      rw [sendLoop, dif_neg hdata]
      simp only [Prog.eval_act, willing, hcount]
      rw [ih count, htake, List.append_assoc, List.take_append_drop]

theorem eval_sendPacketLocked (encodedLength : UInt32) (frameId timestampUs : UInt64)
    (payload sent : List UInt8) :
    (sendPacketLocked true encodedLength frameId timestampUs payload).eval willing sent =
      (.ok (), sent ++ packetBytes encodedLength frameId timestampUs payload) := by
  simp [sendPacketLocked, sendBytes, eval_sendLoop, packetBytes]

/-- An access unit whose length fits goes out as one packet. -/
theorem transmit_sendAccessUnit {payload : List UInt8} (h : payload.length ≤ maxUint32)
    (frameId timestampUs : UInt64) :
    transmit (sendAccessUnit true frameId timestampUs payload) =
      (.ok (), packetBytes (UInt32.ofNat payload.length) frameId timestampUs payload) := by
  simp [transmit, sendAccessUnit, lockGuard, sendAccessUnitLocked, not_lt.2 h,
    eval_sendPacketLocked, willing]

theorem transmit_sendAccessUnit_long {payload : List UInt8} (h : maxUint32 < payload.length)
    (frameId timestampUs : UInt64) :
    transmit (sendAccessUnit true frameId timestampUs payload) =
      (.error "encoded access unit exceeds uint32 packet length", []) := by
  simp [transmit, sendAccessUnit, lockGuard, sendAccessUnitLocked, h, willing]

/-! ## The length guards -/

/-- `readFully` yields as many bytes as it is asked for. -/
theorem length_readFully {length : Nat} {buffer bytes : List UInt8} {input rest : InputStream}
    (hbuffer : buffer.length ≤ length) (h : readFully length buffer input = .ok (bytes, rest)) :
    bytes.length = length := by
  induction buffer, input using readFully.induct length with
  | case1 buffer input hlt hnone =>
      rw [readFully, if_pos hlt] at h
      split at h
      · cases h
      · next hsome => cases hnone.symm.trans hsome
  | case2 buffer input hlt part rest' hread ih =>
      rw [readFully, if_pos hlt] at h
      split at h
      · cases h
      · next hsome =>
        cases hread.symm.trans hsome
        have hle := (InputStream.read_decreasing hread).1
        exact ih (by rw [List.length_append]; omega) h
  | case3 buffer input hge =>
      rw [readFully, if_neg hge] at h
      cases h
      omega

/-- The receiver accepts no access unit beyond its limit. -/
theorem length_accessUnit_le {nanoTime : Int64} {input rest : InputStream} {frame : EncodedFrame}
    (h : readPacket nanoTime input = .ok (frame, rest)) :
    frame.accessUnit.length ≤ MAX_ACCESS_UNIT_BYTES := by
  unfold readPacket at h
  split at h
  · cases h
  simp only at h
  split_ifs at h with hmagic hlong hzero hid hcontrol
  · cases h
    exact Nat.zero_le _
  · -- a control packet carries no access unit
    split at h
    · cases h
    split_ifs at h
    cases h
    exact Nat.zero_le _
  · split at h
    · cases h
    next payload _ hpayload =>
    have hlength := length_readFully (Nat.zero_le _) hpayload
    cases h
    exact hlength.le.trans (not_lt.1 hlong)

/-- The receiver reads the packet of an access unit as the access unit, whatever
follows it. -/
def ReadBack (frameId timestampUs : UInt64) (payload : List UInt8) : Prop :=
  ∀ (nanoTime : Int64) (input : InputStream) (more : List UInt8),
    input.flatten = (transmit (sendAccessUnit true frameId timestampUs payload)).2 ++ more →
      ∃ rest, readPacket nanoTime input =
        .ok (videoFrame nanoTime frameId timestampUs payload, rest) ∧ rest.flatten = more

theorem ReadBack.length_le {frameId timestampUs : UInt64} {payload : List UInt8}
    (h : ReadBack frameId timestampUs payload) : payload.length ≤ MAX_ACCESS_UNIT_BYTES := by
  obtain ⟨rest, hread, -⟩ :=
    h 0 [(transmit (sendAccessUnit true frameId timestampUs payload)).2] [] (by simp)
  exact length_accessUnit_le hread

/-- **An access unit that the writer accepts is read back** exactly when it keeps
to the limit of the receiver. -/
theorem length_read_back_iff {payload : List UInt8} (hne : payload ≠ [])
    (haccept : payload.length ≤ maxUint32) (frameId timestampUs : UInt64) :
    ReadBack frameId timestampUs payload ↔ payload.length ≤ MAX_ACCESS_UNIT_BYTES := by
  refine ⟨ReadBack.length_le, fun hlength nanoTime input more hinput ↦ ?_⟩
  rw [transmit_sendAccessUnit haccept] at hinput
  exact readPacket_video nanoTime hinput hne hlength

/-- The longest access unit that is read back. -/
theorem length_read_back_longest : ReadBack 7 1234 (List.replicate 16777216 0x65) := by
  have hne : List.replicate 16777216 (0x65 : UInt8) ≠ [] := by
    rw [ne_eq, List.replicate_eq_nil_iff]
    decide
  have hlength : (List.replicate 16777216 (0x65 : UInt8)).length = 16777216 :=
    List.length_replicate
  refine (length_read_back_iff hne (hlength.le.trans (by decide)) 7 1234).2 ?_
  exact hlength.le.trans (by decide)

/-- An access unit of one byte more than the receiver takes. -/
theorem too_long_for_receiver : ¬∀ payload : List UInt8, payload ≠ [] →
    payload.length ≤ maxUint32 → ReadBack 1 1 payload := by
  intro hall
  obtain ⟨payload, hlength⟩ : ∃ payload : List UInt8, payload.length = 16777217 :=
    ⟨List.replicate 16777217 0x65, List.length_replicate⟩
  have hne : payload ≠ [] := by
    rintro rfl
    cases hlength
  have hle := (hall payload hne (hlength.le.trans (by decide))).length_le
  rw [hlength] at hle
  exact absurd hle (by decide)

end SecondScreen.Wire
