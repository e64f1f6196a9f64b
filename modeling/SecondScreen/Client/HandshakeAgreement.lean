import SecondScreen.Client.ScalarJson
import SecondScreen.Host.HandshakeResponse
import SecondScreen.Ring.KnownSlot

/-!
# The two sides of the handshake

Whether the client takes the answer of the host, and with the same numbers.  The host
bounds the size and the frame rate as the client does, but the bit rate only by 32
bits, while the client reads it as a signed number.
-/

namespace SecondScreen.Client

open SecondScreen.Json SecondScreen.Host SecondScreen.Ring ConnectionManager

/-! ## The text of the answer -/

/-- The members of the answer. -/
def responseMembers (config : StreamConfig) : List Member :=
  [.bare (utf8 "codec") (quote (utf8 "h264")) (by decide +kernel),
    .bare (utf8 "width") (decimal config.width) (by decide +kernel),
    .bare (utf8 "height") (decimal config.height) (by decide +kernel),
    .bare (utf8 "fps") (decimal config.fps) (by decide +kernel),
    .bare (utf8 "bitrate") (decimal config.bitrate) (by decide +kernel)]

/-- The answer without its newline. -/
def responseObject (config : StreamConfig) : Text :=
  ascii '{' :: (commaSeparated ((responseMembers config).map Member.padded) ++ [ascii '}'])

theorem responseObject_eq (config : StreamConfig) :
    responseObject config = utf8 "\x7b\"codec\":\"h264\",\"width\":" ++ decimal config.width ++
      utf8 ",\"height\":" ++ decimal config.height ++ utf8 ",\"fps\":" ++ decimal config.fps ++
      utf8 ",\"bitrate\":" ++ decimal config.bitrate ++ [ascii '}'] := by
  have h₁ : utf8 "\x7b\"codec\":\"h264\",\"width\":" = ascii '{' :: (quote (utf8 "codec") ++
      ascii ':' :: quote (utf8 "h264") ++ ascii ',' :: quote (utf8 "width") ++ [ascii ':']) := by
    decide
  have h₂ : utf8 ",\"height\":" = ascii ',' :: quote (utf8 "height") ++ [ascii ':'] := by decide
  have h₃ : utf8 ",\"fps\":" = ascii ',' :: quote (utf8 "fps") ++ [ascii ':'] := by decide
  have h₄ : utf8 ",\"bitrate\":" = ascii ',' :: quote (utf8 "bitrate") ++ [ascii ':'] := by decide
  rw [h₁, h₂, h₃, h₄, responseObject, commaSeparated]
  simp only [responseMembers, List.map_cons, List.map_nil, Member.bare_all]
  simp

theorem handshakeResponse_eq (config : StreamConfig) :
    handshakeResponse config = responseObject config ++ [ascii '\n'] := by
  have h : utf8 "\x7d\n" = [ascii '}', ascii '\n'] := by decide
  rw [handshakeResponse, responseObject_eq, h]
  simp

theorem isObject_responseObject (config : StreamConfig) :
    IsObject (responseMembers config) (responseObject config) := by
  refine ⟨?_, _, .inr ⟨by simp [responseMembers], rfl⟩, rfl⟩
  simp only [responseMembers, List.forall_mem_cons, Member.bare, Padded.bare]
  refine ⟨.string (isString_quote (by decide +kernel)), ?_, ?_, ?_, ?_, fun _ h ↦ by cases h⟩ <;>
  · apply IsValue.number
    exact (isInteger_decimal _).isNumber

theorem visible_decimal {n : Nat} {b : UInt8} (hb : b ∈ decimal n) : ¬b ≤ 0x20 := by
  have h : ascii '0' ≤ b := by
    have := isDigit_of_mem_decimal hb
    simp only [isDigit, Bool.and_eq_true, decide_eq_true_eq] at this
    exact this.1
  intro hle
  exact absurd (UInt8.le_trans h hle) (by decide)

/-- There is neither whitespace nor a control character in it. -/
theorem visible_responseObject (config : StreamConfig) :
    ∀ b ∈ responseObject config, ¬b ≤ 0x20 := by
  have h₁ : ∀ b ∈ utf8 "\x7b\"codec\":\"h264\",\"width\":", ¬b ≤ 0x20 := by decide +kernel
  have h₂ : ∀ b ∈ utf8 ",\"height\":", ¬b ≤ 0x20 := by decide +kernel
  have h₃ : ∀ b ∈ utf8 ",\"fps\":", ¬b ≤ 0x20 := by decide +kernel
  have h₄ : ∀ b ∈ utf8 ",\"bitrate\":", ¬b ≤ 0x20 := by decide +kernel
  have h₅ : ∀ b ∈ [ascii '}'], ¬b ≤ 0x20 := by decide +kernel
  rw [responseObject_eq]
  simp only [List.forall_mem_append]
  exact ⟨⟨⟨⟨⟨⟨⟨⟨h₁, fun b ↦ visible_decimal⟩, h₂⟩, fun b ↦ visible_decimal⟩, h₃⟩,
    fun b ↦ visible_decimal⟩, h₄⟩, fun b ↦ visible_decimal⟩, h₅⟩

theorem length_responseObject_lt {config : StreamConfig} (hwidth : config.width < 2 ^ 32)
    (hheight : config.height < 2 ^ 32) (hfps : config.fps < 2 ^ 32)
    (hbitrate : config.bitrate < 2 ^ 32) :
    (responseObject config).length < HANDSHAKE_LINE_LIMIT := by
  have hdecimal : ∀ n < 2 ^ 32, (decimal n).length ≤ 10 := fun n hn ↦
    decimal_length_le (by decide) (hn.trans (by decide))
  have := hdecimal _ hwidth
  have := hdecimal _ hheight
  have := hdecimal _ hfps
  have := hdecimal _ hbitrate
  have h₁ : (utf8 "\x7b\"codec\":\"h264\",\"width\":").length = 24 := by decide
  have h₂ : (utf8 ",\"height\":").length = 10 := by decide
  have h₃ : (utf8 ",\"fps\":").length = 7 := by decide
  have h₄ : (utf8 ",\"bitrate\":").length = 11 := by decide
  rw [responseObject_eq, HANDSHAKE_LINE_LIMIT]
  simp only [List.length_append, h₁, h₂, h₃, h₄, List.length_singleton]
  omega

/-- The client reads the answer as one line. -/
theorem readLine_handshakeResponse {config : StreamConfig}
    (hlength : (responseObject config).length < HANDSHAKE_LINE_LIMIT) (rest : Text) :
    readLine [] (handshakeResponse config ++ rest) = .ok (responseObject config, rest) := by
  have hvisible := visible_responseObject config
  have hnewline : ascii '\n' ∉ responseObject config := fun h ↦ hvisible _ h (by decide)
  have htrim : trim (responseObject config) = responseObject config :=
    trim_eq_self (fun b hb ↦ hvisible b (List.mem_of_mem_head? hb))
      fun b hb ↦ hvisible b (List.mem_of_mem_getLast? hb)
  have hread := readLine_append (show ascii '\n' ∉ responseObject config from hnewline)
    (show ([] : Text).length + _ < _ by simpa using hlength) rest
  rw [List.nil_append, htrim] at hread
  rw [handshakeResponse_eq, List.append_assoc]
  exact hread

/-! ## Numbers -/

theorem toInt_ofInt_nat {n : Nat} (h : n < 2 ^ 31) : (Int32.ofInt n).toInt = n := by
  apply Int32.toInt_ofInt_of_le <;> omega

/-- From `2 ^ 31` on, the low 32 bits are a negative number. -/
theorem ofInt_nonpos_iff {n : Nat} (hpos : 1 ≤ n) (hn : n < 2 ^ 32) :
    Int32.ofInt n ≤ 0 ↔ 2 ^ 31 ≤ n := by
  rw [Int32.le_iff_toInt_le, Int32.toInt_ofInt, Int.bmod_def]
  simp only [Int32.size, Int32.toInt_zero]
  split <;> omega

theorem ofInt_gt_iff {n k : Nat} (hn : n < 2 ^ 31) (hk : k < 2 ^ 31) :
    Int32.ofInt n > Int32.ofInt k ↔ k < n := by
  rw [gt_iff_lt, Int32.lt_iff_toInt_lt, toInt_ofInt_nat hn, toInt_ofInt_nat hk]
  omega

/-! ## The answer on the client -/

/-- The size and the rates are within the bounds of the host. -/
structure Bounded (config : StreamConfig) : Prop where
  width : 1 ≤ config.width ∧ config.width ≤ 16384
  height : 1 ≤ config.height ∧ config.height ≤ 16384
  rates : config.RatesValid

/-- The numbers of the answer as the client reads them. -/
def readInfo (config : StreamConfig) : ConnectionInfo where
  codec := "h264"
  width := Int32.ofInt config.width
  height := Int32.ofInt config.height
  fps := Int32.ofInt config.fps
  bitrate := Int32.ofInt config.bitrate

/-- The client takes the answer unless the bit rate is negative to it. -/
theorem performHandshake_handshakeResponse (json : OrgJson) {config : StreamConfig}
    (hconfig : Bounded config) (rest : Text) :
    performHandshake json (handshakeResponse config ++ rest) =
      if config.bitrate < 2 ^ 31 then .ok (readInfo config, rest)
      else .error (.protocol ("Host returned invalid bitrate: " ++
        toString (Int32.ofInt config.bitrate))) := by
  obtain ⟨hwidth, hheight, hfps, hbitrate⟩ := hconfig
  have hlength : (responseObject config).length < HANDSHAKE_LINE_LIMIT := by
    apply length_responseObject_lt <;> omega
  have hlong : ∀ n : Nat, n < 2 ^ 32 → IsLong n (decimal n) := fun n hn ↦
    ⟨isInteger_decimal n, by omega, by omega⟩
  have hcodec : IsString (utf8 "h264") (quote (utf8 "h264")) :=
    isString_quote (by decide +kernel)
  have hscalar : ∀ m ∈ responseMembers config, Scalar m.value.text := by
    simp only [responseMembers, List.forall_mem_cons, Member.bare, Padded.bare]
    refine ⟨.inl ⟨_, hcodec⟩, ?_, ?_, ?_, ?_, fun _ h ↦ by cases h⟩ <;>
    · refine .inr ⟨_, hlong _ ?_⟩
      omega
  have hkeys : ((responseMembers config).map Member.key).Nodup :=
    show [utf8 "codec", utf8 "width", utf8 "height", utf8 "fps", utf8 "bitrate"].Nodup by decide
  obtain ⟨object, hparse, hobject⟩ :=
    json.parse_object (isObject_responseObject config) hkeys hscalar
  simp only [responseMembers, List.forall_mem_cons, Member.bare, Padded.bare] at hobject
  obtain ⟨h₁, h₂, h₃, h₄, h₅, -⟩ := hobject
  rw [performHandshake, readLine_handshakeResponse hlength]
  dsimp only [bind, Except.bind]
  rw [hparse]
  simp only [(h₁ "codec" rfl).1 "h264" "" hcodec, (h₂ "width" rfl).2 _ 0 (hlong _ (by omega)),
    (h₃ "height" rfl).2 _ 0 (hlong _ (by omega)), (h₄ "fps" rfl).2 _ 0 (hlong _ (by omega)),
    (h₅ "bitrate" rfl).2 _ 0 (hlong _ (by omega))]
  have hin : ∀ n : Nat, 1 ≤ n → n < 2 ^ 31 → ¬Int32.ofInt n ≤ 0 := fun n hpos hn hle ↦
    absurd ((ofInt_nonpos_iff hpos (by omega)).1 hle) (by omega)
  have hgt : ∀ n k : Nat, n ≤ k → k < 2 ^ 31 → ¬Int32.ofInt n > Int32.ofInt k := fun n k hle hk h ↦
    absurd ((ofInt_gt_iff (by omega) hk).1 h) (by omega)
  have hequal : (!equalsIgnoreCase "h264" "h264") = false := by decide
  rw [hequal, if_neg (by decide), if_neg, if_neg]
  · by_cases h : config.bitrate < 2 ^ 31
    · rw [if_pos h, if_neg (hin _ hbitrate.1 h)]
      rfl
    · rw [if_neg h, if_pos ((ofInt_nonpos_iff hbitrate.1 hbitrate.2).2 (by omega))]
      rfl
  · rintro (h | h)
    · exact hin _ hfps.1 (by omega) h
    · exact hgt _ 240 hfps.2 (by decide) h
  · rintro (h | h | h | h)
    · exact hin _ hwidth.1 (by omega) h
    · exact hin _ hheight.1 (by omega) h
    · exact hgt _ 16384 hwidth.2 (by decide) h
    · exact hgt _ 16384 hheight.2 (by decide) h

/-! ## Agreement -/

theorem effectiveConfig_bounded {args : List Text} {config : StreamConfig} {showHelp : Bool}
    (hargs : parseCommandLine args = .ok (config, showHelp)) {slot : FrameSlot}
    (hslot : slot.validLength ≠ none) {firstFrame : CapturedFrame}
    (hframe : firstFrame.width = slot.field .width ∧ firstFrame.height = slot.field .height) :
    Bounded (effectiveConfig config firstFrame) := by
  obtain ⟨hfps, hbitrate⟩ := (parseCommandLine_valid hargs).1
  obtain ⟨hwidth, hheight⟩ := effectiveConfig_size config firstFrame
  obtain ⟨hfps', hbitrate'⟩ := effectiveConfig_rates config firstFrame
  have hsize : validSize (slot.field .width) (slot.field .height) (slot.field .stride) = true := by
    by_contra hsize
    apply hslot
    rw [Bool.not_eq_true] at hsize
    unfold FrameSlot.validLength
    simp only [hsize, if_true]
    split_ifs <;> rfl
  rw [← hframe.1, ← hframe.2] at hsize
  simp only [validSize, Bool.and_eq_true, decide_eq_true_eq] at hsize
  obtain ⟨⟨⟨⟨⟨⟨⟨hw, hh⟩, -⟩, -⟩, hw'⟩, hh'⟩, -⟩, -⟩ := hsize
  rw [kMaxWidth] at hw'
  rw [kMaxHeight] at hh'
  constructor
  · rw [hwidth]
    omega
  · rw [hheight]
    omega
  · exact ⟨by rw [hfps']; exact hfps, by rw [hbitrate']; exact hbitrate⟩

/-- The information has the numbers of the configuration. -/
def ConnectionInfo.Agrees (info : ConnectionInfo) (config : StreamConfig) : Prop :=
  info.width.toInt = config.width ∧ info.height.toInt = config.height ∧
    info.fps.toInt = config.fps ∧ info.bitrate.toInt = config.bitrate

/-- The client takes the answer with the numbers of the host exactly if the bit rate is less
than `2 ^ 31`. -/
theorem handshake_agreement (json : OrgJson) {args : List Text} {config : StreamConfig}
    {showHelp : Bool} (hargs : parseCommandLine args = .ok (config, showHelp)) {slot : FrameSlot}
    (hslot : slot.validLength ≠ none) {firstFrame : CapturedFrame}
    (hframe : firstFrame.width = slot.field .width ∧ firstFrame.height = slot.field .height)
    {answer : Text → Text → Wire.Sent} {written : Text}
    (hsend : (sendHandshakeResponse (effectiveConfig config firstFrame)).eval
      (socketHandler answer) [] = (.ok (), written)) (rest : Text) :
    (∃ info, performHandshake json (written ++ rest) = .ok (info, rest) ∧
      info.Agrees (effectiveConfig config firstFrame)) ↔ config.bitrate < 2 ^ 31 := by
  have hbounded := effectiveConfig_bounded hargs hslot hframe
  have hwritten : written = handshakeResponse (effectiveConfig config firstFrame) :=
    (@sendResponse_written answer (handshakeResponse _) [] written hsend).trans (List.nil_append _)
  have hbitrate := (effectiveConfig_rates config firstFrame).2
  rw [hwritten, performHandshake_handshakeResponse json hbounded, hbitrate]
  constructor
  · rintro ⟨info, hinfo, -⟩
    by_contra hle
    rw [if_neg hle] at hinfo
    cases hinfo
  · intro hlt
    refine ⟨_, if_pos hlt, ?_⟩
    obtain ⟨hwidth, hheight, ⟨hfps, -⟩⟩ := hbounded
    refine ⟨toInt_ofInt_nat ?_, toInt_ofInt_nat ?_, toInt_ofInt_nat ?_, toInt_ofInt_nat ?_⟩ <;>
      omega

/-- A valid slot. -/
def sampleSlot : FrameSlot where
  field
    | .sequence | .frameId | .captureTimestampUs => 1
    | .width => 1920
    | .height => 1080
    | .stride => 1920
    | .payloadLength => 3110400

/-- The default rates, and a picture of another size than asked for. -/
theorem handshake_agreement_default :
    ∃ info, performHandshake ScalarJson.orgJson
        (handshakeResponse (effectiveConfig {} { width := 1920, height := 1080 }) ++ []) =
          .ok (info, []) ∧
      info.Agrees (effectiveConfig {} { width := 1920, height := 1080 }) :=
  (@handshake_agreement ScalarJson.orgJson [] {} false (by decide +kernel) sampleSlot (by decide) _
    ⟨rfl, rfl⟩ _ _ (eval_sendResponse_all _ _) []).2 (by decide)

/-- A bit rate of `2 ^ 31` is accepted on the command line, but not by the client. -/
theorem handshake_disagreement :
    ¬∀ (json : OrgJson) (args : List Text) (config : StreamConfig) (showHelp : Bool)
      (slot : FrameSlot) (firstFrame : CapturedFrame) (answer : Text → Text → Wire.Sent)
      (written rest : Text), parseCommandLine args = .ok (config, showHelp) →
      slot.validLength ≠ none →
      firstFrame.width = slot.field .width ∧ firstFrame.height = slot.field .height →
      (sendHandshakeResponse (effectiveConfig config firstFrame)).eval (socketHandler answer) [] =
        (.ok (), written) →
      ∃ info, performHandshake json (written ++ rest) = .ok (info, rest) ∧
        info.Agrees (effectiveConfig config firstFrame) := by
  intro h
  obtain ⟨info, hinfo, -⟩ := h ScalarJson.orgJson [utf8 "--bitrate=2147483648"]
    { bitrate := 2147483648 } false sampleSlot { width := 1920, height := 1080 }
    (fun _ chunk ↦ .accepted chunk.length) _ [] (by decide +kernel) (by decide) ⟨rfl, rfl⟩
    (eval_sendResponse_all _ _)
  rw [List.nil_append, performHandshake_handshakeResponse] at hinfo
  · cases hinfo
  · exact ⟨by decide, by decide, by decide, by decide⟩

end SecondScreen.Client
