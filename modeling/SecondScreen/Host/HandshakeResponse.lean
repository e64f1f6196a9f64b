import SecondScreen.Host.CommandLine
import SecondScreen.Ring.Reader
import SecondScreen.Wire.PacketWriter

/-!
# The answer to the handshake

What `StreamClient` makes of the configuration when it has the first frame, and
`SendHandshakeResponse`, on a socket that takes what it is given in portions of any size.
-/

namespace SecondScreen.Host

open SecondScreen.Json SecondScreen.Conc SecondScreen.Wire SecondScreen.Ring

/-- The `effectiveConfig` of `StreamClient`. -/
def effectiveConfig (config : StreamConfig) (firstFrame : CapturedFrame) : StreamConfig :=
  if firstFrame.width ≠ config.width ∨ firstFrame.height ≠ config.height then
    { config with width := firstFrame.width, height := firstFrame.height }
  else config

/-- The size is that of the frame in either case. -/
theorem effectiveConfig_size (config : StreamConfig) (firstFrame : CapturedFrame) :
    (effectiveConfig config firstFrame).width = firstFrame.width ∧
      (effectiveConfig config firstFrame).height = firstFrame.height := by
  rw [effectiveConfig]
  split_ifs with h
  · exact ⟨rfl, rfl⟩
  · rw [not_or, not_not, not_not] at h
    exact ⟨h.1.symm, h.2.symm⟩

theorem effectiveConfig_rates (config : StreamConfig) (firstFrame : CapturedFrame) :
    (effectiveConfig config firstFrame).fps = config.fps ∧
      (effectiveConfig config firstFrame).bitrate = config.bitrate := by
  rw [effectiveConfig]
  split_ifs <;> exact ⟨rfl, rfl⟩

/-- The `response` of `SendHandshakeResponse`. -/
def handshakeResponse (config : StreamConfig) : Text :=
  utf8 "\x7b\"codec\":\"h264\",\"width\":" ++ decimal config.width ++ utf8 ",\"height\":" ++
    decimal config.height ++ utf8 ",\"fps\":" ++ decimal config.fps ++ utf8 ",\"bitrate\":" ++
    decimal config.bitrate ++ utf8 "\x7d\n"

/-- The loop of `SendHandshakeResponse`. -/
def sendResponse (response : Text) : Prog WireOp SendResult :=
  if _h : response = [] then .ret (.ok ())
  else
    .act (.send response) fun
      | .error code text =>
          .ret (.error ("send(handshake response) failed (" ++ toString code ++ "): " ++ text))
      | .accepted 0 => .ret (.error "client disconnected while receiving handshake response")
      | .accepted (sent + 1) => sendResponse (response.drop (sent + 1))
termination_by response.length
decreasing_by
  have := List.length_pos_iff.2 _h
  simp
  omega

def sendHandshakeResponse (config : StreamConfig) : Prog WireOp SendResult :=
  sendResponse (handshakeResponse config)

/-- A socket by what it takes, given what it has taken and what it is given; never more than
that. -/
def socketHandler (answer : Text → Text → Sent) : Prog.Handler WireOp Text
  | _, .send chunk, written =>
      match answer written chunk with
      | .accepted count => (.accepted (min count chunk.length), written ++ chunk.take count)
      | .error code text => (.error code text, written)
  | _, .select, written => (.ready, written)
  | _, .nowMicros, written => (0, written)
  | _, .lock, written => ((), written)
  | _, .unlock, written => ((), written)

/-- If the loop ends well, all is written. -/
theorem sendResponse_written {answer : Text → Text → Sent} {response written written' : Text}
    (h : (sendResponse response).eval (socketHandler answer) written = (.ok (), written')) :
    written' = written ++ response := by
  induction response using sendResponse.induct generalizing written with
  | case1 =>
      rw [sendResponse, dif_pos rfl] at h
      cases h
      exact (List.append_nil _).symm
  | case2 response hne ih =>
      rw [sendResponse, dif_neg hne, Prog.eval_act] at h
      simp only [socketHandler] at h
      cases hanswer : answer written response with
      | error code text =>
          rw [hanswer] at h
          cases h
      | accepted count =>
          rw [hanswer] at h
          simp only at h
          cases hcount : min count response.length with
          | zero =>
              rw [hcount] at h
              cases h
          | succ sent =>
              rw [hcount] at h
              have htake : response.take count = response.take (sent + 1) := by
                rw [← hcount, ← List.take_take, List.take_length]
              rw [ih sent h, htake, List.append_assoc, List.take_append_drop]

/-- A socket that takes all at once. -/
theorem eval_sendResponse_all (response written : Text) :
    (sendResponse response).eval (socketHandler fun _ chunk ↦ .accepted chunk.length) written =
      (.ok (), written ++ response) := by
  by_cases hresponse : response = []
  · subst hresponse
    rw [sendResponse, dif_pos rfl, List.append_nil]
    rfl
  · rw [sendResponse, dif_neg hresponse, Prog.eval_act]
    obtain ⟨b, s, rfl⟩ := List.exists_cons_of_ne_nil hresponse
    simp only [socketHandler, min_self, List.take_length]
    show (sendResponse ((b :: s).drop (s.length + 1))).eval _ _ = _
    have hdrop : (b :: s).drop (s.length + 1) = [] := List.drop_of_length_le (Nat.le_refl _)
    rw [hdrop, sendResponse, dif_pos rfl]
    rfl

end SecondScreen.Host
