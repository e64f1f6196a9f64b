import SecondScreen.Json.Separated
import SecondScreen.Json.Writer

/-!
# The command line

`ParseCommandLine` in `main.cpp`, over the arguments after the name of the program.
The maxima keep every value in its type, so that no `static_cast` changes it.
-/

namespace SecondScreen.Host

open SecondScreen.Json

def kDefaultWidth : Nat := 1920
def kDefaultHeight : Nat := 1200
def kDefaultFps : Nat := 60
def kDefaultBitrate : Nat := 12000000
def kDefaultPort : Nat := 5000

structure StreamConfig where
  width : Nat := kDefaultWidth
  height : Nat := kDefaultHeight
  fps : Nat := kDefaultFps
  bitrate : Nat := kDefaultBitrate
  port : Nat := kDefaultPort
  frames : Nat := 0
  probeEncoder : Bool := false
deriving DecidableEq, Repr

/-- `std::from_chars` for a `uint64_t`, and what it leaves. -/
def fromCharsUnsigned (s : Text) : Option (Nat × Text) :=
  let digits := s.takeWhile isDigit
  if digits = [] ∨ 2 ^ 64 ≤ digitsValue digits then none
  else some (digitsValue digits, s.dropWhile isDigit)

def parseUnsigned (value : Text) (maximum : Nat) : Option Nat :=
  if value = [] then none
  else
    match fromCharsUnsigned value with
    | none => none
    | some (parsed, rest) => if rest ≠ [] ∨ parsed > maximum then none else some parsed

/-- The value of an option that has a maximum and a further demand. -/
def parseOption (value : Text) (maximum : Nat) (accepts : Nat → Bool) (error : String) :
    Except Text Nat :=
  match parseUnsigned value maximum with
  | none => .error (utf8 error)
  | some parsed => if accepts parsed then .ok parsed else .error (utf8 error)

/-- The branches on `name`. -/
def setOption (config : StreamConfig) (name value : Text) : Except Text StreamConfig := do
  if name = utf8 "--width" then
    let width ← parseOption value 16384 (fun n ↦ n ≠ 0 && n % 2 = 0)
      "--width must be a positive even integer no greater than 16384"
    return { config with width }
  else if name = utf8 "--height" then
    let height ← parseOption value 16384 (fun n ↦ n ≠ 0 && n % 2 = 0)
      "--height must be a positive even integer no greater than 16384"
    return { config with height }
  else if name = utf8 "--fps" then
    let fps ← parseOption value 240 (fun n ↦ n ≠ 0) "--fps must be between 1 and 240"
    return { config with fps }
  else if name = utf8 "--bitrate" then
    let bitrate ← parseOption value (2 ^ 32 - 1) (fun n ↦ n ≠ 0)
      "--bitrate must be a positive 32-bit integer"
    return { config with bitrate }
  else if name = utf8 "--port" then
    let port ← parseOption value 65535 (fun n ↦ n ≠ 0) "--port must be between 1 and 65535"
    return { config with port }
  else if name = utf8 "--frames" then
    let frames ← parseOption value (2 ^ 64 - 1) (fun _ ↦ true)
      "--frames must be an unsigned 64-bit integer"
    return { config with frames }
  else throw (utf8 "unknown option: " ++ name)

/-- The loop over the arguments. -/
def parseArguments (config : StreamConfig) (showHelp : Bool) :
    List Text → Except Text (StreamConfig × Bool)
  | [] => .ok (config, showHelp)
  | argument :: args =>
      if argument = utf8 "--help" then parseArguments config true args
      else if argument = utf8 "--probe-encoder" then
        parseArguments { config with probeEncoder := true } showHelp args
      else if ascii '=' ∈ argument then
        let name := argument.takeWhile (· ≠ ascii '=')
        match setOption config name (argument.drop (name.length + 1)) with
        | .error error => .error error
        | .ok config => parseArguments config showHelp args
      else
        match args with
        | [] => .error (argument ++ utf8 " requires a value")
        | value :: args =>
            match setOption config argument value with
            | .error error => .error error
            | .ok config => parseArguments config showHelp args

def supportedGeometry (width height : Nat) : Bool :=
  width = 1920 && (height = 1080 || height = 1200) || width = 2560 && height = 1600

/-- `ParseCommandLine`: the configuration and whether to show the help. -/
def parseCommandLine (args : List Text) : Except Text (StreamConfig × Bool) := do
  let (config, showHelp) ← parseArguments {} false args
  if supportedGeometry config.width config.height then return (config, showHelp)
  else throw (utf8 "--width/--height must select 1920x1080, 1920x1200, or 2560x1600")

/-! ## What is accepted -/

theorem parseUnsigned_le {value : Text} {maximum n : Nat}
    (h : parseUnsigned value maximum = some n) : n ≤ maximum := by
  rw [parseUnsigned] at h
  split_ifs at h
  split at h
  · cases h
  · split_ifs at h with hbad
    cases h
    exact Nat.not_lt.1 fun hlt ↦ hbad (.inr hlt)

theorem parseOption_eq_ok {value : Text} {maximum n : Nat} {accepts : Nat → Bool} {error : String}
    (h : parseOption value maximum accepts error = .ok n) : n ≤ maximum ∧ accepts n = true := by
  rw [parseOption] at h
  split at h
  · cases h
  · next parsed hparsed =>
    split_ifs at h with haccepts
    cases h
    exact ⟨parseUnsigned_le hparsed, haccepts⟩

/-- The frame rate and the bit rate are what the options demand. -/
structure StreamConfig.RatesValid (config : StreamConfig) : Prop where
  fps : 1 ≤ config.fps ∧ config.fps ≤ 240
  bitrate : 1 ≤ config.bitrate ∧ config.bitrate < 2 ^ 32

theorem setOption_ratesValid {config config' : StreamConfig} {name value : Text}
    (hconfig : config.RatesValid) (h : setOption config name value = .ok config') :
    config'.RatesValid := by
  obtain ⟨hfps, hbitrate⟩ := hconfig
  rw [setOption] at h
  split_ifs at h
  all_goals
    obtain ⟨n, hn, h⟩ := bind_eq_ok.1 h
    cases h
    obtain ⟨hle, haccepts⟩ := parseOption_eq_ok hn
  · exact ⟨hfps, hbitrate⟩
  · exact ⟨hfps, hbitrate⟩
  · exact ⟨⟨Nat.one_le_iff_ne_zero.2 (of_decide_eq_true haccepts), hle⟩, hbitrate⟩
  · refine ⟨hfps, Nat.one_le_iff_ne_zero.2 (of_decide_eq_true haccepts), ?_⟩
    exact Nat.lt_of_le_pred (Nat.two_pow_pos 32) hle
  · exact ⟨hfps, hbitrate⟩
  · exact ⟨hfps, hbitrate⟩

/-- Each argument is one option or two. -/
theorem parseArguments_ratesValid {config config' : StreamConfig} {showHelp showHelp' : Bool}
    {args : List Text} (hconfig : config.RatesValid)
    (h : parseArguments config showHelp args = .ok (config', showHelp')) : config'.RatesValid := by
  fun_induction parseArguments config showHelp args with
  | case1 config showHelp =>
      cases h
      exact hconfig
  | case2 config showHelp args ih => exact ih hconfig h
  | case3 config showHelp args hne ih => exact ih ⟨hconfig.fps, hconfig.bitrate⟩ h
  | case4 | case6 | case7 => cases h
  | case5 config showHelp argument args _ _ _ name next hset ih =>
      exact ih (setOption_ratesValid hconfig hset) h
  | case8 config showHelp argument _ _ _ value args next hset ih =>
      exact ih (setOption_ratesValid hconfig hset) h

theorem parseCommandLine_valid {args : List Text} {config : StreamConfig} {showHelp : Bool}
    (h : parseCommandLine args = .ok (config, showHelp)) :
    config.RatesValid ∧ supportedGeometry config.width config.height = true := by
  obtain ⟨⟨config', showHelp'⟩, hargs, h⟩ := bind_eq_ok.1 h
  simp only at h
  split_ifs at h with hsupported
  cases h
  exact ⟨parseArguments_ratesValid ⟨by decide, by decide⟩ hargs, hsupported⟩

end SecondScreen.Host
