import Mathlib.Algebra.Group.Int.Defs
import SecondScreen.Client.VideoDecoder
import SecondScreen.Json.Writer

/-!
# The answer to the handshake, on the client

`readLine` and `performHandshake` of `ConnectionManager.java`, from the point on where the
request is sent.  A line is kept as the bytes of its text, so that decoding it is left to
`OrgJson.parse`.
-/

namespace SecondScreen.Client

open SecondScreen.Json

/-! ## `org.json` -/

/-- An integer in the range of a `long`. -/
def IsLong (z : Int) (t : Text) : Prop := IsInteger z t ∧ -2 ^ 63 ≤ z ∧ z < 2 ^ 63

/-- A string, or an integer in the range of a `long`. -/
def Scalar (t : Text) : Prop := (∃ s, IsString (utf8 s) t) ∨ ∃ z, IsLong z t

/-- What the client uses of `org.json`, and how it treats objects of scalars. -/
structure OrgJson where
  JSONObject : Type
  /-- The constructor from a text: an object, or the message of the exception. -/
  parse : Text → Except String JSONObject
  optString : (object : JSONObject) → (name fallback : String) → String
  optInt : (object : JSONObject) → (name : String) → (fallback : Int32) → Int32
  parse_object : ∀ {members : List Member} {t : Text}, IsObject members t →
    (members.map Member.key).Nodup → (∀ m ∈ members, Scalar m.value.text) →
    ∃ object, parse t = .ok object ∧ ∀ m ∈ members, ∀ name, utf8 name = m.key →
      (∀ s fallback, IsString (utf8 s) m.value.text → optString object name fallback = s) ∧
      ∀ z fallback, IsLong z m.value.text → optInt object name fallback = Int32.ofInt z

/-! ## The client -/

structure ConnectionInfo where
  codec : String
  width : Int32
  height : Int32
  fps : Int32
  bitrate : Int32
deriving DecidableEq

namespace ConnectionManager

def HANDSHAKE_LINE_LIMIT : Nat := 64 * 1024

/-- `String.trim`.  No byte up to `0x20` is a part of a longer character. -/
def trim (t : Text) : Text :=
  ((t.dropWhile (· ≤ 0x20)).reverse.dropWhile (· ≤ 0x20)).reverse

/-- `readLine`, with the bytes of the line so far: the line, and the rest of the input. -/
def readLine (line : Text) : Text → Except IOException (Text × Text)
  | [] =>
      if line.length < HANDSHAKE_LINE_LIMIT then
        .error (.io "Host closed the connection during handshake")
      else
        .error (.protocol ("Host handshake exceeds " ++ toString HANDSHAKE_LINE_LIMIT ++ " bytes"))
  | value :: input =>
      if line.length < HANDSHAKE_LINE_LIMIT then
        if value = ascii '\n' then .ok (trim line, input) else readLine (line ++ [value]) input
      else
        .error (.protocol ("Host handshake exceeds " ++ toString HANDSHAKE_LINE_LIMIT ++ " bytes"))

/-- `String.equalsIgnoreCase`, where one string has no letters but those of `h264`: no other
characters are these up to case. -/
def equalsIgnoreCase (s t : String) : Bool := s.toList.map Char.toLower = t.toList.map Char.toLower

/-- `performHandshake` after the request: the information, and the rest of the input. -/
def performHandshake (json : OrgJson) (input : Text) :
    Except IOException (ConnectionInfo × Text) := do
  let (line, input) ← readLine [] input
  match json.parse line with
  | .error message => throw (.protocol ("Host handshake is not valid JSON: " ++ message))
  | .ok response =>
      let codec := json.optString response "codec" ""
      let responseWidth := json.optInt response "width" 0
      let responseHeight := json.optInt response "height" 0
      let fps := json.optInt response "fps" 0
      let bitrate := json.optInt response "bitrate" 0
      if !equalsIgnoreCase "h264" codec then
        throw (.protocol ("Host selected unsupported codec: " ++ codec))
      else if responseWidth ≤ 0 ∨ responseHeight ≤ 0 ∨
          responseWidth > 16384 ∨ responseHeight > 16384 then
        throw (.protocol ("Host returned invalid video dimensions: " ++ toString responseWidth ++
          "x" ++ toString responseHeight))
      else if fps ≤ 0 ∨ fps > 240 then
        throw (.protocol ("Host returned invalid frame rate: " ++ toString fps))
      else if bitrate ≤ 0 then
        throw (.protocol ("Host returned invalid bitrate: " ++ toString bitrate))
      else return ({
        codec := "h264", width := responseWidth, height := responseHeight, fps, bitrate }, input)

/-! ## Lines -/

theorem dropWhile_of_head {t : Text} (h : ∀ b ∈ t.head?, ¬b ≤ 0x20) :
    t.dropWhile (· ≤ 0x20) = t := by
  cases t with
  | nil => rfl
  | cons b t =>
      apply List.dropWhile_cons_of_neg
      simpa using h b rfl

/-- A text that begins and ends with visible characters is not changed. -/
theorem trim_eq_self {t : Text} (hhead : ∀ b ∈ t.head?, ¬b ≤ 0x20)
    (hlast : ∀ b ∈ t.getLast?, ¬b ≤ 0x20) : trim t = t := by
  rw [List.getLast?_eq_head?_reverse] at hlast
  rw [trim, dropWhile_of_head hhead, dropWhile_of_head hlast, List.reverse_reverse]

/-- A line is read up to its end, unless it is too long. -/
theorem readLine_append {line t : Text} (ht : ascii '\n' ∉ t)
    (hlen : line.length + t.length < HANDSHAKE_LINE_LIMIT) (rest : Text) :
    readLine line (t ++ ascii '\n' :: rest) = .ok (trim (line ++ t), rest) := by
  induction t generalizing line with
  | nil =>
      have hlen : line.length < HANDSHAKE_LINE_LIMIT := hlen
      rw [List.nil_append, readLine, if_pos hlen, if_pos rfl, List.append_nil]
  | cons b t ih =>
      rw [List.mem_cons, not_or] at ht
      rw [List.length_cons] at hlen
      rw [List.cons_append, readLine, if_pos (by omega), if_neg (Ne.symm ht.1), ih ht.2]
      · rw [List.append_assoc]
        rfl
      · rw [List.length_append, List.length_singleton]
        omega

end ConnectionManager

end SecondScreen.Client
