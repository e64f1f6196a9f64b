import Mathlib.Algebra.Group.Int.Defs
import SecondScreen.Json.Separated

/-!
# `JsonParser`

The parser of the handshake in `main.cpp`, from `AppendUtf8` to `SkipValue`.  A function
takes what is left between `current_` and `end_` and returns what it leaves; where the source
returns `false` there is no more to say than that, except for the error of
`ParseHandshake`.

`SkipValue` calls itself for nested objects and arrays, to any depth: the stack of the thread is
taken as large enough for the line.
-/

namespace SecondScreen.Host

open SecondScreen.Json

/-- `AppendUtf8`. -/
def appendUtf8 (output : Text) (codePoint : Nat) : Text :=
  if codePoint ≤ 0x7f then
    output ++ [UInt8.ofNat codePoint]
  else if codePoint ≤ 0x7ff then
    output ++ [UInt8.ofNat (0xc0 ||| (codePoint >>> 6)),
      UInt8.ofNat (0x80 ||| (codePoint &&& 0x3f))]
  else if codePoint ≤ 0xffff then
    output ++
      [UInt8.ofNat (0xe0 ||| (codePoint >>> 12)),
        UInt8.ofNat (0x80 ||| ((codePoint >>> 6) &&& 0x3f)),
        UInt8.ofNat (0x80 ||| (codePoint &&& 0x3f))]
  else
    output ++
      [UInt8.ofNat (0xf0 ||| (codePoint >>> 18)),
        UInt8.ofNat (0x80 ||| ((codePoint >>> 12) &&& 0x3f)),
        UInt8.ofNat (0x80 ||| ((codePoint >>> 6) &&& 0x3f)),
        UInt8.ofNat (0x80 ||| (codePoint &&& 0x3f))]

namespace JsonParser

/-! ## Strings -/

/-- The loop of `ParseHex4`. -/
def parseHexDigits : (count value : Nat) → Text → Except Unit (Nat × Text)
  | 0, value, s => .ok (value, s)
  | _ + 1, _, [] => .error ()
  | count + 1, value, c :: s =>
      match hexDigit c with
      | some digit => parseHexDigits count ((value <<< 4) ||| digit) s
      | none => .error ()

def parseHex4 (s : Text) : Except Unit (Nat × Text) :=
  if s.length < 4 then .error () else parseHexDigits 4 0 s

/-- The case `'u'` in `ParseString`, up to the code point. -/
def parseCodePoint (s : Text) : Except Unit (Nat × Text) := do
  let (codePoint, s) ← parseHex4 s
  if 0xd800 ≤ codePoint ∧ codePoint ≤ 0xdbff then
    if s.length < 6 ∨ s[0]? ≠ some reverseSolidus ∨ s[1]? ≠ some (ascii 'u') then throw ()
    else
      let (low, s) ← parseHex4 (s.drop 2)
      if low < 0xdc00 ∨ low > 0xdfff then throw ()
      else return (0x10000 + ((codePoint - 0xd800) <<< 10) + (low - 0xdc00), s)
  else if 0xdc00 ≤ codePoint ∧ codePoint ≤ 0xdfff then throw ()
  else return (codePoint, s)

/-- The loop of `ParseString`: each pass takes a byte at least. -/
def parseChars : Nat → Text → Text → Except Unit (Text × Text)
  | 0, _, _ => .error ()
  | _ + 1, _, [] => .error ()
  | n + 1, output, c :: s =>
      if c = quotationMark then .ok (output, s)
      else if c < 0x20 then .error ()
      else if c ≠ reverseSolidus then parseChars n (output ++ [c]) s
      else
        match s with
        | [] => .error ()
        | escape :: s =>
            match unescape escape with
            | some b => parseChars n (output ++ [b]) s
            | none =>
                if escape = ascii 'u' then
                  match parseCodePoint s with
                  | .ok (codePoint, s) => parseChars n (appendUtf8 output codePoint) s
                  | .error _ => .error ()
                else .error ()

def parseString (s : Text) : Except Unit (Text × Text) :=
  match consume quotationMark s with
  | some s => parseChars s.length [] s
  | none => .error ()

/-- One pass of the loop of `ParseStringArray`, up to the whitespace. -/
def parseElement (output : List Text) (s : Text) : Except Unit (List Text × Text) := do
  let (value, s) ← parseString s
  return (output ++ [value], s)

def parseStringArray (s : Text) : Except Unit (List Text × Text) :=
  match consume (ascii '[') s with
  | some s => separatedOrNone (ascii ']') () parseElement s.length [] s
  | none => .error ()

/-! ## Numbers -/

/-- A minus, if there is one. -/
def skipMinus : Text → Text
  | [] => []
  | c :: s => if c = ascii '-' then s else c :: s

def skipDigits (s : Text) : Text := s.dropWhile isDigit

/-- `std::from_chars` for an `int64_t`, on a minus or none and decimal digits. -/
def fromChars (token : Text) : Option Int :=
  let value : Int :=
    match token with
    | [] => 0
    | c :: digits => if c = ascii '-' then -digitsValue digits else digitsValue (c :: digits)
  if -2 ^ 63 ≤ value ∧ value < 2 ^ 63 then some value else none

/-- The digits of `ParseInteger`, none after a zero. -/
def skipInteger : Text → Except Unit Text
  | [] => .error ()
  | c :: s =>
      if !isDigit c then .error ()
      else if c = ascii '0' then
        match s with
        | [] => .ok []
        | d :: s => if isDigit d then .error () else .ok (d :: s)
      else .ok (skipDigits (c :: s))

/-- The byte goes on with a fraction or an exponent. -/
def isFraction (c : UInt8) : Bool := c = ascii '.' || c = ascii 'e' || c = ascii 'E'

def parseInteger (start : Text) : Except Unit (Int × Text) := do
  let s ← skipInteger (skipMinus start)
  if s.head?.any isFraction then throw ()
  else
    match fromChars (start.take (start.length - s.length)) with
    | some value => return (value, s)
    | none => throw ()

/-- The integer part in `SkipNumber`. -/
def skipIntPart : Text → Except Unit Text
  | [] => .error ()
  | c :: s =>
      if !isDigit c then .error ()
      else if c = ascii '0' then .ok s
      else .ok (skipDigits (c :: s))

/-- One digit at least, in `SkipNumber`. -/
def skipSomeDigits : Text → Except Unit Text
  | [] => .error ()
  | c :: s => if !isDigit c then .error () else .ok (skipDigits (c :: s))

/-- The fraction, if there is one. -/
def skipFraction : Text → Except Unit Text
  | [] => .ok []
  | c :: s => if c = ascii '.' then skipSomeDigits s else .ok (c :: s)

def skipSign : Text → Text
  | [] => []
  | c :: s => if c = ascii '+' ∨ c = ascii '-' then s else c :: s

/-- The exponent, if there is one. -/
def skipExponent : Text → Except Unit Text
  | [] => .ok []
  | c :: s => if c = ascii 'e' ∨ c = ascii 'E' then skipSomeDigits (skipSign s) else .ok (c :: s)

def skipNumber (s : Text) : Except Unit Text := do
  let s ← skipIntPart (skipMinus s)
  let s ← skipFraction s
  skipExponent s

/-! ## Values -/

def parseLiteral (literal s : Text) : Except Unit Text :=
  if s.length < literal.length ∨ s.take literal.length ≠ literal then .error ()
  else .ok (s.drop literal.length)

/-- One pass of the loop over the members in `SkipValue`, up to the whitespace. -/
def skipMember (skipValue : Text → Except Unit Text) (_ : Unit) (s : Text) :
    Except Unit (Unit × Text) := do
  let (_, s) ← parseString s
  match consume (ascii ':') (skipWhitespace s) with
  | some s => return ((), ← skipValue s)
  | none => throw ()

/-- One pass of the loop over the elements in `SkipValue`, up to the whitespace. -/
def skipElement (skipValue : Text → Except Unit Text) (_ : Unit) (s : Text) :
    Except Unit (Unit × Text) := do
  return ((), ← skipValue s)

/-- `SkipValue`.  A value within a value is shorter, so the count is never used up where it
is not less than the number of bytes. -/
def skipValue : Nat → Text → Except Unit Text
  | 0, _ => .error ()
  | n + 1, s =>
      match skipWhitespace s with
      | [] => .error ()
      | c :: s =>
          if c = quotationMark then (parseString (c :: s)).map Prod.snd
          else if c = ascii '{' then
            (separatedOrNone (ascii '}') () (skipMember (skipValue n)) n () s).map Prod.snd
          else if c = ascii '[' then
            (separatedOrNone (ascii ']') () (skipElement (skipValue n)) n () s).map Prod.snd
          else if c = ascii 't' then parseLiteral (['t', 'r', 'u', 'e'].map ascii) (c :: s)
          else if c = ascii 'f' then parseLiteral (['f', 'a', 'l', 's', 'e'].map ascii) (c :: s)
          else if c = ascii 'n' then parseLiteral (['n', 'u', 'l', 'l'].map ascii) (c :: s)
          else skipNumber (c :: s)

/-! ## The handshake -/

structure Handshake where
  protocol : Int := 0
  device : Text := []
  width : Int := 0
  height : Int := 0
  decoders : List Text := []
  hasProtocol : Bool := false
  hasDevice : Bool := false
  hasWidth : Bool := false
  hasHeight : Bool := false
  hasDecoders : Bool := false
deriving DecidableEq, Repr

def protocolKey : Text := ['p', 'r', 'o', 't', 'o', 'c', 'o', 'l'].map ascii
def deviceKey : Text := ['d', 'e', 'v', 'i', 'c', 'e'].map ascii
def widthKey : Text := ['w', 'i', 'd', 't', 'h'].map ascii
def heightKey : Text := ['h', 'e', 'i', 'g', 'h', 't'].map ascii
def decoderKey : Text := ['d', 'e', 'c', 'o', 'd', 'e', 'r'].map ascii

/-- `"h264"`. -/
def h264 : Text := ['h', '2', '6', '4'].map ascii

/-- A field that may occur only once. -/
def parseField {α : Type} (has : Bool) (parse : Text → Except Unit (α × Text)) (error : String)
    (s : Text) : Except String (α × Text) :=
  if has then .error error else (parse s).mapError fun _ ↦ error

/-- The value of a member in `ParseHandshake`. -/
def parseMemberValue (handshake : Handshake) (key s : Text) :
    Except String (Handshake × Text) := do
  if key = protocolKey then
    let (protocol, s) ←
      parseField handshake.hasProtocol parseInteger "protocol must be a unique integer" s
    return ({ handshake with protocol, hasProtocol := true }, s)
  else if key = deviceKey then
    let (device, s) ←
      parseField handshake.hasDevice parseString "device must be a unique string" s
    return ({ handshake with device, hasDevice := true }, s)
  else if key = widthKey then
    let (width, s) ←
      parseField handshake.hasWidth parseInteger "width must be a unique integer" s
    return ({ handshake with width, hasWidth := true }, s)
  else if key = heightKey then
    let (height, s) ←
      parseField handshake.hasHeight parseInteger "height must be a unique integer" s
    return ({ handshake with height, hasHeight := true }, s)
  else if key = decoderKey then
    let (decoders, s) ←
      parseField handshake.hasDecoders parseStringArray "decoder must be a unique string array" s
    return ({ handshake with decoders, hasDecoders := true }, s)
  else
    let s ← (skipValue s.length s).mapError fun _ ↦ "handshake contains an invalid JSON value"
    return (handshake, s)

/-- One pass of the loop of `ParseHandshake`, up to the whitespace. -/
def parseMember (handshake : Handshake) (s : Text) : Except String (Handshake × Text) :=
  match parseString s with
  | .error _ => .error "handshake contains an invalid object key"
  | .ok (key, s) =>
      match consume (ascii ':') (skipWhitespace s) with
      | none => .error "handshake object key is missing ':'"
      | some s => parseMemberValue handshake key (skipWhitespace s)

/-- What `ParseHandshake` demands of the fields. -/
def checkHandshake (handshake : Handshake) : Except String Handshake :=
  if !handshake.hasProtocol || handshake.protocol ≠ 1 then
    .error "unsupported protocol; expected protocol=1"
  else if !handshake.hasDevice || handshake.device.isEmpty then
    .error "device must be non-empty"
  else if !handshake.hasWidth || handshake.width ≤ 0 || handshake.width > 16384 then
    .error "width must be between 1 and 16384"
  else if !handshake.hasHeight || handshake.height ≤ 0 || handshake.height > 16384 then
    .error "height must be between 1 and 16384"
  else if !handshake.hasDecoders || handshake.decoders ≠ [h264] then
    .error "decoder must be [\"h264\"]"
  else .ok handshake

def parseHandshake (s : Text) : Except String Handshake :=
  match consume (ascii '{') (skipWhitespace s) with
  | none => .error "handshake must be a JSON object"
  | some s =>
      match consume (ascii '}') (skipWhitespace s) with
      | some _ => .error "handshake object is missing required fields"
      | none => do
          let (handshake, s) ← separated (ascii '}') "handshake object is missing ','" parseMember
            s.length {} (skipWhitespace s)
          if skipWhitespace s ≠ [] then throw "handshake has trailing data after JSON object"
          else checkHandshake handshake

end JsonParser

end SecondScreen.Host
