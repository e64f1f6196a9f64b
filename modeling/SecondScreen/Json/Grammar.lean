import Mathlib.Data.List.Basic
import Mathlib.Tactic.SplitIfs

/-!
# The grammar of JSON

RFC 8259 over bytes: whitespace, numbers, strings with what they denote, and values.  Bytes
from `0x20` on may stand in a string as they are, and an escaped surrogate stands for a
character only with its other half.

An item of an array or of an object comes with the whitespace around it, so the list of
the items determines the text.
-/

namespace SecondScreen.Json

abbrev Text := List UInt8

/-- The byte of an ASCII character. -/
abbrev ascii (c : Char) : UInt8 := c.toUInt8

/-- `%x22`. -/
abbrev quotationMark : UInt8 := 0x22

/-- `%x5C`. -/
abbrev reverseSolidus : UInt8 := 0x5c

/-! ## Whitespace -/

def isWhitespace (b : UInt8) : Bool := b = 0x20 || b = 0x09 || b = 0x0d || b = 0x0a

/-- `ws`. -/
def Whitespace (t : Text) : Prop := ∀ b ∈ t, isWhitespace b = true

/-- A text with the whitespace around it. -/
structure Padded where
  before : Text
  text : Text
  after : Text
  whitespace_before : Whitespace before
  whitespace_after : Whitespace after

def Padded.all (p : Padded) : Text := p.before ++ p.text ++ p.after

/-- The items, separated by commas. -/
def commaSeparated (items : List Padded) : Text :=
  List.intercalate [ascii ','] (items.map Padded.all)

/-- What stands between the brackets of an array or an object. -/
def Body (items : List Padded) (t : Text) : Prop :=
  items = [] ∧ Whitespace t ∨ items ≠ [] ∧ t = commaSeparated items

/-! ## Numbers -/

def isDigit (b : UInt8) : Bool := ascii '0' ≤ b && b ≤ ascii '9'

/-- `1*DIGIT`. -/
def Digits (t : Text) : Prop := t ≠ [] ∧ ∀ b ∈ t, isDigit b = true

/-- `[ minus ]`. -/
def Minus (t : Text) : Prop := t = [] ∨ t = [ascii '-']

/-- `int`. -/
def IntPart (t : Text) : Prop :=
  t = [ascii '0'] ∨ ∃ d digits, isDigit d = true ∧ d ≠ ascii '0' ∧
    (∀ b ∈ digits, isDigit b = true) ∧ t = d :: digits

/-- `[ frac ]`. -/
def Frac (t : Text) : Prop := t = [] ∨ ∃ digits, Digits digits ∧ t = ascii '.' :: digits

/-- `[ exp ]`. -/
def Exp (t : Text) : Prop :=
  t = [] ∨ ∃ e sign digits, (e = ascii 'e' ∨ e = ascii 'E') ∧
    (sign = [] ∨ sign = [ascii '+'] ∨ sign = [ascii '-']) ∧ Digits digits ∧
      t = e :: (sign ++ digits)

/-- `number`. -/
def IsNumber (t : Text) : Prop :=
  ∃ minus int frac exp, Minus minus ∧ IntPart int ∧ Frac frac ∧ Exp exp ∧
    t = minus ++ (int ++ (frac ++ exp))

/-- The value of decimal digits. -/
def digitsValue (t : Text) : Nat := t.foldl (fun n b ↦ 10 * n + (b.toNat - 48)) 0

/-- A number without `frac` and `exp`, and its value. -/
def IsInteger (z : Int) (t : Text) : Prop :=
  ∃ int, IntPart int ∧
    (t = int ∧ z = digitsValue int ∨ t = ascii '-' :: int ∧ z = -digitsValue int)

/-! ## Strings -/

/-- The value of a `HEXDIG`. -/
def hexDigit (b : UInt8) : Option Nat :=
  if ascii '0' ≤ b ∧ b ≤ ascii '9' then some (b.toNat - 48)
  else if ascii 'a' ≤ b ∧ b ≤ ascii 'f' then some (b.toNat - 97 + 10)
  else if ascii 'A' ≤ b ∧ b ≤ ascii 'F' then some (b.toNat - 65 + 10)
  else none

/-- `4HEXDIG`, and its value. -/
def Hex4 (n : Nat) (t : Text) : Prop :=
  ∃ b₀ b₁ b₂ b₃ d₀ d₁ d₂ d₃, t = [b₀, b₁, b₂, b₃] ∧ hexDigit b₀ = some d₀ ∧
    hexDigit b₁ = some d₁ ∧ hexDigit b₂ = some d₂ ∧ hexDigit b₃ = some d₃ ∧
      n = 16 * (16 * (16 * d₀ + d₁) + d₂) + d₃

/-- What the character after a reverse solidus stands for, unless it is a `u`. -/
def unescape (b : UInt8) : Option UInt8 :=
  if b = quotationMark then some quotationMark
  else if b = reverseSolidus then some reverseSolidus
  else if b = ascii '/' then some (ascii '/')
  else if b = ascii 'b' then some 0x08
  else if b = ascii 'f' then some 0x0c
  else if b = ascii 'n' then some 0x0a
  else if b = ascii 'r' then some 0x0d
  else if b = ascii 't' then some 0x09
  else none

def HighSurrogate (n : Nat) : Prop := 0xd800 ≤ n ∧ n ≤ 0xdbff

def LowSurrogate (n : Nat) : Prop := 0xdc00 ≤ n ∧ n ≤ 0xdfff

instance (n : Nat) : Decidable (HighSurrogate n) := inferInstanceAs (Decidable (_ ∧ _))

instance (n : Nat) : Decidable (LowSurrogate n) := inferInstanceAs (Decidable (_ ∧ _))

/-- `u` and four digits, after a reverse solidus. -/
def unicodeEscape (hex : Text) : Text := reverseSolidus :: ascii 'u' :: hex

/-- `char`, and the bytes that it denotes. -/
inductive IsChar : Text → Text → Prop
  | unescaped {b : UInt8} : 0x20 ≤ b → b ≠ quotationMark → b ≠ reverseSolidus → IsChar [b] [b]
  | escaped {b c : UInt8} : unescape b = some c → IsChar [c] [reverseSolidus, b]
  | unicode {n : Nat} {hex : Text} : Hex4 n hex → ¬HighSurrogate n → ¬LowSurrogate n →
      IsChar (String.utf8EncodeChar (Char.ofNat n)) (unicodeEscape hex)
  | surrogates {high low : Nat} {hex hex' : Text} : Hex4 high hex → HighSurrogate high →
      Hex4 low hex' → LowSurrogate low →
      IsChar (String.utf8EncodeChar
        (Char.ofNat (0x10000 + (high - 0xd800) * 0x400 + (low - 0xdc00))))
        (unicodeEscape hex ++ unicodeEscape hex')

/-- `*char`. -/
inductive IsChars : Text → Text → Prop
  | nil : IsChars [] []
  | cons {c t cs ts : Text} : IsChar c t → IsChars cs ts → IsChars (c ++ cs) (t ++ ts)

/-- `string`, and the bytes that it denotes. -/
def IsString (s t : Text) : Prop :=
  ∃ chars, IsChars s chars ∧ t = quotationMark :: (chars ++ [quotationMark])

/-! ## Values -/

/-- `true`, `false` and `null`. -/
def literals : List Text :=
  [[ascii 't', ascii 'r', ascii 'u', ascii 'e'],
    [ascii 'f', ascii 'a', ascii 'l', ascii 's', ascii 'e'],
    [ascii 'n', ascii 'u', ascii 'l', ascii 'l']]

/-- A name with its value, and the whitespace around both. -/
structure Member where
  key : Text
  name : Padded
  value : Padded
  isString : IsString key name.text

/-- The member as an item of an object. -/
def Member.padded (m : Member) : Padded where
  before := m.name.before
  text := m.name.text ++ (m.name.after ++ (ascii ':' :: (m.value.before ++ m.value.text)))
  after := m.value.after
  whitespace_before := m.name.whitespace_before
  whitespace_after := m.value.whitespace_after

/-- `value`. -/
inductive IsValue : Text → Prop
  | string {s t : Text} : IsString s t → IsValue t
  | number {t : Text} : IsNumber t → IsValue t
  | literal {t : Text} : t ∈ literals → IsValue t
  | array {items : List Padded} {body : Text} : Body items body →
      (∀ p ∈ items, IsValue p.text) → IsValue (ascii '[' :: (body ++ [ascii ']']))
  | object {members : List Member} {body : Text} : Body (members.map Member.padded) body →
      (∀ m ∈ members, IsValue m.value.text) → IsValue (ascii '{' :: (body ++ [ascii '}']))

/-- An object with these members. -/
def IsObject (members : List Member) (t : Text) : Prop :=
  (∀ m ∈ members, IsValue m.value.text) ∧
    ∃ body, Body (members.map Member.padded) body ∧ t = ascii '{' :: (body ++ [ascii '}'])

/-- An array of strings that denote these bytes. -/
def IsStringArray (strings : List Text) (t : Text) : Prop :=
  ∃ items body, List.Forall₂ (fun s p ↦ IsString s (Padded.text p)) strings items ∧
    Body items body ∧ t = ascii '[' :: (body ++ [ascii ']'])

theorem hexDigit_lt {b : UInt8} {d : Nat} (h : hexDigit b = some d) : d < 16 := by
  rw [hexDigit] at h
  split_ifs at h with h₁ h₂ h₃ <;> cases h
  · have hb : b.toNat ≤ 57 := UInt8.le_iff_toNat_le.1 h₁.2
    omega
  · have hb : b.toNat ≤ 102 := UInt8.le_iff_toNat_le.1 h₂.2
    omega
  · have hb : b.toNat ≤ 70 := UInt8.le_iff_toNat_le.1 h₃.2
    omega

theorem Hex4.length {n : Nat} {t : Text} (h : Hex4 n t) : t.length = 4 := by
  obtain ⟨_, _, _, _, _, _, _, _, rfl, -⟩ := h
  rfl

theorem Hex4.lt {n : Nat} {t : Text} (h : Hex4 n t) : n < 0x10000 := by
  obtain ⟨_, _, _, _, _, _, _, _, -, h₀, h₁, h₂, h₃, rfl⟩ := h
  have := hexDigit_lt h₀
  have := hexDigit_lt h₁
  have := hexDigit_lt h₂
  have := hexDigit_lt h₃
  omega

theorem IsChar.length_pos {c t : Text} (h : IsChar c t) : 0 < t.length := by
  cases h <;> simp [unicodeEscape]

/-- A number begins with a digit. -/
theorem IntPart.cons {int : Text} (h : IntPart int) :
    ∃ d digits, int = d :: digits ∧ isDigit d = true := by
  rcases h with rfl | ⟨d, digits, hd, -, -, rfl⟩
  · exact ⟨_, _, rfl, rfl⟩
  · exact ⟨d, digits, rfl, hd⟩

theorem IsInteger.isNumber {z : Int} {t : Text} (h : IsInteger z t) : IsNumber t := by
  obtain ⟨int, hint, ⟨rfl, -⟩ | ⟨rfl, -⟩⟩ := h
  · exact ⟨[], t, [], [], .inl rfl, hint, .inl rfl, .inl rfl, by simp⟩
  · exact ⟨[ascii '-'], int, [], [], .inr rfl, hint, .inl rfl, .inl rfl, by simp⟩

theorem IsStringArray.isValue {strings : List Text} {t : Text} (h : IsStringArray strings t) :
    IsValue t := by
  obtain ⟨items, body, hstrings, hbody, rfl⟩ := h
  refine .array hbody ?_
  clear hbody
  induction hstrings with
  | nil => exact fun p hp ↦ by cases hp
  | cons hs _ ih => exact List.forall_mem_cons.2 ⟨.string hs, ih⟩

end SecondScreen.Json
