import Mathlib.Algebra.Group.Nat.Defs
import SecondScreen.Json.Grammar
import Mathlib.Data.Nat.Init

/-!
# Writing JSON

Texts that a program puts together from names, strings and decimal integers, without
whitespace and without escapes.
-/

namespace SecondScreen.Json

/-- The bytes of a string. -/
def utf8 (s : String) : Text := s.toUTF8.data.toList

/-! ## Integers -/

/-- The decimal digits of a number. -/
def decimal (n : Nat) : Text := (Nat.toDigits 10 n).map ascii

theorem decimal_of_lt {n : Nat} (h : n < 10) : decimal n = [ascii n.digitChar] := by
  rw [decimal, Nat.toDigits_of_lt_base h]
  rfl

/-- The last digit is written last. -/
theorem decimal_concat {n d : Nat} (hn : 0 < n) (hd : d < 10) :
    decimal (10 * n + d) = decimal n ++ [ascii d.digitChar] := by
  rw [decimal, ← Nat.toDigits_append_toDigits (by decide) hn hd, List.map_append,
    Nat.toDigits_of_lt_base hd]
  rfl

theorem isDigit_digitChar : ∀ d < 10, isDigit (ascii d.digitChar) = true := by decide

theorem digitChar_sub : ∀ d < 10, (ascii d.digitChar).toNat - 48 = d := by decide

theorem digitsValue_concat (t : Text) (b : UInt8) :
    digitsValue (t ++ [b]) = 10 * digitsValue t + (b.toNat - 48) := by
  rw [digitsValue, List.foldl_append]
  rfl

theorem digitsValue_decimal (n : Nat) : digitsValue (decimal n) = n := by
  induction n using Nat.base_induction 10 (by decide) with
  | single d hd =>
      rw [decimal_of_lt hd]
      show 10 * 0 + _ = d
      rw [digitChar_sub d hd]
      omega
  | digit n d hd hn ih => rw [decimal_concat hn hd, digitsValue_concat, ih, digitChar_sub d hd]

theorem isDigit_of_mem_decimal {n : Nat} {b : UInt8} (hb : b ∈ decimal n) : isDigit b = true := by
  induction n using Nat.base_induction 10 (by decide) with
  | single d hd =>
      rw [decimal_of_lt hd, List.mem_singleton] at hb
      subst hb
      exact isDigit_digitChar d hd
  | digit n d hd hn ih =>
      rw [decimal_concat hn hd, List.mem_append, List.mem_singleton] at hb
      rcases hb with hb | rfl
      · exact ih hb
      · exact isDigit_digitChar d hd

/-- No number but zero begins with a zero. -/
theorem intPart_decimal (n : Nat) : IntPart (decimal n) := by
  induction n using Nat.base_induction 10 (by decide) with
  | single d hd =>
      rw [decimal_of_lt hd]
      by_cases h : d = 0
      · subst h
        exact .inl rfl
      · refine .inr ⟨_, [], isDigit_digitChar d hd, ?_, (fun b hb ↦ by cases hb), rfl⟩
        have hne : ∀ d < 10, d ≠ 0 → ascii d.digitChar ≠ ascii '0' := by decide
        exact hne d hd h
  | digit n d hd hn ih =>
      rw [decimal_concat hn hd]
      rcases ih with hzero | ⟨c, digits, hc, hne, hdigits, heq⟩
      · have := digitsValue_decimal n
        rw [hzero] at this
        exact absurd hn (by rw [← this]; decide)
      · refine .inr ⟨c, digits ++ [ascii d.digitChar], hc, hne, ?_, by rw [heq]; rfl⟩
        intro b hb
        rw [List.mem_append, List.mem_singleton] at hb
        rcases hb with hb | rfl
        · exact hdigits b hb
        · exact isDigit_digitChar d hd

theorem isInteger_decimal (n : Nat) : IsInteger n (decimal n) :=
  ⟨decimal n, intPart_decimal n, .inl ⟨rfl, by rw [digitsValue_decimal]⟩⟩

theorem decimal_length_le {n k : Nat} (hk : 0 < k) (h : n < 10 ^ k) : (decimal n).length ≤ k := by
  rw [decimal, List.length_map]
  exact (Nat.length_toDigits_le_iff (by decide) hk).2 h

/-! ## Strings -/

/-- A byte that stands in a string as it is. -/
def Unescaped (b : UInt8) : Prop := 0x20 ≤ b ∧ b ≠ quotationMark ∧ b ≠ reverseSolidus

instance (b : UInt8) : Decidable (Unescaped b) := inferInstanceAs (Decidable (_ ∧ _))

def quote (s : Text) : Text := quotationMark :: (s ++ [quotationMark])

theorem isChars_self {s : Text} (h : ∀ b ∈ s, Unescaped b) : IsChars s s := by
  induction s with
  | nil => exact .nil
  | cons b s ih =>
      obtain ⟨⟨hb, hquote, hsolidus⟩, hs⟩ := List.forall_mem_cons.1 h
      exact .cons (.unescaped hb hquote hsolidus) (ih hs)

theorem isString_quote {s : Text} (h : ∀ b ∈ s, Unescaped b) : IsString s (quote s) :=
  ⟨s, isChars_self h, rfl⟩

/-! ## Objects -/

/-- A text without whitespace around it. -/
def Padded.bare (t : Text) : Padded where
  before := []
  text := t
  after := []
  whitespace_before := fun _ h ↦ by cases h
  whitespace_after := fun _ h ↦ by cases h

/-- A member without whitespace. -/
def Member.bare (key value : Text) (h : ∀ b ∈ key, Unescaped b) : Member where
  key := key
  name := .bare (quote key)
  value := .bare value
  isString := isString_quote h

theorem Member.bare_all (key value : Text) (h : ∀ b ∈ key, Unescaped b) :
    (Member.bare key value h).padded.all = quote key ++ ascii ':' :: value := by
  simp [Padded.all, Member.padded, Member.bare, Padded.bare]

end SecondScreen.Json
