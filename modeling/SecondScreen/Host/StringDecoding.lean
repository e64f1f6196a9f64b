import SecondScreen.Host.Utf8
import SecondScreen.Json.Strings

/-!
# The strings of the handshake

However the characters of a string are written, `ParseString` gives their UTF-8 encoding;
and a string of a line that `IsValidUtf8` accepts is UTF-8 again.
-/

namespace SecondScreen.Host

open SecondScreen.Json

/-- However they are written, the characters of a literal are read as their encoding. -/
theorem parseString_writesString {cs : List Char} {t : Text} (h : WritesString cs t) (rest : Text) :
    JsonParser.parseString (quotationMark :: (t ++ quotationMark :: rest)) =
      .ok (encode cs, rest) := by
  have hstring : IsString (encode cs) (quotationMark :: (t ++ [quotationMark])) :=
    ⟨t, h.isChars, rfl⟩
  have hparse : JsonParser.parseString (quotationMark :: (t ++ [quotationMark]) ++ rest) =
      .ok (encode cs, rest) := JsonParser.parseString_parses.complete hstring trivial
  simpa using hparse

theorem parseString_isUtf8 {before s cs rest : Text} (hline : IsUtf8 (before ++ s))
    (h : JsonParser.parseString s = .ok (cs, rest)) : IsUtf8 cs := by
  obtain ⟨_, ⟨chars, hchars, rfl⟩, rfl⟩ := JsonParser.parseString_parses.sound h
  have hquote : quotationMark ≤ 0x7f := by decide
  have hline : IsUtf8 (before ++ quotationMark :: (chars ++ quotationMark :: rest)) := by
    simpa using hline
  exact hchars.isUtf8 ((hline.split hquote).2.split hquote).1

/-- Strings are decoded exactly, and a line of UTF-8 has no other strings in it. -/
theorem string_decoding :
    (∀ (cs : List Char) (t rest : Text), WritesString cs t →
      JsonParser.parseString (quotationMark :: (t ++ quotationMark :: rest)) =
        .ok (encode cs, rest)) ∧
    ∀ before s out rest : Text, isValidUtf8 (before ++ s) = some true →
      JsonParser.parseString s = .ok (out, rest) → isValidUtf8 out = some true := by
  constructor
  · exact fun cs t rest h ↦ parseString_writesString h rest
  · intro before s out rest hline hparse
    rw [isValidUtf8_iff] at hline ⊢
    exact parseString_isUtf8 hline hparse

/-- Characters that are written in all four ways, and the line that they stand in. -/
theorem string_decoding_mixed :
    JsonParser.parseString (utf8 "\"\u00e9\\n\\u00E9\\uD83d\\uDe00\"") =
      .ok (encode ['é', '\n', 'é', '😀'], []) ∧
    isValidUtf8 (encode ['é', '\n', 'é', '😀']) = some true := by
  have hmixed : WritesString ['é', '\n', 'é', '😀'] (utf8 "\u00e9\\n\\u00E9\\uD83d\\uDe00") := by
    have hhex : Hex4 (Char.toNat 'é') (utf8 "00E9") :=
      ⟨_, _, _, _, _, _, _, _, rfl, rfl, rfl, rfl, rfl, rfl⟩
    have hhigh : Hex4 (0xd800 + (Char.toNat '😀' - 0x10000) / 0x400) (utf8 "D83d") :=
      ⟨_, _, _, _, _, _, _, _, rfl, rfl, rfl, rfl, rfl, rfl⟩
    have hlow : Hex4 (0xdc00 + (Char.toNat '😀' - 0x10000) % 0x400) (utf8 "De00") :=
      ⟨_, _, _, _, _, _, _, _, rfl, rfl, rfl, rfl, rfl, rfl⟩
    have h₁ : WritesChar 'é' (utf8 "é") := .raw (by decide) (by decide) (by decide)
    have h₂ : WritesChar '\n' (utf8 "\\n") := .escaped (show unescape (ascii 'n') = _ from rfl) rfl
    have h₃ : WritesChar 'é' (utf8 "\\u00E9") := .unicode hhex
    have h₄ : WritesChar '😀' (utf8 "\\uD83d\\uDe00") := .surrogates (by decide) hhigh hlow
    exact .cons h₁ (.cons h₂ (.cons h₃ (.cons h₄ .nil)))
  have hparse := string_decoding.1 _ _ [] hmixed
  refine ⟨hparse, string_decoding.2 [] _ _ _ ?_ hparse⟩
  exact isValidUtf8_iff.2 ⟨"\"\u00e9\\n\\u00E9\\uD83d\\uDe00\"".toList, by decide +kernel⟩

end SecondScreen.Host
