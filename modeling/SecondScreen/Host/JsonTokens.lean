import SecondScreen.Host.JsonParser
import Mathlib.Data.List.TakeWhile
import Mathlib.Logic.Basic

/-!
# The tokens of the handshake

Strings, integers, numbers and literals are read as the grammar derives them.  A number ends
where no digit, fraction or exponent follows; the other tokens end by themselves.
-/

namespace SecondScreen.Host.JsonParser

open SecondScreen.Json

/-! ## UTF-8 -/

/-- `AppendUtf8` encodes a character. -/
theorem appendUtf8_toNat (output : Text) (c : Char) :
    appendUtf8 output c.toNat = output ++ String.utf8EncodeChar c := by
  have hor (i a b mark : Nat) (hmark : mark = 2 ^ i * a) (hb : b < 2 ^ i) :
      mark ||| b = b + mark := by
    rw [hmark, ← Nat.two_pow_add_eq_or_of_lt hb, Nat.add_comm]
  have hand (n : Nat) : n &&& 0x3f = n % 64 := Nat.and_two_pow_sub_one_eq_mod n 6
  have hlow (n : Nat) : 0x80 ||| n % 64 = n % 64 + 0x80 :=
    hor 6 2 _ _ rfl (Nat.mod_lt _ (by decide))
  have hlt : c.toNat < 0x110000 := by
    rcases c.valid with h | ⟨-, h⟩
    · exact Nat.lt_trans h (by decide)
    · exact h
  rw [appendUtf8, String.utf8EncodeChar]
  simp only [Char.toNat, hand, hlow, Nat.shiftRight_eq_div_pow] at hlt ⊢
  split_ifs with h₁ h₂ h₃
  · rfl
  · have hlead : 0xc0 ||| c.val.toNat / 2 ^ 6 = c.val.toNat / 64 % 0x20 + 0xc0 :=
      (hor 6 3 _ 0xc0 rfl (by omega)).trans (by omega)
    rw [hlead]
  · have hlead : 0xe0 ||| c.val.toNat / 2 ^ 12 = c.val.toNat / 4096 % 0x10 + 0xe0 :=
      (hor 4 14 _ 0xe0 rfl (by omega)).trans (by omega)
    rw [hlead]
  · have hlead : 0xf0 ||| c.val.toNat / 2 ^ 18 = c.val.toNat / 262144 % 0x08 + 0xf0 :=
      (hor 3 30 _ 0xf0 rfl (by omega)).trans (by omega)
    rw [hlead]

/-- `AppendUtf8` encodes every code point that is not a surrogate. -/
theorem appendUtf8_ofNat (output : Text) {n : Nat} (h : n.isValidChar) :
    appendUtf8 output n = output ++ String.utf8EncodeChar (Char.ofNat n) := by
  have hn : (Char.ofNat n).toNat = n := by
    rw [Char.ofNat, dif_pos h]
    rfl
  rw [← appendUtf8_toNat, hn]

/-! ## Hexadecimal digits -/

/-- One digit more is one place more. -/
theorem parseHexDigits_cons {b : UInt8} {d count value : Nat} (h : hexDigit b = some d) (s : Text) :
    parseHexDigits (count + 1) value (b :: s) = parseHexDigits count (16 * value + d) s := by
  have hor : (value <<< 4) ||| d = 16 * value + d := by
    rw [Nat.shiftLeft_eq, Nat.mul_comm, ← Nat.two_pow_add_eq_or_of_lt (hexDigit_lt h)]
  rw [parseHexDigits, h, ← hor]

/-- The digits are there when the loop succeeds. -/
theorem parseHexDigits_ok {count value n : Nat} {s rest : Text}
    (h : parseHexDigits (count + 1) value s = .ok (n, rest)) :
    ∃ b d s', s = b :: s' ∧ hexDigit b = some d ∧
      parseHexDigits count (16 * value + d) s' = .ok (n, rest) := by
  cases s with
  | nil => cases h
  | cons b s =>
      cases hb : hexDigit b with
      | none =>
          rw [parseHexDigits, hb] at h
          cases h
      | some d => exact ⟨b, d, s, rfl, hb, parseHexDigits_cons hb s ▸ h⟩

/-- `ParseHex4` takes exactly four digits. -/
theorem parseHex4_parses : Parses parseHex4 Hex4 fun _ ↦ True where
  sound {n s rest} h := by
    rw [parseHex4] at h
    split_ifs at h
    obtain ⟨b₀, d₀, s₀, rfl, h₀, h⟩ := parseHexDigits_ok h
    obtain ⟨b₁, d₁, s₁, rfl, h₁, h⟩ := parseHexDigits_ok h
    obtain ⟨b₂, d₂, s₂, rfl, h₂, h⟩ := parseHexDigits_ok h
    obtain ⟨b₃, d₃, s₃, rfl, h₃, h⟩ := parseHexDigits_ok h
    cases h
    exact ⟨_, ⟨b₀, b₁, b₂, b₃, d₀, d₁, d₂, d₃, rfl, h₀, h₁, h₂, h₃, by simp⟩, rfl⟩
  complete {n t rest} h _ := by
    obtain ⟨b₀, b₁, b₂, b₃, d₀, d₁, d₂, d₃, rfl, h₀, h₁, h₂, h₃, rfl⟩ := h
    have hlength : ¬([b₀, b₁, b₂, b₃] ++ rest).length < 4 := by simp
    rw [parseHex4, if_neg hlength]
    show parseHexDigits 4 0 (b₀ :: b₁ :: b₂ :: b₃ :: rest) = _
    rw [parseHexDigits_cons h₀, parseHexDigits_cons h₁, parseHexDigits_cons h₂,
      parseHexDigits_cons h₃]
    simp [parseHexDigits]

/-! ## Strings -/

/-- What comes after `u`: the digits of a character, or of two surrogates. -/
def IsCodePoint (n : Nat) (t : Text) : Prop :=
  Hex4 n t ∧ ¬HighSurrogate n ∧ ¬LowSurrogate n ∨
    ∃ high low hex hex', Hex4 high hex ∧ HighSurrogate high ∧ Hex4 low hex' ∧ LowSurrogate low ∧
      t = hex ++ unicodeEscape hex' ∧ n = 0x10000 + (high - 0xd800) * 0x400 + (low - 0xdc00)

/-- A high surrogate is read with the low one that follows, and no other surrogate is read. -/
theorem parseCodePoint_parses : Parses parseCodePoint IsCodePoint fun _ ↦ True where
  sound {n s rest} h := by
    rw [parseCodePoint, bind_eq_ok] at h
    obtain ⟨⟨high, s'⟩, hhex, h⟩ := h
    obtain ⟨hex, hhigh, rfl⟩ := parseHex4_parses.sound hhex
    simp only at h
    split at h
    · next hs =>
      split at h
      · cases h
      next hu =>
      rw [bind_eq_ok] at h
      obtain ⟨⟨low, s''⟩, hhex', h⟩ := h
      obtain ⟨hex', hlow, hs'⟩ := parseHex4_parses.sound hhex'
      simp only at h
      split at h
      · cases h
      next hs'' =>
      obtain ⟨hn, hrest⟩ := Prod.mk.inj (Except.ok.inj h)
      obtain ⟨hlength, h₀, h₁⟩ : ¬s'.length < 6 ∧ s'[0]? = some reverseSolidus ∧
          s'[1]? = some (ascii 'u') := by simpa [not_or] using hu
      have hsplit : s' = unicodeEscape hex' ++ rest := by
        rw [← hrest]
        match s' with
        | [] | [_] => simp at h₁
        | b₀ :: b₁ :: t =>
            cases h₀
            cases h₁
            rw [show t = hex' ++ s'' from hs']
            rfl
      refine ⟨hex ++ unicodeEscape hex', .inr ⟨high, low, hex, hex', hhigh, hs, hlow, ?_, rfl, ?_⟩,
        by rw [hsplit, List.append_assoc]⟩
      · exact ⟨Nat.not_lt.1 fun h ↦ hs'' (.inl h), Nat.not_lt.1 fun h ↦ hs'' (.inr h)⟩
      · rw [← hn, Nat.shiftLeft_eq]
    · next hs =>
      split at h
      · cases h
      next hlow =>
      cases h
      exact ⟨hex, .inl ⟨hhigh, hs, hlow⟩, rfl⟩
  complete {n t rest} h _ := by
    rcases h with ⟨hhex, hhigh, hlow⟩ | ⟨high, low, hex, hex', hhigh, hs, hlow, hs', rfl, hn⟩
    · rw [parseCodePoint, parseHex4_parses.complete hhex trivial]
      show (if HighSurrogate n then _ else if LowSurrogate n then _ else _) = _
      rw [if_neg hhigh, if_neg hlow]
      rfl
    · have hparse : parseHex4 ((unicodeEscape hex' ++ rest).drop 2) = .ok (low, rest) :=
        parseHex4_parses.complete hlow trivial
      have hlength : ¬(unicodeEscape hex' ++ rest).length < 6 := by
        have := hlow.length
        simp [unicodeEscape]
        omega
      have hlow' : ¬(low < 0xdc00 ∨ low > 0xdfff) := by
        rintro (h | h)
        · exact absurd hs'.1 (Nat.not_le.2 h)
        · exact absurd hs'.2 (Nat.not_le.2 h)
      rw [parseCodePoint, List.append_assoc, parseHex4_parses.complete hhigh trivial]
      show (if HighSurrogate high then _ else _) = _
      rw [if_pos hs, if_neg (by simpa [hlength, unicodeEscape] using hlength), hparse]
      show (if low < 0xdc00 ∨ low > 0xdfff then _ else _) = _
      rw [if_neg hlow', hn, Nat.shiftLeft_eq]
      rfl

/-- What is read is never a surrogate. -/
theorem IsCodePoint.isValidChar {n : Nat} {t : Text} (h : IsCodePoint n t) : n.isValidChar := by
  rcases h with ⟨hhex, hhigh, hlow⟩ | ⟨high, low, hex, hex', -, hs, -, hs', -, hn⟩
  · have hlt := hhex.lt
    simp only [HighSurrogate, LowSurrogate] at hhigh hlow
    simp only [Nat.isValidChar]
    omega
  · simp only [HighSurrogate, LowSurrogate] at hs hs'
    simp only [Nat.isValidChar, hn]
    omega

/-- After `\u` it is a character of a string. -/
theorem IsCodePoint.isChar {n : Nat} {t : Text} (h : IsCodePoint n t) :
    IsChar (String.utf8EncodeChar (Char.ofNat n)) (unicodeEscape t) := by
  rcases h with ⟨hhex, hhigh, hlow⟩ | ⟨high, low, hex, hex', hhigh, hs, hlow, hs', rfl, hn⟩
  · exact .unicode hhex hhigh hlow
  · rw [hn]
    exact .surrogates hhigh hs hlow hs'

/-- The loop of `ParseString` has taken characters up to the closing quotation mark. -/
theorem parseChars_sound {n : Nat} {output cs s rest : Text}
    (h : parseChars n output s = .ok (cs, rest)) :
    ∃ ds ts, IsChars ds ts ∧ cs = output ++ ds ∧ s = ts ++ quotationMark :: rest := by
  induction n generalizing output s with
  | zero => cases h
  | succ n ih =>
      -- a character, and the others by the induction
      have hnext {c t s' : Text} (hc : IsChar c t)
          (h : parseChars n (output ++ c) s' = .ok (cs, rest)) :
          ∃ ds ts, IsChars ds ts ∧ cs = output ++ ds ∧ t ++ s' = ts ++ quotationMark :: rest := by
        obtain ⟨ds, ts, hds, rfl, rfl⟩ := ih h
        exact ⟨c ++ ds, t ++ ts, .cons hc hds, by simp, by simp⟩
      cases s with
      | nil => cases h
      | cons c s =>
          unfold parseChars at h
          split_ifs at h with hquote hcontrol hplain
          · cases h
            exact ⟨[], [], .nil, by simp, by simp [hquote]⟩
          · exact hnext (.unescaped (UInt8.not_lt.1 hcontrol) hquote hplain) h
          have hescape : c = reverseSolidus := not_not.1 hplain
          subst hescape
          cases s with
          | nil => cases h
          | cons escape s =>
              cases hb : unescape escape with
              | some b =>
                  simp only [hb] at h
                  exact hnext (.escaped hb) h
              | none =>
                  simp only [hb] at h
                  split_ifs at h with hu
                  subst hu
                  split at h
                  · next codePoint s' hparse =>
                    obtain ⟨t, ht, rfl⟩ := parseCodePoint_parses.sound hparse
                    rw [appendUtf8_ofNat output ht.isValidChar] at h
                    exact hnext ht.isChar h
                  · cases h

/-- One pass takes an escaped code point, whether of one unit or of two. -/
theorem parseChars_codePoint {k : Nat} {t : Text} (h : IsCodePoint k t) (n : Nat)
    (output s : Text) :
    parseChars (n + 1) output (unicodeEscape t ++ s) =
      parseChars n (output ++ String.utf8EncodeChar (Char.ofNat k)) s := by
  have hparse : parseCodePoint (t ++ s) = .ok (k, s) := parseCodePoint_parses.complete h trivial
  rw [← appendUtf8_ofNat output h.isValidChar]
  show parseChars (n + 1) output (reverseSolidus :: ascii 'u' :: (t ++ s)) = _
  rw [parseChars]
  simp only [hparse]
  rfl

/-- One pass takes one character. -/
theorem parseChars_isChar {c t : Text} (h : IsChar c t) (n : Nat) (output s : Text) :
    parseChars (n + 1) output (t ++ s) = parseChars n (output ++ c) s := by
  cases h with
  | @unescaped b hcontrol hquote hplain =>
      show parseChars (n + 1) output (b :: s) = _
      rw [parseChars.eq_def]
      show (if b = quotationMark then _ else _) = _
      rw [if_neg hquote, if_neg (UInt8.not_lt.2 hcontrol), if_pos hplain]
  | @escaped b c hb =>
      show parseChars (n + 1) output (reverseSolidus :: b :: s) = _
      rw [parseChars]
      simp only [hb]
      rfl
  | unicode hhex hhigh hlow => exact parseChars_codePoint (.inl ⟨hhex, hhigh, hlow⟩) n output s
  | @surrogates high low hex hex' hhigh hs hlow hs' =>
      have hpair : IsCodePoint (0x10000 + (high - 0xd800) * 0x400 + (low - 0xdc00))
          (hex ++ unicodeEscape hex') := .inr ⟨high, low, hex, hex', hhigh, hs, hlow, hs', rfl, rfl⟩
      exact parseChars_codePoint hpair n output s

/-- The loop takes all characters, a pass for each; every character has at least one byte. -/
theorem parseChars_complete {ds ts : Text} (h : IsChars ds ts) {n : Nat} (hn : ts.length < n)
    (output rest : Text) :
    parseChars n output (ts ++ quotationMark :: rest) = .ok (output ++ ds, rest) := by
  induction h generalizing n output with
  | nil =>
      cases n with
      | zero => cases hn
      | succ n =>
          show parseChars (n + 1) output (quotationMark :: rest) = _
          rw [parseChars.eq_def]
          show (if quotationMark = quotationMark then _ else _) = _
          rw [if_pos rfl, List.append_nil]
  | cons hc _ ih =>
      cases n with
      | zero => cases hn
      | succ n =>
          have hpos := hc.length_pos
          rw [List.length_append] at hn
          rw [List.append_assoc, parseChars_isChar hc, ih (by omega), List.append_assoc]

/-- `ParseString` reads the strings of the grammar. -/
theorem parseString_parses : Parses parseString IsString fun _ ↦ True where
  sound {a s rest} h := by
    rw [parseString] at h
    split at h
    · next s' hs =>
      obtain ⟨ds, ts, hchars, rfl, rfl⟩ := parseChars_sound h
      refine ⟨quotationMark :: (ts ++ [quotationMark]), ⟨ts, hchars, rfl⟩, ?_⟩
      rw [consume_eq_some hs]
      simp
    · cases h
  complete {a t rest} h _ := by
    obtain ⟨ts, hchars, rfl⟩ := h
    show parseString (quotationMark :: (ts ++ [quotationMark] ++ rest)) = _
    rw [parseString, consume_cons_self, List.append_assoc]
    exact parseChars_complete hchars (by simp) [] rest

/-! ## Numbers -/

/-- No digit follows. -/
def NoDigit (t : Text) : Prop := ∀ b s, t = b :: s → isDigit b = false

/-- What ends a value is no digit. -/
theorem noDigit_of_ends {t : Text} (h : Ends t) : NoDigit t := by
  intro b s ht
  rcases h b s ht with hb | rfl | rfl | rfl
  · simp only [isWhitespace, Bool.or_eq_true, decide_eq_true_eq] at hb
    rcases hb with ((rfl | rfl) | rfl) | rfl <;> rfl
  all_goals rfl

/-- Nor does it begin a fraction or an exponent. -/
theorem not_isFraction_of_ends {t : Text} (h : Ends t) : t.head?.any isFraction = false := by
  cases t with
  | nil => rfl
  | cons b s =>
      rcases h b s rfl with hb | rfl | rfl | rfl
      · simp only [isWhitespace, Bool.or_eq_true, decide_eq_true_eq] at hb
        rcases hb with ((rfl | rfl) | rfl) | rfl <;> rfl
      all_goals rfl

/-- What `SkipDigits` skips are digits. -/
theorem exists_skipDigits (s : Text) :
    ∃ digits, (∀ b ∈ digits, isDigit b = true) ∧ s = digits ++ skipDigits s :=
  ⟨s.takeWhile isDigit, fun _ hb ↦ List.mem_takeWhile_imp hb,
    (List.takeWhile_append_dropWhile ..).symm⟩

/-- It skips all of them. -/
theorem skipDigits_append {digits rest : Text} (hdigits : ∀ b ∈ digits, isDigit b = true)
    (hrest : NoDigit rest) : skipDigits (digits ++ rest) = rest := by
  induction digits with
  | nil =>
      cases rest with
      | nil => rfl
      | cons b rest =>
          apply List.dropWhile_cons_of_neg
          simp [hrest b rest rfl]
  | cons b digits ih =>
      have hb := hdigits b List.mem_cons_self
      rw [skipDigits, List.cons_append, List.dropWhile_cons_of_pos hb]
      exact ih fun c hc ↦ hdigits c (List.mem_cons_of_mem b hc)

/-- A minus is skipped if there is one. -/
theorem exists_skipMinus (s : Text) : ∃ minus, Minus minus ∧ s = minus ++ skipMinus s := by
  cases s with
  | nil => exact ⟨[], .inl rfl, rfl⟩
  | cons c s =>
      by_cases hc : c = ascii '-'
      · subst hc
        exact ⟨[ascii '-'], .inr rfl, rfl⟩
      · exact ⟨[], .inl rfl, by simp [skipMinus, hc]⟩

theorem ne_minus_of_isDigit {d : UInt8} (h : isDigit d = true) : d ≠ ascii '-' := by
  rintro rfl
  cases h

/-- An integer part does not begin with a minus. -/
theorem skipMinus_append {minus int : Text} (hminus : Minus minus) (hint : IntPart int)
    (rest : Text) : skipMinus (minus ++ (int ++ rest)) = int ++ rest := by
  rcases hminus with rfl | rfl
  · obtain ⟨d, digits, rfl, hd⟩ := hint.cons
    exact if_neg (ne_minus_of_isDigit hd)
  · rw [List.singleton_append, skipMinus, if_pos rfl]

/-- `SkipNumber` skips an integer part: zero alone, or digits that do not begin with it. -/
theorem skipIntPart_sound {s rest : Text} (h : skipIntPart s = .ok rest) :
    ∃ int, IntPart int ∧ s = int ++ rest := by
  cases s with
  | nil => cases h
  | cons c s =>
      rw [skipIntPart] at h
      split_ifs at h with hdigit hzero <;> cases h
      · exact ⟨[ascii '0'], .inl rfl, by rw [hzero]; rfl⟩
      · obtain ⟨digits, hdigits, hs⟩ := exists_skipDigits s
        have hc : isDigit c = true := by simpa using hdigit
        refine ⟨c :: digits, .inr ⟨c, digits, hc, hzero, hdigits, rfl⟩, ?_⟩
        rw [skipDigits, List.dropWhile_cons_of_pos hc, List.cons_append]
        exact congrArg (c :: ·) hs

/-- It skips the whole part where no digit follows. -/
theorem skipIntPart_complete {int rest : Text} (hint : IntPart int) (hrest : NoDigit rest) :
    skipIntPart (int ++ rest) = .ok rest := by
  rcases hint with rfl | ⟨d, digits, hd, hzero, hdigits, rfl⟩
  · rfl
  · have hskip := skipDigits_append (List.forall_mem_cons.2 ⟨hd, hdigits⟩) hrest
    show skipIntPart (d :: (digits ++ rest)) = _
    rw [skipIntPart, if_neg (by simp [hd]), if_neg hzero]
    exact congrArg Except.ok hskip

/-- Where `ParseInteger` ends, `SkipNumber` would end too. -/
theorem skipIntPart_of_skipInteger {s rest : Text} (h : skipInteger s = .ok rest) :
    skipIntPart s = .ok rest := by
  cases s with
  | nil => cases h
  | cons c s =>
      simp only [skipInteger] at h
      rw [skipIntPart]
      split_ifs at h ⊢ with hdigit hzero
      · cases s with
        | nil => exact h
        | cons d s =>
            simp only at h
            split_ifs at h
            exact h
      · exact h

/-- So does `ParseInteger`, which rejects a digit after a zero. -/
theorem skipInteger_complete {int rest : Text} (hint : IntPart int) (hrest : NoDigit rest) :
    skipInteger (int ++ rest) = .ok rest := by
  have hskip := skipIntPart_complete hint hrest
  rcases hint with rfl | ⟨d, digits, hd, hzero, hdigits, rfl⟩
  · cases rest with
    | nil => rfl
    | cons d rest =>
        show (if isDigit d then _ else _) = _
        rw [hrest d rest rfl]
        rfl
  · rw [List.cons_append, skipIntPart, if_neg (by simp [hd]), if_neg hzero] at hskip
    rw [List.cons_append, skipInteger.eq_def]
    show (if !isDigit d then _ else if d = ascii '0' then _ else _) = _
    rw [if_neg (by simp [hd]), if_neg hzero]
    exact hskip

/-- The token is what was skipped. -/
theorem take_length_sub (t rest : Text) :
    (t ++ rest).take ((t ++ rest).length - rest.length) = t := by
  rw [List.length_append, Nat.add_sub_cancel, List.take_left]

/-- The number fits into an `int64_t`. -/
def FitsInt64 (z : Int) : Prop := -2 ^ 63 ≤ z ∧ z < 2 ^ 63

instance (z : Int) : Decidable (FitsInt64 z) := inferInstanceAs (Decidable (_ ∧ _))

theorem fromChars_minus (digits : Text) : fromChars (ascii '-' :: digits) =
    if FitsInt64 (-digitsValue digits) then some (-digitsValue digits : Int) else none := by
  rfl

/-- The value without a sign. -/
theorem fromChars_intPart {int : Text} (hint : IntPart int) : fromChars int =
    if FitsInt64 (digitsValue int) then some (digitsValue int : Int) else none := by
  obtain ⟨d, digits, rfl, hd⟩ := hint.cons
  rw [fromChars]
  simp only [if_neg (ne_minus_of_isDigit hd)]
  rfl

/-- The token as `std::from_chars` reads it. -/
theorem fromChars_iff {minus int : Text} (hminus : Minus minus) (hint : IntPart int) {z : Int} :
    fromChars (minus ++ int) = some z ↔ FitsInt64 z ∧
      (minus = [] ∧ z = digitsValue int ∨ minus = [ascii '-'] ∧ z = -digitsValue int) := by
  rcases hminus with rfl | rfl
  · rw [List.nil_append, fromChars_intPart hint]
    constructor
    · intro h
      split_ifs at h with hfits
      cases h
      exact ⟨hfits, .inl ⟨rfl, rfl⟩⟩
    · rintro ⟨hfits, ⟨-, rfl⟩ | ⟨h, -⟩⟩
      · exact if_pos hfits
      · cases h
  · show fromChars (ascii '-' :: int) = _ ↔ _
    rw [fromChars_minus]
    constructor
    · intro h
      split_ifs at h with hfits
      cases h
      exact ⟨hfits, .inr ⟨rfl, rfl⟩⟩
    · rintro ⟨hfits, ⟨h, -⟩ | ⟨-, rfl⟩⟩
      · cases h
      · exact if_pos hfits

/-- `ParseInteger` reads the integers that fit into an `int64_t`, before the end of a value. -/
theorem parseInteger_parses :
    Parses parseInteger (fun z t ↦ IsInteger z t ∧ FitsInt64 z) Ends where
  sound {z s rest} h := by
    rw [parseInteger, bind_eq_ok] at h
    obtain ⟨s', hs', h⟩ := h
    obtain ⟨minus, hminus, hs⟩ := exists_skipMinus s
    obtain ⟨int, hint, hskip⟩ := skipIntPart_sound (skipIntPart_of_skipInteger hs')
    rw [hskip] at hs
    have htoken : s.take (s.length - s'.length) = minus ++ int := by
      rw [hs, ← List.append_assoc]
      exact take_length_sub _ _
    split at h
    · cases h
    rw [htoken] at h
    split at h
    · next value hvalue =>
      cases h
      obtain ⟨hfits, hvalue⟩ := (fromChars_iff hminus hint).1 hvalue
      refine ⟨minus ++ int, ⟨⟨int, hint, ?_⟩, hfits⟩, by rw [hs, List.append_assoc]⟩
      rcases hvalue with ⟨rfl, hz⟩ | ⟨rfl, hz⟩
      · exact .inl ⟨rfl, hz⟩
      · exact .inr ⟨rfl, hz⟩
    · cases h
  complete {z t rest} h hends := by
    obtain ⟨⟨int, hint, hz⟩, hfits⟩ := h
    obtain ⟨minus, hminus, rfl, hvalue⟩ : ∃ minus, Minus minus ∧ t = minus ++ int ∧
        (minus = [] ∧ z = digitsValue int ∨ minus = [ascii '-'] ∧ z = -digitsValue int) := by
      rcases hz with ⟨rfl, hz⟩ | ⟨rfl, hz⟩
      · exact ⟨[], .inl rfl, rfl, .inl ⟨rfl, hz⟩⟩
      · exact ⟨[ascii '-'], .inr rfl, rfl, .inr ⟨rfl, hz⟩⟩
    rw [parseInteger, List.append_assoc, skipMinus_append hminus hint,
      skipInteger_complete hint (noDigit_of_ends hends)]
    show (if rest.head?.any isFraction then _ else _) = _
    rw [not_isFraction_of_ends hends, ← List.append_assoc, take_length_sub,
      (fromChars_iff hminus hint).2 ⟨hfits, hvalue⟩]
    rfl

/-- One digit at least, and all that follow. -/
theorem skipSomeDigits_skips : Skips skipSomeDigits Digits NoDigit where
  sound {s rest} h := by
    cases s with
    | nil => cases h
    | cons c s =>
        rw [skipSomeDigits] at h
        split_ifs at h with hdigit
        cases h
        have hc : isDigit c = true := by simpa using hdigit
        obtain ⟨digits, hdigits, hs⟩ := exists_skipDigits s
        refine ⟨c :: digits, ⟨by simp, List.forall_mem_cons.2 ⟨hc, hdigits⟩⟩, ?_⟩
        rw [skipDigits, List.dropWhile_cons_of_pos hc, List.cons_append]
        exact congrArg (c :: ·) hs
  complete {t rest} h hrest := by
    obtain ⟨hne, hdigits⟩ := h
    have hskip := skipDigits_append hdigits hrest
    cases t with
    | nil => exact absurd rfl hne
    | cons d digits =>
        rw [List.cons_append] at hskip ⊢
        rw [skipSomeDigits, if_neg (by simp [hdigits d List.mem_cons_self]), hskip]

/-- Neither a digit nor a point follows. -/
def FractionEnds (t : Text) : Prop := ∀ b s, t = b :: s → isDigit b = false ∧ b ≠ ascii '.'

/-- A point needs digits after it. -/
theorem skipFraction_skips : Skips skipFraction Frac FractionEnds where
  sound {s rest} h := by
    cases s with
    | nil =>
        cases h
        exact ⟨[], .inl rfl, rfl⟩
    | cons c s =>
        rw [skipFraction] at h
        split_ifs at h with hc
        · obtain ⟨digits, hdigits, rfl⟩ := skipSomeDigits_skips.sound h
          exact ⟨c :: digits, .inr ⟨digits, hdigits, by rw [hc]⟩, rfl⟩
        · cases h
          exact ⟨[], .inl rfl, rfl⟩
  complete {t rest} h hrest := by
    rcases h with rfl | ⟨digits, hdigits, rfl⟩
    · cases rest with
      | nil => rfl
      | cons b rest => exact if_neg (hrest b rest rfl).2
    · rw [List.cons_append, skipFraction, if_pos rfl]
      exact skipSomeDigits_skips.complete hdigits fun b s hb ↦ (hrest b s hb).1

/-- A sign of an exponent is skipped if there is one. -/
theorem exists_skipSign (s : Text) :
    ∃ sign, (sign = [] ∨ sign = [ascii '+'] ∨ sign = [ascii '-']) ∧ s = sign ++ skipSign s := by
  cases s with
  | nil => exact ⟨[], .inl rfl, rfl⟩
  | cons c s =>
      rw [skipSign]
      split_ifs with hc
      · rcases hc with rfl | rfl
        · exact ⟨[ascii '+'], .inr (.inl rfl), rfl⟩
        · exact ⟨[ascii '-'], .inr (.inr rfl), rfl⟩
      · exact ⟨[], .inl rfl, rfl⟩

/-- Digits do not begin with a sign. -/
theorem skipSign_append {sign digits : Text}
    (hsign : sign = [] ∨ sign = [ascii '+'] ∨ sign = [ascii '-']) (hdigits : Digits digits)
    (rest : Text) : skipSign (sign ++ (digits ++ rest)) = digits ++ rest := by
  rcases hsign with rfl | rfl | rfl
  · obtain ⟨hne, hdigits⟩ := hdigits
    cases digits with
    | nil => exact absurd rfl hne
    | cons d digits =>
        have hd := hdigits d List.mem_cons_self
        apply if_neg
        rintro (rfl | rfl) <;> cases hd
  · rfl
  · rfl

/-- Neither a digit nor a fraction nor an exponent follows. -/
def NumberEnds (t : Text) : Prop :=
  ∀ b s, t = b :: s → isDigit b = false ∧ isFraction b = false

/-- What ends a value ends a number. -/
theorem numberEnds_of_ends {t : Text} (h : Ends t) : NumberEnds t := by
  rintro b s rfl
  exact ⟨noDigit_of_ends h b s rfl, not_isFraction_of_ends h⟩

/-- An exponent needs digits after its sign. -/
theorem skipExponent_skips : Skips skipExponent Exp NumberEnds where
  sound {s rest} h := by
    cases s with
    | nil =>
        cases h
        exact ⟨[], .inl rfl, rfl⟩
    | cons c s =>
        rw [skipExponent] at h
        split_ifs at h with hc
        · obtain ⟨sign, hsign, hs⟩ := exists_skipSign s
          obtain ⟨digits, hdigits, hskip⟩ := skipSomeDigits_skips.sound h
          rw [hskip] at hs
          exact ⟨c :: (sign ++ digits), .inr ⟨c, sign, digits, hc, hsign, hdigits, rfl⟩,
            by simp [hs]⟩
        · cases h
          exact ⟨[], .inl rfl, rfl⟩
  complete {t rest} h hrest := by
    rcases h with rfl | ⟨e, sign, digits, he, hsign, hdigits, rfl⟩
    · cases rest with
      | nil => rfl
      | cons b rest =>
          apply if_neg
          have hb := (hrest b rest rfl).2
          rintro (rfl | rfl) <;> cases hb
    · rw [List.cons_append, skipExponent, if_pos he, List.append_assoc,
        skipSign_append hsign hdigits]
      exact skipSomeDigits_skips.complete hdigits fun b s hb ↦ (hrest b s hb).1

/-- `SkipNumber` skips the numbers of the grammar. -/
theorem skipNumber_skips : Skips skipNumber IsNumber NumberEnds where
  sound {s rest} h := by
    rw [skipNumber, bind_eq_ok] at h
    obtain ⟨s₁, h₁, h⟩ := h
    rw [bind_eq_ok] at h
    obtain ⟨s₂, h₂, h₃⟩ := h
    obtain ⟨minus, hminus, hs⟩ := exists_skipMinus s
    obtain ⟨int, hint, hs₁⟩ := skipIntPart_sound h₁
    obtain ⟨frac, hfrac, hs₂⟩ := skipFraction_skips.sound h₂
    obtain ⟨exp, hexp, hs₃⟩ := skipExponent_skips.sound h₃
    refine ⟨_, ⟨minus, int, frac, exp, hminus, hint, hfrac, hexp, rfl⟩, ?_⟩
    rw [hs, hs₁, hs₂, hs₃]
    simp
  complete {t rest} h hrest := by
    obtain ⟨minus, int, frac, exp, hminus, hint, hfrac, hexp, rfl⟩ := h
    -- what follows the fraction begins with neither a digit nor a point
    have hafter : FractionEnds (exp ++ rest) := by
      intro b s hb
      rcases hexp with rfl | ⟨e, sign, digits, he, -, -, rfl⟩
      · obtain ⟨hdigit, hfraction⟩ := hrest b s hb
        refine ⟨hdigit, ?_⟩
        rintro rfl
        cases hfraction
      · cases hb
        rcases he with rfl | rfl <;> exact ⟨rfl, by decide⟩
    have hbefore : NoDigit (frac ++ (exp ++ rest)) := by
      intro b s hb
      rcases hfrac with rfl | ⟨digits, -, rfl⟩
      · exact (hafter b s hb).1
      · cases hb
        rfl
    have htext : minus ++ (int ++ (frac ++ exp)) ++ rest =
        minus ++ (int ++ (frac ++ (exp ++ rest))) := by simp
    rw [htext, skipNumber, skipMinus_append hminus hint, skipIntPart_complete hint hbefore]
    show (skipFraction (frac ++ (exp ++ rest)) >>= skipExponent) = _
    rw [skipFraction_skips.complete hfrac hafter]
    exact skipExponent_skips.complete hexp hrest

/-! ## Literals -/

/-- A literal is skipped if the text begins with it. -/
theorem parseLiteral_skips (literal : Text) :
    Skips (parseLiteral literal) (· = literal) fun _ ↦ True where
  sound {s rest} h := by
    rw [parseLiteral] at h
    split_ifs at h with hnot
    cases h
    refine ⟨literal, rfl, ?_⟩
    have htake : s.take literal.length = literal := not_not.1 fun hne ↦ hnot (.inr hne)
    nth_rewrite 1 [← htake]
    exact (List.take_append_drop ..).symm
  complete {t rest} h _ := by
    subst h
    rw [parseLiteral, if_neg (by simp), List.drop_left]

end SecondScreen.Host.JsonParser
