import SecondScreen.Json.Grammar

/-!
# UTF-8

The byte sequences of RFC 3629, by the ranges of their bytes, are exactly the encodings of
the characters.  No sequence is a proper prefix of another, so that a text is cut into its
characters in one way only.
-/

namespace SecondScreen.Json

/-- The bytes of some characters. -/
def encode (cs : List Char) : Text := cs.flatMap String.utf8EncodeChar

/-- The text is UTF-8. -/
def IsUtf8 (t : Text) : Prop := ∃ cs, t = encode cs

/-- `UTF8-tail`. -/
def Utf8Tail (b : UInt8) : Prop := 0x80 ≤ b ∧ b ≤ 0xbf

instance (b : UInt8) : Decidable (Utf8Tail b) := inferInstanceAs (Decidable (_ ∧ _))

/-- `UTF8-char`. -/
inductive Utf8Char : Text → Prop
  | one {b : UInt8} : b ≤ 0x7f → Utf8Char [b]
  | two {b c : UInt8} : 0xc2 ≤ b → b ≤ 0xdf → Utf8Tail c → Utf8Char [b, c]
  | three {b c d : UInt8} : 0xe0 ≤ b → b ≤ 0xef → Utf8Tail c → Utf8Tail d →
      (b = 0xe0 → 0xa0 ≤ c) → (b = 0xed → c ≤ 0x9f) → Utf8Char [b, c, d]
  | four {b c d e : UInt8} : 0xf0 ≤ b → b ≤ 0xf4 → Utf8Tail c → Utf8Tail d → Utf8Tail e →
      (b = 0xf0 → 0x90 ≤ c) → (b = 0xf4 → c ≤ 0x8f) → Utf8Char [b, c, d, e]

/-! ## The encoding of a character -/

theorem toNat_lt (c : Char) : c.toNat < 0xd800 ∨ 0xdfff < c.toNat ∧ c.toNat < 0x110000 := c.valid

theorem utf8Tail_ofNat (n : Nat) : Utf8Tail (.ofNat (n % 64 + 128)) := by
  simp only [Utf8Tail, UInt8.le_iff_toNat_le, UInt8.toNat_ofNat', UInt8.toNat_ofNat]
  omega

theorem utf8Char_utf8EncodeChar (c : Char) : Utf8Char (String.utf8EncodeChar c) := by
  have hc := toNat_lt c
  simp only [Char.toNat] at hc
  rw [String.utf8EncodeChar]
  split_ifs with h₁ h₂ h₃
  · apply Utf8Char.one
    simp only [UInt8.le_iff_toNat_le, UInt8.toNat_ofNat', UInt8.toNat_ofNat]
    omega
  · apply Utf8Char.two _ _ (utf8Tail_ofNat _) <;>
    · simp only [UInt8.le_iff_toNat_le, UInt8.toNat_ofNat', UInt8.toNat_ofNat]
      omega
  · apply Utf8Char.three _ _ (utf8Tail_ofNat _) (utf8Tail_ofNat _) <;>
    · simp only [UInt8.le_iff_toNat_le, ← UInt8.toNat_inj, UInt8.toNat_ofNat', UInt8.toNat_ofNat]
      omega
  · apply Utf8Char.four _ _ (utf8Tail_ofNat _) (utf8Tail_ofNat _) (utf8Tail_ofNat _) <;>
    · simp only [UInt8.le_iff_toNat_le, ← UInt8.toNat_inj, UInt8.toNat_ofNat', UInt8.toNat_ofNat]
      omega

/-- The character with a code point. -/
theorem exists_char {n : Nat} (h : n < 0xd800 ∨ 0xdfff < n ∧ n < 0x110000) :
    ∃ c : Char, c.val.toNat = n := by
  refine ⟨Char.ofNat n, ?_⟩
  rw [Char.ofNat, dif_pos h]
  rfl

theorem eq_ofNat {b : UInt8} {n : Nat} (h : n = b.toNat) : b = .ofNat n := by
  subst h
  exact UInt8.ofNat_toNat.symm

/-- The bits of the bytes are a code point. -/
theorem Utf8Char.exists_char {t : Text} (h : Utf8Char t) : ∃ c, t = String.utf8EncodeChar c := by
  cases h with
  | @one b hb =>
      simp only [UInt8.le_iff_toNat_le, UInt8.toNat_ofNat] at hb
      obtain ⟨k, hk⟩ := Json.exists_char (n := b.toNat) (by omega)
      refine ⟨k, ?_⟩
      rw [String.utf8EncodeChar, hk, if_pos (by omega), ← eq_ofNat rfl]
  | @two b c hb hb' hc =>
      simp only [Utf8Tail, UInt8.le_iff_toNat_le, UInt8.toNat_ofNat] at hb hb' hc
      obtain ⟨k, hk⟩ := Json.exists_char (n := (b.toNat - 0xc0) * 64 + (c.toNat - 0x80)) (by omega)
      refine ⟨k, ?_⟩
      rw [String.utf8EncodeChar, hk, if_neg (by omega), if_pos (by omega)]
      rw [← eq_ofNat (b := b) (by omega), ← eq_ofNat (b := c) (by omega)]
  | @three b c d hb hb' hc hd hlow hhigh =>
      simp only [Utf8Tail, UInt8.le_iff_toNat_le, ← UInt8.toNat_inj,
        UInt8.toNat_ofNat] at hb hb' hc hd hlow hhigh
      obtain ⟨k, hk⟩ := Json.exists_char
        (n := (b.toNat - 0xe0) * 4096 + (c.toNat - 0x80) * 64 + (d.toNat - 0x80)) (by omega)
      refine ⟨k, ?_⟩
      rw [String.utf8EncodeChar, hk, if_neg (by omega), if_neg (by omega), if_pos (by omega)]
      rw [← eq_ofNat (b := b) (by omega), ← eq_ofNat (b := c) (by omega),
        ← eq_ofNat (b := d) (by omega)]
  | @four b c d e hb hb' hc hd he hlow hhigh =>
      simp only [Utf8Tail, UInt8.le_iff_toNat_le, ← UInt8.toNat_inj,
        UInt8.toNat_ofNat] at hb hb' hc hd he hlow hhigh
      obtain ⟨k, hk⟩ := Json.exists_char (n := (b.toNat - 0xf0) * 262144 + (c.toNat - 0x80) * 4096 +
        (d.toNat - 0x80) * 64 + (e.toNat - 0x80)) (by omega)
      refine ⟨k, ?_⟩
      rw [String.utf8EncodeChar, hk, if_neg (by omega), if_neg (by omega), if_neg (by omega)]
      rw [← eq_ofNat (b := b) (by omega), ← eq_ofNat (b := c) (by omega),
        ← eq_ofNat (b := d) (by omega), ← eq_ofNat (b := e) (by omega)]

/-! ## Texts -/

theorem encode_cons (c : Char) (cs : List Char) :
    encode (c :: cs) = String.utf8EncodeChar c ++ encode cs := rfl

theorem encode_append (cs ds : List Char) : encode (cs ++ ds) = encode cs ++ encode ds :=
  List.flatMap_append

theorem IsUtf8.nil : IsUtf8 [] := ⟨[], rfl⟩

theorem IsUtf8.append {s t : Text} (hs : IsUtf8 s) (ht : IsUtf8 t) : IsUtf8 (s ++ t) := by
  obtain ⟨cs, rfl⟩ := hs
  obtain ⟨ds, rfl⟩ := ht
  exact ⟨cs ++ ds, (encode_append cs ds).symm⟩

theorem Utf8Char.isUtf8 {t : Text} (h : Utf8Char t) : IsUtf8 t := by
  obtain ⟨c, rfl⟩ := h.exists_char
  exact ⟨[c], (List.append_nil _).symm⟩

/-- A text is empty or begins with a character. -/
theorem IsUtf8.cases {t : Text} (h : IsUtf8 t) :
    t = [] ∨ ∃ u rest, Utf8Char u ∧ IsUtf8 rest ∧ t = u ++ rest := by
  obtain ⟨cs, rfl⟩ := h
  cases cs with
  | nil => exact .inl rfl
  | cons c cs => exact .inr ⟨_, _, utf8Char_utf8EncodeChar c, ⟨cs, rfl⟩, rfl⟩

/-- The first byte determines the length. -/
theorem Utf8Char.length_eq {b : UInt8} {s t : Text} (hs : Utf8Char (b :: s))
    (ht : Utf8Char (b :: t)) : s.length = t.length := by
  cases hs <;> cases ht <;> first
    | rfl
    | (simp only [UInt8.le_iff_toNat_le, UInt8.toNat_ofNat] at *
       omega)

/-- What follows a character of a text is a text. -/
theorem IsUtf8.of_append {u rest : Text} (hu : Utf8Char u) (h : IsUtf8 (u ++ rest)) :
    IsUtf8 rest := by
  obtain ⟨b, s, rfl⟩ : ∃ b s, u = b :: s := by cases hu <;> exact ⟨_, _, rfl⟩
  obtain hnil | ⟨v, rest', hv, hrest', heq⟩ := h.cases
  · cases hnil
  · obtain ⟨c, t, rfl⟩ : ∃ c t, v = c :: t := by cases hv <;> exact ⟨_, _, rfl⟩
    obtain rfl : b = c := (List.cons.inj heq).1
    have hlength : (b :: s).length = (b :: t).length := congrArg (· + 1) (hu.length_eq hv)
    rw [(List.append_inj heq hlength).2]
    exact hrest'

/-- A byte below `0x80` is a character of its own. -/
theorem isUtf8_cons_iff {b : UInt8} (hb : b ≤ 0x7f) {t : Text} : IsUtf8 (b :: t) ↔ IsUtf8 t :=
  ⟨fun h ↦ IsUtf8.of_append (.one hb) h, fun h ↦ (Utf8Char.one hb).isUtf8.append h⟩

theorem isUtf8_append_iff {s : Text} (hs : ∀ b ∈ s, b ≤ 0x7f) {t : Text} :
    IsUtf8 (s ++ t) ↔ IsUtf8 t := by
  induction s with
  | nil => rfl
  | cons b s ih =>
      obtain ⟨hb, hs⟩ := List.forall_mem_cons.1 hs
      rw [List.cons_append, isUtf8_cons_iff hb, ih hs]

/-- A character is a byte below `0x80`, or all its bytes are from there on. -/
theorem Utf8Char.ascii_or {t : Text} (h : Utf8Char t) :
    (∃ b, b ≤ 0x7f ∧ t = [b]) ∨ ∀ b ∈ t, 0x80 ≤ b := by
  cases h with
  | one hb => exact .inl ⟨_, hb, rfl⟩
  | two hb _ hc => exact .inr (by simpa using ⟨UInt8.le_trans (by decide) hb, hc.1⟩)
  | three hb _ hc hd => exact .inr (by simpa using ⟨UInt8.le_trans (by decide) hb, hc.1, hd.1⟩)
  | four hb _ hc hd he =>
      exact .inr (by simpa using ⟨UInt8.le_trans (by decide) hb, hc.1, hd.1, he.1⟩)

theorem not_le_of_high {b : UInt8} (h : 0x80 ≤ b) : ¬b ≤ 0x7f :=
  fun hle ↦ absurd (UInt8.le_trans h hle) (by decide)

/-- A byte below `0x80` stands between characters. -/
theorem IsUtf8.split {s t : Text} {b : UInt8} (hb : b ≤ 0x7f) (h : IsUtf8 (s ++ b :: t)) :
    IsUtf8 s ∧ IsUtf8 t := by
  obtain ⟨cs, hcs⟩ := h
  induction cs generalizing s with
  | nil => simp [encode] at hcs
  | cons c cs ih =>
      have hc := utf8Char_utf8EncodeChar c
      rw [encode_cons] at hcs
      rcases List.append_eq_append_iff.1 hcs with ⟨u, hu, hrest⟩ | ⟨u, rfl, hrest⟩
      · rw [hu] at hc
        cases u with
        | nil =>
            rw [List.append_nil] at hc
            exact ⟨hc.isUtf8, (isUtf8_cons_iff hb).1 ⟨cs, hrest⟩⟩
        | cons d u =>
            obtain ⟨rfl, rfl⟩ := List.cons.inj hrest
            rcases hc.ascii_or with ⟨e, -, he⟩ | hhigh
            · obtain ⟨rfl, hnil⟩ : s = [] ∧ u = [] := by
                have := congrArg List.length he
                simp only [List.length_append, List.length_cons, List.length_nil] at this
                constructor <;> apply List.eq_nil_of_length_eq_zero <;> omega
              subst hnil
              exact ⟨.nil, cs, rfl⟩
            · exact absurd hb (not_le_of_high (hhigh b (by simp)))
      · obtain ⟨hu, ht⟩ := ih hrest.symm
        exact ⟨hc.isUtf8.append hu, ht⟩

end SecondScreen.Json
