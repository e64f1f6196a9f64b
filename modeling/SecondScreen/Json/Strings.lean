import SecondScreen.Json.Utf8
import SecondScreen.Json.Writer

/-!
# Strings and their characters

A string of JSON denotes bytes.  Here are the ways to write one for given characters, and
that the bytes are UTF-8 where the text is.
-/

namespace SecondScreen.Json

/-! ## The ways to write a character -/

/-- A character in a string literal: as it is, with a two-character escape, or by its code
point in hexadecimal digits. -/
inductive WritesChar : Char → Text → Prop
  | raw {c : Char} : 0x20 ≤ c.toNat → c ≠ '"' → c ≠ '\\' → WritesChar c (String.utf8EncodeChar c)
  | escaped {c : Char} {b d : UInt8} : unescape b = some d → c.toNat = d.toNat →
      WritesChar c [reverseSolidus, b]
  | unicode {c : Char} {hex : Text} : Hex4 c.toNat hex → WritesChar c (unicodeEscape hex)
  | surrogates {c : Char} {hex hex' : Text} : 0x10000 ≤ c.toNat →
      Hex4 (0xd800 + (c.toNat - 0x10000) / 0x400) hex →
      Hex4 (0xdc00 + (c.toNat - 0x10000) % 0x400) hex' →
      WritesChar c (unicodeEscape hex ++ unicodeEscape hex')

/-- The characters of a string literal, each in one of its ways. -/
inductive WritesString : List Char → Text → Prop
  | nil : WritesString [] []
  | cons {c : Char} {t : Text} {cs : List Char} {ts : Text} : WritesChar c t →
      WritesString cs ts → WritesString (c :: cs) (t ++ ts)

theorem IsChars.append {cs ts ds us : Text} (h : IsChars cs ts) (h' : IsChars ds us) :
    IsChars (cs ++ ds) (ts ++ us) := by
  induction h with
  | nil => exact h'
  | cons hc _ ih =>
      rw [List.append_assoc, List.append_assoc]
      exact .cons hc ih

theorem IsChar.isChars {c t : Text} (h : IsChar c t) : IsChars c t := by
  have := IsChars.cons h .nil
  rwa [List.append_nil, List.append_nil] at this

/-- What an escape stands for is below `0x80`. -/
theorem unescape_le {b d : UInt8} (h : unescape b = some d) : b ≤ 0x7f ∧ d ≤ 0x7f := by
  rw [unescape] at h
  split_ifs at h with h₁ h₂ h₃ h₄ h₅ h₆ h₇ h₈ <;> cases h <;> subst_vars <;> decide

theorem utf8EncodeChar_of_ascii {c : Char} {b : UInt8} (h : String.utf8EncodeChar c = [b]) :
    b.toNat = c.toNat := by
  rw [String.utf8EncodeChar] at h
  split_ifs at h with hle
  · cases h
    rw [UInt8.toNat_ofNat', Nat.mod_eq_of_lt (by omega)]
    rfl
  all_goals cases h

/-- A character that may stand as it is does so with all its bytes. -/
theorem unescaped_of_raw {c : Char} (hc : 0x20 ≤ c.toNat) (hquote : c ≠ '"') (hsolidus : c ≠ '\\') :
    ∀ b ∈ String.utf8EncodeChar c, Unescaped b := by
  rcases (utf8Char_utf8EncodeChar c).ascii_or with ⟨b, -, hb⟩ | hhigh
  · have htoNat := utf8EncodeChar_of_ascii hb
    rw [hb, List.forall_mem_singleton]
    refine ⟨?_, ?_, ?_⟩
    · rw [UInt8.le_iff_toNat_le, htoNat]
      exact hc
    · rintro rfl
      exact hquote (Char.toNat_inj.1 htoNat.symm)
    · rintro rfl
      exact hsolidus (Char.toNat_inj.1 htoNat.symm)
  · intro b hb
    have h := hhigh b hb
    refine ⟨UInt8.le_trans (by decide) h, ?_, ?_⟩
    · rintro rfl
      exact absurd h (by decide)
    · rintro rfl
      exact absurd h (by decide)

theorem WritesChar.isChars {c : Char} {t : Text} (h : WritesChar c t) :
    IsChars (String.utf8EncodeChar c) t := by
  cases h with
  | raw hc hquote hsolidus => exact isChars_self (unescaped_of_raw hc hquote hsolidus)
  | @escaped b d hb hd =>
      have hle := (unescape_le hb).2
      have hencode : String.utf8EncodeChar c = [d] := by
        rw [UInt8.le_iff_toNat_le] at hle
        rw [String.utf8EncodeChar, if_pos (by rw [← Char.toNat, hd]; exact hle)]
        rw [← Char.toNat, hd, UInt8.ofNat_toNat]
      rw [hencode]
      exact IsChar.isChars (.escaped hb)
  | unicode hhex =>
      have hc := toNat_lt c
      have := hhex.lt
      have h := IsChar.unicode hhex (fun h ↦ by simp only [HighSurrogate] at h; omega)
        fun h ↦ by simp only [LowSurrogate] at h; omega
      rw [Char.ofNat_toNat] at h
      exact h.isChars
  | surrogates hle hhigh hlow =>
      have hc := toNat_lt c
      have h := IsChar.surrogates hhigh (by simp only [HighSurrogate]; omega) hlow
        (by simp only [LowSurrogate]; omega)
      have hn : 0x10000 + (0xd800 + (c.toNat - 0x10000) / 0x400 - 0xd800) * 0x400 +
          (0xdc00 + (c.toNat - 0x10000) % 0x400 - 0xdc00) = c.toNat := by omega
      rw [hn, Char.ofNat_toNat] at h
      exact h.isChars

theorem WritesString.isChars {cs : List Char} {t : Text} (h : WritesString cs t) :
    IsChars (encode cs) t := by
  induction h with
  | nil => exact .nil
  | cons hc _ ih => exact IsChars.append hc.isChars ih

/-! ## UTF-8 in, UTF-8 out -/

theorem hexDigit_le {b : UInt8} {d : Nat} (h : hexDigit b = some d) : b ≤ 0x7f := by
  rw [hexDigit] at h
  split_ifs at h with h₁ h₂ h₃
  · exact UInt8.le_trans h₁.2 (by decide)
  · exact UInt8.le_trans h₂.2 (by decide)
  · exact UInt8.le_trans h₃.2 (by decide)

theorem Hex4.ascii {n : Nat} {t : Text} (h : Hex4 n t) : ∀ b ∈ t, b ≤ 0x7f := by
  obtain ⟨_, _, _, _, _, _, _, _, rfl, h₀, h₁, h₂, h₃, -⟩ := h
  simpa using ⟨hexDigit_le h₀, hexDigit_le h₁, hexDigit_le h₂, hexDigit_le h₃⟩

theorem unicodeEscape_ascii {n : Nat} {t : Text} (h : Hex4 n t) : ∀ b ∈ unicodeEscape t, b ≤ 0x7f :=
  List.forall_mem_cons.2 ⟨by decide, List.forall_mem_cons.2 ⟨by decide, Hex4.ascii h⟩⟩

/-- What a character is written with is below `0x80`, or it is one byte of a longer one. -/
theorem IsChar.ascii_or {c t : Text} (h : IsChar c t) :
    (∀ b ∈ t, b ≤ 0x7f) ∧ IsUtf8 c ∨ ∃ b, 0x80 ≤ b ∧ c = [b] ∧ t = [b] := by
  cases h with
  | @unescaped b hb =>
      by_cases hle : b ≤ 0x7f
      · exact .inl ⟨by simpa using hle, (Utf8Char.one hle).isUtf8⟩
      · refine .inr ⟨b, ?_, rfl, rfl⟩
        simp only [UInt8.le_iff_toNat_le, UInt8.toNat_ofNat] at hle ⊢
        omega
  | escaped hb =>
      obtain ⟨hle, hle'⟩ := unescape_le hb
      exact .inl ⟨by simpa using ⟨by decide, hle⟩, (Utf8Char.one hle').isUtf8⟩
  | unicode hhex => exact .inl ⟨unicodeEscape_ascii hhex, (utf8Char_utf8EncodeChar _).isUtf8⟩
  | surrogates hhigh _ hlow =>
      exact .inl ⟨List.forall_mem_append.2 ⟨unicodeEscape_ascii hhigh, unicodeEscape_ascii hlow⟩,
        (utf8Char_utf8EncodeChar _).isUtf8⟩

theorem IsChars.nil_iff {cs : Text} (h : IsChars cs []) : cs = [] := by
  generalize ht : ([] : Text) = t at h
  cases h with
  | nil => rfl
  | cons hc _ =>
      have hpos := hc.length_pos
      rw [(List.append_eq_nil_iff.1 ht.symm).1] at hpos
      cases hpos

theorem IsChars.exists_cons {cs t : Text} (h : IsChars cs t) (ht : t ≠ []) :
    ∃ c u ds us, IsChar c u ∧ IsChars ds us ∧ cs = c ++ ds ∧ t = u ++ us := by
  cases h with
  | nil => exact absurd rfl ht
  | cons hc hcs => exact ⟨_, _, _, _, hc, hcs, rfl, rfl⟩

/-- The bytes of a longer character are all taken as they are. -/
theorem IsChars.of_high {cs u rest : Text} (hu : ∀ b ∈ u, 0x80 ≤ b) (h : IsChars cs (u ++ rest)) :
    ∃ ds, cs = u ++ ds ∧ IsChars ds rest := by
  induction u generalizing cs with
  | nil => exact ⟨cs, rfl, h⟩
  | cons b u ih =>
      obtain ⟨hb, hu⟩ := List.forall_mem_cons.1 hu
      obtain ⟨c, v, ds, us, hc, hds, rfl, heq⟩ := h.exists_cons (by simp)
      rcases hc.ascii_or with ⟨hascii, -⟩ | ⟨d, -, rfl, rfl⟩
      · cases v with
        | nil => exact absurd hc.length_pos (by simp)
        | cons d v =>
            rw [(List.cons.inj heq).1] at hb
            exact absurd (hascii d List.mem_cons_self) (not_le_of_high hb)
      · obtain ⟨rfl, rfl⟩ := List.cons.inj heq
        obtain ⟨es, rfl, hes⟩ := ih hu hds
        exact ⟨es, rfl, hes⟩

/-- What UTF-8 stands for is UTF-8. -/
theorem IsChars.isUtf8 {cs t : Text} (h : IsChars cs t) (ht : IsUtf8 t) : IsUtf8 cs := by
  induction hn : t.length using Nat.strong_induction_on generalizing cs t with
  | _ n ih =>
  subst hn
  rcases ht.cases with rfl | ⟨u, rest, hu, hrest, rfl⟩
  · rw [h.nil_iff]
    exact .nil
  · have hpos : 0 < u.length := by cases hu <;> exact Nat.succ_pos _
    rcases hu.ascii_or with ⟨b, hb, rfl⟩ | hhigh
    · obtain ⟨c, v, ds, us, hc, hds, rfl, heq⟩ := h.exists_cons (by simp)
      rcases hc.ascii_or with ⟨hascii, hutf8⟩ | ⟨d, hd, rfl, rfl⟩
      · have hus : IsUtf8 us := by
          rw [← isUtf8_append_iff hascii, ← heq]
          exact ht
        refine hutf8.append (ih us.length ?_ hds hus rfl)
        rw [heq, List.length_append]
        exact Nat.lt_add_of_pos_left hc.length_pos
      · rw [(List.cons.inj heq).1] at hb
        exact absurd hb (not_le_of_high hd)
    · obtain ⟨ds, rfl, hds⟩ := h.of_high hhigh
      refine hu.isUtf8.append (ih rest.length ?_ hds hrest rfl)
      rw [List.length_append]
      exact Nat.lt_add_of_pos_left hpos

end SecondScreen.Json
