import SecondScreen.Json.Utf8
import SecondScreen.Host.JsonTokens

/-!
# `IsValidUtf8`

The check of the input lines in `main.cpp`.  A byte is read by its index, and `none` stands
for a read past the end of the text.
-/

namespace SecondScreen.Host

open SecondScreen.Json

/-- How many bytes follow the first one, and what the second one may be. -/
structure Utf8Lead where
  continuationCount : Nat
  secondMin : UInt8 := 0x80
  secondMax : UInt8 := 0xbf

/-- The branches of `IsValidUtf8` on the first byte, from `0x80` on. -/
def utf8Lead (first : UInt8) : Option Utf8Lead :=
  if 0xc2 ≤ first ∧ first ≤ 0xdf then some { continuationCount := 1 }
  else if first = 0xe0 then some { continuationCount := 2, secondMin := 0xa0 }
  else if 0xe1 ≤ first ∧ first ≤ 0xec then some { continuationCount := 2 }
  else if first = 0xed then some { continuationCount := 2, secondMax := 0x9f }
  else if first = 0xee ∨ first = 0xef then some { continuationCount := 2 }
  else if first = 0xf0 then some { continuationCount := 3, secondMin := 0x90 }
  else if 0xf1 ≤ first ∧ first ≤ 0xf3 then some { continuationCount := 3 }
  else if first = 0xf4 then some { continuationCount := 3, secondMax := 0x8f }
  else none

/-- The loop over the bytes after the second one, from index `i` on. -/
def continuationBytes (text : Text) : (count i : Nat) → Option Bool
  | 0, _ => some true
  | count + 1, i =>
      match text[i]? with
      | none => none
      | some byte =>
          if byte < 0x80 ∨ byte > 0xbf then some false else continuationBytes text count (i + 1)

/-- The loop of `IsValidUtf8`, from index `i` on. -/
def isValidUtf8From (text : Text) (i : Nat) : Option Bool :=
  if _h : i < text.length then
    match text[i]? with
    | none => none
    | some first =>
        if first ≤ 0x7f then isValidUtf8From text (i + 1)
        else
          match utf8Lead first with
          | none => some false
          | some lead =>
              if i + lead.continuationCount ≥ text.length then some false
              else
                match text[i + 1]? with
                | none => none
                | some second =>
                    if second < lead.secondMin ∨ second > lead.secondMax then some false
                    else
                      match continuationBytes text (lead.continuationCount - 1) (i + 2) with
                      | none => none
                      | some false => some false
                      | some true => isValidUtf8From text (i + lead.continuationCount + 1)
  else some true
termination_by text.length - i

def isValidUtf8 (text : Text) : Option Bool := isValidUtf8From text 0

/-! ## What is read -/

/-- The bytes after the first one are as the first one demands. -/
structure Utf8Lead.Allows (lead : Utf8Lead) (second : UInt8) (rest : Text) : Prop where
  second : ¬(second < lead.secondMin ∨ second > lead.secondMax)
  length : rest.length + 1 = lead.continuationCount
  rest : ∀ b ∈ rest, Utf8Tail b

theorem not_or_iff {a low high : UInt8} : ¬(a < low ∨ a > high) ↔ low ≤ a ∧ a ≤ high := by
  rw [not_or, UInt8.not_lt, gt_iff_lt, UInt8.not_lt]

/-- The branches on the first byte are those of the grammar. -/
theorem utf8Lead_allows_iff {first : UInt8} (hfirst : ¬first ≤ 0x7f) {second : UInt8}
    {rest : Text} :
    (∃ lead, utf8Lead first = some lead ∧ lead.Allows second rest) ↔
      Utf8Char (first :: second :: rest) := by
  constructor
  · rintro ⟨lead, hlead, hsecond, hlength, hrest⟩
    rw [not_or_iff] at hsecond
    rw [utf8Lead] at hlead
    split_ifs at hlead <;> cases hlead
    · rename_i htwo
      obtain rfl := List.length_eq_zero_iff.1 (Nat.succ.inj hlength)
      exact .two htwo.1 htwo.2 hsecond
    iterate 4
      · obtain ⟨d, rfl⟩ := List.length_eq_one_iff.1 (Nat.succ.inj hlength)
        have hd := hrest d List.mem_cons_self
        apply Utf8Char.three _ _ _ hd <;>
        · simp only [Utf8Tail, UInt8.le_iff_toNat_le, ← UInt8.toNat_inj, UInt8.toNat_ofNat] at *
          omega
    iterate 3
      · obtain ⟨d, e, rfl⟩ := List.length_eq_two.1 (Nat.succ.inj hlength)
        have hd := hrest d List.mem_cons_self
        have he := hrest e (List.mem_cons_of_mem _ List.mem_cons_self)
        apply Utf8Char.four _ _ _ hd he <;>
        · simp only [Utf8Tail, UInt8.le_iff_toNat_le, ← UInt8.toNat_inj, UInt8.toNat_ofNat] at *
          omega
  · intro h
    rw [utf8Lead]
    cases h with
    | two hb hb' hc =>
        exact ⟨_, if_pos ⟨hb, hb'⟩, not_or_iff.2 hc, rfl, fun b hb ↦ by cases hb⟩
    | @three _ _ d hb hb' hc hd hlow hhigh =>
        have hrest : ∀ b ∈ [d], Utf8Tail b := by simpa using hd
        -- Either the branch is for other first bytes, or it bounds the second one as here.
        split_ifs <;> first
          | refine ⟨_, rfl, not_or_iff.2 ?_, rfl, hrest⟩
            simp only [Utf8Tail, UInt8.le_iff_toNat_le, ← UInt8.toNat_inj, UInt8.toNat_ofNat] at *
            omega
          | exfalso
            simp only [UInt8.le_iff_toNat_le, ← UInt8.toNat_inj, UInt8.toNat_ofNat] at *
            omega
    | @four _ _ d e hb hb' hc hd he hlow hhigh =>
        have hrest : ∀ b ∈ [d, e], Utf8Tail b := by simpa using ⟨hd, he⟩
        split_ifs <;> first
          | refine ⟨_, rfl, not_or_iff.2 ?_, rfl, hrest⟩
            simp only [Utf8Tail, UInt8.le_iff_toNat_le, ← UInt8.toNat_inj, UInt8.toNat_ofNat] at *
            omega
          | exfalso
            simp only [UInt8.le_iff_toNat_le, ← UInt8.toNat_inj, UInt8.toNat_ofNat] at *
            omega

/-- A text that does not begin with a byte below `0x80` begins with a longer character. -/
theorem exists_lead {first : UInt8} (hfirst : ¬first ≤ 0x7f) {t : Text}
    (h : IsUtf8 (first :: t)) :
    ∃ lead second rest after, utf8Lead first = some lead ∧ lead.Allows second rest ∧
      t = second :: (rest ++ after) := by
  obtain hnil | ⟨u, after, hu, -, heq⟩ := h.cases
  · cases hnil
  · obtain ⟨second, rest, rfl⟩ : ∃ second rest, u = first :: second :: rest := by
      cases hu with
      | one hb =>
          rw [(List.cons.inj heq).1] at hfirst
          exact absurd hb hfirst
      | two | three | four =>
          rw [(List.cons.inj heq).1]
          exact ⟨_, _, rfl⟩
    obtain ⟨lead, hlead, hallows⟩ := (utf8Lead_allows_iff hfirst).2 hu
    exact ⟨lead, second, rest, after, hlead, hallows, (List.cons.inj heq).2⟩

theorem continuationBytes_spec {text : Text} {count i : Nat} (h : i + count ≤ text.length) :
    ∃ r, continuationBytes text count i = some r ∧
      (r = true ↔ ∀ b ∈ (text.drop i).take count, Utf8Tail b) := by
  induction count generalizing i with
  | zero => exact ⟨true, rfl, by simp⟩
  | succ count ih =>
      have hi : i < text.length := by omega
      rw [continuationBytes, List.getElem?_eq_getElem hi, List.drop_eq_getElem_cons hi,
        List.take_succ_cons, List.forall_mem_cons]
      by_cases hbyte : text[i] < 0x80 ∨ text[i] > 0xbf
      · refine ⟨false, if_pos hbyte, ?_⟩
        constructor
        · rintro ⟨⟩
        · exact fun h ↦ absurd hbyte (not_or_iff.2 h.1)
      · obtain ⟨r, hr, hiff⟩ := ih (i := i + 1) (by omega)
        refine ⟨r, (if_neg hbyte).trans hr, ?_⟩
        rw [hiff]
        exact (and_iff_right (not_or_iff.1 hbyte)).symm

theorem drop_of_getElem? {text : Text} {i : Nat} {b : UInt8} (h : text[i]? = some b) :
    text.drop i = b :: text.drop (i + 1) := by
  obtain ⟨hi, rfl⟩ := List.getElem?_eq_some_iff.1 h
  exact List.drop_eq_getElem_cons hi

/-- Within the text no read fails. -/
theorem getElem?_ne_none {text : Text} {i : Nat} (hi : i < text.length) : text[i]? ≠ none := by
  rw [List.getElem?_eq_getElem hi]
  exact Option.some_ne_none _

theorem continuationCount_pos {first : UInt8} {lead : Utf8Lead} (h : utf8Lead first = some lead) :
    1 ≤ lead.continuationCount := by
  rw [utf8Lead] at h
  split_ifs at h <;> cases h <;> decide

section Lead

variable {text : Text} {i : Nat} {first second : UInt8} {lead : Utf8Lead}

/-- Where UTF-8 is left, the bytes after the first one are as it demands. -/
theorem allows_of_isUtf8 (hfirst : text[i]? = some first) (hle : ¬first ≤ 0x7f)
    (hlead : utf8Lead first = some lead) (h : IsUtf8 (text.drop i)) :
    ∃ second rest after, text.drop (i + 1) = second :: (rest ++ after) ∧
      lead.Allows second rest := by
  rw [drop_of_getElem? hfirst] at h
  obtain ⟨lead', second, rest, after, hlead', hallows, hdrop⟩ := exists_lead hle h
  cases hlead.symm.trans hlead'
  exact ⟨second, rest, after, hdrop, hallows⟩

/-- The bytes that have been checked are a character, and what follows is left. -/
theorem isUtf8_drop_iff (hfirst : text[i]? = some first) (hle : ¬first ≤ 0x7f)
    (hlead : utf8Lead first = some lead) (hend : ¬i + lead.continuationCount ≥ text.length)
    (hsecond : text[i + 1]? = some second)
    (hok : ¬(second < lead.secondMin ∨ second > lead.secondMax))
    (htail : ∀ b ∈ (text.drop (i + 2)).take (lead.continuationCount - 1), Utf8Tail b) :
    IsUtf8 (text.drop (i + lead.continuationCount + 1)) ↔ IsUtf8 (text.drop i) := by
  have hcount := continuationCount_pos hlead
  let rest := (text.drop (i + 2)).take (lead.continuationCount - 1)
  have hlength : rest.length + 1 = lead.continuationCount := by
    simp only [rest, List.length_take, List.length_drop]
    omega
  have hu : Utf8Char (first :: second :: rest) :=
    (utf8Lead_allows_iff hle).1 ⟨lead, hlead, hok, hlength, htail⟩
  have hafter : (text.drop (i + 2)).drop (lead.continuationCount - 1) =
      text.drop (i + lead.continuationCount + 1) := by
    rw [List.drop_drop]
    congr 1
    omega
  have hdrop : text.drop i =
      (first :: second :: rest) ++ text.drop (i + lead.continuationCount + 1) := by
    rw [drop_of_getElem? hfirst, drop_of_getElem? hsecond, ← hafter]
    simp only [rest, List.cons_append, List.take_append_drop]
  rw [hdrop]
  exact ⟨hu.isUtf8.append, IsUtf8.of_append hu⟩

end Lead

/-- A text is read character by character, each within its bounds. -/
theorem isValidUtf8From_spec (text : Text) (i : Nat) :
    ∃ r, isValidUtf8From text i = some r ∧ (r = true ↔ IsUtf8 (text.drop i)) := by
  -- A branch that returns false is one in which no UTF-8 is left.
  have hreject {i : Nat} (h : ¬IsUtf8 (text.drop i)) :
      ∃ r, some false = some r ∧ (r = true ↔ IsUtf8 (text.drop i)) :=
    ⟨false, rfl, iff_of_false Bool.false_ne_true h⟩
  fun_induction isValidUtf8From text i with
  | case1 i hi hnone => exact absurd hnone (getElem?_ne_none hi)
  | case2 i hi first hfirst hle ih =>
      obtain ⟨r, hr, hiff⟩ := ih
      exact ⟨r, hr, by rw [hiff, drop_of_getElem? hfirst, isUtf8_cons_iff hle]⟩
  | case3 i hi first hfirst hle hnone =>
      refine hreject fun h ↦ ?_
      rw [drop_of_getElem? hfirst] at h
      obtain ⟨lead, _, _, _, hlead, -⟩ := exists_lead hle h
      cases hnone.symm.trans hlead
  | case4 i hi first hfirst hle lead hlead hend =>
      refine hreject fun h ↦ ?_
      obtain ⟨second, rest, after, hdrop, hallows⟩ := allows_of_isUtf8 hfirst hle hlead h
      have hcount := hallows.length
      have hlength := congrArg List.length hdrop
      simp only [List.length_drop, List.length_cons, List.length_append] at hlength
      omega
  | case5 i hi first hfirst hle lead hlead hend hnone =>
      have hcount := continuationCount_pos hlead
      exact absurd hnone (getElem?_ne_none (by omega))
  | case6 i hi first hfirst hle lead hlead hend second hsecond hbad =>
      refine hreject fun h ↦ ?_
      obtain ⟨second', rest, after, hdrop, hallows⟩ := allows_of_isUtf8 hfirst hle hlead h
      rw [drop_of_getElem? hsecond] at hdrop
      rw [(List.cons.inj hdrop).1] at hbad
      exact absurd hbad hallows.second
  | case7 i hi first hfirst hle lead hlead hend second hsecond hok hnone =>
      have hcount := continuationCount_pos hlead
      obtain ⟨r, hr, -⟩ :=
        @continuationBytes_spec text (lead.continuationCount - 1) (i + 2) (by omega)
      cases hnone.symm.trans hr
  | case8 i hi first hfirst hle lead hlead hend second hsecond hok hfalse =>
      have hcount := continuationCount_pos hlead
      obtain ⟨r, hr, hiff⟩ :=
        @continuationBytes_spec text (lead.continuationCount - 1) (i + 2) (by omega)
      cases hfalse.symm.trans hr
      refine hreject fun h ↦ ?_
      obtain ⟨second', rest, after, hdrop, hallows⟩ := allows_of_isUtf8 hfirst hle hlead h
      rw [drop_of_getElem? hsecond] at hdrop
      have hrest : (text.drop (i + 2)).take (lead.continuationCount - 1) = rest := by
        rw [(List.cons.inj hdrop).2, ← hallows.length]
        exact List.take_left
      exact absurd (hiff.2 (hrest ▸ hallows.rest)) Bool.false_ne_true
  | case9 i hi first hfirst hle lead hlead hend second hsecond hok htrue ih =>
      have hcount := continuationCount_pos hlead
      obtain ⟨r, hr, hiff⟩ :=
        @continuationBytes_spec text (lead.continuationCount - 1) (i + 2) (by omega)
      cases htrue.symm.trans hr
      obtain ⟨r, hr, ih⟩ := ih
      exact ⟨r, hr, ih.trans (isUtf8_drop_iff hfirst hle hlead hend hsecond hok (hiff.1 rfl))⟩
  | case10 i hi =>
      refine ⟨true, rfl, ?_⟩
      rw [List.drop_of_length_le (Nat.not_lt.1 hi)]
      exact ⟨fun _ ↦ .nil, fun _ ↦ rfl⟩

theorem isValidUtf8_iff {text : Text} : isValidUtf8 text = some true ↔ IsUtf8 text := by
  obtain ⟨r, hr, hiff⟩ := isValidUtf8From_spec text 0
  rw [isValidUtf8, hr, Option.some_inj]
  exact hiff

/-! ## Code points -/

/-- A Unicode scalar value. -/
def IsScalarValue (n : Nat) : Prop := n ≤ 0x10ffff ∧ ¬(0xd800 ≤ n ∧ n ≤ 0xdfff)

/-- The encodings of code points, one after the other. -/
def appendAll (codePoints : List Nat) : Text := codePoints.foldl appendUtf8 []

theorem foldl_appendUtf8 (output : Text) (cs : List Char) :
    (cs.map Char.toNat).foldl appendUtf8 output = output ++ encode cs := by
  induction cs generalizing output with
  | nil => exact (List.append_nil _).symm
  | cons c cs ih =>
      rw [List.map_cons, List.foldl_cons, JsonParser.appendUtf8_toNat, ih, encode_cons,
        List.append_assoc]

/-- The scalar values are the characters. -/
theorem exists_chars {codePoints : List Nat} (h : ∀ n ∈ codePoints, IsScalarValue n) :
    ∃ cs : List Char, cs.map Char.toNat = codePoints := by
  induction codePoints with
  | nil => exact ⟨[], rfl⟩
  | cons n codePoints ih =>
      obtain ⟨⟨hle, hsurrogate⟩, hrest⟩ := List.forall_mem_cons.1 h
      obtain ⟨cs, rfl⟩ := ih hrest
      obtain ⟨c, hc⟩ := exists_char (n := n) (by omega)
      exact ⟨c :: cs, by rw [List.map_cons]; congr⟩

theorem isUtf8_iff {text : Text} :
    IsUtf8 text ↔ ∃ codePoints, (∀ n ∈ codePoints, IsScalarValue n) ∧
      text = appendAll codePoints := by
  constructor
  · rintro ⟨cs, rfl⟩
    refine ⟨cs.map Char.toNat, ?_, (foldl_appendUtf8 [] cs).symm⟩
    rw [List.forall_mem_map]
    intro c _
    have hc := toNat_lt c
    exact ⟨by omega, by omega⟩
  · rintro ⟨codePoints, hscalar, rfl⟩
    obtain ⟨cs, rfl⟩ := exists_chars hscalar
    exact ⟨cs, foldl_appendUtf8 [] cs⟩

/-- `IsValidUtf8` accepts exactly what `AppendUtf8` makes of scalar values, and reads nothing
past the end. -/
theorem isValidUtf8_exact (text : Text) :
    ∃ r, isValidUtf8 text = some r ∧
      (r = true ↔ ∃ codePoints, (∀ n ∈ codePoints, IsScalarValue n) ∧
        text = appendAll codePoints) := by
  obtain ⟨r, hr, hiff⟩ := isValidUtf8From_spec text 0
  exact ⟨r, hr, hiff.trans isUtf8_iff⟩

end SecondScreen.Host
