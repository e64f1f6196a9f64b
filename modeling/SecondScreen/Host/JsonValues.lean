import SecondScreen.Host.JsonTokens

/-!
# The values of the handshake

`SkipValue` takes exactly one value, at every depth, and `ParseStringArray` an array of
strings.  That what is skipped is a value is shown by induction on the count; that every
value is skipped, by induction on the value.
-/

namespace SecondScreen.Host.JsonParser

open SecondScreen.Json

/-! ## Arrays of strings -/

/-- An element is put to those before it. -/
def Appends (output : List Text) (t : Text) (output' : List Text) : Prop :=
  ∃ s, IsString s t ∧ output' = output ++ [s]

theorem parseElement_sound : ItemSound parseElement Appends := by
  intro output output' s rest h
  rw [parseElement, bind_eq_ok] at h
  obtain ⟨⟨value, s'⟩, hvalue, h⟩ := h
  cases h
  obtain ⟨t, ht, rfl⟩ := parseString_parses.sound hvalue
  exact ⟨[], t, .nil, ⟨value, ht, rfl⟩, rfl⟩

theorem parseElement_complete : ItemComplete parseElement Appends where
  complete h _ := by
    obtain ⟨value, ht, rfl⟩ := h
    rw [parseElement, parseString_parses.complete ht trivial]
    rfl
  starts h := by
    obtain ⟨value, ht, -⟩ := h
    exact ht.starts

theorem chain_appends {output output' : List Text} {items : List Padded} :
    Chain Appends output items output' ↔
      ∃ strings, List.Forall₂ (fun s p ↦ IsString s (Padded.text p)) strings items ∧
        output' = output ++ strings := by
  induction items generalizing output with
  | nil =>
      constructor
      · rintro rfl
        exact ⟨[], .nil, (List.append_nil _).symm⟩
      · rintro ⟨_, ⟨⟩, rfl⟩
        exact (List.append_nil _).symm
  | cons p items ih =>
      constructor
      · rintro ⟨_, ⟨s, hs, rfl⟩, hchain⟩
        obtain ⟨strings, hstrings, rfl⟩ := ih.1 hchain
        exact ⟨s :: strings, .cons hs hstrings, by simp⟩
      · rintro ⟨_, ⟨⟩, rfl⟩
        next s strings hs hstrings =>
        exact ⟨output ++ [s], ⟨s, hs, rfl⟩, ih.2 ⟨strings, hstrings, by simp⟩⟩

theorem parseStringArray_parses : Parses parseStringArray IsStringArray fun _ ↦ True where
  sound {strings s rest} h := by
    rw [parseStringArray] at h
    split at h
    · next s' hs =>
      obtain ⟨items, body, hbody, hchain, rfl⟩ := separatedOrNone_sound parseElement_sound h
      obtain ⟨strings', hstrings, rfl⟩ := chain_appends.1 hchain
      exact ⟨ascii '[' :: (body ++ [ascii ']']), ⟨items, body, hstrings, hbody, rfl⟩,
        by rw [consume_eq_some hs]; simp⟩
    · cases h
  complete {strings t rest} h _ := by
    obtain ⟨items, body, hstrings, hbody, rfl⟩ := h
    have htext : ascii '[' :: (body ++ [ascii ']']) ++ rest =
        ascii '[' :: (body ++ ascii ']' :: rest) := by simp
    rw [htext, parseStringArray, consume_cons_self]
    refine separatedOrNone_complete parseElement_complete (.inl rfl) hbody
      (chain_appends.2 ⟨strings, hstrings, rfl⟩) ?_
    have := hbody.length_le
    simp
    omega

/-! ## Names -/

/-- A name up to its colon. -/
theorem name_sound {key s s₁ s₂ : Text} (hkey : parseString s = .ok (key, s₁))
    (hcolon : consume (ascii ':') (skipWhitespace s₁) = some s₂) :
    ∃ name after, IsString key name ∧ Whitespace after ∧
      s = name ++ (after ++ ascii ':' :: s₂) := by
  obtain ⟨name, hname, rfl⟩ := parseString_parses.sound hkey
  obtain ⟨after, hafter, hs₁⟩ := exists_skipWhitespace s₁
  refine ⟨name, after, hname, hafter, ?_⟩
  rw [← consume_eq_some hcolon, ← hs₁]

theorem name_complete {key name after : Text} (hname : IsString key name)
    (hafter : Whitespace after) (s : Text) :
    parseString (name ++ (after ++ ascii ':' :: s)) = .ok (key, after ++ ascii ':' :: s) ∧
      consume (ascii ':') (skipWhitespace (after ++ ascii ':' :: s)) = some s := by
  refine ⟨parseString_parses.complete hname trivial, ?_⟩
  rw [skipWhitespace_append hafter, skipWhitespace_cons rfl, consume_cons_self]

/-! ## Any value -/

/-- What `skip` takes is a value with whitespace before it. -/
def SkipsValue (skip : Text → Except Unit Text) : Prop :=
  ∀ s rest, skip s = .ok rest → ∃ w t, Whitespace w ∧ IsValue t ∧ s = w ++ (t ++ rest)

theorem skipElement_sound {skip : Text → Except Unit Text} (h : SkipsValue skip) :
    ItemSound (skipElement skip) fun _ t _ ↦ IsValue t := by
  intro a b s rest hread
  rw [skipElement, bind_eq_ok] at hread
  obtain ⟨s', hskip, hread⟩ := hread
  cases hread
  exact h s rest hskip

theorem skipMember_sound {skip : Text → Except Unit Text} (h : SkipsValue skip) :
    ItemSound (skipMember skip) fun _ t _ ↦
      ∃ key value, IsMember key value t ∧ IsValue value := by
  intro a b s rest hread
  rw [skipMember, bind_eq_ok] at hread
  obtain ⟨⟨key, s₁⟩, hkey, hread⟩ := hread
  simp only at hread
  split at hread
  · next s₂ hcolon =>
    rw [bind_eq_ok] at hread
    obtain ⟨s₃, hskip, hread⟩ := hread
    cases hread
    obtain ⟨name, after, hname, hafter, rfl⟩ := name_sound hkey hcolon
    obtain ⟨before, value, hbefore, hvalue, rfl⟩ := h s₂ rest hskip
    exact ⟨[], _, .nil, ⟨key, value, ⟨name, after, before, hname, hafter, hbefore, rfl⟩, hvalue⟩,
      by simp⟩
  · cases hread

/-- `SkipValue` takes a value. -/
theorem skipValue_sound (n : Nat) : SkipsValue (skipValue n) := by
  induction n with
  | zero =>
      intro s rest h
      cases h
  | succ n ih =>
      intro s rest h
      obtain ⟨w, hw, hs⟩ := exists_skipWhitespace s
      suffices ∃ t, IsValue t ∧ skipWhitespace s = t ++ rest by
        obtain ⟨t, ht, hskip⟩ := this
        exact ⟨w, t, hw, ht, hskip ▸ hs⟩
      rw [skipValue] at h
      cases hskip : skipWhitespace s with
      | nil =>
          rw [hskip] at h
          cases h
      | cons c s' =>
          rw [hskip] at h
          simp only at h
          split_ifs at h with hquote hbrace hbracket ht hf hn
          · obtain ⟨⟨value, rest'⟩, hparse, hrest⟩ := map_eq_ok.1 h
            cases hrest
            obtain ⟨t, hstring, ht⟩ := parseString_parses.sound hparse
            exact ⟨t, .string hstring, ht⟩
          · obtain ⟨⟨⟨⟩, rest'⟩, hread, hrest⟩ := map_eq_ok.1 h
            cases hrest
            obtain ⟨items, body, hbody, hchain, rfl⟩ :=
              separatedOrNone_sound (skipMember_sound ih) hread
            obtain ⟨members, rfl, hmembers⟩ := chain_isMember.1 hchain
            refine ⟨ascii '{' :: (body ++ [ascii '}']),
              .object hbody (memberChain_unit.1 hmembers), ?_⟩
            rw [hbrace]
            simp
          · obtain ⟨⟨⟨⟩, rest'⟩, hread, hrest⟩ := map_eq_ok.1 h
            cases hrest
            obtain ⟨items, body, hbody, hchain, rfl⟩ :=
              separatedOrNone_sound (skipElement_sound ih) hread
            refine ⟨ascii '[' :: (body ++ [ascii ']']), .array hbody (chain_unit.1 hchain), ?_⟩
            rw [hbracket]
            simp
          · obtain ⟨t, rfl, ht⟩ := (parseLiteral_skips _).sound h
            exact ⟨_, .literal (by simp [literals]), ht⟩
          · obtain ⟨t, rfl, ht⟩ := (parseLiteral_skips _).sound h
            exact ⟨_, .literal (by simp [literals]), ht⟩
          · obtain ⟨t, rfl, ht⟩ := (parseLiteral_skips _).sound h
            exact ⟨_, .literal (by simp [literals]), ht⟩
          · obtain ⟨t, hnumber, ht⟩ := skipNumber_skips.sound h
            exact ⟨t, .number hnumber, ht⟩

/-- Whitespace before the value makes no difference. -/
theorem skipValue_whitespace {w : Text} (hw : Whitespace w) (n : Nat) (s : Text) :
    skipValue n (w ++ s) = skipValue n s := by
  cases n with
  | zero => rfl
  | succ n => rw [skipValue, skipValue, skipWhitespace_append hw]

/-- What `skip` takes are the values up to this length. -/
def SkipsUpTo (n : Nat) (skip : Text → Except Unit Text) : Prop :=
  ∀ {w t rest : Text}, Whitespace w → IsValue t → t.length ≤ n → Ends rest →
    skip (w ++ (t ++ rest)) = .ok rest

theorem skipElement_complete {n : Nat} {skip : Text → Except Unit Text} (h : SkipsUpTo n skip) :
    ItemComplete (skipElement skip) fun _ t _ ↦ IsValue t ∧ t.length ≤ n where
  complete {a b t rest} ht hends := by
    rw [skipElement, show skip (t ++ rest) = .ok rest from h .nil ht.1 ht.2 hends]
    rfl
  starts ht := ht.1.starts

theorem skipMember_complete {n : Nat} {skip : Text → Except Unit Text} (h : SkipsUpTo n skip) :
    ItemComplete (skipMember skip) fun _ t _ ↦
      ∃ key value, IsMember key value t ∧ IsValue value ∧ value.length ≤ n where
  complete {a b t rest} ht hends := by
    obtain ⟨key, value, ⟨name, after, before, hname, hafter, hbefore, rfl⟩, hvalue, hn⟩ := ht
    obtain ⟨hkey, hcolon⟩ := name_complete hname hafter (before ++ (value ++ rest))
    have htext : name ++ (after ++ ascii ':' :: (before ++ value)) ++ rest =
        name ++ (after ++ ascii ':' :: (before ++ (value ++ rest))) := by simp
    rw [htext, skipMember, hkey]
    dsimp only [bind, Except.bind]
    rw [hcolon]
    dsimp only
    rw [h hbefore hvalue hn hends]
    rfl
  starts ht := by
    obtain ⟨key, value, hmember, -⟩ := ht
    exact hmember.starts

/-- What a number begins with begins no other value. -/
theorem number_head {t : Text} (h : IsNumber t) :
    ∃ c s, t = c :: s ∧ c ≠ quotationMark ∧ c ≠ ascii '{' ∧ c ≠ ascii '[' ∧ c ≠ ascii 't' ∧
      c ≠ ascii 'f' ∧ c ≠ ascii 'n' := by
  obtain ⟨minus, int, frac, exp, rfl | rfl, hint, -, -, rfl⟩ := h
  · obtain ⟨d, digits, rfl, hd⟩ := hint.cons
    refine ⟨d, _, rfl, ?_⟩
    refine ⟨?_, ?_, ?_, ?_, ?_, ?_⟩ <;>
    · rintro rfl
      cases hd
  · exact ⟨_, _, rfl, by decide⟩

/-- `SkipValue` takes every value that is not longer than its count. -/
theorem skipValue_complete (n : Nat) : SkipsUpTo n (skipValue n) := by
  induction n with
  | zero =>
      intro w t rest _ ht hn _
      obtain ⟨c, s, rfl, -⟩ := ht.starts
      cases hn
  | succ n ih =>
      intro w t rest hw ht hn hends
      rw [skipValue_whitespace hw, skipValue, ht.starts.skipWhitespace]
      cases ht with
      | @string a t hs =>
          have hparse : parseString (t ++ rest) = .ok (a, rest) :=
            parseString_parses.complete hs trivial
          obtain ⟨chars, -, rfl⟩ := hs
          show (if quotationMark = quotationMark then _ else _) = _
          rw [if_pos rfl]
          exact map_eq_ok.2 ⟨_, hparse, rfl⟩
      | number hnumber =>
          have hskip := skipNumber_skips.complete hnumber (numberEnds_of_ends hends)
          obtain ⟨c, s, rfl, h₁, h₂, h₃, h₄, h₅, h₆⟩ := number_head hnumber
          simp only [List.cons_append, if_neg h₁, if_neg h₂, if_neg h₃, if_neg h₄, if_neg h₅,
            if_neg h₆]
          exact hskip
      | literal hl =>
          simp only [literals, List.mem_cons, List.not_mem_nil, or_false] at hl
          rcases hl with rfl | rfl | rfl
          · exact (parseLiteral_skips (['t', 'r', 'u', 'e'].map ascii)).complete rfl trivial
          · exact (parseLiteral_skips (['f', 'a', 'l', 's', 'e'].map ascii)).complete rfl trivial
          · exact (parseLiteral_skips (['n', 'u', 'l', 'l'].map ascii)).complete rfl trivial
      | @array items body hbody hitems =>
          have htext : ascii '[' :: (body ++ [ascii ']']) ++ rest =
              ascii '[' :: (body ++ ascii ']' :: rest) := by simp
          have hlength : body.length + 1 ≤ n := by simpa using hn
          have hchain : Chain (fun _ t _ ↦ IsValue t ∧ t.length ≤ n) () items () :=
            chain_unit.2 fun p hp ↦ ⟨hitems p hp, (hbody.text_length_le hp).trans (by omega)⟩
          have hread : separatedOrNone (ascii ']') () (skipElement (skipValue n)) n ()
              (body ++ ascii ']' :: rest) = .ok ((), rest) :=
            separatedOrNone_complete (skipElement_complete ih) (.inl rfl) hbody hchain
              (hbody.length_le.trans hlength)
          rw [htext]
          exact map_eq_ok.2 ⟨_, hread, rfl⟩
      | @object members body hbody hmembers =>
          have htext : ascii '{' :: (body ++ [ascii '}']) ++ rest =
              ascii '{' :: (body ++ ascii '}' :: rest) := by simp
          have hlength : body.length + 1 ≤ n := by simpa using hn
          have hvalues : MemberChain (fun _ _ value _ ↦ IsValue value ∧ value.length ≤ n) ()
              members () := by
            refine memberChain_unit.2 fun m hm ↦ ⟨hmembers m hm, ?_⟩
            have hle := hbody.text_length_le (List.mem_map_of_mem hm)
            simp only [Member.padded, List.length_append, List.length_cons] at hle
            omega
          have hchain := chain_isMember.2 ⟨members, rfl, hvalues⟩
          have hread : separatedOrNone (ascii '}') () (skipMember (skipValue n)) n ()
              (body ++ ascii '}' :: rest) = .ok ((), rest) :=
            separatedOrNone_complete (skipMember_complete ih) (.inr rfl) hbody hchain
              (hbody.length_le.trans hlength)
          rw [htext]
          exact map_eq_ok.2 ⟨_, hread, rfl⟩

end SecondScreen.Host.JsonParser
