import SecondScreen.Json.Grammar
import Mathlib.Data.List.TakeWhile

/-!
# Reading items that are separated by commas

The loop over the items of an array or an object, for any way to read one item.  It keeps a
state, so that an item may depend on those before it.

What is read is what the grammar derives, if that holds of the single items.
-/

namespace SecondScreen.Json

/-! ## Scanning -/

def skipWhitespace (s : Text) : Text := s.dropWhile isWhitespace

/-- What is left after the expected byte. -/
def consume (expected : UInt8) : Text → Option Text
  | [] => none
  | b :: s => if b = expected then some s else none

section Loop

variable {σ ε : Type} (close : UInt8) (error : ε) (item : σ → Text → Except ε (σ × Text))

/-- The loop over the items.  Each pass takes a byte at least, so the count is never used up
where it is not less than the number of bytes. -/
def separated : Nat → σ → Text → Except ε (σ × Text)
  | 0, _, _ => .error error
  | n + 1, a, s =>
      match item a s with
      | .error e => .error e
      | .ok (a, s) =>
          match consume close (skipWhitespace s) with
          | some s => .ok (a, s)
          | none =>
              match consume (ascii ',') (skipWhitespace s) with
              | some s => separated n a (skipWhitespace s)
              | none => .error error

/-- The same, where there may be no item. -/
def separatedOrNone (n : Nat) (a : σ) (s : Text) : Except ε (σ × Text) :=
  match consume close (skipWhitespace s) with
  | some s => .ok (a, s)
  | none => separated close error item n a (skipWhitespace s)

end Loop

/-! ## Where a value begins and ends -/

/-- The text does not begin with whitespace or a closing bracket. -/
def Starts (t : Text) : Prop :=
  ∃ b s, t = b :: s ∧ isWhitespace b = false ∧ b ≠ ascii ']' ∧ b ≠ ascii '}'

theorem starts_cons {b : UInt8} (hb : isWhitespace b = false ∧ b ≠ ascii ']' ∧ b ≠ ascii '}')
    (s : Text) : Starts (b :: s) :=
  ⟨b, s, rfl, hb⟩

theorem IsString.starts {a t : Text} (h : IsString a t) : Starts t := by
  obtain ⟨chars, -, rfl⟩ := h
  exact starts_cons (by decide) _

/-- A digit begins neither whitespace nor the end of a list. -/
theorem starts_digit {d : UInt8} (hd : isDigit d = true) (s : Text) : Starts (d :: s) := by
  apply starts_cons
  refine ⟨?_, ?_, ?_⟩
  · rw [Bool.eq_false_iff]
    intro hw
    simp only [isWhitespace, Bool.or_eq_true, decide_eq_true_eq] at hw
    rcases hw with ((rfl | rfl) | rfl) | rfl <;> cases hd
  · rintro rfl
    cases hd
  · rintro rfl
    cases hd

theorem IsNumber.starts {t : Text} (h : IsNumber t) : Starts t := by
  obtain ⟨minus, int, frac, exp, rfl | rfl, hint, -, -, rfl⟩ := h
  · obtain ⟨d, digits, rfl, hd⟩ := hint.cons
    exact starts_digit hd _
  · exact starts_cons (by decide) _

theorem IsValue.starts {t : Text} (h : IsValue t) : Starts t := by
  cases h with
  | string hs => exact hs.starts
  | number hn => exact hn.starts
  | literal hl =>
      simp only [literals, List.mem_cons, List.not_mem_nil, or_false] at hl
      rcases hl with rfl | rfl | rfl <;> exact starts_cons (by decide) _
  | array | object => exact starts_cons (by decide) _

/-- After a value comes whitespace, a comma, a closing bracket or nothing. -/
def Ends (t : Text) : Prop :=
  ∀ b s, t = b :: s →
    isWhitespace b = true ∨ b = ascii ',' ∨ b = ascii ']' ∨ b = ascii '}'

theorem Ends.nil : Ends [] := fun _ _ h ↦ by cases h

theorem ends_append {w rest : Text} (hw : Whitespace w) (hrest : Ends rest) :
    Ends (w ++ rest) := by
  cases w with
  | nil => exact hrest
  | cons c w =>
      rintro b s ⟨⟩
      exact .inl (hw c List.mem_cons_self)

theorem ends_comma (rest : Text) : Ends (ascii ',' :: rest) := by
  rintro b s ⟨⟩
  exact .inr (.inl rfl)

theorem ends_close {close : UInt8} (hclose : close = ascii ']' ∨ close = ascii '}') (rest : Text) :
    Ends (close :: rest) := by
  rintro b s ⟨⟩
  exact .inr (.inr hclose)

/-! ## Whitespace -/

theorem Whitespace.nil : Whitespace [] := fun _ h ↦ by cases h

theorem Whitespace.append {w w' : Text} (h : Whitespace w) (h' : Whitespace w') :
    Whitespace (w ++ w') :=
  fun b hb ↦ (List.mem_append.1 hb).elim (h b) (h' b)

/-- What is skipped is whitespace. -/
theorem exists_skipWhitespace (s : Text) :
    ∃ w, Whitespace w ∧ s = w ++ skipWhitespace s :=
  ⟨s.takeWhile isWhitespace, fun _ hb ↦ List.mem_takeWhile_imp hb,
    (List.takeWhile_append_dropWhile ..).symm⟩

theorem skipWhitespace_append {w : Text} (hw : Whitespace w) (s : Text) :
    skipWhitespace (w ++ s) = skipWhitespace s := by
  induction w with
  | nil => rfl
  | cons b w ih =>
      have hb := hw b List.mem_cons_self
      rw [skipWhitespace, List.cons_append, List.dropWhile_cons_of_pos hb]
      exact ih fun c hc ↦ hw c (List.mem_cons_of_mem b hc)

theorem skipWhitespace_cons {b : UInt8} (hb : isWhitespace b = false) (s : Text) :
    skipWhitespace (b :: s) = b :: s := by
  apply List.dropWhile_cons_of_neg
  simp [hb]

theorem Starts.skipWhitespace {t : Text} (h : Starts t) (s : Text) :
    skipWhitespace (t ++ s) = t ++ s := by
  obtain ⟨b, t, rfl, hb, -⟩ := h
  exact skipWhitespace_cons hb (t ++ s)

/-- All of the whitespace is skipped before something that begins with another byte. -/
theorem skipWhitespace_before {w t : Text} (hw : Whitespace w) (ht : Starts t) (s : Text) :
    skipWhitespace (w ++ (t ++ s)) = t ++ s := by
  rw [skipWhitespace_append hw, ht.skipWhitespace]

@[simp]
theorem consume_cons_self (b : UInt8) (s : Text) : consume b (b :: s) = some s := if_pos rfl

theorem consume_cons_of_ne {b c : UInt8} (h : c ≠ b) (s : Text) : consume b (c :: s) = none :=
  if_neg h

theorem consume_eq_some {b : UInt8} {s rest : Text} (h : consume b s = some rest) :
    s = b :: rest := by
  cases s with
  | nil => cases h
  | cons c s =>
      rw [consume] at h
      split_ifs at h with hc
      cases h
      rw [hc]

/-- A value does not begin with a closing bracket. -/
theorem Starts.consume_close {t : Text} (h : Starts t) {close : UInt8}
    (hclose : close = ascii ']' ∨ close = ascii '}') (s : Text) :
    consume close (t ++ s) = none := by
  obtain ⟨b, t, rfl, -, hbracket, hbrace⟩ := h
  apply consume_cons_of_ne
  rintro rfl
  rcases hclose with h | h
  · exact hbracket h
  · exact hbrace h

/-! ## The list of the items -/

@[simp]
theorem commaSeparated_singleton (p : Padded) : commaSeparated [p] = p.all := by
  simp [commaSeparated]

theorem commaSeparated_cons (p : Padded) {items : List Padded} (h : items ≠ []) :
    commaSeparated (p :: items) = p.all ++ ascii ',' :: commaSeparated items := by
  cases items with
  | nil => exact absurd rfl h
  | cons q items => simp [commaSeparated]

theorem length_le_commaSeparated (items : List Padded) :
    items.length ≤ (commaSeparated items).length + 1 := by
  induction items with
  | nil => exact Nat.zero_le _
  | cons p items ih =>
      cases items with
      | nil => exact Nat.le_add_left 1 _
      | cons q items =>
          have hlength : (commaSeparated (p :: q :: items)).length =
              p.all.length + ((commaSeparated (q :: items)).length + 1) := by
            rw [commaSeparated_cons p (by simp), List.length_append, List.length_cons]
          rw [hlength, List.length_cons]
          omega

theorem text_length_le_commaSeparated {items : List Padded} {p : Padded} (hp : p ∈ items) :
    p.text.length ≤ (commaSeparated items).length := by
  induction items with
  | nil => cases hp
  | cons q items ih =>
      have hall : p = q → p.text.length ≤ q.all.length := by
        rintro rfl
        simp only [Padded.all, List.length_append]
        omega
      cases items with
      | nil =>
          rw [commaSeparated_singleton]
          exact hall (List.mem_singleton.1 hp)
      | cons _ _ =>
          rw [commaSeparated_cons q (by simp), List.length_append, List.length_cons]
          rcases List.mem_cons.1 hp with heq | hmem
          · exact Nat.le_add_right_of_le (hall heq)
          · have := ih hmem
            omega

variable {items : List Padded} {body : Text}

/-- There are not many more items than bytes. -/
theorem Body.length_le (h : Body items body) : items.length ≤ body.length + 1 := by
  rcases h with ⟨rfl, -⟩ | ⟨-, rfl⟩
  · exact Nat.zero_le _
  · exact length_le_commaSeparated items

theorem Body.text_length_le (h : Body items body) {p : Padded} (hp : p ∈ items) :
    p.text.length ≤ body.length := by
  rcases h with ⟨rfl, -⟩ | ⟨-, rfl⟩
  · cases hp
  · exact text_length_le_commaSeparated hp

section Chain

variable {σ ε : Type}

/-- Item after item, from the first state to the last. -/
def Chain (I : σ → Text → σ → Prop) : σ → List Padded → σ → Prop
  | a, [], b => a = b
  | a, p :: items, c => ∃ b, I a p.text b ∧ Chain I b items c

/-- What is read for one item is whitespace and what `I` says. -/
def ItemSound (item : σ → Text → Except ε (σ × Text)) (I : σ → Text → σ → Prop) : Prop :=
  ∀ a b s rest, item a s = .ok (b, rest) →
    ∃ w t, Whitespace w ∧ I a t b ∧ s = w ++ (t ++ rest)

/-- One item is read up to its end. -/
structure ItemComplete (item : σ → Text → Except ε (σ × Text)) (I : σ → Text → σ → Prop) :
    Prop where
  complete : ∀ {a b : σ} {t rest : Text}, I a t b → Ends rest → item a (t ++ rest) = .ok (b, rest)
  starts : ∀ {a b : σ} {t : Text}, I a t b → Starts t

variable {close : UInt8} {error : ε} {item : σ → Text → Except ε (σ × Text)}
  {I : σ → Text → σ → Prop} {a b : σ} {s rest : Text} {n : Nat} {items : List Padded}

/-- What the loop has read are items, whatever whitespace stood before. -/
theorem separated_sound (h : ItemSound item I)
    (hread : separated close error item n a s = .ok (b, rest)) {w : Text} (hw : Whitespace w) :
    ∃ items, items ≠ [] ∧ Chain I a items b ∧ w ++ s = commaSeparated items ++ close :: rest := by
  induction n generalizing a s w with
  | zero => cases hread
  | succ n ih =>
      rw [separated] at hread
      cases hitem : item a s with
      | error e =>
          rw [hitem] at hread
          cases hread
      | ok r =>
      obtain ⟨c, s'⟩ := r
      rw [hitem] at hread
      obtain ⟨w', t, hw', hI, rfl⟩ := h _ _ _ _ hitem
      obtain ⟨after, hafter, hs'⟩ := exists_skipWhitespace s'
      let p : Padded := ⟨w ++ w', t, after, hw.append hw', hafter⟩
      have hall : w ++ (w' ++ (t ++ s')) = p.all ++ skipWhitespace s' := by
        show _ = (w ++ w' ++ t ++ after) ++ skipWhitespace s'
        rw [List.append_assoc _ after, ← hs']
        simp
      cases hclose : consume close (skipWhitespace s') with
      | some s'' =>
          simp only [hclose] at hread
          cases hread
          refine ⟨[p], by simp, ⟨b, hI, rfl⟩, ?_⟩
          rw [hall, consume_eq_some hclose, commaSeparated_singleton]
      | none =>
          simp only [hclose] at hread
          cases hcomma : consume (ascii ',') (skipWhitespace s') with
          | none =>
              rw [hcomma] at hread
              cases hread
          | some s'' =>
              simp only [hcomma] at hread
              obtain ⟨w'', hw'', hs''⟩ := exists_skipWhitespace s''
              obtain ⟨items, hne, hchain, heq⟩ := ih hread hw''
              refine ⟨p :: items, by simp, ⟨c, hI, hchain⟩, ?_⟩
              rw [hall, consume_eq_some hcomma, commaSeparated_cons p hne, hs'', heq]
              simp

/-- The loop reads items that are closed. -/
theorem separated_complete (h : ItemComplete item I)
    (hclose : close = ascii ']' ∨ close = ascii '}') (hne : items ≠ [])
    (hchain : Chain I a items b) (hn : items.length ≤ n) :
    separated close error item n a (skipWhitespace (commaSeparated items ++ close :: rest)) =
      .ok (b, rest) := by
  induction items generalizing a n with
  | nil => exact absurd rfl hne
  | cons p items ih =>
      obtain ⟨c, hI, hchain⟩ := hchain
      cases n with
      | zero => cases hn
      | succ n =>
      have hstarts := h.starts hI
      cases items with
      | nil =>
          cases hchain
          have hends : Ends (p.after ++ close :: rest) :=
            ends_append p.whitespace_after (ends_close hclose rest)
          have hcloses : skipWhitespace (p.after ++ close :: rest) = close :: rest := by
            rw [skipWhitespace_append p.whitespace_after]
            apply skipWhitespace_cons
            rcases hclose with rfl | rfl <;> rfl
          rw [commaSeparated_singleton, Padded.all, List.append_assoc, List.append_assoc,
            skipWhitespace_before p.whitespace_before hstarts, separated, h.complete hI hends]
          simp [hcloses]
      | cons q items =>
          have hends :
              Ends (p.after ++ ascii ',' :: (commaSeparated (q :: items) ++ close :: rest)) :=
            ends_append p.whitespace_after (ends_comma _)
          have hcomma : skipWhitespace
              (p.after ++ ascii ',' :: (commaSeparated (q :: items) ++ close :: rest)) =
                ascii ',' :: (commaSeparated (q :: items) ++ close :: rest) := by
            rw [skipWhitespace_append p.whitespace_after]
            exact skipWhitespace_cons rfl _
          have hnot : consume close
              (ascii ',' :: (commaSeparated (q :: items) ++ close :: rest)) = none := by
            apply consume_cons_of_ne
            rcases hclose with rfl | rfl <;> decide
          have hrest := ih (by simp) hchain (Nat.le_of_succ_le_succ hn)
          rw [commaSeparated_cons p (by simp), Padded.all, List.append_assoc, List.append_assoc,
            List.append_assoc, List.cons_append,
            skipWhitespace_before p.whitespace_before hstarts, separated, h.complete hI hends]
          simp only [hcomma, hnot, consume_cons_self]
          exact hrest

/-- The first item begins where the whitespace ends. -/
theorem commaSeparated_starts (h : ItemComplete item I) (hne : items ≠ [])
    (hchain : Chain I a items b)
    (rest : Text) :
    ∃ t s, Starts t ∧ skipWhitespace (commaSeparated items ++ rest) = t ++ s := by
  cases items with
  | nil => exact absurd rfl hne
  | cons p items =>
      obtain ⟨c, hI, -⟩ := hchain
      have hstarts := h.starts hI
      obtain ⟨s, hs⟩ : ∃ s, commaSeparated (p :: items) = p.before ++ (p.text ++ s) := by
        cases items with
        | nil => exact ⟨p.after, by simp [Padded.all]⟩
        | cons q items =>
            refine ⟨p.after ++ ascii ',' :: commaSeparated (q :: items), ?_⟩
            rw [commaSeparated_cons p (by simp), Padded.all]
            simp
      refine ⟨p.text, s ++ rest, hstarts, ?_⟩
      rw [hs, List.append_assoc, List.append_assoc,
        skipWhitespace_before p.whitespace_before hstarts]

/-- What is read up to the closing bracket is what may stand there. -/
theorem separatedOrNone_sound (h : ItemSound item I)
    (hread : separatedOrNone close error item n a s = .ok (b, rest)) :
    ∃ items body, Body items body ∧ Chain I a items b ∧ s = body ++ close :: rest := by
  obtain ⟨w, hw, hs⟩ := exists_skipWhitespace s
  rw [separatedOrNone] at hread
  cases hclose : consume close (skipWhitespace s) with
  | some s' =>
      simp only [hclose] at hread
      cases hread
      refine ⟨[], w, .inl ⟨rfl, hw⟩, rfl, ?_⟩
      rw [hs, consume_eq_some hclose]
  | none =>
      simp only [hclose] at hread
      obtain ⟨items, hne, hchain, heq⟩ := separated_sound h hread hw
      exact ⟨items, commaSeparated items, .inr ⟨hne, rfl⟩, hchain, hs.trans heq⟩

theorem separatedOrNone_complete (h : ItemComplete item I)
    (hclose : close = ascii ']' ∨ close = ascii '}') {body : Text} (hbody : Body items body)
    (hchain : Chain I a items b) (hn : items.length ≤ n) :
    separatedOrNone close error item n a (body ++ close :: rest) = .ok (b, rest) := by
  rcases hbody with ⟨rfl, hw⟩ | ⟨hne, rfl⟩
  · cases hchain
    have hcloses : skipWhitespace (close :: rest) = close :: rest := by
      apply skipWhitespace_cons
      rcases hclose with rfl | rfl <;> rfl
    rw [separatedOrNone, skipWhitespace_append hw, hcloses, consume_cons_self]
  · obtain ⟨t, s, hstarts, hskip⟩ := commaSeparated_starts h hne hchain (close :: rest)
    have hnone : consume close (skipWhitespace (commaSeparated items ++ close :: rest)) = none := by
      rw [hskip]
      exact hstarts.consume_close hclose s
    rw [separatedOrNone, hnone]
    exact separated_complete h hclose hne hchain hn

end Chain

/-! ## The members of an object -/

/-- A name with its value. -/
def IsMember (key value t : Text) : Prop :=
  ∃ name after before, IsString key name ∧ Whitespace after ∧ Whitespace before ∧
    t = name ++ (after ++ (ascii ':' :: (before ++ value)))

theorem Member.isMember (m : Member) : IsMember m.key m.value.text m.padded.text :=
  ⟨m.name.text, m.name.after, m.value.before, m.isString, m.name.whitespace_after,
    m.value.whitespace_before, rfl⟩

theorem IsMember.exists_member {p : Padded} {key value : Text} (h : IsMember key value p.text) :
    ∃ m : Member, m.padded = p ∧ m.key = key ∧ m.value.text = value := by
  obtain ⟨name, after, before, hname, hafter, hbefore, htext⟩ := h
  refine ⟨⟨key, ⟨p.before, name, after, p.whitespace_before, hafter⟩,
    ⟨before, value, p.after, hbefore, p.whitespace_after⟩, hname⟩, ?_, rfl, rfl⟩
  obtain ⟨_, _, _, _, _⟩ := p
  cases htext
  rfl

theorem IsMember.starts {key value t : Text} (h : IsMember key value t) : Starts t := by
  obtain ⟨name, after, before, hname, -, -, rfl⟩ := h
  obtain ⟨b, s, rfl, hb⟩ := hname.starts
  exact starts_cons hb _

section MemberChain

variable {σ : Type} {J : σ → Text → Text → σ → Prop} {a b : σ}

/-- Member after member. -/
def MemberChain (J : σ → Text → Text → σ → Prop) : σ → List Member → σ → Prop
  | a, [], b => a = b
  | a, m :: members, c => ∃ b, J a m.key m.value.text b ∧ MemberChain J b members c

/-- Items that are members are a list of members. -/
theorem chain_isMember {items : List Padded} :
    Chain (fun a t b ↦ ∃ key value, IsMember key value t ∧ J a key value b) a items b ↔
      ∃ members, members.map Member.padded = items ∧ MemberChain J a members b := by
  induction items generalizing a with
  | nil =>
      constructor
      · exact fun h ↦ ⟨[], rfl, h⟩
      · rintro ⟨members, hmembers, h⟩
        cases List.map_eq_nil_iff.1 hmembers
        exact h
  | cons p items ih =>
      constructor
      · rintro ⟨c, ⟨key, value, hmember, hJ⟩, hchain⟩
        obtain ⟨members, rfl, hmembers⟩ := ih.1 hchain
        obtain ⟨m, rfl, rfl, rfl⟩ := hmember.exists_member
        exact ⟨m :: members, rfl, c, hJ, hmembers⟩
      · rintro ⟨members, hmembers, h⟩
        cases members with
        | nil => cases hmembers
        | cons m members =>
            cases hmembers
            obtain ⟨c, hJ, h⟩ := h
            exact ⟨c, ⟨m.key, m.value.text, m.isMember, hJ⟩, ih.2 ⟨members, rfl, h⟩⟩

/-- What holds of each member that is read holds of all of them. -/
theorem MemberChain.forall {G : Text → Prop} (hG : ∀ a key value b, J a key value b → G value)
    {members : List Member} (h : MemberChain J a members b) : ∀ m ∈ members, G m.value.text := by
  induction members generalizing a with
  | nil => exact fun m hm ↦ (List.not_mem_nil hm).elim
  | cons m members ih =>
      obtain ⟨c, hJ, h⟩ := h
      exact List.forall_mem_cons.2 ⟨hG _ _ _ _ hJ, ih h⟩

end MemberChain

/-- Where the state says nothing, each item is as it should be. -/
theorem chain_unit {G : Text → Prop} {items : List Padded} :
    Chain (fun _ t _ ↦ G t) () items () ↔ ∀ p ∈ items, G p.text := by
  induction items with
  | nil => exact ⟨fun _ p hp ↦ (List.not_mem_nil hp).elim, fun _ ↦ rfl⟩
  | cons p items ih =>
      rw [List.forall_mem_cons, ← ih]
      exact ⟨fun ⟨_, hp, h⟩ ↦ ⟨hp, h⟩, fun ⟨hp, h⟩ ↦ ⟨(), hp, h⟩⟩

theorem memberChain_unit {G : Text → Prop} {members : List Member} :
    MemberChain (fun _ _ value _ ↦ G value) () members () ↔
      ∀ m ∈ members, G m.value.text := by
  induction members with
  | nil => exact ⟨fun _ p hp ↦ (List.not_mem_nil hp).elim, fun _ ↦ rfl⟩
  | cons p items ih =>
      rw [List.forall_mem_cons, ← ih]
      exact ⟨fun ⟨_, hp, h⟩ ↦ ⟨hp, h⟩, fun ⟨hp, h⟩ ↦ ⟨(), hp, h⟩⟩

/-! ## Reading a token -/

theorem bind_eq_ok {α β ε : Type} {x : Except ε α} {f : α → Except ε β} {b : β} :
    x >>= f = .ok b ↔ ∃ a, x = .ok a ∧ f a = .ok b := by
  cases x with
  | error e =>
      constructor
      · rintro ⟨⟩
      · rintro ⟨a, ⟨⟩, -⟩
  | ok a =>
      constructor
      · exact fun h ↦ ⟨a, rfl, h⟩
      · rintro ⟨a, ⟨⟩, h⟩
        exact h

theorem map_eq_ok {α β ε : Type} {x : Except ε α} {f : α → β} {b : β} :
    x.map f = .ok b ↔ ∃ a, x = .ok a ∧ f a = b := by
  cases x with
  | error e =>
      constructor
      · rintro ⟨⟩
      · rintro ⟨a, ⟨⟩, -⟩
  | ok a =>
      constructor
      · exact fun h ↦ ⟨a, rfl, Except.ok.inj h⟩
      · rintro ⟨a, ⟨⟩, rfl⟩
        rfl

/-- What is read is what `G` derives, where it is followed by what `F` allows. -/
structure Parses {α ε : Type} (parse : Text → Except ε (α × Text)) (G : α → Text → Prop)
    (F : Text → Prop) : Prop where
  sound : ∀ {a : α} {s rest : Text}, parse s = .ok (a, rest) → ∃ t, G a t ∧ s = t ++ rest
  complete : ∀ {a : α} {t rest : Text}, G a t → F rest → parse (t ++ rest) = .ok (a, rest)

/-- The same without a value. -/
structure Skips {ε : Type} (skip : Text → Except ε Text) (G F : Text → Prop) : Prop where
  sound : ∀ {s rest : Text}, skip s = .ok rest → ∃ t, G t ∧ s = t ++ rest
  complete : ∀ {t rest : Text}, G t → F rest → skip (t ++ rest) = .ok rest

end SecondScreen.Json
