import SecondScreen.Host.JsonValues

/-!
# The grammar of the handshake

`ParseHandshake` accepts exactly the JSON objects that have each of the five fields once, as
the type of the field and the demands on its value want it.
-/

namespace SecondScreen.Host.JsonParser

open SecondScreen.Json

/-! ## The members -/

/-- The names of the fields. -/
def fieldKeys : List Text := [protocolKey, deviceKey, widthKey, heightKey, decoderKey]

/-- What a member makes of the fields. -/
inductive Records : Handshake → Text → Text → Handshake → Prop
  | protocol {h : Handshake} {value : Text} {z : Int} : h.hasProtocol = false →
      IsInteger z value ∧ FitsInt64 z →
      Records h protocolKey value { h with protocol := z, hasProtocol := true }
  | device {h : Handshake} {value s : Text} : h.hasDevice = false → IsString s value →
      Records h deviceKey value { h with device := s, hasDevice := true }
  | width {h : Handshake} {value : Text} {z : Int} : h.hasWidth = false →
      IsInteger z value ∧ FitsInt64 z →
      Records h widthKey value { h with width := z, hasWidth := true }
  | height {h : Handshake} {value : Text} {z : Int} : h.hasHeight = false →
      IsInteger z value ∧ FitsInt64 z →
      Records h heightKey value { h with height := z, hasHeight := true }
  | decoder {h : Handshake} {value : Text} {strings : List Text} : h.hasDecoders = false →
      IsStringArray strings value →
      Records h decoderKey value { h with decoders := strings, hasDecoders := true }
  | other {h : Handshake} {key value : Text} : key ∉ fieldKeys → IsValue value →
      Records h key value h

theorem mapError_eq_ok {α ε ε' : Type} {x : Except ε α} {f : ε → ε'} {a : α} :
    x.mapError f = .ok a ↔ x = .ok a := by
  cases x with
  | error e =>
      constructor <;>
      · intro h
        cases h
  | ok b =>
      constructor <;>
      · rintro ⟨⟩
        rfl

/-- A field is parsed if it has not occurred yet. -/
theorem parseField_eq_ok {α : Type} {has : Bool} {parse : Text → Except Unit (α × Text)}
    {error : String} {s rest : Text} {a : α} :
    parseField has parse error s = .ok (a, rest) ↔ has = false ∧ parse s = .ok (a, rest) := by
  cases has with
  | false => exact mapError_eq_ok.trans (iff_and_self.2 fun _ ↦ rfl)
  | true =>
      constructor
      · intro h
        cases h
      · rintro ⟨h, -⟩
        cases h

/-- What is read of a member is recorded under its key; a member with another key is skipped. -/
theorem parseMemberValue_sound {h h' : Handshake} {key s rest : Text}
    (hparse : parseMemberValue h key s = .ok (h', rest)) :
    ∃ w value, Whitespace w ∧ Records h key value h' ∧ s = w ++ (value ++ rest) := by
  rw [parseMemberValue] at hparse
  split_ifs at hparse with h₁ h₂ h₃ h₄ h₅
  · subst h₁
    obtain ⟨⟨z, s'⟩, hfield, hreturn⟩ := bind_eq_ok.1 hparse
    cases hreturn
    obtain ⟨hhas, hz⟩ := parseField_eq_ok.1 hfield
    obtain ⟨t, ht, rfl⟩ := parseInteger_parses.sound hz
    exact ⟨[], t, .nil, .protocol hhas ht, rfl⟩
  · subst h₂
    obtain ⟨⟨a, s'⟩, hfield, hreturn⟩ := bind_eq_ok.1 hparse
    cases hreturn
    obtain ⟨hhas, ha⟩ := parseField_eq_ok.1 hfield
    obtain ⟨t, ht, rfl⟩ := parseString_parses.sound ha
    exact ⟨[], t, .nil, .device hhas ht, rfl⟩
  · subst h₃
    obtain ⟨⟨z, s'⟩, hfield, hreturn⟩ := bind_eq_ok.1 hparse
    cases hreturn
    obtain ⟨hhas, hz⟩ := parseField_eq_ok.1 hfield
    obtain ⟨t, ht, rfl⟩ := parseInteger_parses.sound hz
    exact ⟨[], t, .nil, .width hhas ht, rfl⟩
  · subst h₄
    obtain ⟨⟨z, s'⟩, hfield, hreturn⟩ := bind_eq_ok.1 hparse
    cases hreturn
    obtain ⟨hhas, hz⟩ := parseField_eq_ok.1 hfield
    obtain ⟨t, ht, rfl⟩ := parseInteger_parses.sound hz
    exact ⟨[], t, .nil, .height hhas ht, rfl⟩
  · subst h₅
    obtain ⟨⟨a, s'⟩, hfield, hreturn⟩ := bind_eq_ok.1 hparse
    cases hreturn
    obtain ⟨hhas, ha⟩ := parseField_eq_ok.1 hfield
    obtain ⟨t, ht, rfl⟩ := parseStringArray_parses.sound ha
    exact ⟨[], t, .nil, .decoder hhas ht, rfl⟩
  · obtain ⟨s', hskip, hreturn⟩ := bind_eq_ok.1 hparse
    cases hreturn
    obtain ⟨w, value, hw, hvalue, rfl⟩ := skipValue_sound _ s rest (mapError_eq_ok.1 hskip)
    exact ⟨w, value, hw, .other (by simp [fieldKeys, *]) hvalue, rfl⟩

/-- Every value that may be recorded is read. -/
theorem parseMemberValue_complete {h h' : Handshake} {key value rest : Text}
    (hrecords : Records h key value h') (hends : Ends rest) :
    parseMemberValue h key (value ++ rest) = .ok (h', rest) := by
  rw [parseMemberValue]
  cases hrecords with
  | protocol hhas ht =>
      rw [if_pos rfl, parseField_eq_ok.2 ⟨hhas, parseInteger_parses.complete ht hends⟩]
      rfl
  | device hhas ht =>
      rw [if_neg (by decide), if_pos rfl,
        parseField_eq_ok.2 ⟨hhas, parseString_parses.complete ht trivial⟩]
      rfl
  | width hhas ht =>
      rw [if_neg (by decide), if_neg (by decide), if_pos rfl,
        parseField_eq_ok.2 ⟨hhas, parseInteger_parses.complete ht hends⟩]
      rfl
  | height hhas ht =>
      rw [if_neg (by decide), if_neg (by decide), if_neg (by decide), if_pos rfl,
        parseField_eq_ok.2 ⟨hhas, parseInteger_parses.complete ht hends⟩]
      rfl
  | decoder hhas ht =>
      rw [if_neg (by decide), if_neg (by decide), if_neg (by decide), if_neg (by decide),
        if_pos rfl, parseField_eq_ok.2 ⟨hhas, parseStringArray_parses.complete ht trivial⟩]
      rfl
  | other hkey hvalue =>
      simp only [fieldKeys, List.mem_cons, List.not_mem_nil, or_false, not_or] at hkey
      obtain ⟨h₁, h₂, h₃, h₄, h₅⟩ := hkey
      have hskip : skipValue (value ++ rest).length (value ++ rest) = .ok rest :=
        skipValue_complete _ .nil hvalue (by simp) hends
      rw [if_neg h₁, if_neg h₂, if_neg h₃, if_neg h₄, if_neg h₅, hskip]
      rfl

/-- A member as the loop reads it. -/
def ReadsMember (h : Handshake) (t : Text) (h' : Handshake) : Prop :=
  ∃ key value, IsMember key value t ∧ Records h key value h'

theorem parseMember_sound : ItemSound parseMember ReadsMember := by
  intro h h' s rest hparse
  rw [parseMember] at hparse
  split at hparse
  · cases hparse
  next key s₁ hkey =>
  split at hparse
  · cases hparse
  next s₂ hcolon =>
  obtain ⟨name, after, hname, hafter, rfl⟩ := name_sound hkey hcolon
  obtain ⟨before, hbefore, hs₂⟩ := exists_skipWhitespace s₂
  obtain ⟨w, value, hw, hrecords, heq⟩ := parseMemberValue_sound hparse
  refine ⟨[], _, .nil, ⟨key, value, ⟨name, after, before ++ w, hname, hafter,
    hbefore.append hw, rfl⟩, hrecords⟩, ?_⟩
  rw [hs₂, heq]
  simp

/-- The value of a member begins with a byte that is not whitespace. -/
theorem Records.starts {h h' : Handshake} {key value : Text} (hrecords : Records h key value h') :
    Starts value := by
  cases hrecords with
  | protocol _ ht | width _ ht | height _ ht => exact ht.1.isNumber.starts
  | device _ ht => exact ht.starts
  | decoder _ ht => exact ht.isValue.starts
  | other _ hvalue => exact hvalue.starts

theorem parseMember_complete : ItemComplete parseMember ReadsMember where
  complete {h h' t rest} ht hends := by
    obtain ⟨key, value, ⟨name, after, before, hname, hafter, hbefore, rfl⟩, hrecords⟩ := ht
    obtain ⟨hkey, hcolon⟩ := name_complete hname hafter (before ++ (value ++ rest))
    have htext : name ++ (after ++ ascii ':' :: (before ++ value)) ++ rest =
        name ++ (after ++ ascii ':' :: (before ++ (value ++ rest))) := by simp
    rw [htext, parseMember, hkey]
    simp only [hcolon]
    rw [skipWhitespace_before hbefore hrecords.starts]
    exact parseMemberValue_complete hrecords hends
  starts ht := by
    obtain ⟨key, value, hmember, -⟩ := ht
    exact hmember.starts

/-- What is recorded was a value. -/
theorem Records.isValue {h h' : Handshake} {key value : Text} (hrecords : Records h key value h') :
    IsValue value := by
  cases hrecords with
  | protocol _ ht | width _ ht | height _ ht => exact .number ht.1.isNumber
  | device _ ht => exact .string ht
  | decoder _ ht => exact ht.isValue
  | other _ hvalue => exact hvalue

/-! ## The fields -/

/-- The members with a key. -/
def named (key : Text) (members : List Member) : List Member :=
  members.filter fun m ↦ m.key = key

theorem named_cons_of_ne {key : Text} {m : Member} (h : m.key ≠ key) (members : List Member) :
    named key (m :: members) = named key members := by
  apply List.filter_cons_of_neg
  simpa using h

theorem named_cons_self (m : Member) (members : List Member) :
    named m.key (m :: members) = m :: named m.key members := by
  apply List.filter_cons_of_pos
  simp

/-- A field before and after some members. -/
def FieldOf {α : Type} (G : α → Text → Prop) (key : Text) (has : Bool) (a : α)
    (members : List Member) (has' : Bool) (a' : α) : Prop :=
  named key members = [] ∧ has' = has ∧ a' = a ∨
    has = false ∧ has' = true ∧
      ∃ m, named key members = [m] ∧ G a' m.value.text

namespace FieldOf

variable {α : Type} {G : α → Text → Prop} {key : Text} {has has' : Bool} {a a' : α} {m : Member}
  {members : List Member}

theorem nil_iff : FieldOf G key has a [] has' a' ↔ has' = has ∧ a' = a := by
  constructor
  · rintro (⟨-, h⟩ | ⟨-, -, m, h, -⟩)
    · exact h
    · cases h
  · exact fun h ↦ .inl ⟨rfl, h⟩

theorem cons_of_ne (h : m.key ≠ key) :
    FieldOf G key has a (m :: members) has' a' ↔ FieldOf G key has a members has' a' := by
  simp only [FieldOf, named_cons_of_ne h]

/-- A member with the key gives the field its value, and no other one may follow. -/
theorem cons_self :
    FieldOf G m.key has a (m :: members) has' a' ↔
      has = false ∧ ∃ b, G b m.value.text ∧ FieldOf G m.key true b members has' a' := by
  simp only [FieldOf, named_cons_self]
  constructor
  · rintro (⟨hnil, -⟩ | ⟨hhas, rfl, m', hfilter, hG⟩)
    · cases hnil
    · obtain ⟨rfl, hnil⟩ := List.cons.inj hfilter
      exact ⟨hhas, a', hG, .inl ⟨hnil, rfl, rfl⟩⟩
  · rintro ⟨hhas, b, hG, ⟨hnil, rfl, rfl⟩ | ⟨hfalse, -⟩⟩
    · exact .inr ⟨hhas, rfl, m, by rw [hnil], hG⟩
    · cases hfalse

end FieldOf

/-- An integer that `ParseInteger` reads. -/
def IsInt64 (z : Int) (t : Text) : Prop := IsInteger z t ∧ FitsInt64 z

/-- All fields before and after some members. -/
structure Fields (h : Handshake) (members : List Member) (h' : Handshake) : Prop where
  protocol : FieldOf IsInt64 protocolKey h.hasProtocol h.protocol members h'.hasProtocol h'.protocol
  device : FieldOf IsString deviceKey h.hasDevice h.device members h'.hasDevice h'.device
  width : FieldOf IsInt64 widthKey h.hasWidth h.width members h'.hasWidth h'.width
  height : FieldOf IsInt64 heightKey h.hasHeight h.height members h'.hasHeight h'.height
  decoder : FieldOf IsStringArray decoderKey h.hasDecoders h.decoders members h'.hasDecoders
    h'.decoders
  others : ∀ m ∈ members, m.key ∉ fieldKeys → IsValue m.value.text

/-- What a member makes of one field. -/
def Writes {α : Type} (G : α → Text → Prop) (key : Text) (has : Bool) (a : α) (m : Member)
    (has' : Bool) (a' : α) : Prop :=
  if m.key = key then has = false ∧ has' = true ∧ G a' m.value.text else has' = has ∧ a' = a

/-- The first member writes the field, then the others do. -/
theorem FieldOf.cons_iff {α : Type} {G : α → Text → Prop} {key : Text} {has has' : Bool}
    {a a' : α} {m : Member} {members : List Member} :
    FieldOf G key has a (m :: members) has' a' ↔
      ∃ c b, Writes G key has a m c b ∧ FieldOf G key c b members has' a' := by
  by_cases hkey : m.key = key
  · subst hkey
    rw [cons_self]
    simp only [Writes]
    constructor
    · rintro ⟨hhas, b, hb, h⟩
      exact ⟨true, b, ⟨hhas, rfl, hb⟩, h⟩
    · rintro ⟨c, b, ⟨hhas, rfl, hb⟩, h⟩
      exact ⟨hhas, b, hb, h⟩
  · rw [cons_of_ne hkey]
    simp only [Writes, if_neg hkey]
    constructor
    · exact fun h ↦ ⟨has, a, ⟨rfl, rfl⟩, h⟩
    · rintro ⟨c, b, ⟨rfl, rfl⟩, h⟩
      exact h

/-- A member makes something of the fields where it does so of each of them. -/
theorem records_iff {h h' : Handshake} {m : Member} :
    Records h m.key m.value.text h' ↔
      Writes IsInt64 protocolKey h.hasProtocol h.protocol m h'.hasProtocol h'.protocol ∧
      Writes IsString deviceKey h.hasDevice h.device m h'.hasDevice h'.device ∧
      Writes IsInt64 widthKey h.hasWidth h.width m h'.hasWidth h'.width ∧
      Writes IsInt64 heightKey h.hasHeight h.height m h'.hasHeight h'.height ∧
      Writes IsStringArray decoderKey h.hasDecoders h.decoders m h'.hasDecoders h'.decoders ∧
      (m.key ∉ fieldKeys → IsValue m.value.text) := by
  constructor
  · intro hrecords
    obtain ⟨key, name, value, hname⟩ := m
    cases hrecords with
    | other hkey hvalue =>
        simp only [fieldKeys, List.mem_cons, List.not_mem_nil, or_false, not_or] at hkey
        simp [Writes, hkey, hvalue]
    | protocol hhas ht | width hhas ht | height hhas ht =>
        simp +decide [Writes, IsInt64, hhas, ht.1, ht.2]
    | device hhas ht | decoder hhas ht => simp +decide [Writes, hhas, ht]
  · rintro ⟨hprotocol, hdevice, hwidth, hheight, hdecoder, hother⟩
    obtain ⟨_, _, _, _, _, _, _, _, _, _⟩ := h'
    simp only [Writes] at hprotocol hdevice hwidth hheight hdecoder
    by_cases hkey : m.key ∈ fieldKeys
    · simp only [fieldKeys, List.mem_cons, List.not_mem_nil, or_false] at hkey
      rcases hkey with hk | hk | hk | hk | hk
      all_goals
        rw [hk] at hprotocol hdevice hwidth hheight hdecoder ⊢
        simp +decide only [if_true, if_false] at hprotocol hdevice hwidth hheight hdecoder
      · obtain ⟨hhas, rfl, hvalue⟩ := hprotocol
        obtain ⟨rfl, rfl⟩ := hdevice
        obtain ⟨rfl, rfl⟩ := hwidth
        obtain ⟨rfl, rfl⟩ := hheight
        obtain ⟨rfl, rfl⟩ := hdecoder
        exact .protocol hhas hvalue
      · obtain ⟨rfl, rfl⟩ := hprotocol
        obtain ⟨hhas, rfl, hvalue⟩ := hdevice
        obtain ⟨rfl, rfl⟩ := hwidth
        obtain ⟨rfl, rfl⟩ := hheight
        obtain ⟨rfl, rfl⟩ := hdecoder
        exact .device hhas hvalue
      · obtain ⟨rfl, rfl⟩ := hprotocol
        obtain ⟨rfl, rfl⟩ := hdevice
        obtain ⟨hhas, rfl, hvalue⟩ := hwidth
        obtain ⟨rfl, rfl⟩ := hheight
        obtain ⟨rfl, rfl⟩ := hdecoder
        exact .width hhas hvalue
      · obtain ⟨rfl, rfl⟩ := hprotocol
        obtain ⟨rfl, rfl⟩ := hdevice
        obtain ⟨rfl, rfl⟩ := hwidth
        obtain ⟨hhas, rfl, hvalue⟩ := hheight
        obtain ⟨rfl, rfl⟩ := hdecoder
        exact .height hhas hvalue
      · obtain ⟨rfl, rfl⟩ := hprotocol
        obtain ⟨rfl, rfl⟩ := hdevice
        obtain ⟨rfl, rfl⟩ := hwidth
        obtain ⟨rfl, rfl⟩ := hheight
        obtain ⟨hhas, rfl, hvalue⟩ := hdecoder
        exact .decoder hhas hvalue
    · have hvalue := hother hkey
      simp only [fieldKeys, List.mem_cons, List.not_mem_nil, or_false, not_or] at hkey
      simp only [hkey, if_false] at hprotocol hdevice hwidth hheight hdecoder
      obtain ⟨rfl, rfl⟩ := hprotocol
      obtain ⟨rfl, rfl⟩ := hdevice
      obtain ⟨rfl, rfl⟩ := hwidth
      obtain ⟨rfl, rfl⟩ := hheight
      obtain ⟨rfl, rfl⟩ := hdecoder
      exact .other (by simp [fieldKeys, hkey]) hvalue

/-- The members one after the other give each field its value. -/
theorem memberChain_records {h h' : Handshake} {members : List Member} :
    MemberChain Records h members h' ↔ Fields h members h' := by
  induction members generalizing h with
  | nil =>
      constructor
      · rintro rfl
        constructor
        case others => exact fun m hm ↦ (List.not_mem_nil hm).elim
        all_goals exact FieldOf.nil_iff.2 ⟨rfl, rfl⟩
      · rintro ⟨hprotocol, hdevice, hwidth, hheight, hdecoder, -⟩
        rw [FieldOf.nil_iff] at hprotocol hdevice hwidth hheight hdecoder
        show h = h'
        cases h
        cases h'
        obtain ⟨rfl, rfl⟩ := hprotocol
        obtain ⟨rfl, rfl⟩ := hdevice
        obtain ⟨rfl, rfl⟩ := hwidth
        obtain ⟨rfl, rfl⟩ := hheight
        obtain ⟨rfl, rfl⟩ := hdecoder
        rfl
  | cons m members ih =>
      show (∃ b, Records h m.key m.value.text b ∧ MemberChain Records b members h') ↔ _
      constructor
      · rintro ⟨b, hrecords, hchain⟩
        obtain ⟨hprotocol, hdevice, hwidth, hheight, hdecoder, hother⟩ := records_iff.1 hrecords
        have hfields := ih.1 hchain
        constructor
        · exact FieldOf.cons_iff.2 ⟨_, _, hprotocol, hfields.protocol⟩
        · exact FieldOf.cons_iff.2 ⟨_, _, hdevice, hfields.device⟩
        · exact FieldOf.cons_iff.2 ⟨_, _, hwidth, hfields.width⟩
        · exact FieldOf.cons_iff.2 ⟨_, _, hheight, hfields.height⟩
        · exact FieldOf.cons_iff.2 ⟨_, _, hdecoder, hfields.decoder⟩
        · exact List.forall_mem_cons.2 ⟨hother, hfields.others⟩
      · intro hfields
        obtain ⟨hasProtocol, protocol, hprotocol, hprotocol'⟩ := FieldOf.cons_iff.1 hfields.protocol
        obtain ⟨hasDevice, device, hdevice, hdevice'⟩ := FieldOf.cons_iff.1 hfields.device
        obtain ⟨hasWidth, width, hwidth, hwidth'⟩ := FieldOf.cons_iff.1 hfields.width
        obtain ⟨hasHeight, height, hheight, hheight'⟩ := FieldOf.cons_iff.1 hfields.height
        obtain ⟨hasDecoders, decoders, hdecoder, hdecoder'⟩ := FieldOf.cons_iff.1 hfields.decoder
        obtain ⟨hother, hothers⟩ := List.forall_mem_cons.1 hfields.others
        let b : Handshake := {
          protocol, device, width, height, decoders, hasProtocol, hasDevice, hasWidth, hasHeight,
          hasDecoders }
        have hrecords : Records h m.key m.value.text b :=
          records_iff.2 ⟨hprotocol, hdevice, hwidth, hheight, hdecoder, hother⟩
        exact ⟨b, hrecords, ih.2 ⟨hprotocol', hdevice', hwidth', hheight', hdecoder', hothers⟩⟩

/-! ## The handshake -/

/-- The key occurs once, with this value. -/
def Once {α : Type} (G : α → Text → Prop) (members : List Member) (key : Text) (a : α) : Prop :=
  ∃ m, named key members = [m] ∧ G a m.value.text

/-- The members of a handshake, and the fields that they denote. -/
structure DescribesHandshake (members : List Member) (h : Handshake) : Prop where
  protocol : Once IsInt64 members protocolKey h.protocol
  device : Once IsString members deviceKey h.device
  width : Once IsInt64 members widthKey h.width
  height : Once IsInt64 members heightKey h.height
  decoder : Once IsStringArray members decoderKey h.decoders
  has : h.hasProtocol = true ∧ h.hasDevice = true ∧ h.hasWidth = true ∧ h.hasHeight = true ∧
    h.hasDecoders = true
  protocol_eq : h.protocol = 1
  device_ne_nil : h.device ≠ []
  width_mem : 1 ≤ h.width ∧ h.width ≤ 16384
  height_mem : 1 ≤ h.height ∧ h.height ≤ 16384
  decoders_eq : h.decoders = [h264]

/-- The text of a handshake: one object, up to whitespace. -/
def IsHandshake (h : Handshake) (s : Text) : Prop :=
  ∃ (p : Padded) (members : List Member), s = p.all ∧ IsObject members p.text ∧
    DescribesHandshake members h

/-- A field that is required occurs exactly once. -/
theorem fieldOf_iff_once {α : Type} {G : α → Text → Prop} {key : Text} {has : Bool} {a a' : α}
    {members : List Member} (hhas : has = true) :
    FieldOf G key false a members has a' ↔ Once G members key a' := by
  subst hhas
  constructor
  · rintro (⟨-, h, -⟩ | ⟨-, -, h⟩)
    · cases h
    · exact h
  · exact fun h ↦ .inr ⟨rfl, rfl, h⟩

/-- The checks at the end of `ParseHandshake`, taken together. -/
theorem checkHandshake_eq_ok {h h' : Handshake} :
    checkHandshake h = .ok h' ↔ h = h' ∧ (h.hasProtocol = true ∧ h.protocol = 1) ∧
      (h.hasDevice = true ∧ h.device ≠ []) ∧
      (h.hasWidth = true ∧ 1 ≤ h.width ∧ h.width ≤ 16384) ∧
      (h.hasHeight = true ∧ 1 ≤ h.height ∧ h.height ≤ 16384) ∧
      h.hasDecoders = true ∧ h.decoders = [h264] := by
  constructor
  · intro hcheck
    rw [checkHandshake] at hcheck
    split_ifs at hcheck with hprotocol hdevice hwidth hheight hdecoder
    simp only [Bool.or_eq_true, Bool.not_eq_true', decide_eq_true_eq, not_or, Bool.not_eq_false,
      not_not, Int.not_le, Int.not_lt, gt_iff_lt, List.isEmpty_iff,
      ne_eq] at hprotocol hdevice hwidth hheight hdecoder
    obtain ⟨⟨hhasWidth, hwidth⟩, hwidth'⟩ := hwidth
    obtain ⟨⟨hhasHeight, hheight⟩, hheight'⟩ := hheight
    exact ⟨Except.ok.inj hcheck, hprotocol, hdevice, ⟨hhasWidth, hwidth, hwidth'⟩,
      ⟨hhasHeight, hheight, hheight'⟩, hdecoder⟩
  · rintro ⟨rfl, ⟨hhas₁, hprotocol⟩, ⟨hhas₂, hdevice⟩, ⟨hhas₃, hwidth, hwidth'⟩,
      ⟨hhas₄, hheight, hheight'⟩, hhas₅, hdecoder⟩
    have hw : ¬h.width ≤ 0 ∧ ¬16384 < h.width := by omega
    have hh : ¬h.height ≤ 0 ∧ ¬16384 < h.height := by omega
    simp [checkHandshake, hhas₁, hhas₂, hhas₃, hhas₄, hhas₅, hprotocol, hdevice, hw, hh, hdecoder]

/-- A description is what the loop over the members leaves and the demands on it. -/
theorem describesHandshake_iff {members : List Member} {h : Handshake}
    (hvalues : ∀ m ∈ members, IsValue m.value.text) :
    DescribesHandshake members h ↔ Fields {} members h ∧ checkHandshake h = .ok h := by
  rw [checkHandshake_eq_ok]
  constructor
  · intro hdescribes
    obtain ⟨h₁, h₂, h₃, h₄, h₅⟩ := hdescribes.has
    constructor
    · constructor
      · exact (fieldOf_iff_once h₁).2 hdescribes.protocol
      · exact (fieldOf_iff_once h₂).2 hdescribes.device
      · exact (fieldOf_iff_once h₃).2 hdescribes.width
      · exact (fieldOf_iff_once h₄).2 hdescribes.height
      · exact (fieldOf_iff_once h₅).2 hdescribes.decoder
      · exact fun m hm _ ↦ hvalues m hm
    · exact ⟨rfl, ⟨h₁, hdescribes.protocol_eq⟩, ⟨h₂, hdescribes.device_ne_nil⟩,
        ⟨h₃, hdescribes.width_mem⟩, ⟨h₄, hdescribes.height_mem⟩, h₅, hdescribes.decoders_eq⟩
  · rintro ⟨hfields, -, ⟨h₁, hprotocol⟩, ⟨h₂, hdevice⟩, ⟨h₃, hwidth⟩, ⟨h₄, hheight⟩, h₅, hdecoder⟩
    constructor
    · exact (fieldOf_iff_once h₁).1 hfields.protocol
    · exact (fieldOf_iff_once h₂).1 hfields.device
    · exact (fieldOf_iff_once h₃).1 hfields.width
    · exact (fieldOf_iff_once h₄).1 hfields.height
    · exact (fieldOf_iff_once h₅).1 hfields.decoder
    · exact ⟨h₁, h₂, h₃, h₄, h₅⟩
    · exact hprotocol
    · exact hdevice
    · exact hwidth
    · exact hheight
    · exact hdecoder

/-- What is accepted is a handshake of the grammar. -/
theorem parseHandshake_sound {s : Text} {h : Handshake} (hparse : parseHandshake s = .ok h) :
    IsHandshake h s := by
  obtain ⟨before, hbefore, hs⟩ := exists_skipWhitespace s
  rw [parseHandshake] at hparse
  cases hopen : consume (ascii '{') (skipWhitespace s) with
  | none =>
      rw [hopen] at hparse
      cases hparse
  | some s₁ =>
  rw [hopen] at hparse
  cases hclose : consume (ascii '}') (skipWhitespace s₁) with
  | some s₂ =>
      simp only [hclose] at hparse
      cases hparse
  | none =>
  simp only [hclose] at hparse
  obtain ⟨⟨h', s₂⟩, hread, hparse⟩ := bind_eq_ok.1 hparse
  simp only at hparse
  split_ifs at hparse with htrailing
  have hcheck : h' = h := (checkHandshake_eq_ok.1 hparse).1
  subst hcheck
  obtain ⟨w, hw, hs₁⟩ := exists_skipWhitespace s₁
  obtain ⟨items, hne, hchain, hitems⟩ := separated_sound parseMember_sound hread hw
  obtain ⟨members, rfl, hmembers⟩ := chain_isMember.1 hchain
  obtain ⟨after, hafter, hs₂⟩ := exists_skipWhitespace s₂
  rw [not_not.1 htrailing, List.append_nil] at hs₂
  subst hs₂
  have hvalues : ∀ m ∈ members, IsValue m.value.text :=
    hmembers.forall (G := IsValue) fun _ _ _ _ ↦ Records.isValue
  let body := commaSeparated (members.map Member.padded)
  refine ⟨⟨before, ascii '{' :: (body ++ [ascii '}']), s₂, hbefore, hafter⟩, members, ?_, ?_, ?_⟩
  · rw [hs, consume_eq_some hopen, hs₁, hitems]
    simp [Padded.all, body]
  · exact ⟨hvalues, body, .inr ⟨hne, rfl⟩, rfl⟩
  · exact (describesHandshake_iff hvalues).2 ⟨memberChain_records.1 hmembers, hparse⟩

/-- Every handshake of the grammar is accepted. -/
theorem parseHandshake_complete {s : Text} {h : Handshake} (hs : IsHandshake h s) :
    parseHandshake s = .ok h := by
  obtain ⟨p, members, rfl, ⟨hvalues, body, hbody, htext⟩, hdescribes⟩ := hs
  obtain ⟨hfields, hcheck⟩ := (describesHandshake_iff hvalues).1 hdescribes
  have hchain : Chain ReadsMember {} (members.map Member.padded) h :=
    chain_isMember.2 ⟨members, rfl, memberChain_records.2 hfields⟩
  have hne : members.map Member.padded ≠ [] := by
    obtain ⟨m, hm, -⟩ := hdescribes.protocol
    rintro hnil
    rw [List.map_eq_nil_iff.1 hnil] at hm
    cases hm
  obtain ⟨-, rfl⟩ : _ ∧ body = commaSeparated (members.map Member.padded) :=
    hbody.resolve_left fun h ↦ hne h.1
  let rest := commaSeparated (members.map Member.padded) ++ ascii '}' :: p.after
  have hall : p.all = p.before ++ ascii '{' :: rest := by
    rw [Padded.all, htext]
    simp [rest]
  obtain ⟨t, s, hstarts, hskip⟩ :=
    commaSeparated_starts parseMember_complete hne hchain (ascii '}' :: p.after)
  have hnone : consume (ascii '}') (skipWhitespace rest) = none := by
    rw [show skipWhitespace rest = t ++ s from hskip]
    exact hstarts.consume_close (.inr rfl) s
  have hread : separated (ascii '}') "handshake object is missing ','" parseMember rest.length {}
      (skipWhitespace rest) = .ok (h, p.after) := by
    apply separated_complete parseMember_complete (.inr rfl) hne hchain
    have := hbody.length_le
    simp only [rest, List.length_append, List.length_cons]
    omega
  have hafter : skipWhitespace p.after = [] := by
    have := skipWhitespace_append p.whitespace_after []
    rwa [List.append_nil] at this
  rw [hall, parseHandshake, skipWhitespace_append p.whitespace_before, skipWhitespace_cons rfl,
    consume_cons_self]
  simp only [hnone]
  rw [hread]
  show (if skipWhitespace p.after ≠ [] then _ else _) = _
  rw [if_neg (not_not.2 hafter)]
  exact hcheck

/-- `ParseHandshake` accepts exactly the handshakes, and returns what their members denote. -/
theorem parseHandshake_iff (s : Text) (h : Handshake) :
    parseHandshake s = .ok h ↔ IsHandshake h s :=
  ⟨parseHandshake_sound, parseHandshake_complete⟩

end SecondScreen.Host.JsonParser
