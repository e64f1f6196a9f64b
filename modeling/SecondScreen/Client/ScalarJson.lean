import SecondScreen.Client.HandshakeResponse
import SecondScreen.Host.JsonValues

/-!
# Objects of scalars

A reader of objects whose values are strings and integers, which treats these as `org.json`
does.  It takes strings and integers from the parser of the host.
-/

namespace SecondScreen.Client.ScalarJson

open SecondScreen.Json SecondScreen.Host.JsonParser

inductive Value
  | string (s : Text)
  | integer (z : Int)
deriving DecidableEq

abbrev Entries := List (Text × Value)

/-- The values with their texts. -/
inductive Denotes : Value → Text → Prop
  | string {s t : Text} : IsString s t → Denotes (.string s) t
  | integer {z : Int} {t : Text} : IsLong z t → Denotes (.integer z) t

def parseValue : Text → Except Unit (Value × Text)
  | [] => .error ()
  | c :: s =>
      if c = quotationMark then (parseString (c :: s)).map fun r ↦ (.string r.1, r.2)
      else (parseInteger (c :: s)).map fun r ↦ (.integer r.1, r.2)

/-- One member. -/
def parseEntry (entries : Entries) (s : Text) : Except Unit (Entries × Text) :=
  match parseString s with
  | .error _ => .error ()
  | .ok (key, s) =>
      match consume (ascii ':') (skipWhitespace s) with
      | none => .error ()
      | some s => (parseValue (skipWhitespace s)).map fun r ↦ (entries ++ [(key, r.1)], r.2)

def parse (t : Text) : Except String Entries :=
  match consume (ascii '{') (skipWhitespace t) with
  | none => .error "not an object"
  | some s =>
      match separatedOrNone (ascii '}') () parseEntry s.length [] s with
      | .error _ => .error "not an object of scalars"
      | .ok (entries, s) => if skipWhitespace s = [] then .ok entries else .error "trailing data"

def optString (entries : Entries) (name fallback : String) : String :=
  match entries.lookup (utf8 name) with
  | none => fallback
  | some (.string s) => (String.fromUTF8? ⟨s.toArray⟩).getD fallback
  | some (.integer z) => toString z

def optInt (entries : Entries) (name : String) (fallback : Int32) : Int32 :=
  match entries.lookup (utf8 name) with
  | some (.integer z) => Int32.ofInt z
  | _ => fallback

/-! ## Reading -/

theorem Denotes.starts {v : Value} {t : Text} (h : Denotes v t) : Starts t := by
  cases h with
  | string h => exact h.starts
  | integer h => exact h.1.isNumber.starts

theorem parseValue_complete {v : Value} {t rest : Text} (h : Denotes v t) (hends : Ends rest) :
    parseValue (t ++ rest) = .ok (v, rest) := by
  cases h with
  | @string s t hs =>
      have hparse : parseString (t ++ rest) = .ok (s, rest) :=
        parseString_parses.complete hs trivial
      obtain ⟨chars, -, rfl⟩ := hs
      rw [List.cons_append, parseValue, if_pos rfl]
      exact map_eq_ok.2 ⟨_, hparse, rfl⟩
  | @integer z t hz =>
      have hparse : parseInteger (t ++ rest) = .ok (z, rest) :=
        parseInteger_parses.complete hz hends
      obtain ⟨c, s, rfl, hc, -⟩ := number_head hz.1.isNumber
      rw [List.cons_append, parseValue, if_neg hc]
      exact map_eq_ok.2 ⟨_, hparse, rfl⟩

/-- A text denotes one value. -/
theorem Denotes.unique {v w : Value} {t : Text} (hv : Denotes v t) (hw : Denotes w t) : v = w := by
  have h := (parseValue_complete hv .nil).symm.trans (parseValue_complete hw .nil)
  cases h
  rfl

/-- A member is put to those before it. -/
def Adds (entries : Entries) (key value : Text) (entries' : Entries) : Prop :=
  ∃ v, Denotes v value ∧ entries' = entries ++ [(key, v)]

theorem parseEntry_complete :
    ItemComplete parseEntry fun entries t entries' ↦
      ∃ key value, IsMember key value t ∧ Adds entries key value entries' where
  complete {entries entries' t rest} ht hends := by
    obtain ⟨key, value, ⟨name, after, before, hname, hafter, hbefore, rfl⟩, v, hv, rfl⟩ := ht
    obtain ⟨hkey, hcolon⟩ := name_complete hname hafter (before ++ (value ++ rest))
    have htext : name ++ (after ++ ascii ':' :: (before ++ value)) ++ rest =
        name ++ (after ++ ascii ':' :: (before ++ (value ++ rest))) := by simp
    rw [htext, parseEntry, hkey]
    simp only [hcolon]
    rw [skipWhitespace_before hbefore hv.starts, parseValue_complete hv hends]
    rfl
  starts ht := by
    obtain ⟨key, value, hmember, -⟩ := ht
    exact hmember.starts

/-- The entries of the members. -/
def EntriesOf (members : List Member) (entries : Entries) : Prop :=
  List.Forall₂ (fun m e ↦ e.1 = m.key ∧ Denotes e.2 m.value.text) members entries

theorem exists_entries {members : List Member} (h : ∀ m ∈ members, Scalar m.value.text)
    (before : Entries) :
    ∃ entries, EntriesOf members entries ∧ MemberChain Adds before members (before ++ entries) := by
  induction members generalizing before with
  | nil => exact ⟨[], .nil, (List.append_nil _).symm⟩
  | cons m members ih =>
      obtain ⟨hm, hmembers⟩ := List.forall_mem_cons.1 h
      obtain ⟨v, hv⟩ : ∃ v, Denotes v m.value.text := by
        rcases hm with ⟨s, hs⟩ | ⟨z, hz⟩
        · exact ⟨_, .string hs⟩
        · exact ⟨_, .integer hz⟩
      obtain ⟨entries, hentries, hchain⟩ := ih hmembers (before ++ [(m.key, v)])
      rw [List.append_assoc] at hchain
      exact ⟨(m.key, v) :: entries, .cons ⟨rfl, hv⟩ hentries, _, ⟨v, hv, rfl⟩, hchain⟩

/-- Where no key occurs twice, each one finds what its value denotes. -/
theorem EntriesOf.lookup {members : List Member} {entries : Entries}
    (h : EntriesOf members entries) (hkeys : (members.map Member.key).Nodup) {m : Member}
    (hm : m ∈ members) : ∃ v, entries.lookup m.key = some v ∧ Denotes v m.value.text := by
  induction h with
  | nil => cases hm
  | @cons m' e members entries hhead htail ih =>
      obtain ⟨key, v⟩ := e
      obtain ⟨rfl, hv⟩ := hhead
      rw [List.map_cons, List.nodup_cons] at hkeys
      rcases List.mem_cons.1 hm with rfl | hm
      · exact ⟨v, by simp, hv⟩
      · obtain ⟨w, hlookup, hw⟩ := ih hkeys.2 hm
        have hne : m.key ≠ m'.key := fun heq ↦ hkeys.1 (heq ▸ List.mem_map_of_mem hm)
        refine ⟨w, ?_, hw⟩
        rw [List.lookup_cons, beq_false_of_ne hne]
        exact hlookup

theorem parse_eq_ok {members : List Member} {t : Text} (ht : IsObject members t)
    (hscalar : ∀ m ∈ members, Scalar m.value.text) :
    ∃ entries, EntriesOf members entries ∧ parse t = .ok entries := by
  obtain ⟨-, body, hbody, rfl⟩ := ht
  obtain ⟨entries, hentries, hmembers⟩ := exists_entries hscalar []
  have hchain := chain_isMember.2 ⟨members, rfl, hmembers⟩
  have hread : separatedOrNone (ascii '}') () parseEntry (body ++ [ascii '}']).length []
      (body ++ ascii '}' :: []) = .ok (entries, []) := by
    apply separatedOrNone_complete parseEntry_complete (.inr rfl) hbody hchain
    simpa using hbody.length_le
  refine ⟨entries, hentries, ?_⟩
  rw [parse, skipWhitespace_cons rfl, consume_cons_self]
  simp only [hread]
  rfl

theorem fromUTF8_utf8 (s : String) : String.fromUTF8? ⟨(utf8 s).toArray⟩ = some s := by
  rw [String.fromUTF8?]
  show (if h : s.toByteArray.IsValidUTF8 then _ else _) = _
  rw [dif_pos s.isValidUTF8]
  rfl

/-- The reader as an `org.json`. -/
def orgJson : OrgJson where
  JSONObject := Entries
  parse := parse
  optString := optString
  optInt := optInt
  parse_object {members t} ht hkeys hscalar := by
    obtain ⟨entries, hentries, hparse⟩ := parse_eq_ok ht hscalar
    refine ⟨entries, hparse, fun m hm name hname ↦ ?_⟩
    obtain ⟨v, hlookup, hv⟩ := hentries.lookup hkeys hm
    constructor
    · intro s fallback hs
      cases hv.unique (.string hs)
      simp only [optString, hname, hlookup, fromUTF8_utf8]
      rfl
    · intro z fallback hz
      cases hv.unique (.integer hz)
      simp only [optInt, hname, hlookup]

end SecondScreen.Client.ScalarJson
