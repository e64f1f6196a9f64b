import SecondScreen.Wire.AnnexB

/-!
# `ConvertLengthPrefixed`

The conversion with its reads by index and its output buffer: `none` stands for a read
outside the payload, and each attempt begins with a cleared buffer.  It never reads
outside, and accepts the two length-prefixed forms and nothing else
(`convertLengthPrefixedInto_iff`).
-/

namespace SecondScreen.Wire

open SecondScreen.Machine

/-! ## The source, read by index -/

/-- The loop of `readLength`. -/
def readLengthLoop (payload : List UInt8) : (bytes offset : Nat) → UInt32 → Option UInt32
  | 0, _, value => some value
  | bytes + 1, offset, value =>
      match payload[offset]? with
      | none => none
      | some b => readLengthLoop payload bytes (offset + 1) (value <<< 8 ||| b.toUInt32)

/-- The bytes that `output.insert` copies. -/
def copyFrom (payload : List UInt8) : (count offset : Nat) → Option (List UInt8)
  | 0, _ => some []
  | count + 1, offset =>
      match payload[offset]?, copyFrom payload count (offset + 1) with
      | some b, some bs => some (b :: bs)
      | _, _ => none

/-- One attempt: whether the payload is of the form, and what is in the buffer then. -/
def attempt (payload : List UInt8) (lengthBytes offset : Nat) (output : List UInt8) :
    Option (Bool × List UInt8) :=
  if offset < payload.length then
    if offset + lengthBytes > payload.length then some (false, output)
    else
      match readLengthLoop payload lengthBytes offset 0 with
      | none => none
      | some nalLength =>
          if _h : nalLength.toNat = 0 ∨
              nalLength.toNat > payload.length - (offset + lengthBytes) then
            some (false, output)
          else
            match copyFrom payload nalLength.toNat (offset + lengthBytes) with
            | none => none
            | some nal =>
                attempt payload lengthBytes (offset + lengthBytes + nalLength.toNat)
                  (output ++ [0, 0, 0, 1] ++ nal)
  else some (decide (offset = payload.length ∧ output ≠ []), output)
termination_by payload.length - offset

/-- `output.clear()`. -/
def clear (_output : List UInt8) : List UInt8 := []

/-- The loop over the sizes of the length fields, with the one output buffer. -/
def attempts (payload : List UInt8) : List Nat → List UInt8 → Option (Bool × List UInt8)
  | [], output => some (false, clear output)
  | lengthBytes :: sizes, output =>
      match attempt payload lengthBytes 0 (clear output) with
      | none => none
      | some (true, output) => some (true, output)
      | some (false, output) => attempts payload sizes output

/-- `ConvertLengthPrefixed` and its output buffer, whatever is in it before. -/
def convertLengthPrefixedInto (payload output : List UInt8) : Option (Bool × List UInt8) :=
  attempts payload [4, 2] output

variable {payload output out u : List UInt8} {units : List (List UInt8)}
variable {k n count offset : Nat}

/-! ## No read is outside -/

theorem readLengthLoop_eq (h : offset + n ≤ payload.length) (value : UInt32) :
    readLengthLoop payload n offset value =
      some (((payload.drop offset).take n).foldl
        (fun (value : UInt32) b ↦ value <<< 8 ||| b.toUInt32) value) := by
  induction n generalizing offset value with
  | zero => rfl
  | succ n ih =>
      have hlt : offset < payload.length := by omega
      rw [readLengthLoop, List.getElem?_eq_getElem hlt, List.drop_eq_getElem_cons hlt,
        List.take_succ_cons, List.foldl_cons]
      exact ih (by omega) _

/-- A length that `readLength` reads. -/
theorem readLength_inside {nalLength : UInt32} (h : readLength payload offset k = some nalLength) :
    offset + k ≤ payload.length ∧ readLengthLoop payload k offset 0 = some nalLength := by
  by_cases hshort : offset + k > payload.length
  · rw [readLength, if_pos hshort] at h
    cases h
  · have hle := not_lt.1 hshort
    refine ⟨hle, ?_⟩
    rw [readLengthLoop_eq hle, ← h, readLength, if_neg hshort]

theorem copyFrom_eq (h : offset + n ≤ payload.length) :
    copyFrom payload n offset = some ((payload.drop offset).take n) := by
  induction n generalizing offset with
  | zero => rfl
  | succ n ih =>
      have hlt : offset < payload.length := by omega
      rw [copyFrom, List.getElem?_eq_getElem hlt, ih (by omega), List.drop_eq_getElem_cons hlt,
        List.take_succ_cons]

/-- An attempt is the loop without its buffer. -/
theorem attempt_eq (payload : List UInt8) (k offset : Nat) (output : List UInt8) :
    ∃ left, attempt payload k offset output =
      match convertNals payload k offset output with
      | some out => some (true, out)
      | none => some (false, left) := by
  induction offset, output using convertNals.induct payload k with
  | case1 offset output hlt hread =>
      have hshort : offset + k > payload.length := by
        by_contra hle
        rw [readLength, if_neg hle] at hread
        cases hread
      refine ⟨output, ?_⟩
      rw [attempt, if_pos hlt, if_pos hshort, convertNals, if_pos hlt, hread]
  | case2 offset output hlt nalLength hread hbad =>
      obtain ⟨hle, hloop⟩ := readLength_inside hread
      refine ⟨output, ?_⟩
      rw [attempt, if_pos hlt, if_neg (not_lt.2 hle), hloop, convertNals, if_pos hlt, hread]
      simp only
      rw [dif_pos hbad, dif_pos hbad]
  | case3 offset output hlt nalLength hread hgood ih =>
      obtain ⟨hle, hloop⟩ := readLength_inside hread
      have hcopy := @copyFrom_eq payload nalLength.toNat (offset + k) (by omega)
      obtain ⟨left, ih⟩ := ih
      refine ⟨left, ?_⟩
      rw [attempt, if_pos hlt, if_neg (not_lt.2 hle), hloop, convertNals, if_pos hlt, hread]
      simp only
      rw [dif_neg hgood, dif_neg hgood, hcopy]
      exact ih
  | case4 offset output hge hend =>
      refine ⟨output, ?_⟩
      rw [attempt, if_neg hge, convertNals, if_neg hge, if_pos hend, decide_eq_true hend]
  | case5 offset output hge hend =>
      refine ⟨output, ?_⟩
      rw [attempt, if_neg hge, convertNals, if_neg hge, if_neg hend, decide_eq_false hend]

/-- What an attempt leaves in the buffer is gone before the next one, and in the end. -/
theorem convertLengthPrefixedInto_eq (payload output : List UInt8) :
    convertLengthPrefixedInto payload output =
      match convertLengthPrefixed payload with
      | some out => some (true, out)
      | none => some (false, []) := by
  obtain ⟨left₄, h₄⟩ := attempt_eq payload 4 0 []
  obtain ⟨left₂, h₂⟩ := attempt_eq payload 2 0 []
  rw [convertLengthPrefixedInto, attempts, clear, h₄, convertLengthPrefixed]
  cases convertNals payload 4 0 [] with
  | some out => rfl
  | none =>
      dsimp only
      rw [attempts, clear, h₂]
      cases convertNals payload 2 0 [] <;> rfl

/-! ## What the conversion accepts -/

/-- NAL units, each preceded by its length in `k` bytes. -/
def sized (k : Nat) (units : List (List UInt8)) : List UInt8 :=
  units.flatMap fun u ↦ beBytes k u.length ++ u

/-- The payload is made of NAL units, each preceded by its length in `k` bytes. -/
structure SizedBy (k : Nat) (units : List (List UInt8)) (payload : List UInt8) : Prop where
  ne_nil : units ≠ []
  unit : ∀ u ∈ units, 1 ≤ u.length ∧ u.length < 256 ^ k
  eq : payload = sized k units

theorem sized_cons (k : Nat) (u : List UInt8) (units : List (List UInt8)) :
    sized k (u :: units) = beBytes k u.length ++ (u ++ sized k units) := by
  simp [sized]

/-- What `readLength` reads, if its value has no more than 32 bits. -/
theorem readLength_eq_some (hk : k ≤ 4) (hoffset : offset + k ≤ payload.length) (n : UInt32) :
    readLength payload offset k = some n ↔ (payload.drop offset).take k = beBytes k n.toNat ∧
      n.toNat < 256 ^ k := by
  have hlength : ((payload.drop offset).take k).length = k := by
    rw [List.length_take, List.length_drop]
    omega
  have hlt := ofBe_lt ((payload.drop offset).take k)
  rw [hlength] at hlt
  have hpow : 256 ^ k ≤ 2 ^ 32 := Nat.pow_le_pow_right (show 0 < 256 by decide) hk
  rw [readLength, if_neg (not_lt.2 hoffset), Option.some_inj, ← UInt32.toNat_inj,
    toNat_foldl_or, hlength, UInt32.toNat_zero, Nat.zero_mul, Nat.zero_add,
    Nat.mod_eq_of_lt (hlt.trans_le hpow)]
  constructor
  · intro h
    rw [← h]
    exact ⟨(beBytes_ofBe hlength).symm, hlt⟩
  · rintro ⟨h, hn⟩
    rw [h, ofBe_beBytes, Nat.mod_eq_of_lt hn]

/-- What is left from an offset on begins with a NAL unit and its length. -/
theorem drop_eq_cons (h : offset ≤ payload.length) {rest : List UInt8} :
    payload.drop offset = beBytes k u.length ++ (u ++ rest) ↔
      offset + k + u.length ≤ payload.length ∧
        (payload.drop offset).take k = beBytes k u.length ∧
        (payload.drop (offset + k)).take u.length = u ∧
        payload.drop (offset + k + u.length) = rest := by
  constructor
  · intro heq
    have hlength := congrArg List.length heq
    rw [List.length_drop, List.length_append, List.length_append, length_beBytes] at hlength
    have hafter : payload.drop (offset + k) = u ++ rest := by
      rw [← List.drop_drop, heq, List.drop_left' (length_beBytes k _)]
    refine ⟨by omega, ?_, ?_, ?_⟩
    · rw [heq, List.take_left' (length_beBytes k _)]
    · rw [hafter, List.take_left]
    · rw [← List.drop_drop, hafter, List.drop_left]
  · rintro ⟨-, hlength, hunit, hrest⟩
    rw [← List.take_append_drop k (payload.drop offset), hlength, List.drop_drop,
      ← List.take_append_drop u.length (payload.drop (offset + k)), hunit, List.drop_drop, hrest]

/-- A length field can be read in one way. -/
theorem readLength_of_cons (hk : k ≤ 4) (hoffset : offset ≤ payload.length)
    (hu : u.length < 256 ^ k) {rest : List UInt8}
    (h : payload.drop offset = beBytes k u.length ++ (u ++ rest)) :
    readLength payload offset k = some (UInt32.ofNat u.length) ∧
      (UInt32.ofNat u.length).toNat = u.length := by
  obtain ⟨hle, hlength, -⟩ := (drop_eq_cons hoffset).1 h
  have hpow : 256 ^ k ≤ 2 ^ 32 := Nat.pow_le_pow_right (show 0 < 256 by decide) hk
  have htoNat : (UInt32.ofNat u.length).toNat = u.length := by
    rw [UInt32.toNat_ofNat', Nat.mod_eq_of_lt (hu.trans_le hpow)]
  refine ⟨?_, htoNat⟩
  apply (readLength_eq_some hk (by omega) _).2
  rw [htoNat]
  exact ⟨hlength, hu⟩

/-- Where nothing is left, there are no further NAL units. -/
theorem sized_eq_nil (hunits : ∀ u ∈ units, 1 ≤ u.length ∧ u.length < 256 ^ k)
    (h : sized k units = []) : units = [] := by
  cases units with
  | nil => rfl
  | cons u units =>
      have hu := (hunits u List.mem_cons_self).1
      have hlength := congrArg List.length h
      rw [sized_cons, List.length_append, List.length_append, List.length_nil] at hlength
      omega

/-- The loop is to make `out` of the NAL units that are left. -/
def Finishes (payload : List UInt8) (k offset : Nat) (output out : List UInt8) : Prop :=
  ∃ units, (∀ u ∈ units, 1 ≤ u.length ∧ u.length < 256 ^ k) ∧
    payload.drop offset = sized k units ∧ out = output ++ annexB units ∧ out ≠ []

/-- While something is left, there is a next NAL unit, and its length is read. -/
theorem Finishes.next (hk : k ≤ 4) (hlt : offset < payload.length)
    (h : Finishes payload k offset output out) :
    ∃ u units, (1 ≤ u.length ∧ ∀ v ∈ units, 1 ≤ v.length ∧ v.length < 256 ^ k) ∧
      payload.drop offset = beBytes k u.length ++ (u ++ sized k units) ∧
      (readLength payload offset k = some (UInt32.ofNat u.length) ∧
        (UInt32.ofNat u.length).toNat = u.length) ∧
      out = output ++ annexB (u :: units) ∧ out ≠ [] := by
  obtain ⟨_ | ⟨u, units⟩, hunits, heq, hout, hne⟩ := h
  · have hlength := congrArg List.length heq
    rw [List.length_drop, sized, List.flatMap_nil, List.length_nil] at hlength
    omega
  · rw [sized_cons] at heq
    obtain ⟨⟨hpos, hfits⟩, hrest⟩ := List.forall_mem_cons.1 hunits
    exact ⟨u, units, ⟨hpos, hrest⟩, heq, readLength_of_cons hk hlt.le hfits heq, hout, hne⟩

/-- A NAL unit that has been read is converted first. -/
theorem finishes_cons_iff (hk : k ≤ 4) (hlt : offset < payload.length) {nalLength : UInt32}
    (hread : readLength payload offset k = some nalLength) (hpos : nalLength.toNat ≠ 0)
    (hle : offset + k + nalLength.toNat ≤ payload.length) :
    Finishes payload k (offset + k + nalLength.toNat)
        (output ++ [0, 0, 0, 1] ++ (payload.drop (offset + k)).take nalLength.toNat) out ↔
      Finishes payload k offset output out := by
  constructor
  · rintro ⟨units, hunits, heq, hout, hne⟩
    obtain ⟨hlength, hfits⟩ := (readLength_eq_some hk (by omega) _).1 hread
    have hu : ((payload.drop (offset + k)).take nalLength.toNat).length = nalLength.toNat := by
      rw [List.length_take, List.length_drop]
      omega
    refine ⟨(payload.drop (offset + k)).take nalLength.toNat :: units, ?_, ?_, ?_, hne⟩
    · rw [List.forall_mem_cons, hu]
      exact ⟨⟨by omega, hfits⟩, hunits⟩
    · rw [sized_cons, drop_eq_cons hlt.le, hu]
      exact ⟨hle, hlength, rfl, heq⟩
    · rw [annexB_cons, hout]
      simp
  · intro h
    obtain ⟨u, units, ⟨-, hunits⟩, heq, ⟨hsome, htoNat⟩, hout, hne⟩ := h.next hk hlt
    obtain rfl := Option.some.inj (hread.symm.trans hsome)
    obtain ⟨-, -, hunit, hrest⟩ := (drop_eq_cons hlt.le).1 heq
    rw [htoNat]
    refine ⟨units, hunits, hrest, ?_, hne⟩
    rw [hout, hunit, annexB_cons]
    simp

/-- Where nothing is left, the output is what there is. -/
theorem finishes_end_iff (hge : ¬offset < payload.length) :
    Finishes payload k offset output out ↔ out = output ∧ output ≠ [] := by
  have hnil := List.drop_eq_nil_of_le (not_lt.1 hge)
  constructor
  · rintro ⟨units, hunits, heq, rfl, hne⟩
    rw [sized_eq_nil hunits (heq.symm.trans hnil)] at hne ⊢
    rw [show annexB [] = [] from rfl, List.append_nil] at hne ⊢
    exact ⟨rfl, hne⟩
  · rintro ⟨rfl, hne⟩
    exact ⟨[], fun u hu ↦ (by cases hu), hnil, (List.append_nil _).symm, hne⟩

/-- The loop converts what is left if it is made of NAL units. -/
theorem convertNals_iff (hk : k ≤ 4) (hoffset : offset ≤ payload.length) :
    convertNals payload k offset output = some out ↔ Finishes payload k offset output out := by
  induction offset, output using convertNals.induct payload k with
  | case1 offset output hlt hread =>
      rw [convertNals, if_pos hlt, hread]
      constructor
      · intro h
        cases h
      · intro h
        obtain ⟨u, units, -, -, ⟨hsome, -⟩, -⟩ := h.next hk hlt
        cases hread.symm.trans hsome
  | case2 offset output hlt nalLength hread hbad =>
      rw [convertNals, if_pos hlt, hread]
      simp only
      rw [dif_pos hbad]
      constructor
      · intro h
        cases h
      · intro h
        obtain ⟨u, units, ⟨hpos, -⟩, heq, ⟨hsome, htoNat⟩, -⟩ := h.next hk hlt
        obtain rfl := Option.some.inj (hread.symm.trans hsome)
        have hle := ((drop_eq_cons hoffset).1 heq).1
        rw [htoNat] at hbad
        omega
  | case3 offset output hlt nalLength hread hgood ih =>
      have hinside := (readLength_inside hread).1
      have hle : offset + k + nalLength.toNat ≤ payload.length := by omega
      rw [convertNals, if_pos hlt, hread]
      simp only
      rw [dif_neg hgood]
      exact (ih hle).trans (finishes_cons_iff hk hlt hread (by omega) hle)
  | case4 offset output hge hend =>
      rw [convertNals, if_neg hge, if_pos hend, finishes_end_iff hge, Option.some_inj]
      exact ⟨fun h ↦ ⟨h.symm, hend.2⟩, fun h ↦ h.1.symm⟩
  | case5 offset output hge hend =>
      rw [convertNals, if_neg hge, if_neg hend, finishes_end_iff hge]
      constructor
      · intro h
        cases h
      · rintro ⟨-, hne⟩
        exact absurd ⟨le_antisymm hoffset (not_lt.1 hge), hne⟩ hend

/-- What one attempt accepts. -/
theorem convertNals_zero_iff (hk : k ≤ 4) :
    convertNals payload k 0 [] = some out ↔
      ∃ units, SizedBy k units payload ∧ out = annexB units := by
  rw [convertNals_iff hk (Nat.zero_le _), Finishes, List.drop_zero]
  apply exists_congr
  intro units
  rw [List.nil_append]
  constructor
  · rintro ⟨hunits, heq, rfl, hne⟩
    refine ⟨⟨?_, hunits, heq⟩, rfl⟩
    rintro rfl
    exact hne rfl
  · rintro ⟨h, rfl⟩
    exact ⟨h.unit, h.eq, rfl, annexB_ne_nil h.ne_nil⟩

theorem convertNals_zero_eq_none (hk : k ≤ 4) :
    convertNals payload k 0 [] = none ↔ ¬∃ units, SizedBy k units payload := by
  rw [Option.eq_none_iff_forall_ne_some]
  constructor
  · rintro h ⟨units, hunits⟩
    exact h _ ((convertNals_zero_iff hk).2 ⟨units, hunits, rfl⟩)
  · rintro h out hsome
    obtain ⟨units, hunits, -⟩ := (convertNals_zero_iff hk).1 hsome
    exact h ⟨units, hunits⟩

/-- **The conversion accepts the two length-prefixed forms and nothing else.**  It reads no
byte outside the payload; it succeeds with the NAL units in Annex B form if they have
lengths of four bytes, or otherwise lengths of two bytes, and fails with an empty buffer if
there are no such units. -/
theorem convertLengthPrefixedInto_iff (payload output : List UInt8) :
    ∃ valid out, convertLengthPrefixedInto payload output = some (valid, out) ∧
      (valid = true ↔ (∃ units, SizedBy 4 units payload) ∨
        (¬∃ units, SizedBy 4 units payload) ∧ ∃ units, SizedBy 2 units payload) ∧
      (∀ units, SizedBy 4 units payload → out = annexB units) ∧
      (∀ units, (¬∃ units, SizedBy 4 units payload) → SizedBy 2 units payload →
        out = annexB units) ∧
      (valid = false → out = []) := by
  rw [convertLengthPrefixedInto_eq, convertLengthPrefixed]
  have hfour (out : List UInt8) := @convertNals_zero_iff payload out 4 le_rfl
  have hnone := @convertNals_zero_eq_none payload 4 le_rfl
  cases h₄ : convertNals payload 4 0 [] with
  | some out =>
      obtain ⟨units, hunits, -⟩ := (hfour out).1 h₄
      refine ⟨true, out, rfl, ⟨fun _ ↦ .inl ⟨units, hunits⟩, fun _ ↦ rfl⟩, ?_, ?_, ?_⟩
      · intro units hunits
        exact Option.some.inj (h₄.symm.trans ((hfour _).2 ⟨units, hunits, rfl⟩))
      · intro _ hno
        exact absurd ⟨units, hunits⟩ hno
      · intro h
        cases h
  | none =>
      have hno := hnone.1 h₄
      cases h₂ : convertNals payload 2 0 [] with
      | some out =>
          obtain ⟨units, hunits, -⟩ := (convertNals_zero_iff (by decide)).1 h₂
          refine ⟨true, out, rfl, ⟨fun _ ↦ .inr ⟨hno, units, hunits⟩, fun _ ↦ rfl⟩, ?_, ?_, ?_⟩
          · intro units hunits
            exact absurd ⟨units, hunits⟩ hno
          · intro units _ hunits
            have h := (convertNals_zero_iff (by decide)).2 ⟨units, hunits, rfl⟩
            exact Option.some.inj (h₂.symm.trans h)
          · intro h
            cases h
      | none =>
          have hno₂ := (convertNals_zero_eq_none (by decide)).1 h₂
          refine ⟨false, [], rfl, ⟨fun h ↦ ?_, fun h ↦ ?_⟩, ?_, ?_, fun _ ↦ rfl⟩
          · cases h
          · rcases h with h | ⟨-, h⟩
            · exact absurd h hno
            · exact absurd h hno₂
          · intro units hunits
            exact absurd ⟨units, hunits⟩ hno
          · intro units _ hunits
            exact absurd ⟨units, hunits⟩ hno₂

end SecondScreen.Wire
