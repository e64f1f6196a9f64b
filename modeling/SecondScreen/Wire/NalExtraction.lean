import SecondScreen.Wire.AnnexB
import SecondScreen.Wire.NalTypes

/-!
# NAL units from the encoder to the decoder

What the host converts to Annex B, the client takes apart again: `findNalUnit` returns the
first NAL unit of a type (`nalUnits_extracted`).  This rests on where the start
codes of the Annex B form are (`codeAt_annexB_cons`): before each NAL unit, and nowhere in
one.
-/

namespace SecondScreen.Wire

open SecondScreen.Client

/-- A NAL unit as an encoder writes it: no start code begins in it. -/
structure Escaped (u : List UInt8) : Prop where
  ne_nil : u ≠ []
  zeros : ¬[0, 0, 0] <:+: u
  code : ¬[0, 0, 1] <:+: u
  last : u.getLast? ≠ some 0

/-- The type of a NAL unit. -/
def nalType (u : List UInt8) : UInt8 := byteAt u 0 &&& 0x1f

variable {p q u before : List UInt8} {units : List (List UInt8)} {t : UInt8} {i j n : Nat}

/-! ## Bytes of a concatenation -/

theorem byteAt_append_left (h : i < p.length) : byteAt (p ++ q) i = byteAt p i :=
  List.getD_append p q 0 i h

theorem byteAt_append_right (p q : List UInt8) (i : Nat) :
    byteAt (p ++ q) (p.length + i) = byteAt q i := by
  rw [byteAt, List.getD_append_right p q 0 _ (Nat.le_add_right _ _), Nat.add_sub_cancel_left]
  rfl

/-- What stands before does not matter. -/
theorem codeAt_append (p q : List UInt8) (j : Nat) :
    CodeAt (p ++ q) (p.length + j) ↔ CodeAt q j := by
  simp only [CodeAt, Nat.add_assoc, byteAt_append_right]

theorem startCodeLength_append (p q : List UInt8) (j : Nat) :
    startCodeLength (p ++ q) (p.length + j) = startCodeLength q j := by
  simp only [startCodeLength, Nat.add_assoc, byteAt_append_right]

/-! ## Start codes of the Annex B form -/

/-- The last byte of a NAL unit is not zero. -/
theorem Escaped.byteAt_last (h : Escaped u) : byteAt u (u.length - 1) ≠ 0 := by
  intro hzero
  have hpos := List.length_pos_iff.2 h.ne_nil
  apply h.last
  rw [List.getLast?_eq_getElem?, List.getElem?_eq_getElem (by omega)]
  rw [byteAt, List.getD_eq_getElem _ _ (by omega)] at hzero
  rw [hzero]

/-- No start code begins in a NAL unit, whatever follows it. -/
theorem Escaped.not_codeAt (h : Escaped u) (hi : i < u.length) (rest : List UInt8) :
    ¬CodeAt (u ++ rest) i := by
  rintro ⟨h0, h1, h2⟩
  have hlast := h.byteAt_last
  -- The last byte is not one of the two zeros.
  have hinside : i + 2 < u.length := by
    by_contra hge
    rcases (by omega : i = u.length - 1 ∨ i + 1 = u.length - 1) with heq | heq
    · rw [byteAt_append_left hi, heq] at h0
      exact hlast h0
    · rw [byteAt_append_left (by omega), heq] at h1
      exact hlast h1
  rw [byteAt_append_left (by omega), byteAt, List.getD_eq_getElem _ _ (by omega)] at h0 h1 h2
  apply h.code
  refine ⟨u.take i, u.drop (i + 3), ?_⟩
  have hdrop : u.drop i = [0, 0, 1] ++ u.drop (i + 3) := by
    rw [List.drop_eq_getElem_cons hi, List.drop_eq_getElem_cons (by omega),
      List.drop_eq_getElem_cons hinside, h0, h1, h2]
    rfl
  rw [List.append_assoc, ← hdrop, List.take_append_drop]

/-- The start codes are before the first NAL unit, and where they are in the rest. -/
theorem codeAt_annexB_cons (hu : Escaped u) (j : Nat) :
    CodeAt (annexB (u :: units)) j ↔
      j = 1 ∨ ∃ i, j = 4 + u.length + i ∧ CodeAt (annexB units) i := by
  rw [annexB_cons]
  constructor
  · intro h
    rcases Nat.lt_or_ge j 4 with hlt | hge
    · left
      have hone : byteAt ([0, 0, 0, 1] ++ (u ++ annexB units)) 3 = 1 := rfl
      have hzero : byteAt ([0, 0, 0, 1] ++ (u ++ annexB units)) 2 = 0 := rfl
      obtain rfl | rfl | rfl | rfl : j = 0 ∨ j = 1 ∨ j = 2 ∨ j = 3 := by omega
      · exact absurd (hzero.symm.trans h.2.2) (by decide)
      · rfl
      · exact absurd (hone.symm.trans h.2.1) (by decide)
      · exact absurd (hone.symm.trans h.1) (by decide)
    · right
      obtain ⟨m, rfl⟩ := Nat.exists_eq_add_of_le hge
      have hrest := (codeAt_append [0, 0, 0, 1] (u ++ annexB units) m).1 h
      rcases Nat.lt_or_ge m u.length with hlt | hge'
      · exact absurd hrest (hu.not_codeAt hlt _)
      · obtain ⟨i, rfl⟩ := Nat.exists_eq_add_of_le hge'
        exact ⟨i, by omega, (codeAt_append u (annexB units) i).1 hrest⟩
  · rintro (rfl | ⟨i, rfl, h⟩)
    · exact ⟨rfl, rfl, rfl⟩
    · rw [Nat.add_assoc]
      apply (codeAt_append [0, 0, 0, 1] (u ++ annexB units) _).2
      exact (codeAt_append u (annexB units) i).2 h

/-! ## The host -/

/-- A start code of the Annex B form and the byte after it. -/
theorem counted_annexB_iff (hunits : ∀ u ∈ units, Escaped u) (t : UInt8) :
    (∃ j, Counted (annexB units) t j) ↔ ∃ u ∈ units, nalType u = t := by
  induction units with
  | nil =>
      constructor
      · rintro ⟨j, h⟩
        exact absurd h.lt (Nat.not_lt_zero _)
      · rintro ⟨u, hu, -⟩
        cases hu
  | cons u units ih =>
      obtain ⟨hu, hrest⟩ := List.forall_mem_cons.1 hunits
      have hpos := List.length_pos_iff.2 hu.ne_nil
      have hlength : (annexB (u :: units)).length = 4 + (u.length + (annexB units).length) := by
        rw [annexB_cons, List.length_append, List.length_append]
        rfl
      have hfirst : byteAt (annexB (u :: units)) 4 = byteAt u 0 := by
        rw [annexB_cons]
        exact (byteAt_append_right [0, 0, 0, 1] _ 0).trans (byteAt_append_left hpos)
      have hbyte (i : Nat) : byteAt (annexB (u :: units)) (4 + u.length + i) =
          byteAt (annexB units) i := by
        rw [annexB_cons, Nat.add_assoc]
        exact (byteAt_append_right [0, 0, 0, 1] _ _).trans (byteAt_append_right u _ i)
      rw [List.exists_mem_cons_iff, ← ih hrest]
      constructor
      · rintro ⟨j, hcode, hlt, htype⟩
        rcases (codeAt_annexB_cons hu j).1 hcode with rfl | ⟨i, rfl, hi⟩
        · left
          rw [nalType, ← hfirst]
          exact htype
        · right
          rw [Nat.add_assoc _ i 3, hbyte] at htype
          exact ⟨i, hi, by omega, htype⟩
      · rintro (htype | ⟨i, hcode, hlt, htype⟩)
        · refine ⟨1, (codeAt_annexB_cons hu 1).2 (.inl rfl), by omega, ?_⟩
          rw [nalType, ← hfirst] at htype
          exact htype
        · refine ⟨4 + u.length + i, (codeAt_annexB_cons hu _).2 (.inr ⟨i, rfl, hcode⟩),
            by omega, ?_⟩
          rw [Nat.add_assoc _ i 3, hbyte]
          exact htype

/-! ## The client -/

theorem length_annexB_cons (u : List UInt8) (units : List (List UInt8)) :
    (annexB (u :: units)).length = 4 + (u.length + (annexB units).length) := by
  rw [annexB_cons, List.length_append, List.length_append]
  rfl

/-- The Annex B form does not begin with a start code of three bytes. -/
theorem not_codeAt_zero (hunits : ∀ u ∈ units, Escaped u) : ¬CodeAt (annexB units) 0 := by
  intro h
  cases units with
  | nil => exact absurd h.lt (Nat.not_lt_zero _)
  | cons u units =>
      rcases (codeAt_annexB_cons (hunits u List.mem_cons_self) 0).1 h with h | ⟨i, h, -⟩ <;> omega

/-- There is no start code before the end of the first NAL unit. -/
theorem startCodeLength_annexB (hunits : ∀ v ∈ u :: units, Escaped v) (hi : 4 ≤ i)
    (hlt : i < 4 + u.length) : startCodeLength (annexB (u :: units)) i = 0 := by
  obtain ⟨hu, hrest⟩ := List.forall_mem_cons.1 hunits
  rcases startCodeLength_cases (annexB (u :: units)) i with
    ⟨hcode, -⟩ | ⟨⟨-, hcode⟩, -⟩ | ⟨-, h0⟩
  · rcases (codeAt_annexB_cons hu i).1 hcode with h | ⟨j, h, -⟩ <;> omega
  · rcases (codeAt_annexB_cons hu (i + 1)).1 hcode with h | ⟨j, h, hcode⟩
    · omega
    · obtain rfl : j = 0 := by omega
      exact absurd hcode (not_codeAt_zero hrest)
  · exact h0

theorem startCodeLength_annexB_zero (u : List UInt8) (units : List (List UInt8)) :
    startCodeLength (annexB (u :: units)) 0 = 4 := by
  rw [annexB_cons]
  rfl

theorem nalEnd_le_length (p : List UInt8) (nalStart : Nat) : nalEnd p nalStart ≤ p.length := by
  simp only [nalEnd]
  split <;> omega

/-- The first NAL unit ends where the rest begins. -/
theorem nalEnd_annexB (hunits : ∀ v ∈ u :: units, Escaped v) (before : List UInt8) :
    nalEnd (before ++ annexB (u :: units)) (before.length + 4) =
      before.length + 4 + u.length := by
  have hlength : (before ++ annexB (u :: units)).length =
      before.length + (4 + (u.length + (annexB units).length)) := by
    rw [List.length_append, length_annexB_cons]
  apply le_antisymm
  · cases units with
    | nil =>
        apply (nalEnd_le_length _ _).trans
        rw [hlength]
        simp [annexB, Nat.add_assoc]
    | cons v units =>
        rw [length_annexB_cons] at hlength
        have hpos := List.length_pos_iff.2 (hunits v (by simp)).ne_nil
        apply nalEnd_le (by omega) (by omega)
        have hsplit : before ++ annexB (u :: v :: units) =
            (before ++ ([0, 0, 0, 1] ++ u)) ++ annexB (v :: units) := by
          rw [annexB_cons u]
          simp
        have hbefore : before.length + 4 + u.length =
            (before ++ ([0, 0, 0, 1] ++ u)).length + 0 := by
          rw [List.length_append, List.length_append]
          exact Nat.add_assoc _ _ _
        rw [hsplit, hbefore, startCodeLength_append, startCodeLength_annexB_zero]
        decide
  · by_contra hlt
    have hle := le_nextStartCode (before ++ annexB (u :: units)) (before.length + 4)
    have hspec := (nextStartCode_spec (before ++ annexB (u :: units)) (before.length + 4)).2
    simp only [nalEnd] at hlt
    split at hlt
    · next hinside =>
      obtain ⟨i, hi⟩ := Nat.exists_eq_add_of_le ((Nat.le_add_right _ 4).trans hle)
      apply hspec hinside
      rw [hi, startCodeLength_append, startCodeLength_annexB hunits (by omega) (by omega)]
    · omega

/-- The loop of `findNalUnit` goes from one NAL unit to the next. -/
theorem findNalUnitFrom_annexB (hunits : ∀ u ∈ units, Escaped u) (before : List UInt8)
    (t : UInt8) : findNalUnitFrom (before ++ annexB units) t.toNat before.length =
      (units.find? fun u ↦ nalType u = t).map fun u ↦ [0, 0, 0, 1] ++ u := by
  induction units generalizing before with
  | nil =>
      rw [findNalUnitFrom, dif_neg]
      · rfl
      · rw [annexB, List.flatMap_nil, List.append_nil]
        omega
  | cons u units ih =>
      obtain ⟨hu, hrest⟩ := List.forall_mem_cons.1 hunits
      have hpos := List.length_pos_iff.2 hu.ne_nil
      have hlength : (before ++ annexB (u :: units)).length =
          before.length + (4 + (u.length + (annexB units).length)) := by
        rw [List.length_append, length_annexB_cons]
      have hcode : startCodeLength (before ++ annexB (u :: units)) before.length = 4 := by
        rw [← startCodeLength_annexB_zero u units]
        exact startCodeLength_append before _ 0
      have hsplit : before ++ annexB (u :: units) =
          (before ++ ([0, 0, 0, 1] ++ u)) ++ annexB units := by
        rw [annexB_cons]
        simp
      have htype : byteAt (before ++ annexB (u :: units)) (before.length + 4) = byteAt u 0 := by
        rw [byteAt_append_right, annexB_cons]
        exact (byteAt_append_right [0, 0, 0, 1] _ 0).trans (byteAt_append_left hpos)
      have hdrop : ((before ++ annexB (u :: units)).drop (before.length + 4)).take u.length =
          u := by
        rw [annexB_cons, ← List.append_assoc, List.drop_left' (by simp), List.take_left]
      rw [findNalUnitFrom, dif_pos (by omega), dif_neg (by omega)]
      simp only [hcode, nalEnd_annexB hunits before, htype, Nat.add_sub_cancel_left, hdrop,
        UInt8.toNat_inj]
      by_cases ht : nalType u = t
      · rw [if_pos ⟨by omega, ht⟩, List.find?, decide_eq_true ht]
        rfl
      · rw [if_neg fun h ↦ ht h.2, List.find?, decide_eq_false ht]
        have hnext := ih hrest (before ++ ([0, 0, 0, 1] ++ u))
        rw [← hsplit] at hnext
        rw [← hnext]
        congr 1
        rw [List.length_append, List.length_append]
        exact Nat.add_assoc _ _ _

/-- **NAL units survive the conversion and the extraction.**  The client finds the first NAL
unit of each type as the encoder wrote it, and host and client agree on which types there
are. -/
theorem nalUnits_extracted (hne : units ≠ [])
    (hunits : ∀ u ∈ units, Escaped u ∧ u.length < 2 ^ 32) :
    ∃ out, convertLengthPrefixed (lengthPrefixed units) = some out ∧ ∀ t : UInt8,
      findNalUnit out t.toNat =
        ((units.find? fun u ↦ nalType u = t).map fun u ↦ [0, 0, 0, 1] ++ u) ∧
      (findNalUnit out t.toNat = none ↔ ¬∃ u ∈ units, nalType u = t) ∧
      (containsNalType out t = true ↔ ∃ u ∈ units, nalType u = t) := by
  have hescaped : ∀ u ∈ units, Escaped u := fun u hu ↦ (hunits u hu).1
  refine ⟨annexB units, ?_, fun t ↦ ?_⟩
  · apply convertLengthPrefixed_eq hne
    intro u hu
    exact ⟨(hescaped u hu).ne_nil, (hunits u hu).2⟩
  · have hfind : findNalUnit (annexB units) t.toNat =
        (units.find? fun u ↦ nalType u = t).map fun u ↦ [0, 0, 0, 1] ++ u :=
      findNalUnitFrom_annexB hescaped [] t
    refine ⟨hfind, ?_, ?_⟩
    · rw [hfind, Option.map_eq_none_iff, List.find?_eq_none]
      simp
    · rw [containsNalType_iff, counted_annexB_iff hescaped]

theorem nalUnits_extracted_sps_idr : ∃ out,
    convertLengthPrefixed (lengthPrefixed [[0x67, 0x42], [0x65]]) = some out ∧ ∀ t : UInt8,
      findNalUnit out t.toNat =
        (([[0x67, 0x42], [0x65]].find? fun u ↦ nalType u = t).map fun u ↦ [0, 0, 0, 1] ++ u) ∧
      (findNalUnit out t.toNat = none ↔ ¬∃ u ∈ [[0x67, 0x42], [0x65]], nalType u = t) ∧
      (containsNalType out t = true ↔ ∃ u ∈ [[0x67, 0x42], [0x65]], nalType u = t) := by
  apply nalUnits_extracted (List.cons_ne_nil _ _)
  intro u hu
  rcases List.mem_cons.1 hu with rfl | hu
  · exact ⟨⟨by decide, by decide, by decide, by decide⟩, by decide⟩
  · obtain rfl := List.mem_singleton.1 hu
    exact ⟨⟨by decide, by decide, by decide, by decide⟩, by decide⟩

end SecondScreen.Wire
