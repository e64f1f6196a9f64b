import SecondScreen.Client.VideoDecoder
import SecondScreen.Wire.PacketWriter

/-!
# NAL units as the host and the client see them

`ContainsNalType` tries every index, `findNalUnit` goes from one start code to the
next.  Both are brought to the same form: some byte follows a start code and has
the type asked for.  The host counts every such byte (`Counted`); the client
passes over one that is the last byte of the access unit, if the start code has
three bytes, and over one that begins the next start code (`Visited`).
-/

namespace SecondScreen.Wire

open SecondScreen.Client

/-- The three bytes that every start code ends with. -/
def CodeAt (p : List UInt8) (j : Nat) : Prop :=
  byteAt p j = 0 ∧ byteAt p (j + 1) = 0 ∧ byteAt p (j + 2) = 1

/-- A start code at `j` is followed by a byte of type `t`. -/
structure Counted (p : List UInt8) (t : UInt8) (j : Nat) : Prop where
  code : CodeAt p j
  lt : j + 3 < p.length
  type : byteAt p (j + 3) &&& 0x1f = t

/-- The byte after the start code at `j` does not begin the next start code. -/
def Nonempty (p : List UInt8) (j : Nat) : Prop :=
  ¬(j + 6 < p.length ∧ startCodeLength p (j + 3) ≠ 0)

/-- The byte after the start code at `j` is not the last one, or the start code
has four bytes; and it does not begin the next start code. -/
def Visited (p : List UInt8) (j : Nat) : Prop :=
  (j + 4 < p.length ∨ 0 < j ∧ byteAt p (j - 1) = 0) ∧ Nonempty p j

variable {p : List UInt8} {t : UInt8} {i j start : Nat}

/-! ## Start codes -/

theorem byteAt_of_le (h : p.length ≤ i) : byteAt p i = 0 := by
  rw [byteAt, List.getD_eq_getElem?_getD, List.getElem?_eq_none h, Option.getD_none]

/-- A start code lies within the bytes. -/
theorem CodeAt.lt (h : CodeAt p j) : j + 2 < p.length := by
  by_contra hge
  have h1 := h.2.2
  rw [byteAt_of_le (by omega)] at h1
  exact absurd h1 (by decide)

/-- Start codes do not overlap. -/
theorem CodeAt.apart (hi : CodeAt p i) (hj : CodeAt p j) (h : i < j) : i + 3 ≤ j := by
  by_contra hlt
  obtain rfl | rfl : j = i + 1 ∨ j = i + 2 := by omega
  · exact absurd (hi.2.2.symm.trans hj.2.1) (by decide)
  · exact absurd (hi.2.2.symm.trans hj.1) (by decide)

/-- What a start code at an index is: one of three bytes there, or one of four,
which is one of three at the next index. -/
theorem startCodeLength_cases (p : List UInt8) (i : Nat) :
    CodeAt p i ∧ startCodeLength p i = 3 ∨
      (byteAt p i = 0 ∧ CodeAt p (i + 1)) ∧ startCodeLength p i = 4 ∨
        (¬CodeAt p i ∧ ¬(byteAt p i = 0 ∧ CodeAt p (i + 1))) ∧
          startCodeLength p i = 0 := by
  unfold startCodeLength
  simp only
  split_ifs with h3 h4
  · exact .inl ⟨h3, rfl⟩
  · exact .inr (.inl ⟨⟨h4.1, h4.2.1, h4.2.2.1, h4.2.2.2⟩, rfl⟩)
  · exact .inr (.inr ⟨⟨h3, fun h ↦ h4 ⟨h.1, h.2.1, h.2.2.1, h.2.2.2⟩⟩, rfl⟩)

/-- Host and client see the same start codes, as long as there is a byte
after them. -/
theorem startCodeLength_eq (h : i + 3 < p.length) :
    startCodeLengthAt p i = startCodeLength p i := by
  have h4 : i + 4 ≤ p.length := h
  simp [startCodeLengthAt, startCodeLength, byteAt, h4]

/-! ## The host -/

/-- What the host tests at an index. -/
theorem counted_at (h : i + 3 < p.length) :
    (startCodeLengthAt p i ≠ 0 ∧ i + startCodeLengthAt p i < p.length ∧
      p.getD (i + startCodeLengthAt p i) 0 &&& 0x1f = t) ↔
        Counted p t i ∨ byteAt p i = 0 ∧ Counted p t (i + 1) := by
  rw [startCodeLength_eq h]
  rcases startCodeLength_cases p i with ⟨hcode, h3⟩ | ⟨hcode, h4⟩ | ⟨hnone, h0⟩
  · rw [h3]
    constructor
    · exact fun hfound ↦ .inl ⟨hcode, h, hfound.2.2⟩
    · rintro (hcounted | ⟨-, hcounted⟩)
      · exact ⟨three_ne_zero, h, hcounted.type⟩
      · exact absurd (hcode.apart hcounted.code (Nat.lt_succ_self i)) (by omega)
  · rw [h4]
    constructor
    · exact fun hfound ↦ .inr ⟨hcode.1, hcode.2, hfound.2.1, hfound.2.2⟩
    · rintro (hcounted | ⟨-, hcounted⟩)
      · exact absurd (hcounted.code.apart hcode.2 (Nat.lt_succ_self i)) (by omega)
      · exact ⟨four_ne_zero, hcounted.lt, hcounted.type⟩
  · rw [h0]
    constructor
    · exact fun hfound ↦ absurd rfl hfound.1
    · rintro (hcounted | ⟨hzero, hcounted⟩)
      · exact absurd hcounted.code hnone.1
      · exact absurd ⟨hzero, hcounted.code⟩ hnone.2

theorem containsNalTypeFrom_iff (p : List UInt8) (t : UInt8) (index : Nat) :
    containsNalTypeFrom p t index = true ↔ ∃ j, index ≤ j ∧ Counted p t j := by
  induction index using containsNalTypeFrom.induct p t with
  | case1 index hlt hfound =>
      rw [containsNalTypeFrom, if_pos hlt, if_pos hfound]
      refine ⟨fun _ ↦ ?_, fun _ ↦ rfl⟩
      rcases (counted_at hlt).1 hfound with hcounted | ⟨-, hcounted⟩
      · exact ⟨index, le_rfl, hcounted⟩
      · exact ⟨index + 1, Nat.le_succ index, hcounted⟩
  | case2 index hlt hnot ih =>
      rw [containsNalTypeFrom, if_pos hlt, if_neg hnot, ih]
      constructor
      · rintro ⟨j, hj, hcounted⟩
        exact ⟨j, Nat.le_of_succ_le hj, hcounted⟩
      · rintro ⟨j, hj, hcounted⟩
        have hne : index ≠ j := fun heq ↦ hnot ((counted_at hlt).2 (.inl (heq ▸ hcounted)))
        exact ⟨j, by omega, hcounted⟩
  | case3 index hge =>
      rw [containsNalTypeFrom, if_neg hge]
      constructor
      · exact fun h ↦ absurd h Bool.false_ne_true
      · rintro ⟨j, hj, hcounted⟩
        have hlt := hcounted.lt
        omega

/-- The host counts every byte after a start code. -/
theorem containsNalType_iff (p : List UInt8) (t : UInt8) :
    containsNalType p t = true ↔ ∃ j, Counted p t j := by
  rw [containsNalType, containsNalTypeFrom_iff]
  simp

/-! ## The client -/

/-- Where the inner loop stops: there is no start code before, and one there unless
the end is near. -/
theorem nextStartCode_spec (p : List UInt8) (next : Nat) :
    (∀ i, next ≤ i → i < nextStartCode p next → startCodeLength p i = 0) ∧
      (nextStartCode p next + 3 < p.length →
        startCodeLength p (nextStartCode p next) ≠ 0) := by
  induction next using nextStartCode.induct p with
  | case1 next h ih =>
      rw [nextStartCode, if_pos h]
      refine ⟨fun i hi hlt ↦ ?_, ih.2⟩
      rcases Nat.eq_or_lt_of_le hi with rfl | hlt'
      · exact h.2
      · exact ih.1 i hlt' hlt
  | case2 next h =>
      rw [nextStartCode, if_neg h]
      exact ⟨fun i hi hlt ↦ absurd hi (not_le.2 hlt), fun hlt hzero ↦ h ⟨hlt, hzero⟩⟩

/-- The NAL unit after a start code is empty if it begins the next one. -/
theorem nonempty_iff (h : j + 3 < p.length) : Nonempty p j ↔ j + 3 < nalEnd p (j + 3) := by
  have hle := le_nextStartCode p (j + 3)
  have hspec := nextStartCode_spec p (j + 3)
  rw [nalEnd]
  simp only [Nonempty]
  split
  · next hlt =>
    constructor
    · intro hnonempty
      by_contra hge
      have heq : nextStartCode p (j + 3) = j + 3 := by omega
      rw [heq] at hlt hspec
      exact hnonempty ⟨by omega, hspec.2 hlt⟩
    · rintro hlt' ⟨-, hcode⟩
      exact hcode (hspec.1 (j + 3) le_rfl hlt')
  · next hge =>
    refine ⟨fun _ ↦ h, fun _ ⟨hlt, hcode⟩ ↦ ?_⟩
    have heq : nextStartCode p (j + 3) = j + 3 := by
      rw [nextStartCode, if_neg fun h ↦ hcode h.2]
    omega

/-- The start code at `j` as the client reaches it from `start`. -/
def Reached (p : List UInt8) (start j : Nat) : Prop :=
  start ≤ j ∧ j + 4 < p.length ∨ start < j ∧ byteAt p (j - 1) = 0 ∧ j + 3 < p.length

theorem Reached.mono {start' : Nat} (h : Reached p start' j) (hle : start ≤ start') :
    Reached p start j :=
  h.imp (fun h ↦ ⟨hle.trans h.1, h.2⟩) fun h ↦ ⟨hle.trans_lt h.1, h.2⟩

/-- The start code of three bytes in a start code at an index. -/
theorem exists_code (h : startCodeLength p start ≠ 0) :
    ∃ j, CodeAt p j ∧ start + startCodeLength p start = j + 3 ∧
      (start = j ∨ start + 1 = j ∧ byteAt p start = 0) := by
  rcases startCodeLength_cases p start with ⟨hcode, h3⟩ | ⟨hcode, h4⟩ | ⟨-, h0⟩
  · exact ⟨start, hcode, by rw [h3], .inl rfl⟩
  · exact ⟨start + 1, hcode.2, by rw [h4], .inr ⟨rfl, hcode.1⟩⟩
  · exact absurd h0 h

theorem startCodeLength_of_code (h : CodeAt p j) : startCodeLength p j ≠ 0 := by
  rcases startCodeLength_cases p j with ⟨-, h3⟩ | ⟨-, h4⟩ | ⟨hnone, -⟩
  · rw [h3]
    decide
  · rw [h4]
    decide
  · exact absurd h hnone.1

theorem startCodeLength_of_zero (hzero : byteAt p i = 0) (h : CodeAt p (i + 1)) :
    startCodeLength p i ≠ 0 := by
  rcases startCodeLength_cases p i with ⟨-, h3⟩ | ⟨-, h4⟩ | ⟨hnone, -⟩
  · rw [h3]
    decide
  · rw [h4]
    decide
  · exact absurd ⟨hzero, h⟩ hnone.2

/-- A NAL unit ends no later than the next start code that a byte follows. -/
theorem nalEnd_le {nalStart : Nat} (hle : nalStart ≤ i) (hlt : i + 3 < p.length)
    (hcode : startCodeLength p i ≠ 0) : nalEnd p nalStart ≤ i := by
  have hnext : nextStartCode p nalStart ≤ i := by
    by_contra hgt
    exact hcode ((nextStartCode_spec p nalStart).1 i hle (not_le.1 hgt))
  simp only [nalEnd]
  split
  · exact hnext
  · omega

/-- After a NAL unit the client still reaches every later start code. -/
theorem Reached.after (h : Reached p start j) (hj : CodeAt p j) (hi : CodeAt p i)
    (hle : i + 3 ≤ j) : Reached p (nalEnd p (i + 3)) j := by
  rcases h with ⟨-, hlt⟩ | ⟨-, hzero, hlt⟩
  · exact .inl ⟨nalEnd_le hle (by omega) (startCodeLength_of_code hj), hlt⟩
  · -- the byte before is not the end of the start code at `i`
    have hne : i + 3 ≠ j := by
      rintro rfl
      exact absurd (hi.2.2.symm.trans hzero) (by decide)
    obtain ⟨k, rfl⟩ : ∃ k, j = k + 1 := ⟨j - 1, by omega⟩
    have hcode := startCodeLength_of_zero (i := k) hzero hj
    have hend : nalEnd p (i + 3) ≤ k := nalEnd_le (by omega) (by omega) hcode
    exact .inr ⟨Nat.lt_succ_of_le hend, hzero, hlt⟩

/-- What the client tests at a start code. -/
theorem counted_nonempty_iff (hi : CodeAt p i) (hlt : i + 3 < p.length) :
    i + 3 < nalEnd p (i + 3) ∧ (byteAt p (i + 3) &&& 0x1f).toNat = t.toNat ↔
      Counted p t i ∧ Nonempty p i := by
  rw [nonempty_iff hlt, UInt8.toNat_inj]
  exact ⟨fun h ↦ ⟨⟨hi, hlt, h.2⟩, h.1⟩, fun h ↦ ⟨h.2, h.1.type⟩⟩

theorem findNalUnitFrom_iff (p : List UInt8) (t : UInt8) (start : Nat) :
    (findNalUnitFrom p t.toNat start).isSome ↔
      ∃ j, Counted p t j ∧ Reached p start j ∧ Nonempty p j := by
  induction start using findNalUnitFrom.induct p t.toNat with
  | case1 start hlt hcode ih =>
      rw [findNalUnitFrom, dif_pos hlt, dif_pos hcode, ih]
      refine exists_congr fun j ↦ and_congr_right fun hcounted ↦ and_congr_left fun _ ↦ ?_
      refine ⟨fun h ↦ h.mono (Nat.le_succ start), ?_⟩
      rintro (⟨hle, hj⟩ | ⟨hlt', hzero, hj⟩)
      · have hne : start ≠ j := by
          rintro rfl
          exact startCodeLength_of_code hcounted.code hcode
        exact .inl ⟨by omega, hj⟩
      · have hne : start + 1 ≠ j := by
          rintro rfl
          exact startCodeLength_of_zero hzero hcounted.code hcode
        exact .inr ⟨by omega, hzero, hj⟩
  | case2 start hlt hcode nalStart nalEnd hfound =>
      rw [findNalUnitFrom, dif_pos hlt, dif_neg hcode, if_pos hfound]
      refine ⟨fun _ ↦ ?_, fun _ ↦ rfl⟩
      obtain ⟨i, hi, heq, hstart⟩ := exists_code hcode
      have hi3 : i + 3 < p.length := by omega
      have htest : i + 3 < Client.nalEnd p (i + 3) ∧
          (byteAt p (i + 3) &&& 0x1f).toNat = t.toNat := by
        rw [← heq]
        exact hfound
      obtain ⟨hcounted, hnonempty⟩ := (counted_nonempty_iff hi hi3).1 htest
      refine ⟨i, hcounted, ?_, hnonempty⟩
      rcases hstart with rfl | ⟨rfl, hzero⟩
      · exact .inl ⟨le_rfl, hlt⟩
      · exact .inr ⟨Nat.lt_succ_self start, hzero, hi3⟩
  | case3 start hlt hcode nalStart nalEnd hnot ih =>
      rw [findNalUnitFrom, dif_pos hlt, dif_neg hcode, if_neg hnot, ih]
      obtain ⟨i, hi, heq, hstart⟩ := exists_code hcode
      have hend : nalEnd = Client.nalEnd p (i + 3) := congrArg (Client.nalEnd p) heq
      refine exists_congr fun j ↦ and_congr_right fun hcounted ↦ and_congr_left fun hnonempty ↦ ?_
      refine ⟨fun h ↦ h.mono (lt_nalEnd hlt hcode).le, fun h ↦ ?_⟩
      rw [hend]
      apply h.after hcounted.code hi
      -- the start code at `i` was not the one
      have hne : i ≠ j := by
        rintro rfl
        have htest := (counted_nonempty_iff hi hcounted.lt).2 ⟨hcounted, hnonempty⟩
        rw [← heq] at htest
        exact hnot htest
      have hle : start ≤ j := h.elim (fun h ↦ h.1) fun h ↦ h.1.le
      rcases Nat.lt_or_gt_of_ne hne with hij | hij
      · exact hi.apart hcounted.code hij
      · have hapart := hcounted.code.apart hi hij
        omega
  | case4 start hge =>
      rw [findNalUnitFrom, dif_neg hge]
      refine ⟨fun h ↦ absurd h Bool.false_ne_true, ?_⟩
      rintro ⟨j, -, h | h, -⟩ <;> omega

/-- The client finds the bytes that it visits. -/
theorem findNalUnit_iff (p : List UInt8) (t : UInt8) :
    (findNalUnit p t.toNat).isSome ↔ ∃ j, Counted p t j ∧ Visited p j := by
  rw [findNalUnit, findNalUnitFrom_iff]
  refine exists_congr fun j ↦ and_congr_right fun hcounted ↦ ?_
  have hlt := hcounted.lt
  simp only [Reached, Visited, Nat.zero_le, true_and, hlt, and_true]

/-! ## The agreement -/

/-- **Host and client agree** on whether a NAL type occurs exactly when the client
visits some byte of that type, if the host counts any. -/
theorem nalType_agree_iff (p : List UInt8) (t : UInt8) :
    (containsNalType p t = true ↔ (findNalUnit p t.toNat).isSome) ↔
      ((∃ j, Counted p t j) → ∃ j, Counted p t j ∧ Visited p j) := by
  rw [containsNalType_iff, findNalUnit_iff]
  refine ⟨fun h ↦ h.1, fun h ↦ ⟨h, ?_⟩⟩
  rintro ⟨j, hcounted, -⟩
  exact ⟨j, hcounted⟩

/-- An IDR unit of a single byte after a start code of three bytes. -/
theorem idr_unnoticed : ¬∀ p : List UInt8,
    containsNalType p 5 = true ↔ (findNalUnit p (5 : UInt8).toNat).isSome := by
  intro hall
  have hhost := (containsNalType_iff [0, 0, 1, 0x65] 5).2 ⟨0, ⟨⟨rfl, rfl, rfl⟩, by decide, rfl⟩⟩
  have hclient := (hall _).1 hhost
  obtain ⟨j, hcounted, (h | h), -⟩ := (findNalUnit_iff _ _).1 hclient
  · have hlt : j + 4 < 4 := h
    omega
  · have hlt : j + 3 < 4 := hcounted.lt
    omega

end SecondScreen.Wire
