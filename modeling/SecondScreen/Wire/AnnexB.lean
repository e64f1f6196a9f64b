import SecondScreen.Wire.Transmission

/-!
# Length prefixes and start codes

`SendAnnexB` takes an access unit for Annex B if it begins with a start code, and
converts it otherwise.  The conversion is right for every list of NAL units
(`convertLengthPrefixed_eq`), but a length prefix may begin like a start code
(`SpellsStartCode`); the access unit then goes out as it is.
-/

namespace SecondScreen.Wire

open SecondScreen.Conc SecondScreen.Machine

/-! ## The two forms -/

/-- NAL units, each preceded by its length. -/
def lengthPrefixed (units : List (List UInt8)) : List UInt8 :=
  units.flatMap fun u ↦ beBytes 4 u.length ++ u

/-- NAL units, each preceded by a start code. -/
def annexB (units : List (List UInt8)) : List UInt8 :=
  units.flatMap fun u ↦ [0, 0, 0, 1] ++ u

/-- A NAL unit that `ConvertLengthPrefixed` takes. -/
def IsNal (u : List UInt8) : Prop := u ≠ [] ∧ u.length < 2 ^ 32

instance : DecidablePred IsNal := fun _ ↦ inferInstanceAs (Decidable (_ ∧ _))

variable {units : List (List UInt8)} {u : List UInt8} {n : Nat}

theorem lengthPrefixed_cons (u : List UInt8) (units : List (List UInt8)) :
    lengthPrefixed (u :: units) = beBytes 4 u.length ++ (u ++ lengthPrefixed units) := by
  simp [lengthPrefixed]

theorem annexB_cons (u : List UInt8) (units : List (List UInt8)) :
    annexB (u :: units) = [0, 0, 0, 1] ++ (u ++ annexB units) := by
  simp [annexB]

/-- Both forms have the same length. -/
theorem length_lengthPrefixed (units : List (List UInt8)) :
    (lengthPrefixed units).length = (annexB units).length := by
  induction units with
  | nil => rfl
  | cons u units ih =>
      rw [lengthPrefixed_cons, annexB_cons]
      simp only [List.length_append, length_beBytes, ih]
      rfl

theorem annexB_ne_nil (h : units ≠ []) : annexB units ≠ [] := by
  obtain ⟨u, units, rfl⟩ := List.exists_cons_of_ne_nil h
  rw [annexB_cons]
  exact List.cons_ne_nil _ _

/-! ## The conversion -/

/-- `readLength` at a length prefix. -/
theorem readLength_prefix {payload before after : List UInt8}
    (hpayload : payload = before ++ (beBytes 4 n ++ after)) :
    readLength payload before.length 4 = some (UInt32.ofNat n) := by
  have hlength : ¬before.length + 4 > payload.length := by
    rw [hpayload, List.length_append, List.length_append, length_beBytes]
    omega
  have htake : (payload.drop before.length).take 4 = beBytes 4 n := by
    rw [hpayload, List.drop_left, List.take_left' (length_beBytes 4 n)]
  rw [readLength, if_neg hlength, htake]
  congr 1
  apply UInt32.toNat_inj.1
  rw [toNat_foldl_or, ofBe_beBytes, UInt32.toNat_ofNat']
  simp

/-- The loop converts all NAL units that are left. -/
theorem convertNals_eq (hunits : ∀ u ∈ units, IsNal u) {payload before output : List UInt8}
    (hpayload : payload = before ++ lengthPrefixed units) (hne : output ++ annexB units ≠ []) :
    convertNals payload 4 before.length output = some (output ++ annexB units) := by
  induction units generalizing before output with
  | nil =>
      have hend : before.length = payload.length := by
        rw [hpayload]
        simp [lengthPrefixed]
      rw [annexB, List.flatMap_nil, List.append_nil] at hne ⊢
      rw [convertNals, if_neg hend.not_lt, if_pos ⟨hend, hne⟩]
  | cons u units ih =>
      obtain ⟨hu, hlt⟩ := hunits u List.mem_cons_self
      have hpos := List.length_pos_iff.2 hu
      rw [lengthPrefixed_cons] at hpayload
      have hlength : payload.length =
          before.length + 4 + u.length + (lengthPrefixed units).length := by
        rw [hpayload]
        simp only [List.length_append, length_beBytes]
        omega
      have htoNat : (UInt32.ofNat u.length).toNat = u.length := by
        rw [UInt32.toNat_ofNat', Nat.mod_eq_of_lt hlt]
      have hdrop : (payload.drop (before.length + 4)).take u.length = u := by
        rw [hpayload, ← List.append_assoc, List.drop_left' (by simp), List.take_left]
      rw [convertNals, if_pos (by omega), readLength_prefix hpayload]
      simp only [htoNat]
      rw [dif_neg (by omega), hdrop]
      have hrest := @ih (fun v hv ↦ hunits v (List.mem_cons_of_mem u hv))
        (before ++ (beBytes 4 u.length ++ u)) (output ++ [0, 0, 0, 1] ++ u)
        (by rw [hpayload]; simp) (by simp)
      rw [List.length_append, List.length_append, length_beBytes, ← Nat.add_assoc] at hrest
      rw [hrest, annexB_cons]
      simp

/-- **The conversion is right** for every list of NAL units. -/
theorem convertLengthPrefixed_eq (hne : units ≠ []) (hunits : ∀ u ∈ units, IsNal u) :
    convertLengthPrefixed (lengthPrefixed units) = some (annexB units) := by
  have hloop := @convertNals_eq units hunits (lengthPrefixed units) [] [] rfl (annexB_ne_nil hne)
  rw [convertLengthPrefixed]
  simp only [List.length_nil, List.nil_append] at hloop
  rw [hloop]
  rfl

/-! ## Which length prefixes look like a start code -/

/-- The length prefix of a NAL unit of `n` bytes begins with a start code. -/
def SpellsStartCode (n : Nat) : Prop := n = 1 ∨ 256 ≤ n ∧ n < 512

instance : DecidablePred SpellsStartCode := fun _ ↦ inferInstanceAs (Decidable (_ ∨ _))

theorem beBytes_four (n : Nat) : beBytes 4 n =
    [UInt8.ofNat (n >>> 24), UInt8.ofNat (n >>> 16), UInt8.ofNat (n >>> 8), UInt8.ofNat n] := rfl

theorem hasAnnexBStartCode_cons (b₀ b₁ b₂ b₃ : UInt8) (rest : List UInt8) :
    hasAnnexBStartCode (b₀ :: b₁ :: b₂ :: b₃ :: rest) = true ↔
      b₀ = 0 ∧ b₁ = 0 ∧ (b₂ = 1 ∨ b₂ = 0 ∧ b₃ = 1) := by
  unfold hasAnnexBStartCode
  split
  · next h =>
    simp only [List.cons.injEq] at h
    simp [h]
  · next h =>
    simp only [List.cons.injEq] at h
    simp [h]
  · next h3 h4 =>
    refine ⟨fun h ↦ absurd h Bool.false_ne_true, ?_⟩
    rintro ⟨rfl, rfl, rfl | ⟨rfl, rfl⟩⟩
    · exact absurd rfl (h3 _)
    · exact absurd rfl (h4 _)

/-- Which length prefixes begin with a start code. -/
theorem hasAnnexBStartCode_prefix (hn : n < 2 ^ 32) (rest : List UInt8) :
    hasAnnexBStartCode (beBytes 4 n ++ rest) = true ↔ SpellsStartCode n := by
  have hbyte (m k : Nat) (hk : k < 256) : UInt8.ofNat m = UInt8.ofNat k ↔ m % 256 = k := by
    rw [← UInt8.toNat_inj, UInt8.toNat_ofNat', UInt8.toNat_ofNat']
    show m % 256 = k % 256 ↔ _
    rw [Nat.mod_eq_of_lt hk]
  have hzero (m : Nat) : UInt8.ofNat m = 0 ↔ m % 256 = 0 := hbyte m 0 (by decide)
  have hone (m : Nat) : UInt8.ofNat m = 1 ↔ m % 256 = 1 := hbyte m 1 (by decide)
  rw [beBytes_four, List.cons_append, List.cons_append, List.cons_append, List.cons_append,
    hasAnnexBStartCode_cons]
  simp only [hzero, hone, Nat.shiftRight_eq_div_pow, SpellsStartCode]
  omega

/-- A start code of four bytes is the length prefix of a NAL unit of one byte. -/
theorem beBytes_eq_startCode (hn : n < 2 ^ 32) : beBytes 4 n = [0, 0, 0, 1] ↔ n = 1 := by
  constructor
  · intro h
    have hread := ofBe_beBytes 4 n
    rw [h, Nat.mod_eq_of_lt (show n < 256 ^ 4 from hn)] at hread
    exact hread.symm
  · rintro rfl
    rfl

/-- The two forms are the same if all NAL units have one byte. -/
theorem lengthPrefixed_eq_annexB (hunits : ∀ u ∈ units, IsNal u) :
    lengthPrefixed units = annexB units ↔ ∀ u ∈ units, u.length = 1 := by
  induction units with
  | nil => simp [lengthPrefixed, annexB]
  | cons u units ih =>
      obtain ⟨⟨-, hlt⟩, hrest⟩ := List.forall_mem_cons.1 hunits
      rw [lengthPrefixed_cons, annexB_cons, List.forall_mem_cons, ← ih hrest,
        ← beBytes_eq_startCode hlt]
      constructor
      · intro h
        obtain ⟨hpre, htail⟩ := List.append_inj h (length_beBytes 4 _)
        exact ⟨hpre, List.append_cancel_left htail⟩
      · rintro ⟨hpre, htail⟩
        rw [hpre, htail]

/-! ## What is transmitted -/

/-- `SendAnnexB` transmits the NAL units in Annex B form. -/
def Converts (frameId timestampUs : UInt64) (units : List (List UInt8)) : Prop :=
  transmit (sendAnnexB true frameId timestampUs (lengthPrefixed units)) =
    (.ok (), packetBytes (UInt32.ofNat (annexB units).length) frameId timestampUs (annexB units))

/-- The first length prefix begins with a start code. -/
def FirstSpellsStartCode (units : List (List UInt8)) : Prop :=
  ∃ u ∈ units.head?, SpellsStartCode u.length

instance (units : List (List UInt8)) : Decidable (FirstSpellsStartCode units) :=
  inferInstanceAs (Decidable (∃ u ∈ units.head?, _))

theorem hasAnnexBStartCode_lengthPrefixed (hne : units ≠ []) (hunits : ∀ u ∈ units, IsNal u) :
    hasAnnexBStartCode (lengthPrefixed units) = true ↔ FirstSpellsStartCode units := by
  obtain ⟨u, units, rfl⟩ := List.exists_cons_of_ne_nil hne
  have hlt := (hunits u List.mem_cons_self).2
  rw [lengthPrefixed_cons, hasAnnexBStartCode_prefix hlt]
  simp [FirstSpellsStartCode]

/-- An access unit that begins with a start code goes out as it is. -/
theorem transmit_startCode {payload : List UInt8} (h : hasAnnexBStartCode payload = true)
    (frameId timestampUs : UInt64) : transmit (sendAnnexB true frameId timestampUs payload) =
      transmit (sendAccessUnit true frameId timestampUs payload) := by
  rw [sendAnnexB, if_pos h]

/-- Any other list of NAL units is converted. -/
theorem transmit_lengthPrefixed (hne : units ≠ []) (hunits : ∀ u ∈ units, IsNal u)
    (h : ¬FirstSpellsStartCode units) (frameId timestampUs : UInt64) :
    transmit (sendAnnexB true frameId timestampUs (lengthPrefixed units)) =
      transmit (sendAccessUnit true frameId timestampUs (annexB units)) := by
  rw [← hasAnnexBStartCode_lengthPrefixed hne hunits] at h
  rw [sendAnnexB, if_neg h, convertLengthPrefixed_eq hne hunits]

/-- A list of NAL units that is taken for Annex B. -/
theorem converts_of_spells (hne : units ≠ []) (hunits : ∀ u ∈ units, IsNal u)
    (hfit : (annexB units).length ≤ maxUint32) (h : FirstSpellsStartCode units)
    (frameId timestampUs : UInt64) :
    Converts frameId timestampUs units ↔ ∀ u ∈ units, u.length = 1 := by
  have hlength := length_lengthPrefixed units
  have hstart := (hasAnnexBStartCode_lengthPrefixed hne hunits).2 h
  rw [Converts, transmit_startCode hstart, transmit_sendAccessUnit (hlength ▸ hfit), hlength,
    ← lengthPrefixed_eq_annexB hunits]
  simp [packetBytes]

/-- **Length-prefixed NAL units go out in Annex B form** exactly when they fit into a
packet and the first length prefix does not begin with a start code, or every
prefix is one. -/
theorem converts_iff (hne : units ≠ []) (hunits : ∀ u ∈ units, IsNal u)
    (frameId timestampUs : UInt64) :
    Converts frameId timestampUs units ↔ (annexB units).length ≤ maxUint32 ∧
      (¬FirstSpellsStartCode units ∨ ∀ u ∈ units, u.length = 1) := by
  by_cases hfit : (annexB units).length ≤ maxUint32
  · by_cases hspells : FirstSpellsStartCode units
    · rw [converts_of_spells hne hunits hfit hspells]
      simp [hfit, hspells]
    · rw [Converts, transmit_lengthPrefixed hne hunits hspells, transmit_sendAccessUnit hfit]
      simp [hfit, hspells]
  · have hlong := not_le.1 hfit
    refine ⟨fun h ↦ ?_, fun h ↦ absurd h.1 hfit⟩
    have hresult : (transmit (sendAnnexB true frameId timestampUs (lengthPrefixed units))).1 =
        .error "encoded access unit exceeds uint32 packet length" := by
      by_cases hspells : FirstSpellsStartCode units
      · have hstart := (hasAnnexBStartCode_lengthPrefixed hne hunits).2 hspells
        have hlong' : maxUint32 < (lengthPrefixed units).length := by
          rwa [length_lengthPrefixed]
        rw [transmit_startCode hstart, transmit_sendAccessUnit_long hlong']
      · rw [transmit_lengthPrefixed hne hunits hspells, transmit_sendAccessUnit_long hlong]
    rw [Converts] at h
    rw [h] at hresult
    cases hresult

theorem converts_iff_two_units : Converts 1 2 [[0x67, 0x42], [0x65]] :=
  (converts_iff (by decide) (by decide) 1 2).2 (by decide)

/-- A first NAL unit of 256 bytes. -/
theorem prefix_taken_for_startCode : ¬∀ units : List (List UInt8), units ≠ [] →
    (∀ u ∈ units, IsNal u) → Converts 1 2 units := by
  intro hall
  obtain ⟨u, hu⟩ : ∃ u : List UInt8, u.length = 256 :=
    ⟨List.replicate 256 0x65, List.length_replicate⟩
  have hunits : ∀ v ∈ [u], IsNal v := by
    rintro v hv
    rw [List.mem_singleton.1 hv]
    refine ⟨?_, by omega⟩
    rintro rfl
    cases hu
  have hfit : (annexB [u]).length ≤ maxUint32 := by
    have hlength : (annexB [u]).length = 260 := by simp [annexB, hu]
    rw [hlength]
    decide
  have hspells : FirstSpellsStartCode [u] := ⟨u, rfl, .inr (by omega)⟩
  have hone := (converts_of_spells (List.cons_ne_nil _ _) hunits hfit hspells 1 2).1
    (hall [u] (List.cons_ne_nil _ _) hunits) u List.mem_cons_self
  omega

end SecondScreen.Wire
