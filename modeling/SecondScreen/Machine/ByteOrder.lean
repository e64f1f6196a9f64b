import Mathlib.Tactic.Ring

/-!
# Numbers as bytes

Numbers as sequences of bytes, least significant byte first or last.  What
`leBytes` writes `ofLe` reads back, up to what does not fit, and likewise
`beBytes` and `ofBe`.
-/

namespace SecondScreen.Machine

/-- The low `n` bytes of a number, the least significant one first. -/
def leBytes (n v : Nat) : List UInt8 :=
  (List.range n).map fun i ↦ UInt8.ofNat (v >>> (i * 8))

/-- The number that a sequence of bytes stands for. -/
def ofLe : List UInt8 → Nat
  | [] => 0
  | b :: bs => b.toNat + 256 * ofLe bs

@[simp] theorem length_leBytes (n v : Nat) : (leBytes n v).length = n := by
  simp [leBytes]

theorem leBytes_succ (n v : Nat) :
    leBytes (n + 1) v = UInt8.ofNat v :: leBytes n (v >>> 8) := by
  have hshift (i : Nat) : v >>> ((i + 1) * 8) = v >>> 8 >>> (i * 8) := by
    rw [← Nat.shiftRight_add]
    congr 1
    ring
  simp only [leBytes, List.range_succ_eq_map, List.map_cons, List.map_map, Function.comp_def,
    Nat.zero_mul, Nat.shiftRight_zero, hshift]

/-- Reading back what was written. -/
theorem ofLe_leBytes (n v : Nat) : ofLe (leBytes n v) = v % 256 ^ n := by
  induction n generalizing v with
  | zero => simp [leBytes, ofLe, Nat.mod_one]
  | succ n ih =>
      have hbyte : (UInt8.ofNat v).toNat = v % 256 := UInt8.toNat_ofNat'
      have hpow : 256 ^ (n + 1) = 2 ^ 8 * 256 ^ n := by ring
      rw [leBytes_succ, ofLe, ih, hbyte, Nat.shiftRight_eq_div_pow, hpow, Nat.mod_mul]
      norm_num

/-- Reading back from the beginning of a sequence. -/
theorem ofLe_take (rest : List UInt8) {n v : Nat} (hv : v < 256 ^ n) :
    ofLe ((leBytes n v ++ rest).take n) = v := by
  rw [List.take_left' (length_leBytes n v), ofLe_leBytes, Nat.mod_eq_of_lt hv]

theorem ofLe_append (a b : List UInt8) : ofLe (a ++ b) = ofLe a + 256 ^ a.length * ofLe b := by
  induction a with
  | nil => simp [ofLe]
  | cons x a ih =>
      rw [List.cons_append, ofLe, ofLe, ih, List.length_cons]
      ring

/-! ## Big-endian numbers -/

/-- The low `n` bytes of a number, the most significant one first. -/
def beBytes (n v : Nat) : List UInt8 := (leBytes n v).reverse

/-- The number that a sequence of bytes stands for, the most significant one
first. -/
def ofBe (bytes : List UInt8) : Nat := ofLe bytes.reverse

@[simp] theorem length_beBytes (n v : Nat) : (beBytes n v).length = n := by
  simp [beBytes]

/-- Reading back what was written. -/
theorem ofBe_beBytes (n v : Nat) : ofBe (beBytes n v) = v % 256 ^ n := by
  rw [ofBe, beBytes, List.reverse_reverse, ofLe_leBytes]

theorem ofBe_cons (b : UInt8) (bytes : List UInt8) :
    ofBe (b :: bytes) = b.toNat * 256 ^ bytes.length + ofBe bytes := by
  rw [ofBe, ofBe, List.reverse_cons, ofLe_append, List.length_reverse, ofLe, ofLe]
  ring

theorem ofLe_lt (bytes : List UInt8) : ofLe bytes < 256 ^ bytes.length := by
  induction bytes with
  | nil => decide
  | cons b bytes ih =>
      have hb : b.toNat < 256 := b.toNat_lt
      rw [ofLe, List.length_cons, Nat.pow_succ]
      omega

/-- Writing what was read. -/
theorem leBytes_ofLe (bytes : List UInt8) : leBytes bytes.length (ofLe bytes) = bytes := by
  induction bytes with
  | nil => rfl
  | cons b bytes ih =>
      have hb : b.toNat < 256 := b.toNat_lt
      have hhead : UInt8.ofNat (b.toNat + 256 * ofLe bytes) = b := by
        rw [← UInt8.toNat_inj, UInt8.toNat_ofNat']
        show (b.toNat + 256 * ofLe bytes) % 256 = b.toNat
        omega
      have htail : (b.toNat + 256 * ofLe bytes) >>> 8 = ofLe bytes := by
        rw [Nat.shiftRight_eq_div_pow]
        omega
      rw [List.length_cons, leBytes_succ, ofLe, hhead, htail, ih]

theorem ofBe_lt (bytes : List UInt8) : ofBe bytes < 256 ^ bytes.length := by
  have h := ofLe_lt bytes.reverse
  rwa [List.length_reverse] at h

theorem beBytes_ofBe {n : Nat} {bytes : List UInt8} (h : bytes.length = n) :
    beBytes n (ofBe bytes) = bytes := by
  rw [← h, ← List.length_reverse, beBytes, ofBe, leBytes_ofLe, List.reverse_reverse]

/-- One more byte at the end of a number. -/
theorem toNat_shiftLeft_or (value : UInt32) (b : UInt8) :
    (value <<< 8 ||| b.toUInt32).toNat = (value.toNat * 256 + b.toNat) % 2 ^ 32 := by
  have hb : b.toNat < 2 ^ 8 := b.toNat_lt
  have hshift : (value <<< 8).toNat = (value.toNat % 2 ^ 24) <<< 8 := by
    rw [UInt32.toNat_shiftLeft, Nat.shiftLeft_eq, Nat.shiftLeft_eq]
    show value.toNat * 2 ^ 8 % 2 ^ 32 = value.toNat % 2 ^ 24 * 2 ^ 8
    omega
  rw [UInt32.toNat_or, hshift, UInt8.toNat_toUInt32, ← Nat.shiftLeft_add_eq_or_of_lt hb,
    Nat.shiftLeft_eq]
  omega

/-- Reading a number byte by byte, modulo its width. -/
theorem toNat_foldl_or (value : UInt32) (bytes : List UInt8) :
    UInt32.toNat (bytes.foldl (fun value b ↦ value <<< 8 ||| b.toUInt32) value) =
      (value.toNat * 256 ^ bytes.length + ofBe bytes) % 2 ^ 32 := by
  induction bytes generalizing value with
  | nil => simp [ofBe, ofLe]
  | cons b bytes ih =>
      rw [List.foldl_cons, ih, toNat_shiftLeft_or, ofBe_cons, List.length_cons, Nat.add_mod,
        Nat.mod_mul_mod, ← Nat.add_mod]
      congr 1
      ring

/-! ## Little-endian `ByteBuffer`s

The relative gets of a `ByteBuffer` read one value after the other; here each
is given the position that it reads from. -/

/-- `getInt` of a little-endian `ByteBuffer`. -/
def getInt (buffer : List UInt8) (position : Nat) : Int32 :=
  (UInt32.ofNat (ofLe ((buffer.drop position).take 4))).toInt32

/-- `getLong` of a little-endian `ByteBuffer`. -/
def getLong (buffer : List UInt8) (position : Nat) : Int64 :=
  (UInt64.ofNat (ofLe ((buffer.drop position).take 8))).toInt64

variable {bytes rest : List UInt8} {position : Nat}

theorem getInt_head (v : UInt32) (rest : List UInt8) :
    getInt (leBytes 4 v.toNat ++ rest) 0 = v.toInt32 := by
  rw [getInt, List.drop_zero, ofLe_take rest v.toNat_lt, UInt32.ofNat_toNat]

theorem getLong_head (v : UInt64) (rest : List UInt8) :
    getLong (leBytes 8 v.toNat ++ rest) 0 = v.toInt64 := by
  rw [getLong, List.drop_zero, ofLe_take rest v.toNat_lt, UInt64.ofNat_toNat]

/-- What stands before a position does not matter. -/
theorem getInt_skip (h : bytes.length ≤ position) :
    getInt (bytes ++ rest) position = getInt rest (position - bytes.length) := by
  rw [getInt, List.drop_append, List.drop_eq_nil_of_le h, List.nil_append, getInt]

theorem getLong_skip (h : bytes.length ≤ position) :
    getLong (bytes ++ rest) position = getLong rest (position - bytes.length) := by
  rw [getLong, List.drop_append, List.drop_eq_nil_of_le h, List.nil_append, getLong]

end SecondScreen.Machine
