import SecondScreen.Json.Grammar
import Mathlib.Data.List.TakeWhile

/-!
# `ReadHandshake`

The line of the client, as `recv` delivers it.  What a call of `recv` returns is open, except
that a chunk has one to 2048 bytes; the result depends on the bytes only, and not on where
the chunks end.
-/

namespace SecondScreen.Host

open SecondScreen.Json

def kMaxHandshakeBytes : Nat := 64 * 1024

/-- What is received into the `buffer`. -/
structure Chunk where
  bytes : Text
  pos : 0 < bytes.length
  le : bytes.length ≤ 2048

/-- What a call of `recv` returns. -/
inductive Received
  | chunk (chunk : Chunk)
  | closed
  | error (code : Int) (text : String)

/-- The inner loop: the line, and whether it has ended. -/
def pushBytes (line : Text) : Text → Text × Bool
  | [] => (line, false)
  | b :: bytes =>
      if b = ascii '\n' then (line, true)
      else if (line ++ [b]).length = kMaxHandshakeBytes then (line ++ [b], false)
      else pushBytes (line ++ [b]) bytes

/-- A chunk that does not end the line makes it longer. -/
theorem pushBytes_lt {line line' bytes : Text} (h : pushBytes line bytes = (line', false))
    (hbytes : 0 < bytes.length) : line.length < line'.length := by
  induction bytes generalizing line with
  | nil => cases hbytes
  | cons b bytes ih =>
      rw [pushBytes] at h
      split_ifs at h
      · cases h
      · cases h
        exact List.length_append ▸ Nat.lt_succ_self _
      · cases bytes with
        | nil =>
            cases h
            exact List.length_append ▸ Nat.lt_succ_self _
        | cons c bytes =>
            have := ih h (Nat.succ_pos _)
            rw [List.length_append] at this
            exact (Nat.lt_succ_self _).trans this

/-- `ReadHandshake` from some call of `recv` on: the line, and success or the error. -/
def readHandshakeFrom (recv : Nat → Received) (call : Nat) (line : Text) :
    Text × Except String Unit :=
  if _hline : line.length < kMaxHandshakeBytes then
    match recv call with
    | .closed => (line, .error "client closed before sending handshake")
    | .error code text =>
        (line, .error ("recv(handshake) failed (" ++ toString code ++ "): " ++ text))
    | .chunk chunk =>
        match _h : pushBytes line chunk.bytes with
        | (line, true) => (line, .ok ())
        | (line, false) => readHandshakeFrom recv (call + 1) line
  else (line, .error "handshake exceeds 64 KiB or has no newline terminator")
termination_by kMaxHandshakeBytes - line.length
decreasing_by
  have := pushBytes_lt _h chunk.pos
  omega

def readHandshake (recv : Nat → Received) : Text × Except String Unit := readHandshakeFrom recv 0 []

/-! ## The stream -/

/-- The bytes of the next `n` chunks, up to the end of the stream. -/
def bytesFrom (recv : Nat → Received) : (call n : Nat) → Text
  | _, 0 => []
  | call, n + 1 =>
      match recv call with
      | .chunk chunk => chunk.bytes ++ bytesFrom recv (call + 1) n
      | _ => []

/-- A byte of the stream. -/
def byteAt (recv : Nat → Received) (k : Nat) : Option UInt8 := (bytesFrom recv 0 (k + 1))[k]?

/-- More chunks make no difference to the bytes that are there. -/
theorem getElem?_bytesFrom (recv : Nat → Received) {k n m : Nat} (hk : k < n) (hn : n ≤ m)
    (call : Nat) : (bytesFrom recv call n)[k]? = (bytesFrom recv call m)[k]? := by
  induction n generalizing k m call with
  | zero => cases hk
  | succ n ih =>
      obtain ⟨m, rfl⟩ := Nat.exists_eq_succ_of_ne_zero (Nat.ne_zero_of_lt hn)
      rw [bytesFrom, bytesFrom]
      cases recv call with
      | closed => rfl
      | error code text => rfl
      | chunk chunk =>
          have hpos := chunk.pos
          simp only [List.getElem?_append]
          split_ifs with hlt
          · rfl
          · exact ih (by omega) (Nat.le_of_succ_le_succ hn) _

/-- The first bytes of the stream, as many as `ReadHandshake` may take. -/
def firstBytes (recv : Nat → Received) : Text :=
  (bytesFrom recv 0 kMaxHandshakeBytes).take kMaxHandshakeBytes

theorem getElem?_firstBytes (recv : Nat → Received) (k : Nat) :
    (firstBytes recv)[k]? = if k < kMaxHandshakeBytes then byteAt recv k else none := by
  rw [firstBytes, List.getElem?_take]
  split_ifs with hk
  · exact (getElem?_bytesFrom recv (Nat.lt_succ_self k) hk 0).symm
  · rfl

/-- The first bytes depend on the bytes alone and not on the calls in which they come. -/
theorem firstBytes_congr {recv recv' : Nat → Received} (h : ∀ k, byteAt recv k = byteAt recv' k) :
    firstBytes recv = firstBytes recv' := by
  apply List.ext_getElem?
  intro k
  rw [getElem?_firstBytes, getElem?_firstBytes, h]

/-! ## The line -/

/-- The bytes before the first newline. -/
def lineOf (bytes : Text) : Text := bytes.takeWhile (· ≠ ascii '\n')

/-- The line goes on over bytes without a line feed. -/
theorem lineOf_append_of_not_mem {s : Text} (hs : ascii '\n' ∉ s) (t : Text) :
    lineOf (s ++ t) = s ++ lineOf t := by
  apply List.takeWhile_append_of_pos
  intro b hb
  simp only [decide_eq_true_eq]
  rintro rfl
  exact hs hb

theorem lineOf_eq_self {s : Text} (hs : ascii '\n' ∉ s) : lineOf s = s := by
  have h := lineOf_append_of_not_mem hs []
  rw [List.append_nil] at h
  exact h.trans (List.append_nil s)

/-- It ends with the first line feed. -/
theorem lineOf_append_of_mem {s : Text} (hs : ascii '\n' ∈ s) (t : Text) :
    lineOf (s ++ t) = lineOf s := by
  induction s with
  | nil => cases hs
  | cons b s ih =>
      rw [lineOf, lineOf, List.cons_append, List.takeWhile_cons, List.takeWhile_cons]
      split_ifs with hb
      · have hne : b ≠ ascii '\n' := of_decide_eq_true hb
        rw [List.mem_cons, or_iff_right hne.symm] at hs
        rw [← lineOf, ← lineOf, ih hs]
      · rfl

/-- The inner loop takes bytes up to a newline, to the end of the chunk or to the limit. -/
theorem pushBytes_eq {line : Text} (hline : line.length < kMaxHandshakeBytes) (bytes : Text) :
    pushBytes line bytes = (line ++ lineOf (bytes.take (kMaxHandshakeBytes - line.length)),
      decide (ascii '\n' ∈ bytes.take (kMaxHandshakeBytes - line.length))) := by
  induction bytes generalizing line with
  | nil => simp [pushBytes, lineOf]
  | cons b bytes ih =>
      obtain ⟨n, hn⟩ : ∃ n, kMaxHandshakeBytes - line.length = n + 1 :=
        Nat.exists_eq_succ_of_ne_zero (by omega)
      have hlength : (line ++ [b]).length = line.length + 1 := List.length_append
      rw [pushBytes, hn, List.take_succ_cons]
      split_ifs with hb hfull
      · subst hb
        simp [lineOf]
      · obtain rfl : n = 0 := by omega
        simp [lineOf, hb, Ne.symm hb]
      · have hn' : kMaxHandshakeBytes - (line ++ [b]).length = n := by omega
        rw [ih (by omega), hn']
        simp [lineOf, hb, Ne.symm hb]

/-- The loop from any call on: the line is completed from the bytes that follow, up to the limit. -/
theorem readHandshakeFrom_eq (recv : Nat → Received) {call n : Nat} {line : Text}
    (hline : line.length ≤ kMaxHandshakeBytes) (hn : kMaxHandshakeBytes - line.length ≤ n) :
    (readHandshakeFrom recv call line).1 =
        line ++ lineOf ((bytesFrom recv call n).take (kMaxHandshakeBytes - line.length)) ∧
      ((readHandshakeFrom recv call line).2 = .ok () ↔
        ascii '\n' ∈ (bytesFrom recv call n).take (kMaxHandshakeBytes - line.length)) := by
  fun_induction readHandshakeFrom recv call line generalizing n with
  | case1 call line hlt hrecv =>
      obtain ⟨n, rfl⟩ : ∃ m, n = m + 1 := Nat.exists_eq_succ_of_ne_zero (by omega)
      rw [bytesFrom, hrecv]
      simp [lineOf]
  | case2 call line hlt code text hrecv =>
      obtain ⟨n, rfl⟩ : ∃ m, n = m + 1 := Nat.exists_eq_succ_of_ne_zero (by omega)
      rw [bytesFrom, hrecv]
      simp [lineOf]
  | case3 call line hlt chunk hrecv line' hpush =>
      obtain ⟨n, rfl⟩ : ∃ m, n = m + 1 := Nat.exists_eq_succ_of_ne_zero (by omega)
      rw [pushBytes_eq hlt] at hpush
      obtain ⟨rfl, hmem⟩ := Prod.mk.inj hpush
      rw [decide_eq_true_eq] at hmem
      rw [bytesFrom, hrecv, List.take_append]
      exact ⟨by rw [lineOf_append_of_mem hmem],
        fun _ ↦ List.mem_append_left _ hmem, fun _ ↦ rfl⟩
  | case4 call line hlt chunk hrecv line' hpush ih =>
      obtain ⟨n, rfl⟩ : ∃ m, n = m + 1 := Nat.exists_eq_succ_of_ne_zero (by omega)
      have hlonger := pushBytes_lt hpush chunk.pos
      rw [pushBytes_eq hlt] at hpush
      obtain ⟨rfl, hmem⟩ := Prod.mk.inj hpush
      rw [decide_eq_false_iff_not] at hmem
      rw [lineOf_eq_self hmem] at ih hlonger ⊢
      have hlength := @List.length_take _ (kMaxHandshakeBytes - line.length) chunk.bytes
      rw [List.length_append] at hlonger
      obtain ⟨hfst, hsnd⟩ := @ih n (by rw [List.length_append]; omega)
        (by rw [List.length_append]; omega)
      have hleft : kMaxHandshakeBytes -
          (line ++ chunk.bytes.take (kMaxHandshakeBytes - line.length)).length =
            kMaxHandshakeBytes - line.length - chunk.bytes.length := by
        rw [List.length_append]
        omega
      rw [hleft] at hfst hsnd
      rw [bytesFrom, hrecv, List.take_append]
      constructor
      · rw [hfst, lineOf_append_of_not_mem hmem, List.append_assoc]
      · rw [hsnd, List.mem_append, or_iff_right hmem]
  | case5 call line hge =>
      rw [Nat.sub_eq_zero_of_le (Nat.not_lt.1 hge)]
      simp [lineOf]

/-- The result is the first line, if it ends within the limit. -/
theorem readHandshake_eq (recv : Nat → Received) :
    (readHandshake recv).1 = lineOf (firstBytes recv) ∧
      ((readHandshake recv).2 = .ok () ↔ ascii '\n' ∈ firstBytes recv) :=
  @readHandshakeFrom_eq recv 0 kMaxHandshakeBytes [] (Nat.zero_le _) (Nat.sub_le _ _)

theorem lineOf_length_le (bytes : Text) : (lineOf bytes).length ≤ bytes.length :=
  (List.takeWhile_prefix _).length_le

/-- `ReadHandshake` succeeds exactly if there is a newline among the first bytes of the stream,
with the bytes before it; the line is never too long; and where the chunks end makes no
difference. -/
theorem readHandshake_framing (recv : Nat → Received) :
    ((readHandshake recv).2 = .ok () ↔ ascii '\n' ∈ firstBytes recv) ∧
      (readHandshake recv).1 = lineOf (firstBytes recv) ∧
      (readHandshake recv).1.length ≤ kMaxHandshakeBytes ∧
      ∀ recv' : Nat → Received, (∀ k, byteAt recv k = byteAt recv' k) →
        ((readHandshake recv).2 = .ok () ↔ (readHandshake recv').2 = .ok ()) ∧
          (readHandshake recv).1 = (readHandshake recv').1 := by
  obtain ⟨hline, hok⟩ := readHandshake_eq recv
  refine ⟨hok, hline, ?_, fun recv' hstream ↦ ?_⟩
  · rw [hline]
    refine (lineOf_length_le _).trans ?_
    rw [firstBytes, List.length_take]
    exact Nat.min_le_left _ _
  · obtain ⟨hline', hok'⟩ := readHandshake_eq recv'
    rw [hline, hok, hline', hok', firstBytes_congr hstream]
    exact ⟨Iff.rfl, rfl⟩

/-- A line in one chunk. -/
def inOneChunk : Nat → Received
  | 0 => .chunk ⟨[ascii 'h', ascii 'i', ascii '\n'], by decide, by decide⟩
  | _ => .closed

/-- The same line, cut in its middle. -/
def inTwoChunks : Nat → Received
  | 0 => .chunk ⟨[ascii 'h'], by decide, by decide⟩
  | 1 => .chunk ⟨[ascii 'i', ascii '\n'], by decide, by decide⟩
  | _ => .closed

theorem readHandshake_framing_chunks :
    ((readHandshake inOneChunk).2 = .ok () ↔ (readHandshake inTwoChunks).2 = .ok ()) ∧
      (readHandshake inOneChunk).1 = (readHandshake inTwoChunks).1 := by
  apply (readHandshake_framing inOneChunk).2.2.2
  intro k
  rcases k with _ | _ | k
  · rfl
  · rfl
  · show _ = ((ascii 'h' :: ascii 'i' :: ascii '\n' :: []) ++ [])[k + 2]?
    rw [List.append_nil]
    rfl

end SecondScreen.Host
