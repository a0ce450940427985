import Mathlib.Data.List.GetD
import Mathlib.Tactic.IntervalCases

/-!
# Byte strings with little-endian words

A byte string is a list of 8-bit words; `rd` and `wr` access one byte, `ld16`, `ld32`, `st16`,
`st32` access words in the byte order of a little-endian machine. Loads outside the string give
`0` and stores outside it do nothing, so every access is total; programs check their bounds first.

* `rd_wr`, `rd_st16`, `rd_st32`: a byte after a store;
* `byte_ld16`, `byte_ld32`, `le32_ld32`: the bytes of a loaded word, in memory order.
-/

namespace Wire

/-- An 8-bit machine word. -/
abbrev U8 := BitVec 8
/-- A 16-bit machine word. -/
abbrev U16 := BitVec 16
/-- A 32-bit machine word. -/
abbrev U32 := BitVec 32
/-- A 64-bit machine word. -/
abbrev U64 := BitVec 64

/-- A byte string. -/
abbrev Bytes := List U8

/-- Byte `k` of a word, counted from the least significant one. -/
def byte {w : ℕ} (v : BitVec w) (k : ℕ) : U8 := v.extractLsb' (8 * k) 8

/-- The byte at offset `o`. -/
def rd (p : Bytes) (o : ℕ) : U8 := p.getD o 0

/-- Store a byte at offset `o`. -/
def wr (p : Bytes) (o : ℕ) (b : U8) : Bytes := p.set o b

/-- Load a 16-bit word. -/
def ld16 (p : Bytes) (o : ℕ) : U16 := rd p (o + 1) ++ rd p o

/-- Load a 32-bit word. -/
def ld32 (p : Bytes) (o : ℕ) : U32 := ld16 p (o + 2) ++ ld16 p o

/-- Store a 16-bit word. -/
def st16 (p : Bytes) (o : ℕ) (v : U16) : Bytes := wr (wr p o (byte v 0)) (o + 1) (byte v 1)

/-- Store a 32-bit word. -/
def st32 (p : Bytes) (o : ℕ) (v : U32) : Bytes :=
  wr (wr (wr (wr p o (byte v 0)) (o + 1) (byte v 1)) (o + 2) (byte v 2)) (o + 3) (byte v 3)

/-- The memory image of a 16-bit word. -/
def le16 (v : U16) : Bytes := [byte v 0, byte v 1]

/-- The memory image of a 32-bit word. -/
def le32 (v : U32) : Bytes := [byte v 0, byte v 1, byte v 2, byte v 3]

/-! ## Single bytes -/

@[simp] theorem length_wr (p : Bytes) (o : ℕ) (b : U8) : (wr p o b).length = p.length :=
  List.length_set

@[simp] theorem length_st16 (p : Bytes) (o : ℕ) (v : U16) : (st16 p o v).length = p.length := by
  simp [st16]

@[simp] theorem length_st32 (p : Bytes) (o : ℕ) (v : U32) : (st32 p o v).length = p.length := by
  simp [st32]

theorem rd_wr (p : Bytes) {o : ℕ} (b : U8) (i : ℕ) (h : o < p.length) :
    rd (wr p o b) i = if i = o then b else rd p i := by
  unfold rd wr
  rw [List.getD_eq_getElem?_getD, List.getD_eq_getElem?_getD, List.getElem?_set]
  split_ifs with h1 h2 h2
  · rfl
  · exact absurd h1.symm h2
  · exact absurd h2.symm h1
  · rfl

theorem rd_wr_of_ne (p : Bytes) {o i : ℕ} (b : U8) (h : i ≠ o) : rd (wr p o b) i = rd p i := by
  unfold rd wr
  rw [List.getD_eq_getElem?_getD, List.getD_eq_getElem?_getD, List.getElem?_set, if_neg h.symm]

/-! ## Words -/

theorem rd_st16 (p : Bytes) {o : ℕ} (v : U16) (i : ℕ) (h : o + 1 < p.length) :
    rd (st16 p o v) i = if i = o then byte v 0 else if i = o + 1 then byte v 1 else rd p i := by
  unfold st16
  rw [rd_wr _ _ _ (by simpa using h), rd_wr _ _ _ (by omega)]
  split_ifs <;> first | rfl | omega

theorem rd_st16_of_ne (p : Bytes) {o i : ℕ} (v : U16) (h : i ≠ o) (h' : i ≠ o + 1) :
    rd (st16 p o v) i = rd p i := by
  rw [st16, rd_wr_of_ne _ _ h', rd_wr_of_ne _ _ h]

theorem rd_st32 (p : Bytes) {o : ℕ} (v : U32) (i : ℕ) (h : o + 3 < p.length) :
    rd (st32 p o v) i = if i = o then byte v 0 else if i = o + 1 then byte v 1
      else if i = o + 2 then byte v 2 else if i = o + 3 then byte v 3 else rd p i := by
  unfold st32
  rw [rd_wr _ _ _ (by simpa using h), rd_wr _ _ _ (by simp; omega), rd_wr _ _ _ (by simp; omega),
    rd_wr _ _ _ (by omega)]
  split_ifs <;> first | rfl | omega

/-- A stored word, byte by byte. -/
theorem rd_st32_byte (p : Bytes) {o : ℕ} (v : U32) (i : ℕ) (h : o + 3 < p.length) :
    rd (st32 p o v) i = if o ≤ i ∧ i < o + 4 then byte v (i - o) else rd p i := by
  rw [rd_st32 _ _ _ h]
  by_cases hi : o ≤ i ∧ i < o + 4
  · obtain ⟨k, rfl⟩ := Nat.exists_eq_add_of_le hi.1
    have hk : k < 4 := by omega
    rw [if_pos hi, Nat.add_sub_cancel_left]
    interval_cases k <;> simp
  · rw [if_neg hi, if_neg (by omega), if_neg (by omega), if_neg (by omega), if_neg (by omega)]

theorem byte_append_zero {w : ℕ} (a : BitVec w) (b : U8) : byte (a ++ b) 0 = b :=
  BitVec.extractLsb'_append_eq_right

theorem byte_append_succ {w : ℕ} (a : BitVec w) (b : U8) (k : ℕ) :
    byte (a ++ b) (k + 1) = byte a k := by
  unfold byte
  rw [BitVec.extractLsb'_append_eq_of_le (by omega)]
  congr 1

@[simp] theorem byte_ld16_zero (p : Bytes) (o : ℕ) : byte (ld16 p o) 0 = rd p o :=
  byte_append_zero _ _

@[simp] theorem byte_ld16_one (p : Bytes) (o : ℕ) : byte (ld16 p o) 1 = rd p (o + 1) := by
  unfold ld16
  rw [byte_append_succ, byte, Nat.mul_zero, BitVec.extractLsb'_eq_self]

theorem byte_append16_lo (a b : U16) {k : ℕ} (hk : k < 2) : byte (a ++ b) k = byte b k := by
  unfold byte
  exact BitVec.extractLsb'_append_eq_of_add_le (by omega)

theorem byte_append16_hi (a b : U16) (k : ℕ) : byte (a ++ b) (k + 2) = byte a k := by
  unfold byte
  rw [BitVec.extractLsb'_append_eq_of_le (by omega)]
  congr 1

/-- **The bytes of a loaded word are the bytes in memory.** -/
theorem byte_ld32 (p : Bytes) (o : ℕ) {k : ℕ} (hk : k < 4) : byte (ld32 p o) k = rd p (o + k) := by
  unfold ld32
  interval_cases k
  · rw [byte_append16_lo _ _ (by omega)]; exact byte_ld16_zero p o
  · rw [byte_append16_lo _ _ (by omega)]; exact byte_ld16_one p o
  · exact (byte_append16_hi _ _ 0).trans (byte_ld16_zero p _)
  · exact (byte_append16_hi _ _ 1).trans (byte_ld16_one p _)

theorem le32_ld32 (p : Bytes) (o : ℕ) :
    le32 (ld32 p o) = [rd p o, rd p (o + 1), rd p (o + 2), rd p (o + 3)] := by
  simp [le32, byte_ld32]

/-- **A word is determined by its bytes.** -/
theorem eq_of_byte {w m : ℕ} {u v : BitVec w} (hw : w ≤ 8 * m)
    (h : ∀ k < m, byte u k = byte v k) : u = v := by
  refine BitVec.eq_of_getLsbD_eq fun i hi => ?_
  have bit : ∀ x : BitVec w, (byte x (i / 8)).getLsbD (i % 8) = x.getLsbD i := by
    intro x
    have hm : i % 8 < 8 := Nat.mod_lt _ (by omega)
    rw [byte, BitVec.getLsbD_extractLsb', decide_eq_true hm, Bool.true_and, Nat.div_add_mod]
  rw [← bit u, ← bit v, h _ (by omega)]

/-- A 16-bit word is determined by its bytes. -/
theorem eq_of_byte16 {v w : U16} (h0 : byte v 0 = byte w 0) (h1 : byte v 1 = byte w 1) : v = w :=
  eq_of_byte (show 16 ≤ 8 * 2 by omega) fun k hk => by interval_cases k <;> assumption

/-- A 32-bit word is determined by its memory image. -/
theorem le32_injective {v w : U32} (h : le32 v = le32 w) : v = w := by
  simp only [le32, List.cons.injEq, and_true] at h
  obtain ⟨h0, h1, h2, h3⟩ := h
  exact eq_of_byte (show 32 ≤ 8 * 4 by omega) fun k hk => by interval_cases k <;> assumption

theorem ld16_eq_iff (p q : Bytes) (o o' : ℕ) :
    ld16 p o = ld16 q o' ↔ rd p o = rd q o' ∧ rd p (o + 1) = rd q (o' + 1) := by
  constructor
  · intro h
    refine ⟨?_, ?_⟩
    · rw [← byte_ld16_zero, h, byte_ld16_zero]
    · rw [← byte_ld16_one, h, byte_ld16_one]
  · rintro ⟨h0, h1⟩
    unfold ld16
    rw [h0, h1]

theorem ld32_eq_iff (p q : Bytes) (o o' : ℕ) :
    ld32 p o = ld32 q o' ↔ ∀ k < 4, rd p (o + k) = rd q (o' + k) := by
  constructor
  · intro h k hk
    rw [← byte_ld32 p o hk, h, byte_ld32 q o' hk]
  · intro h
    refine eq_of_byte (show 32 ≤ 8 * 4 by omega) fun k hk => ?_
    rw [byte_ld32 p o hk, byte_ld32 q o' hk, h k hk]

theorem ld16_st16 (p : Bytes) {o : ℕ} (v : U16) (h : o + 1 < p.length) :
    ld16 (st16 p o v) o = v := by
  refine eq_of_byte16 ?_ ?_
  · rw [byte_ld16_zero, rd_st16 _ _ _ h, if_pos rfl]
  · rw [byte_ld16_one, rd_st16 _ _ _ h, if_neg (by omega), if_pos rfl]

theorem ld16_st16_of_ne (p : Bytes) {o o' : ℕ} (v : U16) (h : o' + 1 < o ∨ o + 1 < o') :
    ld16 (st16 p o v) o' = ld16 p o' := by
  rw [ld16, rd_st16_of_ne _ _ (by omega) (by omega), rd_st16_of_ne _ _ (by omega) (by omega), ← ld16]

/-- Copying a word copies its bytes. -/
theorem rd_copy16 (p : Bytes) {d : ℕ} (s i : ℕ) (h : d + 1 < p.length) :
    rd (st16 p d (ld16 p s)) i =
      if i = d then rd p s else if i = d + 1 then rd p (s + 1) else rd p i := by
  rw [rd_st16 _ _ _ h, byte_ld16_zero, byte_ld16_one]

/-! ## Shifts and masks -/

theorem byte_ushiftRight {w : ℕ} (v : BitVec w) (k : ℕ) : byte (v >>> 8) k = byte v (k + 1) := by
  ext i hi
  simp only [byte, BitVec.getElem_extractLsb', BitVec.getLsbD_ushiftRight]
  congr 1
  omega

/-- Pushing the low byte of a word onto another one. -/
theorem byte_push_zero (buf tmp : U32) : byte ((buf <<< 8) ||| (tmp &&& 0xFF#32)) 0 = byte tmp 0 := by
  have mask : ∀ j < 8, (0xFF#32).getLsbD j = true := by decide
  ext i hi
  simp [byte, hi, mask i hi]

theorem byte_push_succ (buf tmp : U32) {k : ℕ} (hk : k < 3) :
    byte ((buf <<< 8) ||| (tmp &&& 0xFF#32)) (k + 1) = byte buf k := by
  have mask : ∀ j < 32, 8 ≤ j → (0xFF#32).getLsbD j = false := by decide
  ext i hi
  have h8 : ¬ 8 * (k + 1) + i < 8 := by omega
  have h32 : 8 * (k + 1) + i < 32 := by omega
  have hj : 8 * (k + 1) + i - 8 = 8 * k + i := by omega
  simp only [byte, BitVec.getElem_extractLsb', BitVec.getLsbD_or, BitVec.getLsbD_and,
    BitVec.getLsbD_shiftLeft, mask _ h32 (by omega), h8, h32, hj, decide_true, decide_false,
    Bool.and_false, Bool.or_false, Bool.not_false, Bool.and_self, Bool.true_and]

/-- The low 48 bits are the low six bytes. -/
theorem byte_mask48 (v : U64) {k : ℕ} (hk : k < 6) :
    byte (v &&& 0xFFFFFFFFFFFF#64) k = byte v k := by
  have mask : ∀ j < 48, (0xFFFFFFFFFFFF#64).getLsbD j = true := by decide
  ext i hi
  simp only [byte, BitVec.getElem_extractLsb', BitVec.getLsbD_and, mask (8 * k + i) (by omega),
    Bool.and_true]

theorem setWidth_eq_byte {w : ℕ} (v : BitVec w) : v.setWidth 8 = byte v 0 := by
  ext i hi
  simp [byte]

/-- The bytes of a number. -/
theorem byte_ofNat {w k : ℕ} (n : ℕ) (hk : 8 * k + 8 ≤ w) :
    byte (BitVec.ofNat w n) k = BitVec.ofNat 8 (n / 2 ^ (8 * k)) := by
  ext i hi
  have h : 8 * k + i < w := by omega
  have hr : (BitVec.ofNat 8 (n / 2 ^ (8 * k)))[i] = n.testBit (8 * k + i) := by
    rw [← BitVec.getLsbD_eq_getElem, BitVec.getLsbD_ofNat, decide_eq_true hi, Bool.true_and,
      Nat.testBit_div_two_pow, Nat.add_comm]
  rw [hr, byte, BitVec.getElem_extractLsb', BitVec.getLsbD_ofNat, decide_eq_true h, Bool.true_and]

end Wire
