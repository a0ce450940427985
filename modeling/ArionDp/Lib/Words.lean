import ArionDp.Lib.Bytes

/-!
# 64-bit words in memory

Words in the byte order of a little-endian machine.

* `imageWords`, **`flatMap_le64`**: an image cut into words is put together again.
-/

namespace Wire

/-- Load a 64-bit word. -/
def ld64 (p : Bytes) (o : ℕ) : U64 := ld32 p (o + 4) ++ ld32 p o

/-- The memory image of a 64-bit word. -/
def le64 (v : U64) : Bytes := (List.range 8).map fun k => byte v k

@[simp] theorem length_le64 (v : U64) : (le64 v).length = 8 := by
  simp [le64]

theorem byte_append32_lo (a b : U32) {k : ℕ} (hk : k < 4) : byte (a ++ b) k = byte b k := by
  unfold byte
  exact BitVec.extractLsb'_append_eq_of_add_le (by omega)

theorem byte_append32_hi (a b : U32) (k : ℕ) : byte (a ++ b) (k + 4) = byte a k := by
  unfold byte
  rw [BitVec.extractLsb'_append_eq_of_le (by omega)]
  congr 1

theorem byte_ld64 (p : Bytes) (o : ℕ) {k : ℕ} (hk : k < 8) : byte (ld64 p o) k = rd p (o + k) := by
  unfold ld64
  by_cases h : k < 4
  · rw [byte_append32_lo _ _ h, byte_ld32 _ _ h]
  · obtain ⟨j, rfl⟩ := Nat.exists_eq_add_of_le' (Nat.le_of_not_lt h)
    rw [byte_append32_hi, byte_ld32 _ _ (by omega), Nat.add_assoc, Nat.add_comm 4]

theorem le64_ld64 (p : Bytes) (o : ℕ) (h : o + 8 ≤ p.length) :
    le64 (ld64 p o) = (p.drop o).take 8 := by
  refine List.ext_getElem (by simp; omega) fun i h1 h2 => ?_
  have hi : i < 8 := by simpa using h1
  have hb := byte_ld64 p o hi
  rw [rd, List.getD_eq_getElem _ _ (by omega)] at hb
  rw [List.getElem_take, List.getElem_drop, ← hb]
  simp [le64]

/-- Cut an image into `n` words. -/
def imageWords (n : ℕ) (p : Bytes) : List U64 := (List.range n).map fun i => ld64 p (8 * i)

/-- **Words put together again.** -/
theorem flatMap_le64 (n : ℕ) (p : Bytes) (h : p.length = 8 * n) :
    (imageWords n p).flatMap le64 = p := by
  have key : ∀ m ≤ n, (imageWords m p).flatMap le64 = p.take (8 * m) := by
    intro m hm
    induction m with
    | zero => rfl
    | succ m ih =>
      have hs : imageWords (m + 1) p = imageWords m p ++ [ld64 p (8 * m)] := by
        rw [imageWords, List.range_succ, List.map_append]
        rfl
      rw [hs, List.flatMap_append, ih (by omega), List.flatMap_singleton, le64_ld64 _ _ (by omega),
        Nat.mul_succ, List.take_add]
  rw [key n le_rfl, ← h, List.take_length]

end Wire
