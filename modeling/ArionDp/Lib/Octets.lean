import ArionDp.Lib.Bytes
import Mathlib.Data.List.OfFn
import Mathlib.Algebra.Order.Group.Nat
import Mathlib.Tactic.Ring

/-!
# Numbers as octets

A number below `256 ^ w` and its `w` octets, the most significant one first.

* `octetsNat`, `octets`; **`octets_octetsNat`**, **`octetsNat_octets`**: they are inverse;
* `networkWord`: the word whose memory image is the four octets in written order.
-/

namespace Wire

/-- The number with the given octets, the most significant one first. -/
def octetsNat (o : List U8) : ℕ := o.foldl (fun a b => a * 256 + b.toNat) 0

/-- The octets of a number. -/
def octets (w n : ℕ) (i : Fin w) : U8 := BitVec.ofNat 8 (n / 256 ^ (w - 1 - i.1))

theorem octetsNat_append (o : List U8) (b : U8) :
    octetsNat (o ++ [b]) = octetsNat o * 256 + b.toNat := by
  rw [octetsNat, List.foldl_append]
  rfl

theorem octetsNat_ofFn_succ {w : ℕ} (o : Fin (w + 1) → U8) :
    octetsNat (List.ofFn o) =
      octetsNat (List.ofFn fun i : Fin w => o i.castSucc) * 256 + (o (Fin.last w)).toNat := by
  rw [List.ofFn_succ_last, octetsNat_append]

theorem octetsNat_lt {w : ℕ} (o : Fin w → U8) : octetsNat (List.ofFn o) < 256 ^ w := by
  induction w with
  | zero => rw [List.ofFn_zero]; decide
  | succ w ih =>
    have h := ih fun i => o i.castSucc
    have hb := (o (Fin.last w)).isLt
    rw [octetsNat_ofFn_succ, Nat.pow_succ]
    omega

/-- **The octets of the number that octets make.** -/
theorem octets_octetsNat {w : ℕ} (o : Fin w → U8) : octets w (octetsNat (List.ofFn o)) = o := by
  induction w with
  | zero => exact funext fun i => i.elim0
  | succ w ih =>
    have hb := (o (Fin.last w)).isLt
    funext i
    refine BitVec.eq_of_toNat_eq ?_
    rw [octets, BitVec.toNat_ofNat, octetsNat_ofFn_succ]
    induction i using Fin.lastCases with
    | last =>
      rw [Fin.val_last, Nat.add_sub_cancel, Nat.sub_self, Nat.pow_zero, Nat.div_one]
      omega
    | cast j =>
      have hj := j.isLt
      have he : w + 1 - 1 - j.castSucc.1 = (w - 1 - j.1) + 1 := by
        rw [Fin.val_castSucc]
        omega
      have hd : (octetsNat (List.ofFn fun i : Fin w => o i.castSucc) * 256 +
          (o (Fin.last w)).toNat) / 256 = octetsNat (List.ofFn fun i : Fin w => o i.castSucc) := by
        omega
      have h := congrArg BitVec.toNat (congrFun (ih fun i => o i.castSucc) j)
      rw [octets, BitVec.toNat_ofNat] at h
      rw [he, Nat.pow_succ', ← Nat.div_div_eq_div_mul, hd]
      exact h

theorem octetsNat_octets_mod (w n : ℕ) : octetsNat (List.ofFn (octets w n)) = n % 256 ^ w := by
  induction w generalizing n with
  | zero => rw [List.ofFn_zero, Nat.pow_zero, Nat.mod_one]; rfl
  | succ w ih =>
    have hinit : (fun i : Fin w => octets (w + 1) n i.castSucc) = octets w (n / 256) := by
      funext i
      have hi := i.isLt
      have he : w + 1 - 1 - i.castSucc.1 = (w - 1 - i.1) + 1 := by
        rw [Fin.val_castSucc]
        omega
      rw [octets, octets, he, Nat.pow_succ', Nat.div_div_eq_div_mul]
    have hlast : (octets (w + 1) n (Fin.last w)).toNat = n % 256 := by
      rw [octets, BitVec.toNat_ofNat, Fin.val_last, Nat.add_sub_cancel, Nat.sub_self, Nat.pow_zero,
        Nat.div_one]
    rw [octetsNat_ofFn_succ, hinit, ih, hlast, Nat.pow_succ', Nat.mod_mul]
    ring

theorem octetsNat_octets {w n : ℕ} (h : n < 256 ^ w) : octetsNat (List.ofFn (octets w n)) = n := by
  rw [octetsNat_octets_mod, Nat.mod_eq_of_lt h]

/-! ## Words in network byte order -/

/-- The word whose memory image is four octets in written order. -/
def networkWord (o : Fin 4 → U8) : U32 := ld32 (List.ofFn o) 0

theorem byte_networkWord (o : Fin 4 → U8) (k : Fin 4) : byte (networkWord o) k = o k := by
  have hk : k.1 < (List.ofFn o).length := by
    rw [List.length_ofFn]
    exact k.isLt
  rw [networkWord, byte_ld32 _ _ k.isLt, Nat.zero_add, rd, List.getD_eq_getElem _ _ hk,
    List.getElem_ofFn]

theorem eq_networkWord {v : U32} {o : Fin 4 → U8} (h : ∀ k : Fin 4, byte v k = o k) :
    v = networkWord o :=
  eq_of_byte (show 32 ≤ 8 * 4 by omega) fun k hk =>
    (h ⟨k, hk⟩).trans (byte_networkWord o ⟨k, hk⟩).symm

/-- The bytes of a number are its octets in the opposite order. -/
theorem byte_ofNat_octets {w v : ℕ} (n : ℕ) (k : Fin w) (hv : 8 * w ≤ v) :
    byte (BitVec.ofNat v n) (w - 1 - k) = octets w n k := by
  have hk := k.isLt
  rw [byte_ofNat n (by omega), octets, Nat.pow_mul]

end Wire
