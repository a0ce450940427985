import ArionDp.Lib.OnesComplement
import ArionDp.Xdp.Kern

/-!
# The packet helpers, byte by byte

* `rd_trnSetMac_words`, `rd_trnSetMac_at`: a MAC address stored from outside the packet, or copied
  inside it;
* `dstMac`, `trnIsMacEqual_iff`: the destination MAC address of a frame;
* `toNat_trnCsumFoldHelper`, **`toNat_trnIpv4CsumInline`**: the checksum in closed form;
* **`csumRound_four_complete`**: the four rounds of the fold, for any accumulator;
* **`rd_trnSetSrcDstIpCsum`**: the rewrite of an IPv4 header.
-/

namespace ArionDp

open Wire

/-! ## MAC addresses -/

/-- Byte `k` of a MAC address. -/
def macByte (mac : Mac) (k : ℕ) : U8 := if h : k < 6 then mac ⟨k, h⟩ else 0

@[simp] theorem length_trnSetMac (dst : ℕ) (mac : Bytes → Fin 3 → U16) (p : Bytes) :
    (trnSetMac dst mac p).length = p.length := by
  simp [trnSetMac]

/-- A word made of two bytes has these bytes. -/
theorem byte_append (a b : U8) : byte (a ++ b) 0 = b ∧ byte (a ++ b) 1 = a := by
  refine ⟨byte_append_zero a b, ?_⟩
  rw [byte_append_succ, byte, Nat.mul_zero, BitVec.extractLsb'_eq_self]

theorem rd_trnSetMac_words (p : Bytes) {dst : ℕ} (mac : Mac) (i : ℕ) (h : dst + 6 ≤ p.length) :
    rd (trnSetMac dst (macWords mac) p) i =
      if dst ≤ i ∧ i < dst + 6 then macByte mac (i - dst) else rd p i := by
  unfold trnSetMac
  rw [rd_st16 _ _ _ (by simp; omega), rd_st16 _ _ _ (by simp; omega), rd_st16 _ _ _ (by omega)]
  have h0 := byte_append (mac 1) (mac 0)
  have h1 := byte_append (mac 3) (mac 2)
  have h2 := byte_append (mac 5) (mac 4)
  by_cases hi : dst ≤ i ∧ i < dst + 6
  · obtain ⟨k, rfl⟩ := Nat.exists_eq_add_of_le hi.1
    have hk : k < 6 := by omega
    rw [if_pos hi, Nat.add_sub_cancel_left, macByte, dif_pos hk]
    simp only [Nat.add_right_inj, Nat.add_assoc, Nat.reduceAdd]
    interval_cases k <;> simp [macWords, h0.1, h0.2, h1.1, h1.2, h2.1, h2.2]
  · rw [if_neg hi, if_neg (by omega), if_neg (by omega), if_neg (by omega), if_neg (by omega),
      if_neg (by omega), if_neg (by omega)]

/-- A MAC address is stored in its place only. -/
theorem rd_trnSetMac_of_ne (p : Bytes) {dst i : ℕ} (mac : Bytes → Fin 3 → U16) (h : i < dst ∨ dst + 6 ≤ i) :
    rd (trnSetMac dst mac p) i = rd p i := by
  rw [trnSetMac, rd_st16_of_ne _ _ (by omega) (by omega), rd_st16_of_ne _ _ (by omega) (by omega),
    rd_st16_of_ne _ _ (by omega) (by omega)]

theorem rd_trnSetMac_at (p : Bytes) {dst s : ℕ} (i : ℕ) (h : dst + 6 ≤ p.length)
    (hs : s + 6 ≤ dst ∨ dst + 6 ≤ s) :
    rd (trnSetMac dst (macAt s) p) i =
      if dst ≤ i ∧ i < dst + 6 then rd p (s + (i - dst)) else rd p i := by
  let p1 := st16 p dst (ld16 p s)
  let p2 := st16 p1 (dst + 2) (ld16 p1 (s + 2))
  have hl1 : p1.length = p.length := length_st16 ..
  have hl2 : p2.length = p.length := (length_st16 ..).trans hl1
  -- the source is still as it was when it is read
  have far1 : ∀ j, s ≤ j → j < s + 6 → rd p1 j = rd p j := fun j h1 h2 =>
    rd_st16_of_ne _ _ (by omega) (by omega)
  have far2 : ∀ j, s ≤ j → j < s + 6 → rd p2 j = rd p j := fun j h1 h2 =>
    (rd_st16_of_ne _ _ (by omega) (by omega)).trans (far1 j h1 h2)
  change rd (st16 p2 (dst + 4) (ld16 p2 (s + 4))) i = _
  rw [rd_copy16 p2 _ _ (by omega), far2 (s + 4) (by omega) (by omega),
    far2 (s + 4 + 1) (by omega) (by omega), rd_copy16 p1 _ _ (by omega),
    far1 (s + 2) (by omega) (by omega), far1 (s + 2 + 1) (by omega) (by omega),
    rd_copy16 p _ _ (by omega)]
  by_cases hi : dst ≤ i ∧ i < dst + 6
  · obtain ⟨k, rfl⟩ := Nat.exists_eq_add_of_le hi.1
    have hk : k < 6 := by omega
    rw [if_pos hi, Nat.add_sub_cancel_left]
    simp only [Nat.add_right_inj, Nat.add_assoc, Nat.reduceAdd]
    interval_cases k <;> simp
  · rw [if_neg hi, if_neg (by omega), if_neg (by omega), if_neg (by omega), if_neg (by omega),
      if_neg (by omega), if_neg (by omega)]

/-- The destination MAC address of a frame. -/
def dstMac (p : Bytes) : Mac := fun k => rd p k

theorem trnIsMacEqual_iff (p : Bytes) (d : Mac) : trnIsMacEqual p 0 d = true ↔ dstMac p = d := by
  have h0 : macWords d p 0 = ld16 (List.ofFn d) 0 := rfl
  have h1 : macWords d p 1 = ld16 (List.ofFn d) 2 := rfl
  have h2 : macWords d p 2 = ld16 (List.ofFn d) 4 := rfl
  have hd : ∀ k : Fin 6, rd (List.ofFn d) k = d k := fun k => by
    rw [rd, List.getD_eq_getElem _ _ (by simp), List.getElem_ofFn]
  rw [trnIsMacEqual, Bool.and_eq_true, Bool.and_eq_true, beq_iff_eq, beq_iff_eq, beq_iff_eq, h0, h1, h2,
    ld16_eq_iff, ld16_eq_iff, ld16_eq_iff]
  constructor
  · rintro ⟨⟨⟨e0, e1⟩, e2, e3⟩, e4, e5⟩
    funext k
    obtain ⟨k, hk⟩ := k
    interval_cases k
    · exact e0.symm.trans (hd 0)
    · exact e1.symm.trans (hd 1)
    · exact e2.symm.trans (hd 2)
    · exact e3.symm.trans (hd 3)
    · exact e4.symm.trans (hd 4)
    · exact e5.symm.trans (hd 5)
  · rintro rfl
    exact ⟨⟨⟨hd 0, hd 1⟩, hd 2, hd 3⟩, hd 4, hd 5⟩

/-! ## Checksums -/

theorem toNat_csumRound (c : U64) : (csumRound c).toNat = OnesComplement.endAround c.toNat := by
  have hlt := c.isLt
  have hshift : (c >>> 16).toNat = c.toNat / 65536 := by
    rw [BitVec.toNat_ushiftRight, Nat.shiftRight_eq_div_pow]
  have hand : (c &&& 0xffff#64).toNat = c.toNat % 65536 := by
    rw [BitVec.toNat_and]
    exact Nat.and_two_pow_sub_one_eq_mod _ 16
  unfold csumRound OnesComplement.endAround
  by_cases h : c >>> 16 = 0
  · have h0 : c.toNat / 65536 = 0 := by rw [← hshift, h]; rfl
    rw [if_neg (not_not.mpr h), if_neg (not_not.mpr h0)]
  · have h0 : c.toNat / 65536 ≠ 0 := fun hc => h (BitVec.eq_of_toNat_eq (hshift.trans hc))
    rw [if_pos h, if_pos h0, BitVec.toNat_add, hand, hshift]
    exact Nat.mod_eq_of_lt (by omega)

/-- The loop of the fold in closed form. -/
theorem toNat_csumRound_four (c : U64) :
    (csumRound (csumRound (csumRound (csumRound c)))).toNat = OnesComplement.residue c.toNat := by
  simp only [toNat_csumRound]
  exact OnesComplement.endAround_four c.isLt

/-- **The fold computes the checksum of any accumulator.** -/
theorem toNat_trnCsumFoldHelper (c : U64) :
    (trnCsumFoldHelper c).toNat = OnesComplement.checksum c.toNat := by
  have hle := OnesComplement.residue_le c.toNat
  unfold trnCsumFoldHelper OnesComplement.checksum
  rw [BitVec.toNat_setWidth, BitVec.toNat_not, toNat_csumRound_four]
  omega

/-- **Four rounds are enough for any accumulator.** The loop ends with a 16-bit value of its class modulo `0xffff`,
which is zero for the accumulator zero only, and what is returned is its complement. -/
theorem csumRound_four_complete (csum : U64) :
    let v := csumRound (csumRound (csumRound (csumRound csum)))
    v ≤ 0xffff ∧ v.toNat ≡ csum.toNat [MOD 0xffff] ∧ (v = 0 ↔ csum = 0) ∧
      (trnCsumFoldHelper csum).toNat = 0xffff - v.toNat := by
  have hv := toNat_csumRound_four csum
  generalize csumRound (csumRound (csumRound (csumRound csum))) = v at hv
  have hzero : ∀ w : U64, w = 0 ↔ w.toNat = 0 := fun w => BitVec.toNat_eq (y := 0)
  refine ⟨?_, ?_, ?_, ?_⟩
  · rw [BitVec.le_def, hv]
    exact OnesComplement.residue_le csum.toNat
  · rw [hv]
    exact OnesComplement.residue_modEq csum.toNat
  · rw [hzero, hzero, hv]
    exact OnesComplement.residue_eq_zero_iff csum.toNat
  · rw [hv]
    exact toNat_trnCsumFoldHelper csum

theorem toNat_csumWords (p : Bytes) : ∀ (n o : ℕ) (c : U64), c.toNat + n * 65536 < 2 ^ 64 →
    (csumWords p o n c).toNat =
      c.toNat + ((List.range n).map fun k => (ld16 p (o + 2 * k)).toNat).sum
  | 0, o, c, _ => by simp [csumWords]
  | n + 1, o, c, h => by
    have hw := (ld16 p o).isLt
    have hadd : (c + (ld16 p o).setWidth 64).toNat = c.toNat + (ld16 p o).toNat := by
      rw [BitVec.toNat_add, BitVec.toNat_setWidth, Nat.mod_eq_of_lt (by omega : _ < 2 ^ 64),
        Nat.mod_eq_of_lt (by omega)]
    rw [csumWords, toNat_csumWords p n (o + 2) _ (by omega), hadd, List.range_succ_eq_map]
    simp only [List.map_cons, List.map_map, List.sum_cons, Nat.mul_zero, Nat.add_zero, Nat.add_assoc]
    congr 4
    funext k
    simp only [Function.comp_apply, Nat.succ_eq_add_one]
    rw [Nat.mul_add, Nat.mul_one, Nat.add_comm 2]

/-- The sum of the words of an IPv4 header, its checksum left out. -/
def ipHdrSum (p : Bytes) (ip : ℕ) : ℕ :=
  ([0, 2, 4, 6, 8, 12, 14, 16, 18].map fun k => (ld16 p (ip + k)).toNat).sum

/-- **The checksum of a header whose check field is zero.** -/
theorem toNat_trnIpv4CsumInline (p : Bytes) (ip : ℕ) (h : ld16 p (ip + 10) = 0) :
    (trnIpv4CsumInline p ip 0).toNat = OnesComplement.checksum (ipHdrSum p ip) := by
  have hsum : (csumWords p ip 10 0).toNat = ipHdrSum p ip := by
    rw [toNat_csumWords p 10 ip 0 (by decide)]
    simp [ipHdrSum, List.range_succ, h]
  have hle := OnesComplement.checksum_le (ipHdrSum p ip)
  rw [trnIpv4CsumInline, BitVec.toNat_setWidth, toNat_trnCsumFoldHelper, sizeofIphdr, hsum]
  exact Nat.mod_eq_of_lt (by omega)

/-! ## The header rewrite -/

/-- A header byte after the rewrite, the checksum left out. -/
def ipHdrByte (p : Bytes) (ip : ℕ) (saddr daddr : U32) (i : ℕ) : U8 :=
  if i = ip + 8 then rd p i - 1
  else if ip + 12 ≤ i ∧ i < ip + 16 then byte saddr (i - (ip + 12))
  else if ip + 16 ≤ i ∧ i < ip + 20 then byte daddr (i - (ip + 16))
  else rd p i

/-- The header with the new addresses and TTL, before the checksum. -/
def ipHdrStage (ip : ℕ) (saddr daddr : U32) (p : Bytes) : Bytes :=
  trnSetDstIp ip daddr (trnSetSrcIp ip saddr (wr p (ip + 8) (rd p (ip + 8) - 1)))

section Header

variable (p : Bytes) {ip : ℕ} (saddr daddr : U32)

theorem trnSetSrcDstIpCsum_eq :
    trnSetSrcDstIpCsum ip saddr daddr p = st16 (st16 (ipHdrStage ip saddr daddr p) (ip + 10) 0) (ip + 10)
      ((trnIpv4CsumInline (st16 (ipHdrStage ip saddr daddr p) (ip + 10) 0) ip 0).setWidth 16) := rfl

@[simp] theorem length_trnSetSrcIp (ip : ℕ) : (trnSetSrcIp ip saddr p).length = p.length := by
  unfold trnSetSrcIp
  split_ifs <;> simp

@[simp] theorem length_trnSetDstIp (ip : ℕ) : (trnSetDstIp ip daddr p).length = p.length := by
  unfold trnSetDstIp
  split_ifs <;> simp

@[simp] theorem length_ipHdrStage (ip : ℕ) : (ipHdrStage ip saddr daddr p).length = p.length := by
  simp [ipHdrStage]

@[simp] theorem length_trnSetSrcDstIpCsum (ip : ℕ) :
    (trnSetSrcDstIpCsum ip saddr daddr p).length = p.length := by
  simp [trnSetSrcDstIpCsum_eq]

theorem rd_trnSetSrcIp (h : ip + 20 ≤ p.length) (i : ℕ) :
    rd (trnSetSrcIp ip saddr p) i =
      if ip + 12 ≤ i ∧ i < ip + 16 then byte saddr (i - (ip + 12)) else rd p i := by
  rw [trnSetSrcIp, if_neg (by omega), rd_st32_byte _ _ _ (by omega)]

theorem rd_trnSetDstIp (h : ip + 20 ≤ p.length) (i : ℕ) :
    rd (trnSetDstIp ip daddr p) i =
      if ip + 16 ≤ i ∧ i < ip + 20 then byte daddr (i - (ip + 16)) else rd p i := by
  rw [trnSetDstIp, if_neg (by omega), rd_st32_byte _ _ _ (by omega)]

theorem rd_ipHdrStage (h : ip + 20 ≤ p.length) (i : ℕ) :
    rd (ipHdrStage ip saddr daddr p) i = ipHdrByte p ip saddr daddr i := by
  rw [ipHdrStage, rd_trnSetDstIp _ _ (by simpa using h), rd_trnSetSrcIp _ _ (by simpa using h),
    rd_wr _ _ _ (by omega), ipHdrByte]
  by_cases h8 : i = ip + 8
  · rw [if_neg (by omega), if_neg (by omega), if_pos h8, if_pos h8, h8]
  by_cases h16 : ip + 16 ≤ i ∧ i < ip + 20
  · rw [if_pos h16, if_neg h8, if_neg (by omega), if_pos h16]
  · rw [if_neg h16, if_neg h8, if_neg h8, if_neg h16]

/-- **Every byte after the rewrite of a header, but for its checksum.** -/
theorem rd_trnSetSrcDstIpCsum (h : ip + 20 ≤ p.length) {i : ℕ} (h10 : i ≠ ip + 10)
    (h11 : i ≠ ip + 11) :
    rd (trnSetSrcDstIpCsum ip saddr daddr p) i = ipHdrByte p ip saddr daddr i := by
  rw [trnSetSrcDstIpCsum_eq, rd_st16_of_ne _ _ h10 h11, rd_st16_of_ne _ _ h10 h11,
    rd_ipHdrStage _ _ _ h]

theorem ipHdrSum_st16 (v : U16) : ipHdrSum (st16 p (ip + 10) v) ip = ipHdrSum p ip := by
  have hw : ∀ k, k + 1 < 10 ∨ 11 < k → ld16 (st16 p (ip + 10) v) (ip + k) = ld16 p (ip + k) :=
    fun k hk => ld16_st16_of_ne _ _ (by omega)
  have h0 := hw 0 (by omega)
  simp [ipHdrSum, hw] at h0 ⊢
  rw [h0]

/-- **The checksum after the rewrite is the one of the new header.** -/
theorem check_trnSetSrcDstIpCsum (h : ip + 20 ≤ p.length) :
    (ld16 (trnSetSrcDstIpCsum ip saddr daddr p) (ip + 10)).toNat =
      OnesComplement.checksum (ipHdrSum (trnSetSrcDstIpCsum ip saddr daddr p) ip) := by
  have hzero : ld16 (st16 (ipHdrStage ip saddr daddr p) (ip + 10) 0) (ip + 10) = 0 :=
    ld16_st16 _ _ (by simp; omega)
  have hle := OnesComplement.checksum_le (ipHdrSum (st16 (ipHdrStage ip saddr daddr p) (ip + 10) 0) ip)
  rw [trnSetSrcDstIpCsum_eq, ipHdrSum_st16, ld16_st16 _ _ (by simp; omega), BitVec.toNat_setWidth,
    toNat_trnIpv4CsumInline _ _ hzero]
  exact Nat.mod_eq_of_lt (by omega)

end Header

end ArionDp
