import ArionDp.Xdp.Checksums
import ArionDp.Xdp.Ports

/-!
# Rewriting the addresses of the inner packet

`trn_set_src_dst_inner_ip_csum` stores new addresses, updates the transport checksum by their differences and computes
the checksum of the IPv4 header.

* `trnSetSrcDstInnerIpCsum` and what it calls;
* `addrCheck`, **`toNat_innerCsum`**: one update in closed form; `addrCheck_mod`, `addrCheck_eq_max_iff`: its class
  modulo `0xffff`, and when it is all ones;
* `InnerEdits`, **`trnSetSrcDstInnerIpCsum_edits`**: the packet after the rewrite;
* `InnerChecksumsKept`, `AddrsKeep`, **`innerChecksumsKept_iff`**: the packets and addresses for which every checksum
  is as it should be. An absent UDP checksum is updated like any other, and the update can end with zero.
-/

namespace ArionDp

open Wire

/-! ## The code -/

/-- `trn_update_l4_csum` -/
def trnUpdateL4Csum (csum : U64) (oldAddr newAddr : U32) : U64 :=
  (trnCsumFoldHelper ((~~~ csum &&& 0xffff#64) + (~~~ oldAddr).setWidth 64 + newAddr.setWidth 64)).setWidth 64

/-- The checksum at offset `check` after an address has changed. -/
def trnAddrCsum (check : ℕ) (oldAddr newAddr : U32) (p : Bytes) : Bytes :=
  st16 p check ((trnUpdateL4Csum ((ld16 p check).setWidth 64) oldAddr newAddr).setWidth 16)

/-- The part of `trn_inner_l4_csum_update` for TCP. -/
def trnInnerTcpCsumUpdate (pkt : TransitPacket) (oldAddr newAddr : U32) : TransitPacket :=
  if rd pkt.data (pkt.innerIp + 9) = ipprotoTcp then
    if pkt.innerTcp = 0 then pkt
    else if pkt.innerTcp + sizeofTcphdr > pkt.data.length then pkt
    else { pkt with data := trnAddrCsum (pkt.innerTcp + 16) oldAddr newAddr pkt.data }
  else pkt

/-- `trn_inner_l4_csum_update`. A pointer that has not been set is `0`. -/
def trnInnerL4CsumUpdate (pkt : TransitPacket) (oldAddr newAddr : U32) : TransitPacket :=
  if newAddr = oldAddr then pkt
  else if rd pkt.data (pkt.innerIp + 9) = ipprotoUdp then
    if pkt.innerUdp = 0 then pkt
    else if pkt.innerUdp + sizeofUdphdr > pkt.data.length then pkt
    else trnInnerTcpCsumUpdate
      { pkt with data := trnAddrCsum (pkt.innerUdp + 6) oldAddr newAddr pkt.data } oldAddr newAddr
  else trnInnerTcpCsumUpdate pkt oldAddr newAddr

/-- `trn_set_src_dst_inner_ip_csum` -/
def trnSetSrcDstInnerIpCsum (pkt : TransitPacket) (saddr daddr : U32) : TransitPacket :=
  if pkt.innerIp + sizeofIphdr > pkt.data.length then pkt
  else
    let oldSaddr := ld32 pkt.data (pkt.innerIp + 12)
    let oldDaddr := ld32 pkt.data (pkt.innerIp + 16)
    let pkt := { pkt with data := trnSetSrcIp pkt.innerIp saddr pkt.data }
    let pkt := trnInnerL4CsumUpdate pkt oldSaddr saddr
    let pkt := { pkt with data := trnSetDstIp pkt.innerIp daddr pkt.data }
    let pkt := trnInnerL4CsumUpdate pkt oldDaddr daddr
    let pkt := { pkt with data := st16 pkt.data (pkt.innerIp + 10) 0 }
    let csum := trnIpv4CsumInline pkt.data pkt.innerIp 0
    { pkt with data := st16 pkt.data (pkt.innerIp + 10) (csum.setWidth 16) }

/-! ## One update -/

/-- The transport checksum after one update. -/
def addrCheck (c old new : ℕ) : ℕ :=
  if new = old then c else OnesComplement.checksum (65535 - c + (2 ^ 32 - 1 - old) + new)

/-- What one update does to the bytes. -/
def innerCsum (check : ℕ) (old new : U32) (p : Bytes) : Bytes :=
  if new = old then p else trnAddrCsum check old new p

@[simp] theorem length_innerCsum (check : ℕ) (old new : U32) (p : Bytes) :
    (innerCsum check old new p).length = p.length := by
  unfold innerCsum trnAddrCsum
  split_ifs <;> simp

theorem rd_innerCsum_of_ne (p : Bytes) {check i : ℕ} (old new : U32) (h : i ≠ check) (h' : i ≠ check + 1) :
    rd (innerCsum check old new p) i = rd p i := by
  unfold innerCsum
  split_ifs
  · rfl
  · exact rd_st16_of_ne _ _ h h'

/-- The accumulator does not wrap around. -/
theorem toNat_addrAccumulator (c : U16) (old new : U32) :
    ((~~~ (c.setWidth 64 : U64) &&& 0xffff#64) + (~~~ old).setWidth 64 + new.setWidth 64).toNat =
      65535 - c.toNat + (2 ^ 32 - 1 - old.toNat) + new.toNat := by
  have hold := old.isLt
  have hnew := new.isLt
  rw [BitVec.toNat_add, BitVec.toNat_add, toNat_csumComplement, BitVec.toNat_setWidth_of_le (by decide),
    BitVec.toNat_not, BitVec.toNat_setWidth_of_le (by decide)]
  omega

/-- **One update in closed form.** -/
theorem toNat_innerCsum (p : Bytes) {check : ℕ} (h : check + 1 < p.length) (old new : U32) :
    (ld16 (innerCsum check old new p) check).toNat = addrCheck (ld16 p check).toNat old.toNat new.toNat := by
  have hcs := (ld16 p check).isLt
  rw [innerCsum, addrCheck]
  by_cases heq : new = old
  · rw [if_pos heq, if_pos (congrArg BitVec.toNat heq)]
  · have hne : new.toNat ≠ old.toNat := fun h => heq (BitVec.eq_of_toNat_eq h)
    have hle := OnesComplement.checksum_le
      (65535 - (ld16 p check).toNat + (2 ^ 32 - 1 - old.toNat) + new.toNat)
    rw [if_neg heq, if_neg hne, trnAddrCsum, ld16_st16 _ _ h, trnUpdateL4Csum, BitVec.toNat_setWidth,
      BitVec.toNat_setWidth, toNat_trnCsumFoldHelper, toNat_addrAccumulator]
    omega

section AddrCheck

variable {c old : ℕ} (new : ℕ)

theorem addrCheck_le (old : ℕ) (hc : c ≤ 65535) : addrCheck c old new ≤ 65535 := by
  unfold addrCheck
  split_ifs
  · exact hc
  · exact OnesComplement.checksum_le _

/-- **An update is right modulo `0xffff`.** -/
theorem addrCheck_mod (hc : c ≤ 65535) (hold : old < 2 ^ 32) :
    (addrCheck c old new + new) % 65535 = (c + old) % 65535 := by
  unfold addrCheck
  split_ifs with heq
  · rw [heq]
  · have h1 := OnesComplement.residue_le (65535 - c + (2 ^ 32 - 1 - old) + new)
    have h2 := OnesComplement.residue_modEq (65535 - c + (2 ^ 32 - 1 - old) + new)
    unfold OnesComplement.checksum
    omega

/-- **All ones** come of all ones only: the accumulator is zero, or nothing is updated. -/
theorem addrCheck_eq_max_iff (hc : c ≤ 65535) (hold : old < 2 ^ 32) :
    addrCheck c old new = 65535 ↔ c = 65535 ∧ (new = old ∨ old = 2 ^ 32 - 1 ∧ new = 0) := by
  unfold addrCheck
  split_ifs with heq
  · omega
  · have h1 := OnesComplement.residue_le (65535 - c + (2 ^ 32 - 1 - old) + new)
    have h3 := OnesComplement.residue_eq_zero_iff (65535 - c + (2 ^ 32 - 1 - old) + new)
    unfold OnesComplement.checksum
    omega

end AddrCheck

/-! ## The packet after the rewrite -/

variable {pkt : TransitPacket} {o : ℕ}

/-- **The update of a found segment** goes to its check field. -/
theorem InnerSegment.trnInnerL4CsumUpdate_eq (h : InnerSegment pkt o) {p : Bytes}
    (hproto : rd p (pkt.innerIp + 9) = rd pkt.data (pkt.innerIp + 9)) (hl : p.length = pkt.data.length)
    (old new : U32) :
    trnInnerL4CsumUpdate { pkt with data := p } old new =
      { pkt with data := innerCsum (o + 2 * l4CheckWord pkt.data pkt.innerIp) old new p } := by
  have hheader : pkt.innerIp + 20 ≤ o := h.header
  have hroom := h.room
  have hcomplete := h.complete
  have hne : ¬ ipprotoTcp = ipprotoUdp := by decide
  have hne' : ¬ ipprotoUdp = ipprotoTcp := by decide
  unfold trnInnerL4CsumUpdate innerCsum
  by_cases heq : new = old
  · rw [if_pos heq, if_pos heq]
  obtain hp | hp := h.protocol
  · have ho := h.innerTcp hp
    rw [hp, if_neg hne] at hroom
    simp only [if_neg heq, hproto, hp, if_neg hne, trnInnerTcpCsumUpdate, l4CheckWord, ho, hl, if_true]
    rw [if_neg (by omega), if_neg (by omega)]
  · have ho := h.innerUdp hp
    rw [hp, if_pos rfl] at hroom
    -- the protocol is not stored to
    have hstay : rd (trnAddrCsum (o + 6) old new p) (pkt.innerIp + 9) = ipprotoUdp := by
      rw [trnAddrCsum, rd_st16_of_ne _ _ (by omega) (by omega), hproto, hp]
    simp only [if_neg heq, hproto, hp, trnInnerTcpCsumUpdate, l4CheckWord, ho, hl, if_true, hstay, if_neg hne']
    rw [if_neg (by omega), if_neg (by omega)]

/-- The packet `out` after new addresses have been stored in the header at `ip`, with the transport checksum at
`check`. -/
structure InnerEdits (p out : Bytes) (ip check : ℕ) (saddr daddr : U32) : Prop where
  length : out.length = p.length
  src : ld32 out (ip + 12) = saddr
  dst : ld32 out (ip + 16) = daddr
  hdrCheck : (ld16 out (ip + 10)).toNat = OnesComplement.checksum (ipHdrSum out ip)
  l4Check : (ld16 out check).toNat = addrCheck
    (addrCheck (ld16 p check).toNat (ld32 p (ip + 12)).toNat saddr.toNat) (ld32 p (ip + 16)).toNat daddr.toNat
  other : ∀ i, i < ip + 10 ∨ ip + 20 ≤ i → i ≠ check → i ≠ check + 1 → rd out i = rd p i

/-- A stored word is loaded again. -/
theorem ld32_eq_of_byte {p : Bytes} {a : ℕ} {v : U32} (h : ∀ k < 4, rd p (a + k) = byte v k) : ld32 p a = v := by
  refine eq_of_byte (show 32 ≤ 8 * 4 by omega) fun k hk => ?_
  rw [byte_ld32 p a hk, h k hk]

/-- The bytes before the checksum of the header is computed. -/
def innerStage (ip check : ℕ) (saddr daddr : U32) (p : Bytes) : Bytes :=
  innerCsum check (ld32 p (ip + 16)) daddr
    (trnSetDstIp ip daddr (innerCsum check (ld32 p (ip + 12)) saddr (trnSetSrcIp ip saddr p)))

section Stage

variable (p : Bytes) {ip check : ℕ} (saddr daddr : U32)

@[simp] theorem length_innerStage : (innerStage ip check saddr daddr p).length = p.length := by
  simp [innerStage]

theorem rd_innerStage (h : ip + 20 ≤ p.length) {i : ℕ} (hi : i ≠ check) (hi' : i ≠ check + 1) :
    rd (innerStage ip check saddr daddr p) i =
      if ip + 16 ≤ i ∧ i < ip + 20 then byte daddr (i - (ip + 16))
      else if ip + 12 ≤ i ∧ i < ip + 16 then byte saddr (i - (ip + 12)) else rd p i := by
  rw [innerStage, rd_innerCsum_of_ne _ _ _ hi hi', rd_trnSetDstIp _ _ (by simpa using h),
    rd_innerCsum_of_ne _ _ _ hi hi', rd_trnSetSrcIp _ _ (by simpa using h)]

/-- The transport checksum is updated twice. -/
theorem check_innerStage (h : ip + 20 ≤ check) (hc : check + 1 < p.length) :
    (ld16 (innerStage ip check saddr daddr p) check).toNat = addrCheck
      (addrCheck (ld16 p check).toNat (ld32 p (ip + 12)).toNat saddr.toNat)
      (ld32 p (ip + 16)).toNat daddr.toNat := by
  have hdst : ∀ q : Bytes, q.length = p.length → ld16 (trnSetDstIp ip daddr q) check = ld16 q check := by
    intro q hq
    rw [ld16_eq_iff, rd_trnSetDstIp _ _ (by omega), rd_trnSetDstIp _ _ (by omega), if_neg (by omega),
      if_neg (by omega)]
    exact ⟨rfl, rfl⟩
  have hsrc : ld16 (trnSetSrcIp ip saddr p) check = ld16 p check := by
    rw [ld16_eq_iff, rd_trnSetSrcIp _ _ (by omega), rd_trnSetSrcIp _ _ (by omega), if_neg (by omega),
      if_neg (by omega)]
    exact ⟨rfl, rfl⟩
  rw [innerStage, toNat_innerCsum _ (by simpa using hc), hdst _ (by simp), toNat_innerCsum _ (by simpa using hc),
    hsrc]

/-- **The bytes after the whole rewrite.** -/
theorem innerEdits_of_stage (h : ip + 20 ≤ check) (hc : check + 1 < p.length) :
    let stage := st16 (innerStage ip check saddr daddr p) (ip + 10) 0
    InnerEdits p (st16 stage (ip + 10) ((trnIpv4CsumInline stage ip 0).setWidth 16)) ip check saddr daddr := by
  intro stage
  generalize hv : (trnIpv4CsumInline stage ip 0).setWidth 16 = v
  have hrd : ∀ i, i ≠ ip + 10 → i ≠ ip + 11 →
      rd (st16 stage (ip + 10) v) i = rd (innerStage ip check saddr daddr p) i := fun i h10 h11 => by
    rw [rd_st16_of_ne _ _ h10 h11, rd_st16_of_ne _ _ h10 h11]
  refine ⟨by simp [stage], ?_, ?_, ?_, ?_, ?_⟩
  · refine ld32_eq_of_byte fun k hk => ?_
    rw [hrd _ (by omega) (by omega), rd_innerStage _ _ _ (by omega) (by omega) (by omega), if_neg (by omega),
      if_pos (by omega), Nat.add_sub_cancel_left]
  · refine ld32_eq_of_byte fun k hk => ?_
    rw [hrd _ (by omega) (by omega), rd_innerStage _ _ _ (by omega) (by omega) (by omega), if_pos (by omega),
      Nat.add_sub_cancel_left]
  · have hzero : ld16 stage (ip + 10) = 0 := ld16_st16 _ _ (by simp; omega)
    have hle := OnesComplement.checksum_le (ipHdrSum stage ip)
    rw [ipHdrSum_st16, ld16_st16 _ _ (by simp [stage]; omega), ← hv, BitVec.toNat_setWidth,
      toNat_trnIpv4CsumInline _ _ hzero]
    exact Nat.mod_eq_of_lt (by omega)
  · rw [← check_innerStage p saddr daddr h hc]
    refine congrArg BitVec.toNat ((ld16_eq_iff ..).2 ⟨hrd _ (by omega) (by omega), hrd _ (by omega) (by omega)⟩)
  · intro i hi hi1 hi2
    rw [hrd _ (by omega) (by omega), rd_innerStage _ _ _ (by omega) hi1 hi2, if_neg (by omega), if_neg (by omega)]

end Stage

/-- **The packet after `trn_set_src_dst_inner_ip_csum`.** -/
theorem InnerSegment.trnSetSrcDstInnerIpCsum_edits (h : InnerSegment pkt o) (saddr daddr : U32) :
    InnerEdits pkt.data (trnSetSrcDstInnerIpCsum pkt saddr daddr).data pkt.innerIp
      (o + 2 * l4CheckWord pkt.data pkt.innerIp) saddr daddr := by
  have hheader : pkt.innerIp + 20 ≤ o := h.header
  have hcomplete := h.complete
  have hcw := h.checkWord_lt
  let p1 := trnSetSrcIp pkt.innerIp saddr pkt.data
  have hp1 : rd p1 (pkt.innerIp + 9) = rd pkt.data (pkt.innerIp + 9) := by
    rw [rd_trnSetSrcIp _ _ (by omega), if_neg (by omega)]
  let p2 := innerCsum (o + 2 * l4CheckWord pkt.data pkt.innerIp) (ld32 pkt.data (pkt.innerIp + 12)) saddr p1
  have hl2 : p2.length = pkt.data.length := by simp [p2, p1]
  let p3 := trnSetDstIp pkt.innerIp daddr p2
  have hp3 : rd p3 (pkt.innerIp + 9) = rd pkt.data (pkt.innerIp + 9) := by
    rw [rd_trnSetDstIp _ _ (by omega), if_neg (by omega), rd_innerCsum_of_ne _ _ _ (by omega) (by omega), hp1]
  have heq : (trnSetSrcDstInnerIpCsum pkt saddr daddr).data =
      let stage := st16 (innerStage pkt.innerIp (o + 2 * l4CheckWord pkt.data pkt.innerIp) saddr daddr pkt.data)
        (pkt.innerIp + 10) 0
      st16 stage (pkt.innerIp + 10) ((trnIpv4CsumInline stage pkt.innerIp 0).setWidth 16) := by
    have hfits : ¬ pkt.innerIp + 20 > pkt.data.length := by omega
    rw [trnSetSrcDstInnerIpCsum, if_neg hfits]
    have h1 := h.trnInnerL4CsumUpdate_eq hp1 (by simp [p1]) (ld32 pkt.data (pkt.innerIp + 12)) saddr
    have h3 := h.trnInnerL4CsumUpdate_eq hp3 (by simp [p3, hl2]) (ld32 pkt.data (pkt.innerIp + 16)) daddr
    simp only [p1] at h1
    simp only [p3, p2, p1] at h3
    simp only [h1, h3, innerStage]
  rw [heq]
  exact innerEdits_of_stage pkt.data saddr daddr (by omega) (by omega)

/-! ## When every checksum is as it should be -/

/-- A UDP datagram without a checksum. -/
def L4Absent (p : Bytes) (ip o : ℕ) : Prop := rd p (ip + 9) = ipprotoUdp ∧ l4Check p ip o = 0

instance decidableL4Absent (p : Bytes) (ip o : ℕ) : Decidable (L4Absent p ip o) :=
  inferInstanceAs (Decidable (_ ∧ _))

/-- **Every checksum is as it should be**: that of the header is valid, an absent one is still absent, and a present
one is still present and valid. -/
def InnerChecksumsKept (p out : Bytes) (ip o : ℕ) : Prop :=
  OnesComplement.sum (ipHdrWords out ip) = 65535 ∧ (L4Absent p ip o → L4Absent out ip o) ∧
    (¬ L4Absent p ip o → ¬ L4Absent out ip o ∧ L4Valid out ip o)

/-- An address whose update can leave all ones alone: it stays, or goes from 255.255.255.255 to 0.0.0.0. -/
def AddrInert (old new : U32) : Prop := new = old ∨ old = 0xffffffff ∧ new = 0

/-- The updated checksum of a UDP datagram is zero if and only if the old one was. -/
def AddrsKeep (check : U16) (oldSaddr oldDaddr saddr daddr : U32) : Prop :=
  if check = 0 then oldSaddr.toNat + oldDaddr.toNat ≡ saddr.toNat + daddr.toNat [MOD 65535]
  else ¬ check.toNat + (oldSaddr.toNat + oldDaddr.toNat) ≡ saddr.toNat + daddr.toNat [MOD 65535] ∨
    check = 0xffff ∧ AddrInert oldSaddr saddr ∧ AddrInert oldDaddr daddr

theorem addrInert_iff (old new : U32) :
    AddrInert old new ↔ new.toNat = old.toNat ∨ old.toNat = 2 ^ 32 - 1 ∧ new.toNat = 0 := by
  have hones : old = 0xffffffff ↔ old.toNat = 2 ^ 32 - 1 := BitVec.toNat_eq (y := 0xffffffff)
  have hzero : new = 0 ↔ new.toNat = 0 := BitVec.toNat_eq (y := 0)
  rw [AddrInert, hones, hzero, BitVec.toNat_inj]

variable {p out : Bytes} {ip check : ℕ} {saddr daddr : U32}

/-- **The transport checksum after both updates**: its class modulo `0xffff`, and when it is all ones. -/
theorem InnerEdits.check_spec (h : InnerEdits p out ip check saddr daddr) :
    ((ld16 out check).toNat + (saddr.toNat + daddr.toNat)) % 65535 =
        ((ld16 p check).toNat + ((ld32 p (ip + 12)).toNat + (ld32 p (ip + 16)).toNat)) % 65535 ∧
      ((ld16 out check).toNat = 65535 ↔ (ld16 p check).toNat = 65535 ∧
        AddrInert (ld32 p (ip + 12)) saddr ∧ AddrInert (ld32 p (ip + 16)) daddr) := by
  have hc : (ld16 p check).toNat ≤ 65535 := Nat.le_of_lt_succ (ld16 p check).isLt
  have hs := (ld32 p (ip + 12)).isLt
  have hd := (ld32 p (ip + 16)).isLt
  rw [addrInert_iff, addrInert_iff, h.l4Check]
  generalize (ld16 p check).toNat = c at hc ⊢
  generalize (ld32 p (ip + 12)).toNat = olds at hs ⊢
  generalize (ld32 p (ip + 16)).toNat = oldd at hd ⊢
  have hmid := addrCheck_le saddr.toNat olds hc
  have hmod1 := addrCheck_mod saddr.toNat hc hs
  have hmod2 := addrCheck_mod daddr.toNat hmid hd
  constructor
  · omega
  · rw [addrCheck_eq_max_iff _ hmid hd, addrCheck_eq_max_iff _ hc hs, and_assoc]

/-- **A checksum turns into zero, or stays zero**, by its class. -/
theorem InnerEdits.zero_iff (h : InnerEdits p out ip check saddr daddr) :
    (ld16 p check = 0 ↔ ld16 out check = 0) ↔
      AddrsKeep (ld16 p check) (ld32 p (ip + 12)) (ld32 p (ip + 16)) saddr daddr := by
  obtain ⟨hmod, hmax⟩ := h.check_spec
  have hlt := (ld16 out check).isLt
  have hzero : ∀ v : U16, v = 0 ↔ v.toNat = 0 := fun v => BitVec.toNat_eq (y := 0)
  have hones : ld16 p check = 0xffff ↔ (ld16 p check).toNat = 65535 := BitVec.toNat_eq (y := 0xffff)
  rw [AddrsKeep, hones, hzero (ld16 out check)]
  generalize (AddrInert (ld32 p (ip + 12)) saddr ∧ AddrInert (ld32 p (ip + 16)) daddr) = inert at hmax ⊢
  unfold Nat.ModEq
  by_cases h0 : ld16 p check = 0
  · rw [if_pos h0, iff_true_left h0]
    rw [hzero] at h0
    have hne : (ld16 out check).toNat ≠ 65535 := fun hm => by
      have := (hmax.1 hm).1
      omega
    omega
  · rw [if_neg h0, ← hmax, iff_false_left h0]
    rw [hzero] at h0
    omega

/-- The words of a packet that has been rewritten. -/
theorem InnerEdits.word (h : InnerEdits p out ip check saddr daddr) {i : ℕ}
    (hi : i + 1 < ip + 10 ∨ ip + 20 ≤ i) (hc : i + 1 < check ∨ check + 1 < i) : ld16 out i = ld16 p i :=
  (ld16_eq_iff ..).2 ⟨h.other _ (by omega) (by omega) (by omega), h.other _ (by omega) (by omega) (by omega)⟩

/-- **The transport checksum is right after the rewrite** if it was before. -/
theorem InnerEdits.sum_modEq (h : InnerEdits p out ip (o + 2 * l4CheckWord p ip) saddr daddr)
    (hseg : L4Segment p ip o) :
    L4Segment out ip o ∧ (l4Sum out ip o).sum ≡ (l4Sum p ip o).sum [MOD 65535] := by
  have hheader : ip + 20 ≤ o := hseg.header
  have hcw := hseg.checkWord_lt
  have hcases := l4CheckWord_cases p ip
  obtain ⟨hmod, -⟩ := h.check_spec
  generalize l4CheckWord p ip = c at h hcw hcases hmod
  have hproto : rd out (ip + 9) = rd p (ip + 9) := h.other _ (by omega) (by omega) (by omega)
  obtain ⟨hlen, hsum⟩ := l4Sum_edits p out ip o (l := [c])
    (w := fun k => ld16 out (o + 2 * k)) (by simp) (by simp; omega) hproto
    (h.word (by omega) (by omega)) (fun k _ => rfl) (fun k hk => by
      have hk' : k ≠ c := by simpa using hk
      exact h.word (by omega) (by omega))
  refine ⟨hseg.congr hproto hlen h.length, ?_⟩
  simp only [List.map_cons, List.map_nil, List.sum_cons, List.sum_nil] at hsum
  rw [cut_of_lt _ (by omega), cut_of_lt _ (by omega)] at hsum
  have ha := l4Addrs_modEq p ip
  have hb := l4Addrs_modEq out ip
  rw [h.src, h.dst] at hb
  unfold Nat.ModEq at *
  omega

/-- **The packets and addresses for which every checksum is as it should be**: any TCP segment, and a UDP datagram
whose checksum does not come and go. -/
theorem innerChecksumsKept_iff (h : InnerSegment pkt (pkt.innerIp + sizeofIphdr))
    (hv : L4Absent pkt.data pkt.innerIp (pkt.innerIp + sizeofIphdr) ∨
      L4Valid pkt.data pkt.innerIp (pkt.innerIp + sizeofIphdr)) (saddr daddr : U32) :
    InnerChecksumsKept pkt.data (trnSetSrcDstInnerIpCsum pkt saddr daddr).data pkt.innerIp
        (pkt.innerIp + sizeofIphdr) ↔
      rd pkt.data (pkt.innerIp + 9) ≠ ipprotoUdp ∨
        AddrsKeep (l4Check pkt.data pkt.innerIp (pkt.innerIp + sizeofIphdr)) (ld32 pkt.data (pkt.innerIp + 12))
          (ld32 pkt.data (pkt.innerIp + 16)) saddr daddr := by
  have hed := h.trnSetSrcDstInnerIpCsum_edits saddr daddr
  generalize (trnSetSrcDstInnerIpCsum pkt saddr daddr).data = out at hed ⊢
  generalize pkt.innerIp + sizeofIphdr = o at h hv hed ⊢
  have hheader : pkt.innerIp + 20 ≤ o := h.header
  have hproto : rd out (pkt.innerIp + 9) = rd pkt.data (pkt.innerIp + 9) :=
    hed.other _ (by omega) (by omega) (by omega)
  obtain ⟨hseg, hmod⟩ := hed.sum_modEq h.toL4Segment
  have hvalid : L4Valid pkt.data pkt.innerIp o → L4Valid out pkt.innerIp o := fun hp =>
    hseg.valid_iff.2 (hmod.trans (h.valid_iff.1 hp))
  have hcheck : l4Check out pkt.innerIp o = ld16 out (o + 2 * l4CheckWord pkt.data pkt.innerIp) := by
    rw [l4Check, l4CheckWord, hproto, ← l4CheckWord]
  have hzero := hed.zero_iff
  rw [← hcheck, ← l4Check] at hzero
  rw [InnerChecksumsKept, and_iff_right (sum_ipHdrWords hed.hdrCheck), ← hzero, L4Absent, L4Absent, hproto]
  rw [L4Absent] at hv
  by_cases hudp : rd pkt.data (pkt.innerIp + 9) = ipprotoUdp
  · simp only [hudp, true_and, ne_eq, not_true_eq_false, false_or] at hv ⊢
    have hpresent : (¬ l4Check pkt.data pkt.innerIp o = 0 →
          ¬ l4Check out pkt.innerIp o = 0 ∧ L4Valid out pkt.innerIp o) ↔
        (l4Check out pkt.innerIp o = 0 → l4Check pkt.data pkt.innerIp o = 0) :=
      (forall_congr' fun h0 => and_iff_left (hvalid (hv.resolve_left h0))).trans not_imp_not
    rw [hpresent]
    exact iff_def.symm
  · simp only [hudp, false_and, not_false_eq_true, ne_eq, true_or, iff_true, false_imp_iff, true_and, false_or,
      true_imp_iff] at hv ⊢
    exact hvalid hv

/-- The sample frame as a UDP datagram of 20 bytes without a checksum. -/
def sampleUdp : TransitPacket :=
  { TransitPacket.start (st16 (sampleFrame ipprotoUdp) 88 0x1400) sampleIface false with
    innerIp := 64
    innerUdp := 84 }

theorem sampleUdp_innerSegment : InnerSegment sampleUdp (sampleUdp.innerIp + sizeofIphdr) where
  protocol := by decide
  header := by decide
  room := by decide
  complete := by decide
  innerTcp h := absurd h (by decide)
  innerUdp _ := rfl

/-- **A datagram without a checksum gets one**: 192.168.0.1 is replaced by 192.168.0.3. -/
theorem innerChecksums_stale :
    InnerSegment sampleUdp (sampleUdp.innerIp + sizeofIphdr) ∧
      L4Absent sampleUdp.data sampleUdp.innerIp (sampleUdp.innerIp + sizeofIphdr) ∧
      ¬ InnerChecksumsKept sampleUdp.data (trnSetSrcDstInnerIpCsum sampleUdp 0x0300a8c0 0x0200a8c0).data
        sampleUdp.innerIp (sampleUdp.innerIp + sizeofIphdr) := by
  have habsent : L4Absent sampleUdp.data sampleUdp.innerIp (sampleUdp.innerIp + sizeofIphdr) := by decide
  have hout : ¬ L4Absent (trnSetSrcDstInnerIpCsum sampleUdp 0x0300a8c0 0x0200a8c0).data sampleUdp.innerIp
      (sampleUdp.innerIp + sizeofIphdr) := by decide
  exact ⟨sampleUdp_innerSegment, habsent, fun h => hout (h.2.1 habsent)⟩

/-- The same datagram with its addresses exchanged. -/
theorem innerChecksumsKept_iff_sample :
    InnerChecksumsKept sampleUdp.data (trnSetSrcDstInnerIpCsum sampleUdp 0x0200a8c0 0x0100a8c0).data
        sampleUdp.innerIp (sampleUdp.innerIp + sizeofIphdr) ↔
      rd sampleUdp.data (sampleUdp.innerIp + 9) ≠ ipprotoUdp ∨
        AddrsKeep (l4Check sampleUdp.data sampleUdp.innerIp (sampleUdp.innerIp + sizeofIphdr))
          (ld32 sampleUdp.data (sampleUdp.innerIp + 12)) (ld32 sampleUdp.data (sampleUdp.innerIp + 16))
          0x0200a8c0 0x0100a8c0 :=
  innerChecksumsKept_iff sampleUdp_innerSegment (.inl (by decide)) 0x0200a8c0 0x0100a8c0

end ArionDp
