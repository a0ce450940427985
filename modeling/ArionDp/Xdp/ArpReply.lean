import ArionDp.Xdp.Acceptance
import ArionDp.Xdp.Hops

/-!
# Answered ARP requests

* `rd_trnSwapSrcDstMac`: the outer MAC addresses after they are swapped;
* `trnArpInner`, `rd_trnArpInner`: the inner frame of the reply, made in place and in this order;
* `ArpReplied`, **`transit_arp_reply`**: the frame that answers an ARP request, byte by byte.
-/

namespace ArionDp

open Wire

/-! ## Outer MAC addresses -/

/-- **The swap of the MAC addresses, byte by byte.** -/
theorem rd_trnSwapSrcDstMac {p : Bytes} (h : 12 ≤ p.length) (i : ℕ) :
    rd (trnSwapSrcDstMac 0 p) i =
      if i < 6 then rd p (i + 6) else if i < 12 then rd p (i - 6) else rd p i := by
  let p₁ := st16 p 0 (ld16 p 6)
  let p₂ := st16 p₁ 2 (ld16 p₁ 8)
  let p₃ := st16 p₂ 4 (ld16 p₂ 10)
  have hl₁ : p₁.length = p.length := length_st16 ..
  have hl₂ : p₂.length = p.length := (length_st16 ..).trans hl₁
  have hl₃ : p₃.length = p.length := (length_st16 ..).trans hl₂
  -- the source address is still as it was when it is read
  have far₁ : ∀ j, 6 ≤ j → rd p₁ j = rd p j := fun j hj => rd_st16_of_ne _ _ (by omega) (by omega)
  have far₂ : ∀ j, 6 ≤ j → rd p₂ j = rd p j := fun j hj =>
    (rd_st16_of_ne _ _ (by omega) (by omega)).trans (far₁ j hj)
  have low : ∀ j, rd p₃ j = if j < 6 then rd p (j + 6) else rd p j := by
    intro j
    rw [rd_copy16 p₂ _ _ (by omega), far₂ _ (by omega), far₂ _ (by omega), rd_copy16 p₁ _ _ (by omega),
      far₁ _ (by omega), far₁ _ (by omega), rd_copy16 p _ _ (by omega)]
    by_cases hj : j < 6
    · rw [if_pos hj]
      interval_cases j <;> rfl
    · rw [if_neg hj, if_neg (by omega), if_neg (by omega), if_neg (by omega), if_neg (by omega),
        if_neg (by omega), if_neg (by omega)]
  change rd (st16 (st16 (st16 p₃ 6 (ld16 p 0)) 8 (ld16 p 2)) 10 (ld16 p 4)) i = _
  rw [rd_st16 _ _ _ (by simp; omega), rd_st16 _ _ _ (by simp; omega), rd_st16 _ _ _ (by omega), low]
  simp only [byte_ld16_zero, byte_ld16_one]
  by_cases h12 : i < 12
  · interval_cases i <;> rfl
  · rw [if_neg (by omega), if_neg (by omega), if_neg (by omega), if_neg (by omega), if_neg (by omega),
      if_neg (by omega), if_neg (by omega), if_neg (by omega), if_neg h12]

@[simp] theorem length_trnSwapSrcDstMac (p : Bytes) : (trnSwapSrcDstMac 0 p).length = p.length := by
  simp [trnSwapSrcDstMac]

/-! ## The inner frame -/

/-- `trn_process_inner_arp` up to the rewrite of the outer headers, for an inner frame at `inner`. -/
def trnArpInner (inner : ℕ) (mac : Mac) (p : Bytes) : Bytes :=
  let p := st16 p (inner + 20) (bpfHtons arpopReply)
  let p := trnSetMac (inner + 32) (macAt (inner + 22)) p
  let p := trnSetMac (inner + 22) (macWords mac) p
  let tmpIp := ld32 p (inner + 28)
  let p := st32 p (inner + 28) (ld32 p (inner + 38))
  let p := st32 p (inner + 38) tmpIp
  let p := trnSetMac inner (macAt (inner + 6)) p
  trnSetMac (inner + 6) (macWords mac) p

/-- A byte of the inner frame of the reply. -/
def arpInnerByte (p : Bytes) (inner : ℕ) (mac : Mac) (i : ℕ) : U8 :=
  if inner ≤ i ∧ i < inner + 6 then rd p (i + 6)
  else if inner + 6 ≤ i ∧ i < inner + 12 then macByte mac (i - (inner + 6))
  else if i = inner + 20 then byte (bpfHtons arpopReply) 0
  else if i = inner + 21 then byte (bpfHtons arpopReply) 1
  else if inner + 22 ≤ i ∧ i < inner + 28 then macByte mac (i - (inner + 22))
  else if inner + 28 ≤ i ∧ i < inner + 32 then rd p (i + 10)
  else if inner + 32 ≤ i ∧ i < inner + 42 then rd p (i - 10)
  else rd p i

section Inner

variable {p : Bytes} {inner : ℕ} (mac : Mac)

@[simp] theorem length_trnArpInner : (trnArpInner inner mac p).length = p.length := by
  simp [trnArpInner]

/-- The ARP packet of the reply, before the inner Ethernet header is written. -/
theorem rd_trnArpPayload (hl : inner + 42 ≤ p.length) (i : ℕ) (hi : ¬ (inner ≤ i ∧ i < inner + 6)) :
    let p₁ := st16 p (inner + 20) (bpfHtons arpopReply)
    let p₂ := trnSetMac (inner + 32) (macAt (inner + 22)) p₁
    let p₃ := trnSetMac (inner + 22) (macWords mac) p₂
    let p₄ := st32 p₃ (inner + 28) (ld32 p₃ (inner + 38))
    rd (st32 p₄ (inner + 38) (ld32 p₃ (inner + 28))) i =
      if inner + 6 ≤ i ∧ i < inner + 12 then rd p i else arpInnerByte p inner mac i := by
  intro p₁ p₂ p₃ p₄
  have hl₁ : p₁.length = p.length := length_st16 ..
  have hl₂ : p₂.length = p.length := (length_trnSetMac ..).trans hl₁
  have hl₃ : p₃.length = p.length := (length_trnSetMac ..).trans hl₂
  have hl₄ : p₄.length = p.length := (length_st32 ..).trans hl₃
  have h₁ : ∀ j, rd p₁ j = if j = inner + 20 then byte (bpfHtons arpopReply) 0
      else if j = inner + 21 then byte (bpfHtons arpopReply) 1 else rd p j := fun j =>
    rd_st16 _ _ _ (by omega)
  have h₂ : ∀ j, rd p₂ j = if inner + 32 ≤ j ∧ j < inner + 38
      then rd p₁ (inner + 22 + (j - (inner + 32))) else rd p₁ j := fun j =>
    rd_trnSetMac_at _ _ (by omega) (by omega)
  have h₃ : ∀ j, rd p₃ j = if inner + 22 ≤ j ∧ j < inner + 28 then macByte mac (j - (inner + 22))
      else rd p₂ j := fun j => rd_trnSetMac_words _ _ _ (by omega)
  -- the addresses of the request are still as they were when they are swapped
  have hip : ∀ j, inner + 28 ≤ j → ¬ (inner + 32 ≤ j ∧ j < inner + 38) → rd p₃ j = rd p j := by
    intro j hj hj'
    rw [h₃, if_neg (by omega), h₂, if_neg hj', h₁, if_neg (by omega), if_neg (by omega)]
  rw [rd_st32_byte _ _ _ (by omega), rd_st32_byte p₃ _ _ (by omega)]
  unfold arpInnerByte
  rw [if_neg hi]
  by_cases h38 : inner + 38 ≤ i ∧ i < inner + 42
  · rw [if_pos h38, byte_ld32 _ _ (by omega), hip _ (by omega) (by omega), if_neg (by omega),
      if_neg (by omega), if_neg (by omega), if_neg (by omega), if_neg (by omega), if_neg (by omega),
      if_pos (by omega)]
    exact congrArg (rd p) (by omega)
  rw [if_neg h38]
  by_cases h28 : inner + 28 ≤ i ∧ i < inner + 32
  · rw [if_pos h28, byte_ld32 _ _ (by omega), hip _ (by omega) (by omega), if_neg (by omega),
      if_neg (by omega), if_neg (by omega), if_neg (by omega), if_neg (by omega), if_pos h28]
    exact congrArg (rd p) (by omega)
  rw [if_neg h28, h₃]
  by_cases h22 : inner + 22 ≤ i ∧ i < inner + 28
  · rw [if_pos h22, if_neg (by omega), if_neg (by omega), if_neg (by omega), if_neg (by omega),
      if_pos h22]
  rw [if_neg h22, h₂]
  by_cases h32 : inner + 32 ≤ i ∧ i < inner + 38
  · rw [if_pos h32, h₁, if_neg (by omega), if_neg (by omega), if_neg (by omega), if_neg (by omega),
      if_neg (by omega), if_neg (by omega), if_neg h22, if_neg h28, if_pos (by omega)]
    exact congrArg (rd p) (by omega)
  rw [if_neg h32, h₁]
  by_cases h6 : inner + 6 ≤ i ∧ i < inner + 12
  · rw [if_pos h6, if_neg (by omega), if_neg (by omega)]
  · have h42 : ¬ (inner + 32 ≤ i ∧ i < inner + 42) := by omega
    rw [if_neg h6, if_neg h6, if_neg h22, if_neg h28, if_neg h42]

/-- **The inner frame of the reply, byte by byte.** -/
theorem rd_trnArpInner (hl : inner + 42 ≤ p.length) (i : ℕ) :
    rd (trnArpInner inner mac p) i = arpInnerByte p inner mac i := by
  have hpay := rd_trnArpPayload mac hl
  unfold trnArpInner
  extract_lets p₁ p₂ p₃ tmpIp p₄ p₅ p₆
  have hl₅ : p₅.length = p.length := by simp [p₅, p₄, p₃, p₂, p₁]
  have hl₆ : p₆.length = p.length := (length_trnSetMac ..).trans hl₅
  rw [rd_trnSetMac_words _ _ _ (by omega), rd_trnSetMac_at _ _ (by omega) (by omega)]
  by_cases h0 : inner ≤ i ∧ i < inner + 6
  · rw [if_neg (by omega), if_pos h0, hpay _ (by omega), if_pos (by omega), arpInnerByte, if_pos h0]
    exact congrArg (rd p) (by omega)
  by_cases h6 : inner + 6 ≤ i ∧ i < inner + 12
  · rw [if_pos h6, arpInnerByte, if_neg h0, if_pos h6]
  · rw [if_neg h6, if_neg h0, hpay _ h0, if_neg h6]

end Inner

/-! ## The whole frame -/

/-- The inner frame of `out` answers the request in `p`, in the name of the MAC address `mac`. -/
structure ArpAnswer (p out : Bytes) (inner : ℕ) (mac : Mac) : Prop where
  dst : ∀ k < 6, rd out (inner + k) = rd p (inner + 6 + k)
  src : ∀ k : Fin 6, rd out (inner + 6 + k) = mac k
  op : ld16 out (inner + 20) = bpfHtons arpopReply
  sha : ∀ k : Fin 6, rd out (inner + 22 + k) = mac k
  sip : ld32 out (inner + 28) = ld32 p (inner + 38)
  tha : ∀ k < 6, rd out (inner + 32 + k) = rd p (inner + 22 + k)
  tip : ld32 out (inner + 38) = ld32 p (inner + 28)

/-- **Frame `p` with its inner frame at `inner` leaves as `out`, an answer in the name of endpoint `ep`.** -/
structure ArpReplied (p out : Bytes) (inner : ℕ) (ep : Endpoint) : Prop where
  length : out.length = p.length
  ethDst : ∀ k < 6, rd out k = rd p (6 + k)
  ethSrc : ∀ k < 6, rd out (6 + k) = rd p k
  ttl : rd out 22 = rd p 22 - 1
  check : (ld16 out 24).toNat = OnesComplement.checksum (ipHdrSum out 14)
  saddr : ld32 out 26 = ld32 p 30
  daddr : ld32 out 30 = ld32 p 26
  answer : ArpAnswer p out inner ep.mac
  other : ∀ i, 12 ≤ i → i ≠ 22 → ¬ (24 ≤ i ∧ i < 34) → ¬ (inner ≤ i ∧ i < inner + 12) →
    ¬ (inner + 20 ≤ i ∧ i < inner + 42) → rd out i = rd p i

/-- A byte of the answer, its checksum left out. -/
def arpReplyByte (p : Bytes) (inner : ℕ) (ep : Endpoint) (i : ℕ) : U8 :=
  if i < 6 then rd p (i + 6)
  else if i < 12 then rd p (i - 6)
  else if i = 22 then rd p 22 - 1
  else if 26 ≤ i ∧ i < 30 then rd p (i + 4)
  else if 30 ≤ i ∧ i < 34 then rd p (i - 4)
  else arpInnerByte p inner ep.mac i

section Reply

variable {pkt : TransitPacket} (ep : Endpoint)

/-- The bytes of the inner frame that stay as they are. -/
theorem arpInnerByte_of_out {p : Bytes} {inner i : ℕ} (mac : Mac) (h : ¬ (inner ≤ i ∧ i < inner + 12))
    (h' : ¬ (inner + 20 ≤ i ∧ i < inner + 42)) : arpInnerByte p inner mac i = rd p i := by
  rw [arpInnerByte, if_neg (by omega), if_neg (by omega), if_neg (by omega), if_neg (by omega),
    if_neg (by omega), if_neg (by omega), if_neg (by omega)]

theorem arpReplyByte_of_le {p : Bytes} {inner i : ℕ} (hin : 50 ≤ inner) (h : inner ≤ i) :
    arpReplyByte p inner ep i = arpInnerByte p inner ep.mac i := by
  rw [arpReplyByte, if_neg (by omega), if_neg (by omega), if_neg (by omega), if_neg (by omega),
    if_neg (by omega)]

omit ep in
/-- A frame with these bytes is an answer. -/
theorem arpAnswer_of_bytes {p out : Bytes} {inner : ℕ} {mac : Mac}
    (h : ∀ i, inner ≤ i → rd out i = arpInnerByte p inner mac i) : ArpAnswer p out inner mac := by
  -- what is copied behind the hardware address of the requester
  have hback : ∀ i, inner + 32 ≤ i → i < inner + 42 → rd out i = rd p (i - 10) := fun i hi hi' => by
    rw [h _ (by omega), arpInnerByte, if_neg (by omega), if_neg (by omega), if_neg (by omega),
      if_neg (by omega), if_neg (by omega), if_neg (by omega), if_pos ⟨hi, hi'⟩]
  refine ⟨fun k hk => ?_, fun k => ?_, eq_of_byte16 ?_ ?_, fun k => ?_, (ld32_eq_iff ..).2 fun k hk => ?_,
    fun k hk => ?_, (ld32_eq_iff ..).2 fun k hk => ?_⟩
  · rw [h _ (by omega), arpInnerByte, if_pos (by omega)]
    exact congrArg (rd p) (by omega)
  · have hk := k.isLt
    rw [h _ (by omega), arpInnerByte, if_neg (by omega), if_pos (by omega), Nat.add_sub_cancel_left,
      macByte, dif_pos hk]
  · rw [byte_ld16_zero, h _ (by omega), arpInnerByte, if_neg (by omega), if_neg (by omega), if_pos rfl]
  · rw [byte_ld16_one, h _ (by omega), arpInnerByte, if_neg (by omega), if_neg (by omega),
      if_neg (by omega), if_pos (by omega)]
  · have hk := k.isLt
    rw [h _ (by omega), arpInnerByte, if_neg (by omega), if_neg (by omega), if_neg (by omega),
      if_neg (by omega), if_pos (by omega), Nat.add_sub_cancel_left, macByte, dif_pos hk]
  · rw [h _ (by omega), arpInnerByte, if_neg (by omega), if_neg (by omega), if_neg (by omega),
      if_neg (by omega), if_neg (by omega), if_pos (by omega)]
    exact congrArg (rd p) (by omega)
  · rw [hback _ (by omega) (by omega)]
    exact congrArg (rd p) (by omega)
  · rw [hback _ (by omega) (by omega)]
    exact congrArg (rd p) (by omega)

theorem trnArpReply_eq (hi : pkt.ip = 14) (ha : pkt.innerArp = pkt.innerEth + 14) :
    let q := trnArpInner pkt.innerEth ep.mac pkt.data
    trnArpReply pkt ep = trnSwapSrcDstMac 0 (trnSetSrcDstIpCsum 14 (ld32 q 30) (ld32 q 26) q) := by
  simp only [trnArpReply, hi, ha]
  rfl

theorem rd_trnArpReply (hi : pkt.ip = 14) (ha : pkt.innerArp = pkt.innerEth + 14)
    (hin : 50 ≤ pkt.innerEth) (hl : pkt.innerEth + 42 ≤ pkt.data.length) {i : ℕ} (h24 : i ≠ 24)
    (h25 : i ≠ 25) :
    rd (trnArpReply pkt ep) i = arpReplyByte pkt.data pkt.innerEth ep i := by
  rw [trnArpReply_eq ep hi ha]
  have hq := rd_trnArpInner ep.mac hl
  have hlen : (trnArpInner pkt.innerEth ep.mac pkt.data).length = pkt.data.length := by simp
  generalize trnArpInner pkt.innerEth ep.mac pkt.data = q at hq hlen ⊢
  have hlow : ∀ j, j < 50 → rd q j = rd pkt.data j := fun j hj => by
    rw [hq, arpInnerByte_of_out _ (by omega) (by omega)]
  have hip : ∀ j, j ≠ 24 → j ≠ 25 → rd (trnSetSrcDstIpCsum 14 (ld32 q 30) (ld32 q 26) q) j =
      ipHdrByte q 14 (ld32 q 30) (ld32 q 26) j := fun j h h' =>
    rd_trnSetSrcDstIpCsum _ _ _ (by omega) h h'
  rw [rd_trnSwapSrcDstMac (by simp; omega), arpReplyByte]
  by_cases h6 : i < 6
  · rw [if_pos h6, if_pos h6, hip _ (by omega) (by omega), ipHdrByte, if_neg (by omega),
      if_neg (by omega), if_neg (by omega), hlow _ (by omega)]
  rw [if_neg h6, if_neg h6]
  by_cases h12 : i < 12
  · rw [if_pos h12, if_pos h12, hip _ (by omega) (by omega), ipHdrByte, if_neg (by omega),
      if_neg (by omega), if_neg (by omega), hlow _ (by omega)]
  rw [if_neg h12, if_neg h12, hip _ h24 h25, ipHdrByte]
  by_cases h22 : i = 22
  · rw [if_pos h22, if_pos h22, hlow _ (by omega), h22]
  rw [if_neg h22, if_neg h22]
  by_cases h26 : 26 ≤ i ∧ i < 30
  · rw [if_pos h26, if_pos h26, byte_ld32 _ _ (by omega), hlow _ (by omega)]
    exact congrArg (rd pkt.data) (by omega)
  rw [if_neg h26, if_neg h26]
  by_cases h30 : 30 ≤ i ∧ i < 34
  · rw [if_pos h30, if_pos h30, byte_ld32 _ _ (by omega), hlow _ (by omega)]
    exact congrArg (rd pkt.data) (by omega)
  · rw [if_neg h30, if_neg h30, hq]

theorem check_trnArpReply (hi : pkt.ip = 14) (ha : pkt.innerArp = pkt.innerEth + 14)
    (hl : 34 ≤ pkt.data.length) :
    (ld16 (trnArpReply pkt ep) 24).toNat =
      OnesComplement.checksum (ipHdrSum (trnArpReply pkt ep) 14) := by
  rw [trnArpReply_eq ep hi ha]
  have hlen : (trnArpInner pkt.innerEth ep.mac pkt.data).length = pkt.data.length := by simp
  generalize trnArpInner pkt.innerEth ep.mac pkt.data = q at hlen ⊢
  generalize hr : trnSetSrcDstIpCsum 14 (ld32 q 30) (ld32 q 26) q = r
  have hcheck := @check_trnSetSrcDstIpCsum q 14 (ld32 q 30) (ld32 q 26) (by omega)
  rw [hr] at hcheck
  -- the swap stays below the header
  have hword : ∀ o, 12 ≤ o → ld16 (trnSwapSrcDstMac 0 r) o = ld16 r o := fun o ho =>
    (ld16_eq_iff ..).2 ⟨rd_trnSwapSrcDstMac_of_le _ ho, rd_trnSwapSrcDstMac_of_le _ (by omega)⟩
  have hsum : ipHdrSum (trnSwapSrcDstMac 0 r) 14 = ipHdrSum r 14 := by
    simp [ipHdrSum, hword]
  rw [hword _ (by omega), hsum]
  exact hcheck

theorem length_trnArpReply (hi : pkt.ip = 14) (ha : pkt.innerArp = pkt.innerEth + 14) :
    (trnArpReply pkt ep).length = pkt.data.length := by
  rw [trnArpReply_eq ep hi ha]
  simp

variable (pkt) in
/-- **The rewrite answers the request.** -/
theorem arpReplied_trnArpReply (hi : pkt.ip = 14) (ha : pkt.innerArp = pkt.innerEth + 14)
    (hin : 50 ≤ pkt.innerEth) (hl : pkt.innerEth + 42 ≤ pkt.data.length) :
    ArpReplied pkt.data (trnArpReply pkt ep) pkt.innerEth ep := by
  have hb : ∀ i, i ≠ 24 → i ≠ 25 →
      rd (trnArpReply pkt ep) i = arpReplyByte pkt.data pkt.innerEth ep i :=
    fun i h h' => rd_trnArpReply ep hi ha hin hl h h'
  refine ⟨length_trnArpReply ep hi ha, fun k hk => ?_, fun k hk => ?_, ?_,
    check_trnArpReply ep hi ha (by omega), ?_, ?_, ?_, fun i h12 h22 h24 h0 h20 => ?_⟩
  · rw [hb _ (by omega) (by omega), arpReplyByte, if_pos hk, Nat.add_comm]
  · rw [hb _ (by omega) (by omega), arpReplyByte, if_neg (by omega), if_pos (by omega),
      Nat.add_sub_cancel_left]
  · rw [hb _ (by omega) (by omega)]
    rfl
  · refine (ld32_eq_iff ..).2 fun k hk => ?_
    rw [hb _ (by omega) (by omega), arpReplyByte, if_neg (by omega), if_neg (by omega), if_neg (by omega),
      if_pos (by omega)]
    exact congrArg (rd pkt.data) (by omega)
  · refine (ld32_eq_iff ..).2 fun k hk => ?_
    rw [hb _ (by omega) (by omega), arpReplyByte, if_neg (by omega), if_neg (by omega), if_neg (by omega),
      if_neg (by omega), if_pos (by omega)]
    exact congrArg (rd pkt.data) (by omega)
  · refine arpAnswer_of_bytes fun i h => ?_
    rw [hb _ (by omega) (by omega), arpReplyByte_of_le _ hin h]
  · rw [hb _ (by omega) (by omega), arpReplyByte, if_neg (by omega), if_neg (by omega), if_neg h22,
      if_neg (by omega), if_neg (by omega), arpInnerByte_of_out _ h0 h20]

end Reply

/-! ## Requests -/

/-- **A request is answered if its target is known**, and left as it is if not. -/
theorem ArpRun.replied {m : Maps} {itf : TunnelIface} {p out : Bytes} {ent : Fin tranMaxZgcEntrances}
    {inner : ℕ} {v : XdpAction} (hf : ArpFrame itf p ent inner)
    (hr : ArpRun m (arpPacket itf p ent inner) v out) :
    m.endpointsMap ⟨frameVni p, ld32 p (inner + 38)⟩ = none ∧ v = .epNotFound ∨
      ∃ ep, m.endpointsMap ⟨frameVni p, ld32 p (inner + 38)⟩ = some ep ∧ v = .tx ∧
        ArpReplied p out inner ep := by
  cases hr with
  | unknown he => exact .inl ⟨he, rfl⟩
  | @reply ep he =>
    exact .inr ⟨ep, he, rfl, arpReplied_trnArpReply { arpPacket itf p ent inner with innerArp := inner + 14 }
      ep rfl rfl hf.le_length.1 hf.request.len⟩

/-- **An ARP request for a known endpoint is answered** in its name, and sent back the way it came. -/
theorem transit_arp_reply {m : Maps} {ctx : XdpMd} {itf : TunnelIface} {ent : Fin tranMaxZgcEntrances}
    {inner : ℕ} (hc : m.ifConfigMap ctx.ingressIfindex = some itf) (hf : ArpFrame itf ctx.data ent inner)
    {ep : Endpoint} (hep : m.endpointsMap ⟨frameVni ctx.data, ld32 ctx.data (inner + 38)⟩ = some ep) :
    (transit .compiled m ctx).verdict = .tx ∧
      ArpReplied ctx.data (transit .compiled m ctx).data inner ep := by
  obtain ⟨v, hv, hr, -⟩ := transit_arp hc hf
  obtain ⟨he, -⟩ | ⟨ep', he, rfl, hrep⟩ := hr.replied hf
  · exact nomatch he.symm.trans hep
  · obtain rfl : ep' = ep := Option.some.inj (he.symm.trans hep)
    exact ⟨hv.trans (transitExit_eq m _ _ (by decide)), hrep⟩

/-- A request from 192.168.0.1 for the MAC address of 192.168.0.2, in VNI 7. -/
def sampleArp : Bytes :=
  [0x02, 0x00, 0x0a, 0x00, 0x00, 0x01, 0x02, 0x00, 0x0a, 0x00, 0x00, 0x02, 0x08, 0x00] ++
  [0x45, 0x00, 0x00, 0x4e, 0x00, 0x00, 0x00, 0x00, 0x40, 0x11, 0x00, 0x00,
    0x0a, 0x00, 0x00, 0x02, 0x0a, 0x00, 0x00, 0x01] ++
  [0x30, 0x39, 0x12, 0xb5, 0x00, 0x3a, 0x00, 0x00] ++
  [0x08, 0x00, 0x00, 0x00, 0x00, 0x00, 0x07, 0x00] ++
  [0xff, 0xff, 0xff, 0xff, 0xff, 0xff, 0x00, 0x00, 0x00, 0x00, 0x00, 0x11, 0x08, 0x06] ++
  [0x00, 0x01, 0x08, 0x00, 0x06, 0x04, 0x00, 0x01, 0x00, 0x00, 0x00, 0x00, 0x00, 0x11,
    0xc0, 0xa8, 0x00, 0x01, 0x00, 0x00, 0x00, 0x00, 0x00, 0x00, 0xc0, 0xa8, 0x00, 0x02]

/-- The request on the sample interface. -/
def sampleArpCtx : XdpMd := ⟨sampleArp, 2, 0⟩

theorem sampleArp_arpFrame : ArpFrame sampleIface sampleArp 0 50 where
  len := by decide
  proto := by decide
  entrance := by decide
  daddr := by decide
  ttl := by decide
  protocol := by decide
  overlay := .inl ⟨⟨by decide, rfl, by decide⟩, rfl⟩
  role := rfl
  ethertype := by decide
  request := ⟨by decide, by decide, by decide, by decide⟩

/-- The sample request is answered with 00:00:00:00:00:22. -/
theorem transit_arp_reply_sample :
    (transit .compiled (sampleMaps (vniRules tranSgPass)) sampleArpCtx).verdict = .tx ∧
      ArpReplied sampleArp (transit .compiled (sampleMaps (vniRules tranSgPass)) sampleArpCtx).data 50
        ⟨0x0300000a, ![0x00, 0x00, 0x00, 0x00, 0x00, 0x22], ![0x00, 0x00, 0x00, 0x00, 0x00, 0x33]⟩ :=
  have hc : (sampleMaps (vniRules tranSgPass)).ifConfigMap sampleArpCtx.ingressIfindex = some sampleIface := rfl
  transit_arp_reply hc sampleArp_arpFrame rfl

end ArionDp
