import ArionDp.Xdp.Rewrite
import ArionDp.Xdp.SecurityGroup

/-!
# Forwarding

* `Forwarded`: the frame that leaves for an endpoint's host, field by field;
* `forwarded_trnRewrite`: the rewrite of `trn_process_inner_ip` makes it, in place and in this order;
* **`transit_forward`**: every transmitted inner IPv4 packet is forwarded so.
-/

namespace ArionDp

open Wire

/-- **Frame `p` with its inner frame at `inner` leaves as `out` for the host of endpoint `ep`.** -/
structure Forwarded (p out : Bytes) (inner : ℕ) (ep : Endpoint) : Prop where
  length : out.length = p.length
  ethDst : ∀ k : Fin 6, rd out k = ep.hmac k
  ethSrc : ∀ k < 6, rd out (6 + k) = rd p k
  ttl : rd out 22 = rd p 22 - 1
  check : (ld16 out 24).toNat = OnesComplement.checksum (ipHdrSum out 14)
  saddr : ld32 out 26 = ld32 p 30
  daddr : ld32 out 30 = ep.hip
  innerDst : ∀ k : Fin 6, rd out (inner + k) = ep.mac k
  other : ∀ i, 12 ≤ i → i ≠ 22 → i ≠ 24 → i ≠ 25 → ¬ (26 ≤ i ∧ i < 34) →
    ¬ (inner ≤ i ∧ i < inner + 6) → rd out i = rd p i

section Rewrite

variable {pkt : TransitPacket} (ep : Endpoint)

/-- A byte of the forwarded frame, its checksum left out. -/
def forwardByte (p : Bytes) (inner : ℕ) (ep : Endpoint) (i : ℕ) : U8 :=
  if i < 6 then macByte ep.hmac i
  else if i < 12 then rd p (i - 6)
  else if i = 22 then rd p 22 - 1
  else if 26 ≤ i ∧ i < 30 then rd p (i + 4)
  else if 30 ≤ i ∧ i < 34 then byte ep.hip (i - 30)
  else if inner ≤ i ∧ i < inner + 6 then macByte ep.mac (i - inner)
  else rd p i

theorem length_trnRewrite : (trnRewrite pkt ep).length = pkt.data.length := by
  simp [trnRewrite, trnSetDstMac, trnSetSrcMac]

theorem rd_trnRewrite (he : pkt.eth = 0) (hi : pkt.ip = 14) (hin : 50 ≤ pkt.innerEth)
    (hl : pkt.innerEth + 34 ≤ pkt.data.length) {i : ℕ} (h24 : i ≠ 24) (h25 : i ≠ 25) :
    rd (trnRewrite pkt ep) i = forwardByte pkt.data pkt.innerEth ep i := by
  let p1 := trnSetMac pkt.innerEth (macWords ep.mac) pkt.data
  have hp1 : ∀ j, rd p1 j = if pkt.innerEth ≤ j ∧ j < pkt.innerEth + 6
      then macByte ep.mac (j - pkt.innerEth) else rd pkt.data j := fun j =>
    rd_trnSetMac_words _ _ _ (by omega)
  have hlen : p1.length = pkt.data.length := length_trnSetMac ..
  have hsrc : ∀ k < 4, byte (ld32 p1 30) k = rd pkt.data (30 + k) := fun k hk => by
    rw [byte_ld32 _ _ hk, hp1, if_neg (by omega)]
  simp only [trnRewrite, trnSetDstMac, trnSetSrcMac, he, hi, Nat.zero_add, Nat.reduceAdd]
  change rd (trnSetMac 0 (macWords ep.hmac) (trnSetMac 6 (macAt 0)
    (trnSetSrcDstIpCsum 14 (ld32 p1 30) ep.hip p1))) i = _
  have hip : ∀ j, j ≠ 24 → j ≠ 25 → rd (trnSetSrcDstIpCsum 14 (ld32 p1 30) ep.hip p1) j =
      ipHdrByte p1 14 (ld32 p1 30) ep.hip j := fun j h h' =>
    rd_trnSetSrcDstIpCsum _ _ _ (by omega) h h'
  rw [rd_trnSetMac_words _ _ _ (by simp; omega), rd_trnSetMac_at _ _ (by simp; omega) (by omega),
    forwardByte]
  by_cases h6 : i < 6
  · rw [if_pos (by omega), if_pos h6, Nat.sub_zero]
  rw [if_neg (by omega), if_neg h6]
  by_cases h12 : i < 12
  · rw [if_pos (by omega), if_pos h12, hip _ (by omega) (by omega), ipHdrByte, if_neg (by omega),
      if_neg (by omega), if_neg (by omega), hp1, if_neg (by omega), Nat.zero_add]
  rw [if_neg (by omega), if_neg h12, hip _ h24 h25, ipHdrByte]
  by_cases h22 : i = 22
  · rw [if_pos h22, if_pos h22, hp1, if_neg (by omega), h22]
  rw [if_neg h22, if_neg h22]
  by_cases h26 : 26 ≤ i ∧ i < 30
  · rw [if_pos h26, if_pos h26, hsrc _ (by omega)]
    congr 1
    omega
  rw [if_neg h26, if_neg h26]
  by_cases h30 : 30 ≤ i ∧ i < 34
  · rw [if_pos h30, if_pos h30]
  · rw [if_neg h30, if_neg h30, hp1]

theorem check_trnRewrite (he : pkt.eth = 0) (hi : pkt.ip = 14) (hl : 50 ≤ pkt.data.length) :
    (ld16 (trnRewrite pkt ep) 24).toNat =
      OnesComplement.checksum (ipHdrSum (trnRewrite pkt ep) 14) := by
  let p1 := trnSetMac pkt.innerEth (macWords ep.mac) pkt.data
  have hlen : p1.length = pkt.data.length := length_trnSetMac ..
  let q := trnSetSrcDstIpCsum 14 (ld32 p1 30) ep.hip p1
  have hq : q.length = pkt.data.length := (length_trnSetSrcDstIpCsum ..).trans hlen
  have heq : trnRewrite pkt ep = trnSetMac 0 (macWords ep.hmac) (trnSetMac 6 (macAt 0) q) := by
    simp only [trnRewrite, trnSetDstMac, trnSetSrcMac, he, hi, Nat.zero_add, Nat.reduceAdd]
    rfl
  -- the two stores of MAC addresses stay below the header
  have hrd : ∀ j, 12 ≤ j → rd (trnRewrite pkt ep) j = rd q j := fun j hj => by
    rw [heq, rd_trnSetMac_words _ _ _ (by simp; omega), if_neg (by omega),
      rd_trnSetMac_at _ _ (by omega) (by omega), if_neg (by omega)]
  have hword : ∀ o, 12 ≤ o → ld16 (trnRewrite pkt ep) o = ld16 q o := fun o ho =>
    (ld16_eq_iff ..).mpr ⟨hrd _ ho, hrd _ (by omega)⟩
  have hsum : ipHdrSum (trnRewrite pkt ep) 14 = ipHdrSum q 14 := by
    simp [ipHdrSum, hword]
  rw [hword _ (by omega), hsum]
  exact check_trnSetSrcDstIpCsum _ _ _ (by omega)

/-- **The rewrite forwards the frame.** -/
theorem forwarded_trnRewrite (pkt : TransitPacket) (ep : Endpoint) (he : pkt.eth = 0) (hi : pkt.ip = 14)
    (hin : 50 ≤ pkt.innerEth) (hl : pkt.innerEth + 34 ≤ pkt.data.length) :
    Forwarded pkt.data (trnRewrite pkt ep) pkt.innerEth ep := by
  have hb : ∀ i, i ≠ 24 → i ≠ 25 →
      rd (trnRewrite pkt ep) i = forwardByte pkt.data pkt.innerEth ep i :=
    fun i h h' => rd_trnRewrite ep he hi hin hl h h'
  refine ⟨length_trnRewrite ep, fun k => ?_, fun k hk => ?_, ?_, check_trnRewrite ep he hi (by omega),
    ?_, ?_, fun k => ?_, fun i h1 h2 h3 h4 h5 h6 => ?_⟩
  · rw [hb _ (by omega) (by omega), forwardByte, if_pos k.isLt, macByte, dif_pos k.isLt]
  · rw [hb _ (by omega) (by omega), forwardByte, if_neg (by omega), if_pos (by omega),
      Nat.add_sub_cancel_left]
  · rw [hb _ (by omega) (by omega)]
    rfl
  · refine le32_injective ?_
    rw [le32_ld32, le32_ld32]
    simp [hb, forwardByte]
  · refine le32_injective ?_
    rw [le32_ld32, le32]
    simp [hb, forwardByte]
  · have hk := k.isLt
    rw [hb _ (by omega) (by omega), forwardByte, if_neg (by omega), if_neg (by omega),
      if_neg (by omega), if_neg (by omega), if_neg (by omega), if_pos (by omega),
      Nat.add_sub_cancel_left, macByte, dif_pos hk]
  · rw [hb _ h3 h4, forwardByte, if_neg (by omega), if_neg (by omega), if_neg h2, if_neg (by omega),
      if_neg (by omega), if_neg h6]

end Rewrite

/-- **A transmitted inner IPv4 packet is forwarded** to the endpoint that its VNI and destination name. -/
theorem forwarded_of_ipFrame {m : Maps} {ctx : XdpMd} {itf : TunnelIface} {ent : Fin tranMaxZgcEntrances}
    {inner : ℕ} (hc : m.ifConfigMap ctx.ingressIfindex = some itf) (hf : IpFrame itf ctx.data ent inner)
    (hv : (transit .compiled m ctx).verdict = .tx) :
    ∃ ep, m.endpointsMap ⟨frameVni ctx.data, ld32 ctx.data (inner + 30)⟩ = some ep ∧
      Forwarded ctx.data (transit .compiled m ctx).data inner ep := by
  obtain ⟨v, hv', hr⟩ := transit_ip hc hf
  rw [hv'] at hv
  generalize (transit .compiled m ctx).sgTrace = l at hr
  generalize (transit .compiled m ctx).data = out at hr ⊢
  cases hr with
  | refused hs hne => exact absurd (.inl hv) (not_goesOn_of_refused _ (hs.refused hne))
  | unknown hs he =>
    rw [transitExit_epNotFound] at hv
    split_ifs at hv
  | @forward l ep hs he =>
    exact ⟨ep, he, forwarded_trnRewrite (ipPacket itf ctx.data ent inner) ep rfl rfl hf.le_length.1
      hf.ipLen⟩

/-- **A transmitted frame is a tunnel frame, and an inner IPv4 packet leaves for the host of the
endpoint that its VNI and inner destination name.** -/
theorem transit_forward (m : Maps) (ctx : XdpMd) (hv : (transit .compiled m ctx).verdict = .tx) :
    ∃ itf ent inner, m.ifConfigMap ctx.ingressIfindex = some itf ∧
      TunnelFrame itf ctx.data ent inner ∧
      (ld16 ctx.data (inner + 12) = bpfHtons ethPIp →
        ∃ ep, m.endpointsMap ⟨frameVni ctx.data, ld32 ctx.data (inner + 30)⟩ = some ep ∧
          Forwarded ctx.data (transit .compiled m ctx).data inner ep) := by
  obtain ⟨itf, ent, inner, hc, hf | hf⟩ := transit_frames (.inl hv)
  · exact ⟨itf, ent, inner, hc, hf.toTunnelFrame, fun _ => forwarded_of_ipFrame hc hf hv⟩
  · exact ⟨itf, ent, inner, hc, hf.toTunnelFrame, fun ht =>
      absurd (ht.symm.trans hf.ethertype) ethPIp_ne_ethPArp⟩

/-- The sample TCP packet under permit rules is forwarded. -/
theorem transit_forward_sample :
    ∃ itf ent inner, (sampleMaps (vniRules tranSgPass)).ifConfigMap 2 = some itf ∧
      TunnelFrame itf (sampleFrame ipprotoTcp) ent inner ∧
      (ld16 (sampleFrame ipprotoTcp) (inner + 12) = bpfHtons ethPIp →
        ∃ ep, (sampleMaps (vniRules tranSgPass)).endpointsMap
            ⟨frameVni (sampleFrame ipprotoTcp), ld32 (sampleFrame ipprotoTcp) (inner + 30)⟩ = some ep ∧
          Forwarded (sampleFrame ipprotoTcp)
            (transit .compiled (sampleMaps (vniRules tranSgPass)) (sampleCtx ipprotoTcp)).data
            inner ep) :=
  transit_forward (sampleMaps (vniRules tranSgPass)) (sampleCtx ipprotoTcp) (by decide)

end ArionDp
