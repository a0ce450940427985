import ArionDp.Cn.Dpnd
import ArionDp.Xdp.Forward

/-!
# Hints from the gateway to the compute node

With `appendTail` switched on, the gateway leaves 16 bytes of hints behind a packet that it transmits, and
the compute node program reads them.

* `hintByte`, `rd_storeHints`: the hints as `trn_process_inner_ip` of the gateway writes them, after the
  rewrite of the outer headers;
* `SentFrame`, **`transit_sent`**: the frame that leaves the gateway, byte by byte;
* `HintsArrive`: the received frames whose hints are read as they were meant;
* **`hints_round_trip_iff`**: for these, and for no others, the compute node program queues the request
  for the direct path back.
-/

namespace ArionDp.Cn

open Wire

/-! ## Bytes of words -/

theorem macOf_eq_iff (p q : Bytes) (o o' : ℕ) :
    macOf p o = macOf q o' ↔ ∀ k < 6, rd p (o + k) = rd q (o' + k) :=
  ⟨fun h k hk => congrFun h ⟨k, hk⟩, fun h => funext fun k => h k k.isLt⟩

/-- The bytes of a VNI word. -/
theorem byte_vniWord (a b c : U8) {k : ℕ} (hk : k < 3) :
    byte ((a.setWidth 32 <<< 16) ||| (b.setWidth 32 <<< 8) ||| c.setWidth 32) k = ![c, b, a] ⟨k, hk⟩ := by
  have high : ∀ (v : U8) j, 8 ≤ j → v.getLsbD j = false := fun v j hj => BitVec.getLsbD_of_ge v j hj
  ext i hi
  interval_cases k
  · have h : i < 16 := by omega
    have h32 : i < 32 := by omega
    simp [byte, h32, hi, h]
  · have h : 8 + i < 16 := by omega
    have h32 : 8 + i < 32 := by omega
    simp [byte, h32, h, BitVec.getLsbD_eq_getElem hi]
  · have h : ¬ 16 + i < 8 := by omega
    have h' : 8 ≤ 16 + i - 8 := by omega
    have h32 : 16 + i < 32 := by omega
    simp [byte, h32, h, high _ _ h', high c _ (by omega : 8 ≤ 16 + i), BitVec.getLsbD_eq_getElem hi]

/-- A VNI that is read and written again. -/
theorem trnSetVni_trnGetVni (p : Bytes) (o : ℕ) :
    trnSetVni (trnGetVni p o) = fun k : Fin 3 => rd p (o + k) := by
  have hbyte : trnSetVni (trnGetVni p o) = fun k : Fin 3 => byte (trnGetVni p o) (2 - k) := by
    funext k
    obtain ⟨k, hk⟩ := k
    interval_cases k <;> rfl
  funext k
  rw [hbyte, trnGetVni]
  refine (byte_vniWord _ _ _ (by omega)).trans ?_
  obtain ⟨k, hk⟩ := k
  interval_cases k <;> rfl

theorem frameVni_eq_iff (p q : Bytes) : frameVni p = frameVni q ↔ ∀ k < 3, rd p (46 + k) = rd q (46 + k) := by
  constructor
  · intro h k hk
    have hset := congrFun (congrArg trnSetVni h) ⟨k, hk⟩
    rwa [frameVni, frameVni, trnSetVni_trnGetVni, trnSetVni_trnGetVni] at hset
  · intro h
    rw [frameVni, frameVni, trnGetVni, trnGetVni, h 0 (by omega), h 1 (by omega), h 2 (by omega)]

/-- Copy `n` bytes from offset `src` to offset `dst`, one after the other. -/
def copyBytes (dst src : ℕ) : ℕ → Bytes → Bytes
  | 0, p => p
  | n + 1, p =>
    let p := copyBytes dst src n p
    wr p (dst + n) (rd p (src + n))

@[simp] theorem length_copyBytes (dst src : ℕ) (p : Bytes) : ∀ n, (copyBytes dst src n p).length = p.length
  | 0 => rfl
  | n + 1 => (length_wr ..).trans (length_copyBytes dst src p n)

/-- Every byte after a copy to a place behind its source. -/
theorem rd_copyBytes {dst src : ℕ} (p : Bytes) (i : ℕ) : ∀ n, dst + n ≤ p.length → src + n ≤ dst →
    rd (copyBytes dst src n p) i = if dst ≤ i ∧ i < dst + n then rd p (src + (i - dst)) else rd p i
  | 0, _, _ => (if_neg (by omega)).symm
  | n + 1, hlen, hsrc => by
    have ih : ∀ j, rd (copyBytes dst src n p) j =
        if dst ≤ j ∧ j < dst + n then rd p (src + (j - dst)) else rd p j := fun j =>
      rd_copyBytes p j n (by omega) (by omega)
    have hs : rd (copyBytes dst src n p) (src + n) = rd p (src + n) := by rw [ih, if_neg (by omega)]
    rw [copyBytes, rd_wr _ _ _ (by simp; omega), hs, ih]
    by_cases hi : i = dst + n
    · rw [if_pos hi, if_pos (by omega), hi, Nat.add_sub_cancel_left]
    by_cases hn : dst ≤ i ∧ i < dst + n
    · rw [if_neg hi, if_pos hn, if_pos (by omega)]
    · rw [if_neg hi, if_neg hn, if_neg (by omega)]

/-! ## Writing the hints -/

/-- The stores of `trn_process_inner_ip` to `struct xdp_hints_src`, which is at offset `o`. -/
def storeHints (o eth : ℕ) (vni tip : U32) (p : Bytes) : Bytes :=
  copyBytes (o + 10) (eth + 6) 6 (st16 (st32 (st32 p (o + 2) vni) (o + 6) tip) o 0x5354)

/-- Byte `k` of the hints. -/
def hintByte (vni tip : U32) (source : ℕ → U8) (k : ℕ) : U8 :=
  if k < 2 then byte (0x5354 : U16) k
  else if k < 6 then byte vni (k - 2)
  else if k < 10 then byte tip (k - 6)
  else source (k - 10)

/-- The packet with hints that is transmitted. -/
theorem trnAppendHints_tx {pkt : ArionDp.TransitPacket} {tip : U32} {tot : U16}
    (htot : bpfHtons (ld16 pkt.data (pkt.ip + 2)) = tot) (htx : (trnAppendHints pkt tip).1 = .tx) :
    2 ≤ tot.toNat ∧ (tot &&& 0xfff#16).toNat + 14 + 16 ≤ pkt.data.length ∧
      (trnAppendHints pkt tip).2.data =
        storeHints ((tot &&& 0xfff#16).toNat + 14) pkt.eth pkt.vni tip pkt.data := by
  have hrun : trnAppendHints pkt tip =
      if tot.toNat < 2 then (.drop, pkt)
      else if (tot &&& 0xfff#16).toNat + 16 + 14 > pkt.data.length then (.aborted, pkt)
      else (.tx, { pkt with
        data := storeHints ((tot &&& 0xfff#16).toNat + 14) pkt.eth pkt.vni tip pkt.data }) := by
    rw [← htot]
    rfl
  rw [hrun] at htx ⊢
  split_ifs at htx ⊢ with h2 hl
  dsimp only
  exact ⟨by omega, by omega, rfl⟩

section Stores

variable {o eth : ℕ} (vni tip : U32) (p : Bytes)

@[simp] theorem length_storeHints : (storeHints o eth vni tip p).length = p.length := by
  simp [storeHints]

/-- **Every byte after the hints are stored.** The source MAC address is not in their place. -/
theorem rd_storeHints (h : o + 16 ≤ p.length) (he : eth + 12 ≤ o) (i : ℕ) :
    rd (storeHints o eth vni tip p) i =
      if o ≤ i ∧ i < o + 16 then hintByte vni tip (fun k => rd p (eth + 6 + k)) (i - o) else rd p i := by
  have hwords : ∀ j, rd (st16 (st32 (st32 p (o + 2) vni) (o + 6) tip) o 0x5354) j =
      if j = o then byte (0x5354 : U16) 0
      else if j = o + 1 then byte (0x5354 : U16) 1
      else if o + 6 ≤ j ∧ j < o + 6 + 4 then byte tip (j - (o + 6))
      else if o + 2 ≤ j ∧ j < o + 2 + 4 then byte vni (j - (o + 2)) else rd p j := fun j => by
    rw [rd_st16 _ _ _ (by simp; omega), rd_st32_byte _ _ _ (by simp; omega), rd_st32_byte _ _ _ (by omega)]
  rw [storeHints, rd_copyBytes _ _ _ (by simp; omega) (by omega)]
  by_cases hi : o ≤ i ∧ i < o + 16
  swap
  · rw [if_neg hi, if_neg (by omega), hwords, if_neg (by omega), if_neg (by omega), if_neg (by omega),
      if_neg (by omega)]
  obtain ⟨k, rfl⟩ := Nat.exists_eq_add_of_le hi.1
  rw [if_pos hi, Nat.add_sub_cancel_left, hintByte]
  by_cases h2 : k < 2
  · rw [if_neg (by omega), hwords, if_pos h2]
    interval_cases k
    · rw [if_pos (by omega)]
    · rw [if_neg (by omega), if_pos (by omega)]
  rw [if_neg h2]
  by_cases h6 : k < 6
  · rw [if_neg (by omega), hwords, if_neg (by omega), if_neg (by omega), if_neg (by omega), if_pos (by omega),
      if_pos h6, Nat.add_sub_add_left]
  rw [if_neg h6]
  by_cases h10 : k < 10
  · rw [if_neg (by omega), hwords, if_neg (by omega), if_neg (by omega), if_pos (by omega), if_pos h10,
      Nat.add_sub_add_left]
  · rw [if_pos (by omega), hwords, if_neg (by omega), if_neg (by omega), if_neg (by omega), if_neg (by omega),
      if_neg h10, Nat.add_sub_add_left]

end Stores

/-! ## What the gateway sends -/

/-- The tail that `bpf_xdp_adjust_tail` adds reads like the end of the packet. -/
theorem rd_append_zeros (p : Bytes) (n i : ℕ) : rd (p ++ List.replicate n 0) i = rd p i := by
  rw [rd, rd]
  by_cases h : i < p.length
  · exact List.getD_append _ _ _ _ h
  · rw [List.getD_append_right _ _ _ _ (by omega), List.getD_eq_default p _ (by omega),
      List.getD_eq_getElem?_getD, List.getElem?_getD_replicate_default_eq]

theorem forwardByte_congr {p q : Bytes} (h : ∀ i, rd q i = rd p i) (inner : ℕ) (ep : Endpoint) (i : ℕ) :
    forwardByte q inner ep i = forwardByte p inner ep i := by
  simp only [forwardByte, h]

theorem hintByte_congr {f g : ℕ → U8} (vni tip : U32) (h : ∀ k < 6, f k = g k) {k : ℕ} (hk : k < 16) :
    hintByte vni tip f k = hintByte vni tip g k := by
  rw [hintByte, hintByte, h (k - 10) (by omega)]

/-- Byte `k` of the hints that the gateway writes behind frame `p`: at that time the source MAC address is the
one that the frame was sent to. -/
def writtenHint (p : Bytes) : ℕ → U8 := hintByte (frameVni p) (ld32 p 26) (rd p)

/-- **The frame that leaves the gateway for a received frame `p`**, with the hints behind its outer IPv4
packet. The checksum is left out. -/
structure SentFrame (p out : Bytes) (ep : Endpoint) : Prop where
  length : out.length = p.length + sizeofXdpHintsSrc
  totLen : 2 ≤ (ipTotLen p).toNat
  hints : hintOffset p + sizeofXdpHintsSrc ≤ out.length
  hint : ∀ k < 16, rd out (hintOffset p + k) = writtenHint p k
  other : ∀ i, i ≠ 24 → i ≠ 25 → ¬ (hintOffset p ≤ i ∧ i < hintOffset p + 16) →
    rd out i = forwardByte p 50 ep i

/-- **A received VXLAN frame with an inner IPv4 packet**, which is not ICMP. -/
structure InnerIpv4 (p : Bytes) : Prop where
  port : ld16 p 36 = vxlDstport
  ethertype : ld16 p 62 = bpfHtons ethPIp
  notIcmp : rd p 73 ≠ ipprotoIcmp

/-- The headers of a frame that the gateway transmits. What it reads may be in the tail. -/
structure TailFrame (p : Bytes) : Prop extends InnerIpv4 p where
  len : 84 ≤ p.length + sizeofXdpHintsSrc
  proto : ld16 p 12 = bpfHtons ethPIp
  protocol : rd p 23 = ipprotoUdp
  transport : ∀ n, l4Len (rd p 73) = some n → 84 + n ≤ p.length + sizeofXdpHintsSrc

section Sent

variable {C : TailConf} {m : Maps} {itf : TunnelIface} {ent : Fin tranMaxZgcEntrances} {q : Bytes}

/-- The state in which the gateway judges an inner IPv4 packet behind a VXLAN header. -/
def vxlanPacket (itf : TunnelIface) (q : Bytes) (ent : Fin tranMaxZgcEntrances) : ArionDp.TransitPacket :=
  { (TransitPacket.start q itf false).atInner ent 50 with innerIp := 64 }

theorem trnForward_hints (hC : C.appendTail = true) {ep : Endpoint} {protocol : U8}
    {pkt : ArionDp.TransitPacket} (hp : protocol ≠ ipprotoIcmp) (ht : pkt.pktNotAddTail = false) :
    trnForward C ep protocol pkt =
      trnAppendHints { pkt with data := trnRewrite pkt ep } (ld32 pkt.data (pkt.ip + 12)) := by
  have hadd : (C.appendTail && protocol != ipprotoIcmp && !pkt.pktNotAddTail) = true := by
    rw [hC, ht, bne_iff_ne.2 hp]
    rfl
  simp only [trnForward, hadd, if_true]

/-- The way through `trn_process_inner_ip` to a transmitted packet. -/
theorem trnProcessInnerIp_tx (hl : 84 ≤ q.length)
    (htx : (ArionDp.trnProcessInnerIp C m ((TransitPacket.start q itf false).atInner ent 50)).1 = .tx) :
    ∃ ep q', ArionDp.trnProcessInnerIp C m ((TransitPacket.start q itf false).atInner ent 50) =
        trnForward C ep (rd q 73) q' ∧ SamePacket q' (vxlanPacket itf q ent) ∧
      ∀ n, l4Len (rd q 73) = some n → 84 + n ≤ q.length := by
  obtain ⟨l, hs, -⟩ := trnSgCheck_spec m (vxlanPacket itf q ent)
  have hsame := trnSgCheck_same m (vxlanPacket itf q ent)
  have hrun : ArionDp.trnProcessInnerIp C m ((TransitPacket.start q itf false).atInner ent 50) =
      if 84 > q.length then (.aborted, vxlanPacket itf q ent)
      else if (trnSgCheck m (vxlanPacket itf q ent)).1 ≠ .pass then trnSgCheck m (vxlanPacket itf q ent)
      else trnLookupEndpoint C m (trnSgCheck m (vxlanPacket itf q ent)).2 := rfl
  rw [hrun, if_neg (by omega)] at htx ⊢
  by_cases hpass : (trnSgCheck m (vxlanPacket itf q ent)).1 = .pass
  swap
  · rw [if_pos hpass] at htx
    rcases hs.refused hpass with h | h <;> rw [h] at htx <;> cases htx
  rw [if_neg (not_not.2 hpass)] at htx ⊢
  rw [hpass] at hs
  generalize (trnSgCheck m (vxlanPacket itf q ent)).2 = r at hsame htx ⊢
  cases he : m.endpointsMap (ipEndpointKey (vxlanPacket itf q ent)) with
  | none =>
    rw [hsame.trnLookupEndpoint_none C he] at htx
    cases htx
  | some ep =>
    obtain ⟨q', heq, hq', -⟩ := trnFlow_eq C ep r (by
      rw [hsame.data, hsame.innerIp]
      exact hs.complete)
    refine ⟨ep, q', ?_, hq'.trans hsame, fun n hn => hs.complete n hn⟩
    rw [hsame.trnLookupEndpoint_some C he, heq, hsame.data, hsame.innerIp]
    rfl

/-- The hints of the gateway, behind the rewritten headers. -/
theorem sentFrame_of_rewritten {p : Bytes} {ep : Endpoint} {r : ArionDp.TransitPacket} (heth : r.eth = 0)
    (hip : r.ip = 14) (hvni : r.vni = frameVni p) (hlen : r.data.length = p.length + sizeofXdpHintsSrc)
    (hrd : ∀ i, i ≠ 24 → i ≠ 25 → rd r.data i = forwardByte p 50 ep i)
    (htx : (trnAppendHints r (ld32 p 26)).1 = .tx) :
    SentFrame p (trnAppendHints r (ld32 p 26)).2.data ep := by
  have htot : bpfHtons (ld16 r.data (r.ip + 2)) = ipTotLen p := by
    rw [hip]
    refine congrArg bpfHtons ((ld16_eq_iff ..).2 ⟨?_, ?_⟩)
    · exact hrd 16 (by omega) (by omega)
    · exact hrd 17 (by omega) (by omega)
  obtain ⟨h2, hend, hstore⟩ := trnAppendHints_tx htot htx
  rw [hstore, heth, hvni]
  have hoff : (ipTotLen p &&& 0xfff#16).toNat + 14 = hintOffset p := rfl
  rw [hoff] at hend ⊢
  have h12 : 0 + 12 ≤ hintOffset p := by omega
  refine ⟨(length_storeHints ..).trans hlen, h2, (length_storeHints ..).symm ▸ hend, fun k hk => ?_,
    fun i h h' hi => ?_⟩
  · rw [rd_storeHints _ _ _ hend h12, if_pos (by omega), Nat.add_sub_cancel_left]
    refine hintByte_congr _ _ (fun j hj => ?_) hk
    rw [hrd _ (by omega) (by omega), forwardByte, if_neg (by omega), if_pos (by omega)]
    congr 1
    omega
  · rw [rd_storeHints _ _ _ hend h12, if_neg hi, hrd i h h']

theorem sentFrame_of_tx {p : Bytes} (hC : C.appendTail = true) (hicmp : rd p 73 ≠ ipprotoIcmp)
    (hq : ∀ i, rd q i = rd p i) (hlen : q.length = p.length + sizeofXdpHintsSrc) (hl : 84 ≤ q.length)
    {ep : Endpoint} {q' : ArionDp.TransitPacket} (hsame : SamePacket q' (vxlanPacket itf q ent))
    (htx : (trnForward C ep (rd q 73) q').1 = .tx) :
    SentFrame p (trnForward C ep (rd q 73) q').2.data ep := by
  have hq' : ∀ i, rd q'.data i = rd p i := fun i => (congrArg (rd · i) hsame.data).trans (hq i)
  have htip : ld32 q'.data (q'.ip + 12) = ld32 p 26 := by
    rw [hsame.ip]
    exact (ld32_eq_iff ..).2 fun k _ => hq' _
  rw [trnForward_hints hC (by rw [hq]; exact hicmp) hsame.tail, htip] at htx ⊢
  refine sentFrame_of_rewritten hsame.eth hsame.ip ?_ ?_ (fun i h h' => ?_) htx
  · rw [hsame.vni]
    exact (frameVni_eq_iff q p).2 fun k _ => hq _
  · rw [length_trnRewrite, hsame.data]
    exact hlen
  · dsimp only
    rw [rd_trnRewrite ep hsame.eth hsame.ip (by rw [hsame.innerEth]; exact le_rfl)
      (by rw [hsame.innerEth, hsame.data]; exact hl) h h', hsame.innerEth]
    exact forwardByte_congr hq' 50 ep i

end Sent

theorem transitExit_tx_iff (m : Maps) (x : U32) (v : XdpAction) : transitExit m x v = .tx ↔ v = .tx := by
  by_cases hv : v = .epNotFound
  · rw [hv, transitExit_epNotFound]
    split_ifs <;> exact iff_of_false (fun h => nomatch h) fun h => nomatch h
  · rw [transitExit_eq m x v hv]

section Transit

variable {C : TailConf} {m : Maps} {ctx : XdpMd}

/-- A run whose frame has got its tail. -/
theorem transit_of_tail (hC : C.appendTail = true) (hadjust : C.adjustTail ctx.data = true)
    {itf : TunnelIface} (hc : m.ifConfigMap ctx.ingressIfindex = some itf) :
    let r := ArionDp.trnProcessEth C m
      (.start (ctx.data ++ List.replicate sizeofXdpHintsSrc 0) itf false)
    (ArionDp.transit C m ctx).verdict = transitExit m ctx.rxQueueIndex r.1 ∧
      (ArionDp.transit C m ctx).data = r.2.data := by
  simp only [ArionDp.transit, hC, hadjust, hc, Bool.and_self, if_true, Bool.not_true, and_self]

/-- **What the gateway transmits** of a VXLAN frame with an inner IPv4 packet. -/
theorem transit_sent (hC : C.appendTail = true) (hadjust : C.adjustTail ctx.data = true)
    (htx : (ArionDp.transit C m ctx).verdict = .tx) (h : InnerIpv4 ctx.data) :
    TailFrame ctx.data ∧ ∃ ep, SentFrame ctx.data (ArionDp.transit C m ctx).data ep := by
  cases hc : m.ifConfigMap ctx.ingressIfindex with
  | none =>
    simp only [ArionDp.transit, hc] at htx
    cases htx
  | some itf =>
    obtain ⟨hverdict, hdata⟩ := transit_of_tail hC hadjust hc
    rw [hverdict, transitExit_tx_iff] at htx
    rw [hdata]
    have hq : ∀ i, rd (ctx.data ++ List.replicate sizeofXdpHintsSrc 0) i = rd ctx.data i :=
      rd_append_zeros ctx.data _
    have hlen : (ctx.data ++ List.replicate sizeofXdpHintsSrc (0 : U8)).length =
        ctx.data.length + sizeofXdpHintsSrc := by
      rw [List.length_append, List.length_replicate]
    generalize ctx.data ++ List.replicate sizeofXdpHintsSrc (0 : U8) = q at htx hq hlen ⊢
    have hword : ∀ o, ld16 q o = ld16 ctx.data o := fun o => (ld16_eq_iff ..).2 ⟨hq _, hq _⟩
    -- the inner frame is behind the VXLAN header
    have hvxlan : ∀ {ent inner}, TunnelFrame itf q ent inner → inner = 50 := by
      intro ent inner hf
      rcases hf.overlay with ⟨-, hinner⟩ | ⟨hg, -⟩
      · exact hinner
      · have hport := hg.port
        rw [hword, h.port] at hport
        exact absurd hport (by decide)
    rcases trnProcessEth_frames (.start q itf false) with ⟨ent, inner, hf⟩ | ⟨ent, inner, hf⟩ | ⟨r, hr, hs⟩
    · obtain rfl := hvxlan hf.toTunnelFrame
      have hl : 84 ≤ q.length := hf.ipLen
      rw [trnProcessEth_of_ipFrame C m hf] at htx ⊢
      obtain ⟨ep, q', hrun, hsame, htransport⟩ := trnProcessInnerIp_tx hl htx
      rw [hrun] at htx ⊢
      refine ⟨⟨h, hlen ▸ hl, ?_, ?_, fun n hn => ?_⟩, ep,
        sentFrame_of_tx hC h.notIcmp hq hlen hl hsame htx⟩
      · rw [← hword]
        exact hf.proto
      · rw [← hq]
        exact hf.protocol
      · rw [← hlen]
        exact htransport n (by rw [hq]; exact hn)
    · obtain rfl := hvxlan hf.toTunnelFrame
      have harp := hf.ethertype
      change ld16 q 62 = _ at harp
      rw [hword, h.ethertype] at harp
      exact absurd harp ethPIp_ne_ethPArp
    · rw [hr] at htx
      rcases hs.verdict with hv | hv | hv <;> rw [hv] at htx <;> cases htx

end Transit

/-! ## Reading the hints -/

/-- **The request for the direct path back** to the sender of a frame `p`. -/
structure DirectPath (p : Bytes) (e : FlowCtx) : Prop where
  dip : e.opdata.dip = ld32 p 76
  dmac : e.opdata.dmac = macOf p 56
  dhip : e.opdata.dhip = ld32 p 26
  dhmac : e.opdata.dhmac = macOf p 6
  vni : e.flow.vni = fun k : Fin 3 => rd p (46 + k)
  protocol : e.flow.protocol = rd p 73
  saddr : e.flow.saddr = ld32 p 80
  daddr : e.flow.daddr = ld32 p 76

/-- The bytes by which a frame is recognised, or which go into the request: the protocol, the port, the VNI,
and of the inner frame the source MAC address, the type, the protocol and the addresses. -/
def KeyByte (i : ℕ) : Prop :=
  i = 23 ∨ 36 ≤ i ∧ i < 38 ∨ 46 ≤ i ∧ i < 49 ∨ 56 ≤ i ∧ i < 64 ∨ i = 73 ∨ 76 ≤ i ∧ i < 84

/-- Byte `k` of the hints as they are meant: with the source MAC address of the frame. -/
def meantHint (p : Bytes) : ℕ → U8 := hintByte (frameVni p) (ld32 p 26) fun k => rd p (6 + k)

/-- The hints in a string, field by field. -/
theorem forall_hintByte_iff (q : Bytes) (o : ℕ) (vni tip : U32) (source : ℕ → U8) :
    (∀ k < 16, rd q (o + k) = hintByte vni tip source k) ↔
      ld16 q o = 0x5354 ∧ ld32 q (o + 2) = vni ∧ ld32 q (o + 6) = tip ∧
        ∀ k < 6, rd q (o + 10 + k) = source k := by
  constructor
  · intro h
    refine ⟨eq_of_byte16 ?_ ?_, eq_of_byte (show 32 ≤ 8 * 4 by omega) fun k hk => ?_,
      eq_of_byte (show 32 ≤ 8 * 4 by omega) fun k hk => ?_, fun k hk => ?_⟩
    · exact (byte_ld16_zero ..).trans (h 0 (by omega))
    · exact (byte_ld16_one ..).trans (h 1 (by omega))
    · rw [byte_ld32 _ _ hk, Nat.add_assoc, h _ (by omega), hintByte, if_neg (by omega), if_pos (by omega),
        Nat.add_sub_cancel_left]
    · rw [byte_ld32 _ _ hk, Nat.add_assoc, h _ (by omega), hintByte, if_neg (by omega), if_neg (by omega),
        if_pos (by omega), Nat.add_sub_cancel_left]
    · rw [Nat.add_assoc, h _ (by omega), hintByte, if_neg (by omega), if_neg (by omega), if_neg (by omega),
        Nat.add_sub_cancel_left]
  · rintro ⟨hflags, hvni, htip, hsource⟩ k hk
    rw [hintByte]
    split_ifs with h2 h6 h10
    · rw [← hflags]
      interval_cases k
      · exact (byte_ld16_zero ..).symm
      · exact (byte_ld16_one ..).symm
    · rw [← hvni, byte_ld32 _ _ (by omega)]
      congr 1
      omega
    · rw [← htip, byte_ld32 _ _ (by omega)]
      congr 1
      omega
    · rw [← hsource _ (by omega)]
      congr 1
      omega

/-- What the compute node program has to find in a frame `out` for the request for `p`. -/
structure ReadBack (p out : Bytes) : Prop where
  ttl : rd out 22 ≠ 0
  keys : ∀ i, KeyByte i → rd out i = rd p i
  totLen : 2 ≤ (ipTotLen out).toNat
  inside : hintOffset out + sizeofXdpHintsSrc ≤ out.length
  hints : ∀ k < 16, rd out (hintOffset out + k) = meantHint p k

section Reading

variable {p out : Bytes} {ep : Endpoint}

/-- The mask of the length does nothing up to 4095. -/
theorem hintOffset_eq (hL : (ipTotLen p).toNat ≤ 4095) : hintOffset p = (ipTotLen p).toNat + 14 := by
  have hand : (ipTotLen p &&& 0xfff#16).toNat = (ipTotLen p).toNat % 4096 := by
    rw [BitVec.toNat_and]
    exact Nat.and_two_pow_sub_one_eq_mod _ 12
  rw [hintOffset, hand, Nat.mod_eq_of_lt (by omega)]

/-- What is neither rewritten nor under the hints is sent as it was received. -/
theorem SentFrame.kept (hs : SentFrame p out ep) {i : ℕ} (h12 : 12 ≤ i) (h22 : i ≠ 22)
    (hip : ¬ (24 ≤ i ∧ i < 34)) (hin : ¬ (50 ≤ i ∧ i < 56))
    (hi : ¬ (hintOffset p ≤ i ∧ i < hintOffset p + 16)) : rd out i = rd p i := by
  rw [hs.other i (by omega) (by omega) hi, forwardByte, if_neg (by omega), if_neg (by omega), if_neg h22,
    if_neg (by omega), if_neg (by omega), if_neg (by omega)]

/-- A field of bytes that the program goes by. -/
theorem ReadBack.field (h : ReadBack p out) {o n : ℕ} (hk : ∀ k < n, KeyByte (o + k)) :
    ∀ k < n, rd out (o + k) = rd p (o + k) := fun k hn => h.keys _ (hk k hn)

theorem ReadBack.word (h : ReadBack p out) {o : ℕ} (h0 : KeyByte o) (h1 : KeyByte (o + 1)) :
    ld16 out o = ld16 p o := (ld16_eq_iff ..).2 ⟨h.keys _ h0, h.keys _ h1⟩

theorem ReadBack.vni_eq (h : ReadBack p out) : frameVni out = frameVni p :=
  (frameVni_eq_iff ..).2 (h.field fun k hk => by unfold KeyByte; omega)

/-- A request for the direct path back is made of the bytes of `p`. -/
theorem DirectPath.readBack (hp : TailFrame p) (hf : HintFrame out)
    (hpath : DirectPath p (hintRequest out)) : ReadBack p out := by
  have hvni : ∀ k < 3, rd out (46 + k) = rd p (46 + k) := fun k hk => by
    have h := congrFun hpath.vni ⟨k, hk⟩
    change trnSetVni (frameVni out) ⟨k, hk⟩ = _ at h
    rwa [frameVni, trnSetVni_trnGetVni] at h
  have hport := (ld16_eq_iff ..).1 (hf.port.trans hp.port.symm)
  have htype := (ld16_eq_iff ..).1 (hf.ethertype.trans hp.ethertype.symm)
  have hmac : macOf out 56 = macOf p 56 := hpath.dmac
  have hdip : ld32 out 76 = ld32 p 76 := hpath.dip
  have hsaddr : ld32 out 80 = ld32 p 80 := hpath.saddr
  refine ⟨hf.ttl, fun i hi => ?_, hf.totLen, hf.hints, ?_⟩
  · have field : ∀ {o n}, (∀ k < n, rd out (o + k) = rd p (o + k)) → o ≤ i → i < o + n →
        rd out i = rd p i := fun {o n} h ho hn => by
      obtain ⟨k, rfl⟩ := Nat.exists_eq_add_of_le ho
      exact h k (by omega)
    rcases hi with rfl | hi | hi | hi | rfl | hi
    · exact hf.protocol.trans hp.protocol.symm
    · rcases (by omega : i = 36 ∨ i = 37) with rfl | rfl
      · exact hport.1
      · exact hport.2
    · exact field hvni hi.1 hi.2
    · rcases (by omega : i < 62 ∨ i = 62 ∨ i = 63) with h | rfl | rfl
      · exact field ((macOf_eq_iff ..).1 hmac) hi.1 h
      · exact htype.1
      · exact htype.2
    · exact hpath.protocol
    · rcases (by omega : i < 80 ∨ 80 ≤ i) with h | h
      · exact field ((ld32_eq_iff ..).1 hdip) hi.1 h
      · exact field ((ld32_eq_iff ..).1 hsaddr) h hi.2
  · exact (forall_hintByte_iff ..).2 ⟨hf.flags, hf.toHints.vni.trans ((frameVni_eq_iff ..).2 hvni), hpath.dhip,
      (macOf_eq_iff ..).1 hpath.dhmac⟩

/-- The program recognises a frame that gives `p` back. -/
theorem ReadBack.hintFrame (h : ReadBack p out) (hp : TailFrame p) (hs : SentFrame p out ep)
    (hL : (ipTotLen p).toNat ≤ 4095) : HintFrame out := by
  obtain ⟨hflags, hvni, -, -⟩ := (forall_hintByte_iff ..).1 h.hints
  refine ⟨⟨h.totLen, h.inside, hflags, hvni.trans h.vni_eq.symm⟩, hs.length ▸ hp.len, ?_, h.ttl, ?_, ?_, ?_,
    fun n hn => ?_, ?_⟩
  · have h16 : 16 ≤ hintOffset p := by
      have h2 := hs.totLen
      rw [hintOffset_eq hL]
      omega
    refine Eq.trans ((ld16_eq_iff ..).2 ⟨?_, ?_⟩) hp.proto
    · exact hs.kept (by omega) (by omega) (by omega) (by omega) (by omega)
    · exact hs.kept (by omega) (by omega) (by omega) (by omega) (by omega)
  · rw [h.keys 23 (by unfold KeyByte; omega)]
    exact hp.protocol
  · rw [h.word (o := 36) (by unfold KeyByte; omega) (by unfold KeyByte; omega)]
    exact hp.port
  · rw [h.word (o := 62) (by unfold KeyByte; omega) (by unfold KeyByte; omega)]
    exact hp.ethertype
  · rw [h.keys 73 (by unfold KeyByte; omega)] at hn
    rw [hs.length]
    exact hp.transport n hn
  · rw [h.keys 73 (by unfold KeyByte; omega)]
    exact hp.notIcmp

/-- The request that such a frame leads to. -/
theorem ReadBack.directPath (h : ReadBack p out) : DirectPath p (hintRequest out) := by
  obtain ⟨-, -, hdhip, hdhmac⟩ := (forall_hintByte_iff ..).1 h.hints
  refine ⟨?_, ?_, hdhip, (macOf_eq_iff ..).2 hdhmac, ?_, ?_, ?_, ?_⟩
  · exact (ld32_eq_iff out p 76 76).2 (h.field fun k hk => by unfold KeyByte; omega)
  · exact (macOf_eq_iff out p 56 56).2 (h.field fun k hk => by unfold KeyByte; omega)
  · change trnSetVni (frameVni out) = _
    rw [h.vni_eq]
    exact trnSetVni_trnGetVni p 46
  · exact h.keys 73 (by unfold KeyByte; omega)
  · exact (ld32_eq_iff out p 80 80).2 (h.field fun k hk => by unfold KeyByte; omega)
  · exact (ld32_eq_iff out p 76 76).2 (h.field fun k hk => by unfold KeyByte; omega)

/-- **The request for `p` is queued for the frames that give it back.** -/
theorem readBack_iff (hp : TailFrame p) (hs : SentFrame p out ep) (hL : (ipTotLen p).toNat ≤ 4095) :
    (∃ e, (transit out).2 = some e ∧ DirectPath p e) ↔ ReadBack p out := by
  constructor
  · rintro ⟨e, he, hpath⟩
    obtain ⟨hf, rfl⟩ := transit_pushes_iff.1 he
    exact hpath.readBack hp hf
  · intro h
    exact ⟨hintRequest out, transit_pushes_iff.2 ⟨h.hintFrame hp hs hL, rfl⟩, h.directPath⟩

end Reading

/-! ## The received frames whose hints arrive -/

/-- Where the compute node program looks for the hints of a frame whose total length they overwrite. -/
def strayOffset (p : Bytes) : ℕ := if (ipTotLen p).toNat = 2 then 1121 else 98

/-- **The received frames whose hints are read as they are meant.** The hints cover no byte that the compute
node program goes by. Behind the total length, they are found, and they name the sender if the frame was
sent to its own source MAC address; on it, they have to be in the received frame. -/
structure HintsArrive (p : Bytes) : Prop where
  ttl : (if hintOffset p ≤ 22 then writtenHint p (22 - hintOffset p) else rd p 22 - 1) ≠ 0
  keys : ∀ i, KeyByte i → hintOffset p ≤ i → i < hintOffset p + 16 →
    writtenHint p (i - hintOffset p) = rd p i
  found : 4 ≤ (ipTotLen p).toNat → macOf p 0 = macOf p 6
  stray : (ipTotLen p).toNat < 4 →
    strayOffset p ≤ p.length ∧ ∀ k < 16, rd p (strayOffset p + k) = meantHint p k

section Arrival

variable {p out : Bytes} {ep : Endpoint}

/-- The bytes under the hints. -/
theorem SentFrame.covered (hs : SentFrame p out ep) {i : ℕ} (h : hintOffset p ≤ i)
    (h' : i < hintOffset p + 16) : rd out i = writtenHint p (i - hintOffset p) := by
  obtain ⟨k, rfl⟩ := Nat.exists_eq_add_of_le h
  rw [hs.hint k (by omega), Nat.add_sub_cancel_left]

/-- The written hints are the meant ones if the frame was sent to its own source MAC address. -/
theorem writtenHint_eq_iff :
    (∀ k < 16, writtenHint p k = meantHint p k) ↔ macOf p 0 = macOf p 6 := by
  rw [macOf_eq_iff]
  constructor
  · intro h k hk
    have h10 := h (k + 10) (by omega)
    rw [writtenHint, meantHint, hintByte, hintByte, if_neg (by omega), if_neg (by omega), if_neg (by omega),
      if_neg (by omega), if_neg (by omega), if_neg (by omega), Nat.add_sub_cancel] at h10
    rw [Nat.zero_add]
    exact h10
  · intro h k hk
    exact hintByte_congr _ _ (fun j hj => (congrArg (rd p) (Nat.zero_add j)).symm.trans (h j hj)) hk

/-- The high byte of a total length comes first. -/
theorem toNat_ipTotLen (q : Bytes) : (ipTotLen q).toNat = (rd q 16).toNat * 256 + (rd q 17).toNat := by
  rw [ipTotLen, bpfHtons, byte_ld16_zero, byte_ld16_one, BitVec.toNat_append,
    ← Nat.shiftLeft_add_eq_or_of_lt (rd q 17).isLt, Nat.shiftLeft_eq]

/-- Where the compute node program looks for the hints. -/
theorem SentFrame.hintOffset_eq (hs : SentFrame p out ep) (hL : (ipTotLen p).toNat ≤ 4095) :
    2 ≤ (ipTotLen out).toNat ∧
      hintOffset out = if 4 ≤ (ipTotLen p).toNat then hintOffset p else strayOffset p := by
  have hoff := Cn.hintOffset_eq hL
  have h2 := hs.totLen
  have htot := toNat_ipTotLen out
  have htot' := toNat_ipTotLen p
  have h0 : (writtenHint p 0).toNat = 0x54 := rfl
  have h1 : (writtenHint p 1).toNat = 0x53 := rfl
  by_cases h4 : 4 ≤ (ipTotLen p).toNat
  · have heq : (ipTotLen out).toNat = (ipTotLen p).toNat := by
      rw [htot, htot', hs.kept (by omega) (by omega) (by omega) (by omega) (by omega),
        hs.kept (by omega) (by omega) (by omega) (by omega) (by omega)]
    rw [if_pos h4, Cn.hintOffset_eq (heq.trans_le hL), hoff, heq]
    exact ⟨h2, rfl⟩
  rw [if_neg h4, strayOffset]
  by_cases h3 : (ipTotLen p).toNat = 2
  · rw [hs.covered (by omega) (by omega), hs.covered (by omega) (by omega), hoff, h3] at htot
    change _ = (writtenHint p 0).toNat * 256 + (writtenHint p 1).toNat at htot
    rw [h0, h1] at htot
    rw [if_pos h3, hintOffset, BitVec.toNat_and, htot]
    exact ⟨by omega, rfl⟩
  · have h17 : (ipTotLen p).toNat = 3 := by omega
    have hb := (rd p 17).isLt
    rw [hs.kept (by omega) (by omega) (by omega) (by omega) (by omega), hs.covered (by omega) (by omega),
      hoff, h17] at htot
    change _ = (rd p 16).toNat * 256 + (writtenHint p 0).toNat at htot
    rw [h0, (by omega : (rd p 16).toNat = 0)] at htot
    rw [if_neg h3, hintOffset, BitVec.toNat_and, htot]
    exact ⟨by omega, rfl⟩

/-- The TTL that leaves the gateway, unless the hints lie over it. -/
theorem SentFrame.ttl_eq (hs : SentFrame p out ep) (h16 : 16 ≤ hintOffset p) : rd out 22 =
    if hintOffset p ≤ 22 then writtenHint p (22 - hintOffset p) else rd p 22 - 1 := by
  by_cases h22 : hintOffset p ≤ 22
  · rw [if_pos h22, hs.covered h22 (by omega)]
  · rw [if_neg h22, hs.other 22 (by omega) (by omega) (by omega)]
    rfl

/-- The bytes that the program goes by stay unless the hints cover them with others. -/
theorem SentFrame.keys_iff (hs : SentFrame p out ep) : (∀ i, KeyByte i → rd out i = rd p i) ↔
    ∀ i, KeyByte i → hintOffset p ≤ i → i < hintOffset p + 16 →
      writtenHint p (i - hintOffset p) = rd p i := by
  refine ⟨fun h i hi h1 h2 => (hs.covered h1 h2).symm.trans (h i hi), fun h i hi => ?_⟩
  by_cases hw : hintOffset p ≤ i ∧ i < hintOffset p + 16
  · exact (hs.covered hw.1 hw.2).trans (h i hi hw.1 hw.2)
  · unfold KeyByte at hi
    exact hs.kept (by omega) (by omega) (by omega) (by omega) hw

theorem readBack_iff_hintsArrive (hs : SentFrame p out ep) (hL : (ipTotLen p).toNat ≤ 4095) :
    ReadBack p out ↔ HintsArrive p := by
  have hoff := hintOffset_eq hL
  have h2 := hs.totLen
  obtain ⟨htot, hout⟩ := hs.hintOffset_eq hL
  have httl := hs.ttl_eq (by omega)
  have hkeys := hs.keys_iff
  by_cases h4 : 4 ≤ (ipTotLen p).toNat
  · rw [if_pos h4] at hout
    have hhints : (∀ k < 16, rd out (hintOffset out + k) = meantHint p k) ↔ macOf p 0 = macOf p 6 := by
      rw [← writtenHint_eq_iff, hout]
      exact forall₂_congr fun k hk => by rw [hs.hint k hk]
    have hnot : ¬ (ipTotLen p).toNat < 4 := by omega
    refine ⟨fun h => ⟨httl ▸ h.ttl, hkeys.1 h.keys, fun _ => hhints.1 h.hints, fun hlt => absurd hlt hnot⟩,
      fun h => ⟨httl ▸ h.ttl, hkeys.2 h.keys, htot, hout ▸ hs.hints, hhints.2 (h.found h4)⟩⟩
  · rw [if_neg h4] at hout
    have h98 : 98 ≤ strayOffset p := by
      rw [strayOffset]
      split_ifs <;> omega
    have hlen := hs.length
    have hhints : ∀ k, rd out (hintOffset out + k) = rd p (strayOffset p + k) := fun k => by
      rw [hout]
      exact hs.kept (by omega) (by omega) (by omega) (by omega) (by omega)
    refine ⟨fun h => ⟨httl ▸ h.ttl, hkeys.1 h.keys, fun hge => absurd hge h4, fun _ => ⟨?_, fun k hk => ?_⟩⟩,
      fun h => ⟨httl ▸ h.ttl, hkeys.2 h.keys, htot, ?_, fun k hk => ?_⟩⟩
    · have hinside := h.inside
      rw [hout, hlen] at hinside
      omega
    · rw [← hhints]
      exact h.hints k hk
    · have hstray := (h.stray (by omega)).1
      rw [hout, hlen]
      omega
    · rw [hhints]
      exact (h.stray (by omega)).2 k hk

end Arrival

/-- From a total length of 70 on, the hints are behind all that the program goes by. -/
theorem hintsArrive_iff_of_le {p : Bytes} (hL : (ipTotLen p).toNat ≤ 4095) (h70 : 70 ≤ (ipTotLen p).toNat) :
    HintsArrive p ↔ rd p 22 ≠ 1 ∧ macOf p 0 = macOf p 6 := by
  have hoff := hintOffset_eq hL
  have httl : rd p 22 - 1 ≠ 0 ↔ rd p 22 ≠ 1 := by bv_omega
  constructor
  · rintro ⟨ht, -, hfound, -⟩
    rw [if_neg (by omega)] at ht
    exact ⟨httl.1 ht, hfound (by omega)⟩
  · rintro ⟨ht, hmac⟩
    refine ⟨?_, fun i hi h1 => ?_, fun _ => hmac, fun h4 => absurd h70 (by omega)⟩
    · rw [if_neg (by omega)]
      exact httl.2 ht
    · unfold KeyByte at hi
      exact absurd h1 (by omega)

/-- **The hints of the gateway give the direct path back exactly for these frames.** -/
theorem hints_round_trip_iff {C : TailConf} {m : Maps} {ctx : XdpMd} (hC : C.appendTail = true)
    (hadjust : C.adjustTail ctx.data = true) (htx : (ArionDp.transit C m ctx).verdict = .tx)
    (h : InnerIpv4 ctx.data) (hL : (ipTotLen ctx.data).toNat ≤ 4095) :
    (∃ e, (transit (ArionDp.transit C m ctx).data).2 = some e ∧ DirectPath ctx.data e) ↔
      HintsArrive ctx.data := by
  obtain ⟨hp, ep, hs⟩ := transit_sent hC hadjust htx h
  exact (readBack_iff hp hs hL).trans (readBack_iff_hintsArrive hs hL)

/-- The gateway with the switch set, and frames that have room for the tail. -/
def sampleTail : TailConf := ⟨true, fun _ => true⟩

/-- The sample frame from the MAC address that it is sent to. -/
def sameMacFrame : Bytes :=
  (sampleFrame ipprotoTcp).take 6 ++ (sampleFrame ipprotoTcp).take 6 ++ (sampleFrame ipprotoTcp).drop 12

/-- What the gateway sends for it gives the direct path back. -/
theorem hints_round_trip_sample :
    ∃ e, (transit (ArionDp.transit sampleTail (sampleMaps (vniRules tranSgPass)) ⟨sameMacFrame, 2, 0⟩).data).2 =
      some e ∧ DirectPath sameMacFrame e := by
  have htx : (ArionDp.transit sampleTail (sampleMaps (vniRules tranSgPass)) ⟨sameMacFrame, 2, 0⟩).verdict = .tx := by
    set_option maxRecDepth 4000 in decide
  have hL : (ipTotLen sameMacFrame).toNat ≤ 4095 := by decide
  have harrive : HintsArrive sameMacFrame :=
    (hintsArrive_iff_of_le hL (by decide)).2 ⟨by decide, by decide⟩
  exact (hints_round_trip_iff (C := sampleTail) rfl rfl htx ⟨by decide, by decide, by decide⟩ hL).2 harrive

theorem sampleInner : InnerIpv4 (sampleFrame ipprotoTcp) := ⟨by decide, by decide, by decide⟩

theorem sampleTail_tx : (ArionDp.transit sampleTail (sampleMaps (vniRules tranSgPass))
    (sampleCtx ipprotoTcp)).verdict = .tx := by
  set_option maxRecDepth 4000 in decide

/-- What leaves the gateway for the sample frame. -/
abbrev sampleSent : Bytes :=
  (ArionDp.transit sampleTail (sampleMaps (vniRules tranSgPass)) (sampleCtx ipprotoTcp)).data

/-- **The request for the sample frame names the gateway.** It is queued, but the host MAC address in it is
the one that the frame was sent to. -/
theorem hints_name_gateway : (ArionDp.transit sampleTail (sampleMaps (vniRules tranSgPass))
      (sampleCtx ipprotoTcp)).verdict = .tx ∧ InnerIpv4 (sampleFrame ipprotoTcp) ∧
    (ipTotLen (sampleFrame ipprotoTcp)).toNat = 90 ∧ rd (sampleFrame ipprotoTcp) 14 = 0x45 ∧
    (∃ e, (transit sampleSent).2 = some e ∧ e.opdata.dhmac = macOf (sampleFrame ipprotoTcp) 0) ∧
    ¬ ∃ e, (transit sampleSent).2 = some e ∧ DirectPath (sampleFrame ipprotoTcp) e := by
  have hpush : (transit sampleSent).2 = some (hintRequest sampleSent) :=
    transit_pushes_iff.2 ⟨by decide +kernel, rfl⟩
  have hmac : (hintRequest sampleSent).opdata.dhmac = macOf (sampleFrame ipprotoTcp) 0 := by decide +kernel
  refine ⟨sampleTail_tx, sampleInner, by decide, by decide, ⟨_, hpush, hmac⟩, ?_⟩
  rintro ⟨e, he, h⟩
  obtain rfl := Option.some.inj (hpush.symm.trans he)
  exact absurd (hmac.symm.trans h.dhmac) (by decide)

end ArionDp.Cn
