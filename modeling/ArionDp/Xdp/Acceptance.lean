import ArionDp.Xdp.Rewrite
import ArionDp.Xdp.SecurityGroup
import Mathlib.Data.List.FinRange

/-!
# What the gateway transmits

* `FirstEntrance`, `KnownArp`, `KnownIp`, **`Accepted`**: the frames that are transmitted, in terms of their
  bytes and of the maps;
* **`transit_tx_iff`**: no others are;
* **`transit_unchanged`**: every other frame is left as it was received.
-/

namespace ArionDp

open Wire

/-! ## Frames -/

/-- The first valid entrance of an interface that has the destination MAC address of a frame. -/
structure FirstEntrance (itf : TunnelIface) (p : Bytes) (ent : Fin tranMaxZgcEntrances) : Prop where
  valid : ent.val < itf.numEntrances.toNat
  mac : (itf.entrances ent).mac = dstMac p
  first : ∀ k < ent, (itf.entrances k).mac ≠ dstMac p

/-- The inner frame is an ARP request from the tenant side for an endpoint of the frame's VNI. -/
structure KnownArp (m : Maps) (itf : TunnelIface) (p : Bytes) (inner : ℕ) : Prop where
  role : itf.role = xdpFwd
  ethertype : ld16 p (inner + 12) = bpfHtons ethPArp
  request : ArpRequest p inner
  target : (m.endpointsMap ⟨frameVni p, ld32 p (inner + 38)⟩).isSome

/-- The egress key of a frame: its VNI and protocol, a fixed port, and the inner addresses. -/
def frameEgressKey (p : Bytes) (inner : ℕ) : SgCidrKey where
  prefixlen := sgIpv4Prefix
  vni := frameVni p
  port := 30011
  direction := 0
  protocol := rd p (inner + 23)
  srcIp := ld32 p (inner + 26)
  dstIp := ld32 p (inner + 30)

/-- The ingress key of a frame: its destination port, and the inner addresses swapped. -/
def frameIngressKey (p : Bytes) (inner : ℕ) : SgCidrKey where
  prefixlen := sgIpv4Prefix
  vni := frameVni p
  port := ld16 p (inner + 36)
  direction := 1
  protocol := rd p (inner + 23)
  srcIp := ld32 p (inner + 30)
  dstIp := ld32 p (inner + 26)

/-- The inner frame is an IPv4 packet for an endpoint of the frame's VNI, and the security groups admit it:
the egress lookup hits, and for TCP and UDP the header is complete and the ingress lookup hits. -/
structure KnownIp (m : Maps) (p : Bytes) (inner : ℕ) : Prop where
  ethertype : ld16 p (inner + 12) = bpfHtons ethPIp
  header : inner + sizeofEthhdr + sizeofIphdr ≤ p.length
  egress : (m.sgCidrLookup (frameEgressKey p inner)).isSome
  transport : ∀ n, l4Len (rd p (inner + 23)) = some n → inner + sizeofEthhdr + sizeofIphdr + n ≤ p.length
  ingress : rd p (inner + 23) = ipprotoTcp ∨ rd p (inner + 23) = ipprotoUdp →
    (m.sgCidrLookup (frameIngressKey p inner)).isSome
  dst : (m.endpointsMap ⟨frameVni p, ld32 p (inner + 30)⟩).isSome

/-- **The frames that are transmitted**: for the entrance `ent` of the interface they come in on, in a tunnel
of its role, with a known destination in the inner frame at offset `inner`. -/
structure Accepted (m : Maps) (ctx : XdpMd) (itf : TunnelIface) (ent : Fin tranMaxZgcEntrances)
    (inner : ℕ) : Prop where
  interface : m.ifConfigMap ctx.ingressIfindex = some itf
  headers : sizeofEthhdr + sizeofIphdr + sizeofUdphdr ≤ ctx.data.length
  ethertype : ld16 ctx.data 12 = bpfHtons ethPIp
  entrance : FirstEntrance itf ctx.data ent
  daddr : ld32 ctx.data 30 = (itf.entrances ent).ip
  ttl : rd ctx.data 22 ≠ 0
  protocol : rd ctx.data 23 = ipprotoUdp
  overlay : VxlanFrame itf.role ctx.data ∧ inner = 50 ∨ GeneveFrame itf.role ctx.data ∧ inner = 98
  innerEth : inner + sizeofEthhdr ≤ ctx.data.length
  payload : KnownArp m itf ctx.data inner ∨ KnownIp m ctx.data inner

/-! ## The parts of a frame -/

section Frame

variable {m : Maps} {itf : TunnelIface} {p : Bytes} {ent : Fin tranMaxZgcEntrances} {inner : ℕ}

/-- The loop of `trn_process_eth` finds the first entrance. -/
theorem trnFindEntrance_iff : trnFindEntrance itf p 0 = some ent ↔ FirstEntrance itf p ent := by
  rw [trnFindEntrance, ← Fin.find?_eq_find?_finRange, Fin.find?_eq_some_iff, Bool.and_eq_true,
    decide_eq_true_eq, trnIsMacEqual_iff]
  constructor
  · rintro ⟨⟨hvalid, hmac⟩, hfirst⟩
    refine ⟨hvalid, hmac.symm, fun k hk hc => ?_⟩
    have hkv : k.val < itf.numEntrances.toNat := lt_trans hk hvalid
    have hfalse := hfirst k hk
    rw [decide_eq_true hkv, Bool.true_and, Bool.eq_false_iff, ne_eq, trnIsMacEqual_iff] at hfalse
    exact hfalse hc.symm
  · rintro ⟨hvalid, hmac, hfirst⟩
    refine ⟨⟨hvalid, hmac.symm⟩, fun k hk => ?_⟩
    rw [Bool.and_eq_false_iff]
    refine .inr (Bool.eq_false_iff.2 fun hc => ?_)
    exact hfirst k hk ((trnIsMacEqual_iff p _).1 hc).symm

theorem l4Len_ne_none_iff {protocol : U8} :
    l4Len protocol ≠ none ↔ protocol = ipprotoTcp ∨ protocol = ipprotoUdp := by
  unfold l4Len
  split_ifs with htcp hudp
  · exact iff_of_true (Option.some_ne_none _) (.inl htcp)
  · exact iff_of_true (Option.some_ne_none _) (.inr hudp)
  · exact iff_of_false (fun h => h rfl) fun h => h.elim htcp hudp

/-- The security groups admit the inner packet, in terms of the frame. -/
theorem sgAdmits_ipPacket_iff : SgAdmits m (ipPacket itf p ent inner) ↔
    (m.sgCidrLookup (frameEgressKey p inner)).isSome ∧
    (∀ n, l4Len (rd p (inner + 23)) = some n → inner + sizeofEthhdr + sizeofIphdr + n ≤ p.length) ∧
    (rd p (inner + 23) = ipprotoTcp ∨ rd p (inner + 23) = ipprotoUdp →
      (m.sgCidrLookup (frameIngressKey p inner)).isSome) := by
  have hadmits : SgAdmits m (ipPacket itf p ent inner) ↔
      (m.sgCidrLookup (frameEgressKey p inner)).isSome ∧ ∀ n, l4Len (rd p (inner + 23)) = some n →
        inner + 14 + 20 + n ≤ p.length ∧ (m.sgCidrLookup (frameIngressKey p inner)).isSome := Iff.rfl
  rw [hadmits, ← l4Len_ne_none_iff, Option.ne_none_iff_exists']
  refine and_congr_right fun _ => ⟨fun h => ⟨fun n hn => (h n hn).1, ?_⟩, fun h n hn => ?_⟩
  · rintro ⟨n, hn⟩
    exact (h n hn).2
  · exact ⟨h.1 n hn, h.2 ⟨n, hn⟩⟩

end Frame

/-! ## Runs -/

section Run

variable {m : Maps} {ctx : XdpMd} {itf : TunnelIface} {ent : Fin tranMaxZgcEntrances} {inner : ℕ}

/-- The packets that are transmitted, in terms of the state in which they are judged. -/
theorem knownIp_iff {p : Bytes} (hf : IpFrame itf p ent inner) :
    KnownIp m p inner ↔ SgAdmits m (ipPacket itf p ent inner) ∧
      (m.endpointsMap (ipEndpointKey (ipPacket itf p ent inner))).isSome := by
  rw [sgAdmits_ipPacket_iff]
  exact ⟨fun h => ⟨⟨h.egress, h.transport, h.ingress⟩, h.dst⟩,
    fun h => ⟨hf.ethertype, hf.ipLen, h.1.1, h.1.2.1, h.1.2.2, h.2⟩⟩

/-- **An inner IPv4 packet is transmitted** if and only if it is admitted and its destination is known. -/
theorem transit_ip_tx_iff (hc : m.ifConfigMap ctx.ingressIfindex = some itf)
    (hf : IpFrame itf ctx.data ent inner) :
    (transit .compiled m ctx).verdict = .tx ↔ KnownIp m ctx.data inner := by
  obtain ⟨v, hv, hr⟩ := transit_ip hc hf
  rw [hv, knownIp_iff hf]
  generalize (transit .compiled m ctx).data = out at hr
  generalize (transit .compiled m ctx).sgTrace = l at hr
  cases hr with
  | refused hs hne =>
    exact iff_of_false (fun h => not_goesOn_of_refused _ (hs.refused hne) (.inl h))
      fun h => hne (hs.pass_of_admits h.1)
  | unknown hs he =>
    rw [transitExit_epNotFound, he]
    refine iff_of_false (fun h => ?_) fun h => Bool.false_ne_true h.2
    split_ifs at h
  | forward hs he =>
    rw [transitExit_eq m _ _ (by decide), he]
    exact iff_of_true rfl ⟨hs.admits, rfl⟩

/-- **An ARP request is answered** if and only if its target is known. -/
theorem transit_arp_tx_iff (hc : m.ifConfigMap ctx.ingressIfindex = some itf)
    (hf : ArpFrame itf ctx.data ent inner) :
    (transit .compiled m ctx).verdict = .tx ↔ KnownArp m itf ctx.data inner := by
  have hknown : KnownArp m itf ctx.data inner ↔
      (m.endpointsMap (arpEndpointKey (arpPacket itf ctx.data ent inner))).isSome :=
    ⟨fun h => h.target, fun h => ⟨hf.role, hf.ethertype, hf.request, h⟩⟩
  obtain ⟨v, hv, hr, -⟩ := transit_arp hc hf
  rw [hv, hknown]
  generalize (transit .compiled m ctx).data = out at hr
  cases hr with
  | unknown he =>
    rw [transitExit_epNotFound, he]
    refine iff_of_false (fun h => ?_) Bool.false_ne_true
    split_ifs at h
  | reply he =>
    rw [transitExit_eq m _ _ (by decide), he]
    exact iff_of_true rfl rfl

theorem TunnelFrame.accepted (hc : m.ifConfigMap ctx.ingressIfindex = some itf)
    (h : TunnelFrame itf ctx.data ent inner) (hl : inner + 14 ≤ ctx.data.length)
    (hk : KnownArp m itf ctx.data inner ∨ KnownIp m ctx.data inner) : Accepted m ctx itf ent inner :=
  ⟨hc, h.len, h.proto, trnFindEntrance_iff.1 h.entrance, h.daddr, h.ttl, h.protocol, h.overlay, hl, hk⟩

theorem Accepted.tunnelFrame (h : Accepted m ctx itf ent inner) : TunnelFrame itf ctx.data ent inner :=
  ⟨h.headers, h.ethertype, trnFindEntrance_iff.2 h.entrance, h.daddr, h.ttl, h.protocol, h.overlay⟩

end Run

/-- **The acceptance set of the gateway**: a frame is transmitted if and only if its headers are complete, the
first entrance with its MAC address has its IP address, its tunnel is that of the interface's role, and its
inner frame is an ARP request or an admitted IPv4 packet for a known endpoint. -/
theorem transit_tx_iff (m : Maps) (ctx : XdpMd) :
    (transit .compiled m ctx).verdict = .tx ↔ ∃ itf ent inner, Accepted m ctx itf ent inner := by
  constructor
  · intro hv
    obtain ⟨itf, ent, inner, hc, hf | hf⟩ := transit_frames (.inl hv)
    · have hl := hf.ipLen
      exact ⟨itf, ent, inner, hf.accepted hc (by omega) (.inr ((transit_ip_tx_iff hc hf).1 hv))⟩
    · have hl := hf.request.len
      exact ⟨itf, ent, inner, hf.accepted hc (by omega) (.inl ((transit_arp_tx_iff hc hf).1 hv))⟩
  · rintro ⟨itf, ent, inner, h⟩
    rcases h.payload with harp | hip
    · exact (transit_arp_tx_iff h.interface
        ⟨h.tunnelFrame, harp.role, harp.ethertype, harp.request⟩).2 harp
    · exact (transit_ip_tx_iff h.interface ⟨h.tunnelFrame, hip.ethertype, hip.header⟩).2 hip

/-! ## Frames that are not transmitted -/

/-- **Frames that are not transmitted are left as they were received**, whatever the verdict. -/
theorem transit_unchanged {m : Maps} {ctx : XdpMd} (hv : (transit .compiled m ctx).verdict ≠ .tx) :
    (transit .compiled m ctx).data = ctx.data := by
  cases hc : m.ifConfigMap ctx.ingressIfindex with
  | none =>
    simp only [transit, hc]
    rfl
  | some itf =>
    obtain ⟨ent, inner, hf⟩ | ⟨ent, inner, hf⟩ | ⟨r, hr, hs⟩ :=
      trnProcessEth_frames (.start ctx.data itf true)
    · obtain ⟨v, hverdict, hr⟩ := transit_ip hc hf
      rw [hverdict] at hv
      generalize (transit .compiled m ctx).data = out at hr ⊢
      cases hr with
      | refused _ _ | unknown _ _ => rfl
      | forward _ _ => exact absurd (transitExit_eq m _ _ (by decide)) hv
    · obtain ⟨v, hverdict, hr, -⟩ := transit_arp hc hf
      rw [hverdict] at hv
      generalize (transit .compiled m ctx).data = out at hr ⊢
      cases hr with
      | unknown _ => rfl
      | reply _ => exact absurd (transitExit_eq m _ _ (by decide)) hv
    · rw [transit_of_config hc, hr]
      exact hs.data

/-- The sample packet without rules is dropped, as it was received. -/
theorem transit_unchanged_sample :
    (transit .compiled (sampleMaps fun _ => none) (sampleCtx ipprotoTcp)).data = sampleFrame ipprotoTcp :=
  have hv : (transit .compiled (sampleMaps fun _ => none) (sampleCtx ipprotoTcp)).verdict ≠ .tx := by decide
  transit_unchanged hv

end ArionDp
