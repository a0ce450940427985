import ArionDp.Xdp.Acceptance

/-!
# IPv4 options

The program takes the transport header to be 20 bytes behind the start of an IPv4 header, whatever the length
field of that header says.

* `trnProcessUdp_udp`: where it looks for the outer UDP header;
* `frameFlow`, **`transit_flow`**: the flow record of a run;
* `IngressRead`, `SgCheck.ingressPort_iff`: the port that the security groups judge;
* `PortsInPlace`, `HeadersFit`, **`portsInPlace_iff`**: the frames whose ports are those behind the whole headers.
-/

namespace ArionDp

open Wire

/-! ## Ports -/

/-- The length field of the IPv4 header at `ip`, in words of four bytes. -/
def ihl (p : Bytes) (ip : ℕ) : ℕ := (rd p ip &&& 0xf#8).toNat

/-- The port at offset `o`, if the frame has one. -/
def portAt (p : Bytes) (o : ℕ) : Option U16 := if o + 2 ≤ p.length then some (ld16 p o) else none

/-- The IPv4 header at `ip` has no options, or byte `k` of what is behind them starts the same port as byte `k`
behind the first 20 bytes. -/
def PortFits (p : Bytes) (ip k : ℕ) : Prop :=
  ihl p ip = 5 ∨ portAt p (ip + 4 * ihl p ip + k) = some (ld16 p (ip + 20 + k))

theorem portFits_iff {p : Bytes} {ip k : ℕ} (hl : ip + 22 + k ≤ p.length) :
    PortFits p ip k ↔ portAt p (ip + 4 * ihl p ip + k) = some (ld16 p (ip + 20 + k)) := by
  refine ⟨fun h => h.elim (fun h5 => ?_) id, .inr⟩
  rw [h5, portAt, if_pos (by omega)]

/-! ## The outer UDP header -/

/-- Frame `p`, received on interface `itf`, is for entrance `ent`, and so is taken for a UDP datagram. -/
structure UdpFrame (itf : TunnelIface) (p : Bytes) (ent : Fin tranMaxZgcEntrances) : Prop where
  len : 42 ≤ p.length
  proto : ld16 p 12 = bpfHtons ethPIp
  entrance : trnFindEntrance itf p 0 = some ent
  daddr : ld32 p 30 = (itf.entrances ent).ip
  ttl : rd p 22 ≠ 0
  protocol : rd p 23 = ipprotoUdp

theorem TunnelFrame.udpFrame {itf : TunnelIface} {p : Bytes} {ent : Fin tranMaxZgcEntrances} {inner : ℕ}
    (h : TunnelFrame itf p ent inner) : UdpFrame itf p ent :=
  ⟨h.len, h.proto, h.entrance, h.daddr, h.ttl, h.protocol⟩

section Udp

variable (C : TailConf) (m : Maps) (pkt : TransitPacket)

@[simp] theorem trnSgCheckIngress_udp (port : U16) : (trnSgCheckIngress m port pkt).2.udp = pkt.udp := by
  simp only [trnSgCheckIngress]
  split_ifs <;> rfl

@[simp] theorem trnSgCheck_udp : (trnSgCheck m pkt).2.udp = pkt.udp := by
  simp only [trnSgCheck]
  split_ifs <;> simp [sgLookup]

@[simp] theorem trnAppendHints_udp (tip : U32) : (trnAppendHints pkt tip).2.udp = pkt.udp := by
  simp only [trnAppendHints]
  split_ifs <;> rfl

@[simp] theorem trnForward_udp (ep : Endpoint) (protocol : U8) :
    (trnForward C ep protocol pkt).2.udp = pkt.udp := by
  simp only [trnForward]
  split_ifs <;> simp

@[simp] theorem trnFlow_udp (ep : Endpoint) : (trnFlow C ep pkt).2.udp = pkt.udp := by
  simp only [trnFlow]
  split_ifs <;> simp

@[simp] theorem trnProcessInnerIp_udp : (trnProcessInnerIp C m pkt).2.udp = pkt.udp := by
  simp only [trnProcessInnerIp, trnLookupEndpoint]
  split_ifs
  · rfl
  · simp
  · cases m.endpointsMap _ <;> simp

@[simp] theorem trnProcessInnerArp_udp : (trnProcessInnerArp m pkt).2.udp = pkt.udp := by
  simp only [trnProcessInnerArp]
  split_ifs <;> try rfl
  cases m.endpointsMap _ <;> rfl

@[simp] theorem trnProcessInnerEth_udp : (trnProcessInnerEth C m pkt).2.udp = pkt.udp := by
  simp only [trnProcessInnerEth]
  split_ifs <;> simp

@[simp] theorem trnProcessGeneve_udp : (trnProcessGeneve C m pkt).2.udp = pkt.udp := by
  simp only [trnProcessGeneve]
  split_ifs <;> first | rfl | exact trnProcessInnerEth_udp ..

@[simp] theorem trnProcessVxlan_udp : (trnProcessVxlan C m pkt).2.udp = pkt.udp := by
  simp only [trnProcessVxlan]
  split_ifs
  · rfl
  · exact trnProcessInnerEth_udp ..

/-- **The UDP header is looked for behind 20 bytes of IPv4 header**, and stays there. -/
theorem trnProcessUdp_udp : (trnProcessUdp C m pkt).2.udp = pkt.ip + 20 := by
  rw [trnProcessUdp]
  dsimp only
  split_ifs
  · rfl
  · exact trnProcessGeneve_udp ..
  · exact trnProcessVxlan_udp ..
  · rfl

end Udp

theorem trnProcessEth_udp (C : TailConf) (m : Maps) {pkt : TransitPacket} {ent : Fin tranMaxZgcEntrances}
    (h : UdpFrame pkt.itf pkt.data ent) : (trnProcessEth C m pkt).2.udp = 34 := by
  have hl := h.len
  simp only [trnProcessEth, trnProcessIp, sizeofEthhdr, sizeofIphdr, Nat.reduceAdd, Nat.zero_add, h.entrance]
  rw [if_neg (by omega), if_neg (not_not.mpr h.proto), if_neg (by omega), if_neg (not_not.mpr h.daddr),
    if_neg h.ttl, if_neg (not_not.mpr h.protocol)]
  exact trnProcessUdp_udp ..

/-! ## The flow record -/

/-- The flow record of an inner packet, with the ports behind 20 bytes of IPv4 header. -/
def packetFlow (pkt : TransitPacket) : Ipv4Flow where
  saddr := ld32 pkt.data (pkt.innerIp + 12)
  daddr := ld32 pkt.data (pkt.innerIp + 16)
  sport := if l4Len (rd pkt.data (pkt.innerIp + 9)) = none then 0 else ld16 pkt.data (pkt.innerIp + 20)
  dport := if l4Len (rd pkt.data (pkt.innerIp + 9)) = none then 0 else ld16 pkt.data (pkt.innerIp + 22)
  protocol := rd pkt.data (pkt.innerIp + 9)
  vni := trnSetVni pkt.vni

/-- The flow record of a frame. -/
def frameFlow (p : Bytes) (inner : ℕ) : Ipv4Flow where
  saddr := ld32 p (inner + 26)
  daddr := ld32 p (inner + 30)
  sport := if l4Len (rd p (inner + 23)) = none then 0 else ld16 p (inner + 34)
  dport := if l4Len (rd p (inner + 23)) = none then 0 else ld16 p (inner + 36)
  protocol := rd p (inner + 23)
  vni := trnSetVni (frameVni p)

theorem trnSgCheck_flow (m : Maps) (pkt : TransitPacket) : (trnSgCheck m pkt).2.flow = pkt.flow := by
  simp only [trnSgCheck, trnSgCheckIngress]
  split_ifs <;> rfl

/-- Behind a complete transport header the whole record is made. -/
theorem trnFlow_flow (ep : Endpoint) (pkt : TransitPacket)
    (h : ∀ n, l4Len (rd pkt.data (pkt.innerIp + 9)) = some n → pkt.innerIp + 20 + n ≤ pkt.data.length) :
    (trnFlow .compiled ep pkt).2.flow = some (packetFlow pkt) := by
  simp only [trnFlow, trnForward_compiled, sizeofIphdr, packetFlow]
  by_cases htcp : rd pkt.data (pkt.innerIp + 9) = ipprotoTcp
  · have hp : l4Len (rd pkt.data (pkt.innerIp + 9)) = some sizeofTcphdr := by rw [l4Len, if_pos htcp]
    have hl := Nat.not_lt.mpr (h _ hp)
    rw [if_pos htcp, if_neg hl, hp]
    rfl
  by_cases hudp : rd pkt.data (pkt.innerIp + 9) = ipprotoUdp
  · have hp : l4Len (rd pkt.data (pkt.innerIp + 9)) = some sizeofUdphdr := by
      rw [l4Len, if_neg htcp, if_pos hudp]
    have hl := Nat.not_lt.mpr (h _ hp)
    rw [if_neg htcp, if_pos hudp, if_neg hl, hp]
    rfl
  · have hp : l4Len (rd pkt.data (pkt.innerIp + 9)) = none := by rw [l4Len, if_neg htcp, if_neg hudp]
    rw [if_neg htcp, if_neg hudp, hp]
    rfl

theorem SamePacket.packetFlow {q pkt : TransitPacket} (h : SamePacket q pkt) :
    packetFlow q = packetFlow pkt := by
  simp only [ArionDp.packetFlow, h.data, h.vni, h.innerIp]

section Run

variable {m : Maps} {ctx : XdpMd} {itf : TunnelIface} {ent : Fin tranMaxZgcEntrances} {inner : ℕ}

/-- **The flow record is made for the packets that are transmitted**, and for no others. -/
theorem transit_flow (hc : m.ifConfigMap ctx.ingressIfindex = some itf)
    (hf : IpFrame itf ctx.data ent inner) (fl : Ipv4Flow) :
    (transit .compiled m ctx).flow = some fl ↔ KnownIp m ctx.data inner ∧ frameFlow ctx.data inner = fl := by
  let pkt := ipPacket itf ctx.data ent inner
  obtain ⟨l, hs, -⟩ := trnSgCheck_spec m pkt
  have hq : SamePacket (trnSgCheck m pkt).2 pkt := trnSgCheck_same m pkt
  have hnone : (trnSgCheck m pkt).2.flow = none := trnSgCheck_flow m pkt
  have hrun : trnProcessInnerIp .compiled m ((TransitPacket.start ctx.data itf true).atInner ent inner) =
      if (trnSgCheck m pkt).1 ≠ .pass then trnSgCheck m pkt
      else trnLookupEndpoint .compiled m (trnSgCheck m pkt).2 :=
    if_neg (Nat.not_lt.mpr hf.ipLen)
  rw [knownIp_iff hf, ← trnSgCheck_pass_iff, transit_of_config hc, trnProcessEth_of_ipFrame .compiled m hf]
  change (trnProcessInnerIp .compiled m _).2.flow = some fl ↔ _
  rw [hrun]
  by_cases hv : (trnSgCheck m pkt).1 = .pass
  · rw [hv] at hs
    rw [if_neg (not_not.mpr hv)]
    cases he : m.endpointsMap (ipEndpointKey pkt) with
    | none =>
      rw [hq.trnLookupEndpoint_none _ he]
      exact iff_of_false (fun h => Option.some_ne_none fl (h.symm.trans hnone)) fun h => Bool.false_ne_true h.1.2
    | some ep =>
      have hcomplete := hs.complete
      rw [← hq.data, ← hq.innerIp] at hcomplete
      have hfl : packetFlow pkt = frameFlow ctx.data inner := rfl
      rw [hq.trnLookupEndpoint_some _ he, trnFlow_flow ep _ hcomplete, hq.packetFlow, hfl, Option.some.injEq]
      exact ⟨fun h => ⟨⟨hv, rfl⟩, h⟩, fun h => h.2⟩
  · rw [if_pos hv, hnone]
    exact iff_of_false (fun h => Option.some_ne_none fl h.symm) fun h => hv h.1.1

end Run

/-! ## The port that the security groups judge -/

/-- The ingress lookup is made: the egress lookup hits, and the frame goes on for a transport header. -/
def IngressRead (m : Maps) (p : Bytes) (inner : ℕ) : Prop :=
  (m.sgCidrLookup (frameEgressKey p inner)).isSome ∧
    ∃ n, l4Len (rd p (inner + 23)) = some n ∧ inner + 34 + n ≤ p.length

theorem l4Len_ge {protocol : U8} {n : ℕ} (h : l4Len protocol = some n) : 4 ≤ n := by
  unfold l4Len at h
  split_ifs at h
  · obtain rfl := Option.some.inj h
    decide
  · obtain rfl := Option.some.inj h
    decide

/-- An ingress lookup of a run was made with this port. -/
def IngressPort (l : SgTrace) (port : U16) : Prop := ∃ k r, (k, r) ∈ l ∧ k.direction = 1 ∧ k.port = port

theorem not_ingressPort_egress (pkt : TransitPacket) (r : Option SecurityGroup) (port : U16) :
    ¬ IngressPort [(sgEgressKey pkt, r)] port := by
  rintro ⟨k, r', hk, hdir, -⟩
  obtain ⟨rfl, -⟩ := Prod.mk.inj (List.mem_singleton.1 hk)
  exact absurd hdir (show ¬ (0 : U8) = 1 by decide)

theorem ingressPort_both (pkt : TransitPacket) (r r' : Option SecurityGroup) (port : U16) :
    IngressPort [(sgEgressKey pkt, r), (sgIngressKey pkt (sgPort pkt), r')] port ↔ sgPort pkt = port := by
  constructor
  · rintro ⟨k, r'', hk, hdir, rfl⟩
    rcases List.mem_cons.1 hk with hk | hk
    · exact (not_ingressPort_egress pkt r _ ⟨k, r'', List.mem_singleton.2 hk, hdir, rfl⟩).elim
    · obtain ⟨rfl, -⟩ := Prod.mk.inj (List.mem_singleton.1 hk)
      rfl
  · rintro rfl
    exact ⟨_, r', List.mem_cons_of_mem _ (List.mem_singleton_self _), rfl, rfl⟩

/-- **The ports of the ingress lookups of a frame** are the word at one place. -/
theorem SgCheck.ingressPort_iff {m : Maps} {itf : TunnelIface} {p : Bytes} {ent : Fin tranMaxZgcEntrances}
    {inner : ℕ} {v : XdpAction} {l : SgTrace} (h : SgCheck m (ipPacket itf p ent inner) v l) (port : U16) :
    IngressPort l port ↔ IngressRead m p inner ∧ ld16 p (inner + 36) = port := by
  cases h with
  | noEgress he =>
    refine iff_of_false (not_ingressPort_egress _ _ _) fun h => ?_
    exact Bool.false_ne_true ((congrArg Option.isSome he).symm.trans h.1.1)
  | otherProtocol he hp =>
    refine iff_of_false (not_ingressPort_egress _ _ _) fun h => ?_
    obtain ⟨n, hn, -⟩ := h.1.2
    exact nomatch hp.symm.trans hn
  | truncated he hp hl =>
    refine iff_of_false (not_ingressPort_egress _ _ _) fun h => ?_
    obtain ⟨n, hn, hle⟩ := h.1.2
    obtain rfl := Option.some.inj (hp.symm.trans hn)
    exact absurd hle (Nat.not_le.mpr hl)
  | noIngress he hp hl hi =>
    rw [ingressPort_both]
    exact (and_iff_right ⟨congrArg Option.isSome he, _, hp, hl⟩).symm
  | admitted he hp hl hi =>
    rw [ingressPort_both]
    exact (and_iff_right ⟨congrArg Option.isSome he, _, hp, hl⟩).symm

theorem IpRun.sgCheck {m : Maps} {pkt : TransitPacket} {v : XdpAction} {out : Bytes} {l : SgTrace}
    (h : IpRun m pkt v out l) : ∃ v', SgCheck m pkt v' l := by
  cases h with
  | refused hs _ => exact ⟨_, hs⟩
  | unknown hs _ => exact ⟨_, hs⟩
  | forward hs _ => exact ⟨_, hs⟩

/-! ## Frames whose ports are where the length fields say -/

/-- **The ports that a run reads are those behind the whole IPv4 headers**: the outer one that tells the tunnel, the
inner one of the ingress lookup, and those of the flow record. -/
def PortsInPlace (m : Maps) (ctx : XdpMd) : Prop :=
  ∀ itf ent, m.ifConfigMap ctx.ingressIfindex = some itf → UdpFrame itf ctx.data ent →
    portAt ctx.data (14 + 4 * ihl ctx.data 14 + 2) = some (ld16 ctx.data
      ((trnProcessEth .compiled m (.start ctx.data itf true)).2.udp + 2)) ∧
    ∀ inner, IpFrame itf ctx.data ent inner →
      (∀ port, IngressPort (transit .compiled m ctx).sgTrace port →
        portAt ctx.data (inner + 14 + 4 * ihl ctx.data (inner + 14) + 2) = some port) ∧
      ∀ fl, (transit .compiled m ctx).flow = some fl → l4Len fl.protocol ≠ none →
        portAt ctx.data (inner + 14 + 4 * ihl ctx.data (inner + 14)) = some fl.sport ∧
        portAt ctx.data (inner + 14 + 4 * ihl ctx.data (inner + 14) + 2) = some fl.dport

/-- **The headers whose ports are read have no options, or the same ports behind them.** -/
def HeadersFit (m : Maps) (ctx : XdpMd) : Prop :=
  ∀ itf ent, m.ifConfigMap ctx.ingressIfindex = some itf → UdpFrame itf ctx.data ent →
    PortFits ctx.data 14 2 ∧
    ∀ inner, IpFrame itf ctx.data ent inner →
      (IngressRead m ctx.data inner → PortFits ctx.data (inner + 14) 2) ∧
      (KnownIp m ctx.data inner → l4Len (rd ctx.data (inner + 23)) ≠ none → PortFits ctx.data (inner + 14) 0)

section Inner

variable {m : Maps} {ctx : XdpMd} {itf : TunnelIface} {ent : Fin tranMaxZgcEntrances} {inner : ℕ}

/-- The ports of the ingress lookups. -/
theorem ingressPort_iff_fits (hc : m.ifConfigMap ctx.ingressIfindex = some itf)
    (hf : IpFrame itf ctx.data ent inner) :
    (∀ port, IngressPort (transit .compiled m ctx).sgTrace port →
      portAt ctx.data (inner + 14 + 4 * ihl ctx.data (inner + 14) + 2) = some port) ↔
      (IngressRead m ctx.data inner → PortFits ctx.data (inner + 14) 2) := by
  obtain ⟨v, -, hr⟩ := transit_ip hc hf
  obtain ⟨v', hs⟩ := hr.sgCheck
  have hfits : IngressRead m ctx.data inner → (PortFits ctx.data (inner + 14) 2 ↔
      portAt ctx.data (inner + 14 + 4 * ihl ctx.data (inner + 14) + 2) = some (ld16 ctx.data (inner + 36))) := by
    rintro ⟨-, n, hn, hl⟩
    have hge := l4Len_ge hn
    exact portFits_iff (by omega)
  constructor
  · intro h hread
    exact (hfits hread).2 (h _ ((hs.ingressPort_iff _).2 ⟨hread, rfl⟩))
  · intro h port hport
    obtain ⟨hread, rfl⟩ := (hs.ingressPort_iff port).1 hport
    exact (hfits hread).1 (h hread)

theorem KnownIp.ingressRead (h : KnownIp m ctx.data inner) (hp : l4Len (rd ctx.data (inner + 23)) ≠ none) :
    IngressRead m ctx.data inner := by
  obtain ⟨n, hn⟩ := Option.ne_none_iff_exists'.1 hp
  exact ⟨h.egress, n, hn, h.transport n hn⟩

/-- The ports of the flow record. -/
theorem flow_iff_fits (hc : m.ifConfigMap ctx.ingressIfindex = some itf) (hf : IpFrame itf ctx.data ent inner)
    (hread : IngressRead m ctx.data inner → PortFits ctx.data (inner + 14) 2) :
    (∀ fl, (transit .compiled m ctx).flow = some fl → l4Len fl.protocol ≠ none →
      portAt ctx.data (inner + 14 + 4 * ihl ctx.data (inner + 14)) = some fl.sport ∧
      portAt ctx.data (inner + 14 + 4 * ihl ctx.data (inner + 14) + 2) = some fl.dport) ↔
      (KnownIp m ctx.data inner → l4Len (rd ctx.data (inner + 23)) ≠ none →
        PortFits ctx.data (inner + 14) 0) := by
  have hports : ∀ k, k ≤ 2 → IngressRead m ctx.data inner → (PortFits ctx.data (inner + 14) k ↔
      portAt ctx.data (inner + 14 + 4 * ihl ctx.data (inner + 14) + k) =
        some (ld16 ctx.data (inner + 34 + k))) := by
    rintro k hk ⟨-, n, hn, hl⟩
    have hge := l4Len_ge hn
    exact portFits_iff (by omega)
  constructor
  · intro h hknown hp
    have hsport := (h _ ((transit_flow hc hf _).2 ⟨hknown, rfl⟩) hp).1
    rw [frameFlow, if_neg hp] at hsport
    exact (hports 0 (by omega) (hknown.ingressRead hp)).2 hsport
  · intro h fl hfl hp
    obtain ⟨hknown, rfl⟩ := (transit_flow hc hf fl).1 hfl
    have hr := hknown.ingressRead hp
    have hs := (hports 0 (by omega) hr).1 (h hknown hp)
    have hd := (hports 2 le_rfl hr).1 (hread hr)
    have hsport : (frameFlow ctx.data inner).sport = ld16 ctx.data (inner + 34) := if_neg hp
    have hdport : (frameFlow ctx.data inner).dport = ld16 ctx.data (inner + 36) := if_neg hp
    rw [hsport, hdport]
    exact ⟨hs, hd⟩

end Inner

/-- **Ports are read in the right place** if and only if the headers fit. -/
theorem portsInPlace_iff (m : Maps) (ctx : XdpMd) : PortsInPlace m ctx ↔ HeadersFit m ctx := by
  refine forall_congr' fun itf => forall_congr' fun ent => forall_congr' fun hc => forall_congr' fun hu => ?_
  have hudp : (trnProcessEth .compiled m (.start ctx.data itf true)).2.udp = 34 := trnProcessEth_udp .compiled m hu
  have hl := hu.len
  rw [hudp]
  refine and_congr (portFits_iff (by omega)).symm (forall_congr' fun inner => forall_congr' fun hf => ?_)
  rw [ingressPort_iff_fits hc hf]
  exact and_congr_right fun hread => flow_iff_fits hc hf hread

/-! ## A packet with options -/

/-- The sample frame with four bytes of options in the inner header, `NOP`, `NOP`, the end of the list and a byte of
padding; the TCP header behind them is for port 22. -/
def sampleOptions : Bytes :=
  (sampleFrame ipprotoTcp).take 64 ++ [0x46] ++ ((sampleFrame ipprotoTcp).drop 65).take 19 ++
    [0x01, 0x01, 0x00, 0x50] ++
  [0x30, 0x39, 0x00, 0x16, 0x00, 0x00, 0x00, 0x00, 0x00, 0x00, 0x00, 0x00, 0x50, 0x00, 0x00, 0x00,
    0x00, 0x00, 0x00, 0x00]

theorem sampleOptions_ipFrame : IpFrame sampleIface sampleOptions 0 50 where
  len := by decide
  proto := by decide
  entrance := by decide
  daddr := by decide
  ttl := by decide
  protocol := by decide
  overlay := .inl ⟨⟨by decide, rfl, by decide⟩, rfl⟩
  ethertype := by decide
  ipLen := by decide

/-- **Options hide the port**: the security groups judge port 80, which the sender has put there, and the packet
goes on to port 22. -/
theorem options_hide_port :
    let ctx : XdpMd := ⟨sampleOptions, 2, 0⟩
    let maps := sampleMaps (vniRules tranSgPass)
    (transit .compiled maps ctx).verdict = .tx ∧ IngressPort (transit .compiled maps ctx).sgTrace 0x5000 ∧
      portAt ctx.data (64 + 4 * ihl ctx.data 64 + 2) = some 0x1600 ∧ ¬ PortsInPlace maps ctx := by
  intro ctx maps
  have hport : IngressPort (transit .compiled maps ctx).sgTrace 0x5000 := by
    refine ⟨sgIngressKey (ipPacket sampleIface sampleOptions 0 50) 0x5000, some ⟨1, tranSgPass⟩, ?_, rfl, rfl⟩
    decide +kernel
  have hreal : portAt ctx.data (64 + 4 * ihl ctx.data 64 + 2) = some 0x1600 := by decide
  refine ⟨by decide +kernel, hport, hreal, fun h => ?_⟩
  have hu : UdpFrame sampleIface ctx.data 0 := sampleOptions_ipFrame.udpFrame
  obtain ⟨hin, -⟩ := (h sampleIface 0 rfl hu).2 50 sampleOptions_ipFrame
  exact absurd (hreal.symm.trans (hin _ hport)) (by decide)

end ArionDp
