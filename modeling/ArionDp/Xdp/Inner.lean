import ArionDp.Xdp.Tunnel

/-!
# The inner packet

What the program does with the inner frame, as the list of its outcomes.

* `SgCheck`, **`trnSgCheck_spec`**: the five ways through `trn_sg_check`;
* `IpRun`, **`trnProcessInnerIp_spec`**: the three ways through `trn_process_inner_ip`;
* `IpFrame`, `ArpFrame`: the frames that reach an inner IPv4 packet or a whole ARP request;
* **`trnProcessEth_frames`**: every frame is one of the two, or the run stops untouched;
* **`transit_ip`**: a run of the program on an inner IPv4 packet.
-/

namespace ArionDp

open Wire

/-- A record of lookups in `sg_cidr_map`. -/
abbrev SgTrace := List (SgCidrKey × Option SecurityGroup)

/-! ## The security-group check -/

/-- The length of the transport header, for the protocols that have one. -/
def l4Len (protocol : U8) : Option ℕ :=
  if protocol = ipprotoTcp then some sizeofTcphdr
  else if protocol = ipprotoUdp then some sizeofUdphdr
  else none

/-- The word that the program takes for the destination port: it skips 20 bytes of IPv4 header. -/
def sgPort (pkt : TransitPacket) : U16 := ld16 pkt.data (pkt.innerIp + 22)

/-- **The outcomes of `trn_sg_check`**, with the lookups made. -/
inductive SgCheck (m : Maps) (pkt : TransitPacket) : XdpAction → SgTrace → Prop
  | noEgress (he : m.sgCidrLookup (sgEgressKey pkt) = none) :
      SgCheck m pkt .drop [(sgEgressKey pkt, none)]
  | otherProtocol {e : SecurityGroup} (he : m.sgCidrLookup (sgEgressKey pkt) = some e)
      (hp : l4Len (rd pkt.data (pkt.innerIp + 9)) = none) :
      SgCheck m pkt .pass [(sgEgressKey pkt, some e)]
  | truncated {e : SecurityGroup} {n : ℕ} (he : m.sgCidrLookup (sgEgressKey pkt) = some e)
      (hp : l4Len (rd pkt.data (pkt.innerIp + 9)) = some n)
      (hl : pkt.innerIp + 20 + n > pkt.data.length) :
      SgCheck m pkt .aborted [(sgEgressKey pkt, some e)]
  | noIngress {e : SecurityGroup} {n : ℕ} (he : m.sgCidrLookup (sgEgressKey pkt) = some e)
      (hp : l4Len (rd pkt.data (pkt.innerIp + 9)) = some n)
      (hl : pkt.innerIp + 20 + n ≤ pkt.data.length)
      (hi : m.sgCidrLookup (sgIngressKey pkt (sgPort pkt)) = none) :
      SgCheck m pkt .drop [(sgEgressKey pkt, some e), (sgIngressKey pkt (sgPort pkt), none)]
  | admitted {e i : SecurityGroup} {n : ℕ} (he : m.sgCidrLookup (sgEgressKey pkt) = some e)
      (hp : l4Len (rd pkt.data (pkt.innerIp + 9)) = some n)
      (hl : pkt.innerIp + 20 + n ≤ pkt.data.length)
      (hi : m.sgCidrLookup (sgIngressKey pkt (sgPort pkt)) = some i) :
      SgCheck m pkt .pass [(sgEgressKey pkt, some e), (sgIngressKey pkt (sgPort pkt), some i)]

theorem trnSgCheckIngress_spec (m : Maps) {pkt : TransitPacket} {e : SecurityGroup} {n : ℕ}
    (he : m.sgCidrLookup (sgEgressKey pkt) = some e)
    (hp : l4Len (rd pkt.data (pkt.innerIp + 9)) = some n)
    (hl : pkt.innerIp + 20 + n ≤ pkt.data.length) {q : TransitPacket}
    (hq : sgIngressKey q (sgPort pkt) = sgIngressKey pkt (sgPort pkt))
    (ht : q.sgTrace = pkt.sgTrace ++ [(sgEgressKey pkt, some e)]) :
    ∃ l, SgCheck m pkt (trnSgCheckIngress m (sgPort pkt) q).1 l ∧
      (trnSgCheckIngress m (sgPort pkt) q).2.sgTrace = pkt.sgTrace ++ l := by
  simp only [trnSgCheckIngress, sgLookup, hq, ht]
  cases hi : m.sgCidrLookup (sgIngressKey pkt (sgPort pkt)) with
  | none =>
    simp only [Option.isNone_none, if_true, List.append_assoc]
    exact ⟨_, .noIngress he hp hl hi, rfl⟩
  | some i =>
    simp only [Option.isNone_some, Bool.false_eq_true, if_false, List.append_assoc]
    exact ⟨_, .admitted he hp hl hi, rfl⟩

/-- **Every run of `trn_sg_check` is one of the five.** -/
theorem trnSgCheck_spec (m : Maps) (pkt : TransitPacket) :
    ∃ l, SgCheck m pkt (trnSgCheck m pkt).1 l ∧
      (trnSgCheck m pkt).2.sgTrace = pkt.sgTrace ++ l := by
  have hproto : (sgEgressKey pkt).protocol = rd pkt.data (pkt.innerIp + 9) := rfl
  cases he : m.sgCidrLookup (sgEgressKey pkt) with
  | none =>
    simp only [trnSgCheck, sgLookup, he, Option.isNone_none, if_true]
    exact ⟨_, .noEgress he, rfl⟩
  | some e =>
    simp only [trnSgCheck, he, Option.isNone_some, Bool.false_eq_true, if_false, sgLookup, hproto,
      sizeofIphdr]
    by_cases htcp : rd pkt.data (pkt.innerIp + 9) = ipprotoTcp
    · have hp : l4Len (rd pkt.data (pkt.innerIp + 9)) = some sizeofTcphdr := by
        rw [l4Len, if_pos htcp]
      simp only [if_pos htcp]
      by_cases hl : pkt.innerIp + 20 + sizeofTcphdr > pkt.data.length
      · simp only [if_pos hl]
        exact ⟨_, .truncated he hp hl, rfl⟩
      · simp only [if_neg hl]
        exact trnSgCheckIngress_spec m he hp (by omega) rfl rfl
    by_cases hudp : rd pkt.data (pkt.innerIp + 9) = ipprotoUdp
    · have hp : l4Len (rd pkt.data (pkt.innerIp + 9)) = some sizeofUdphdr := by
        rw [l4Len, if_neg htcp, if_pos hudp]
      simp only [if_neg htcp, if_pos hudp]
      by_cases hl : pkt.innerIp + 20 + sizeofUdphdr > pkt.data.length
      · simp only [if_pos hl]
        exact ⟨_, .truncated he hp hl, rfl⟩
      · simp only [if_neg hl]
        exact trnSgCheckIngress_spec m he hp (by omega) rfl rfl
    · simp only [if_neg htcp, if_neg hudp]
      exact ⟨_, .otherProtocol he (by rw [l4Len, if_neg htcp, if_neg hudp]), rfl⟩

theorem SgCheck.complete {m : Maps} {pkt : TransitPacket} {l : SgTrace}
    (h : SgCheck m pkt .pass l) (n : ℕ) (hn : l4Len (rd pkt.data (pkt.innerIp + 9)) = some n) :
    pkt.innerIp + 20 + n ≤ pkt.data.length := by
  cases h with
  | otherProtocol he hp => rw [hp] at hn; exact absurd hn (by simp)
  | admitted he hp hl hi =>
    rw [hp] at hn
    rw [← Option.some.inj hn]
    exact hl

/-- A check that refuses drops the packet or, on a short transport header, aborts. -/
theorem SgCheck.refused {m : Maps} {pkt : TransitPacket} {v : XdpAction} {l : SgTrace}
    (h : SgCheck m pkt v l) (hv : v ≠ .pass) : v = .drop ∨ v = .aborted := by
  cases h with
  | noEgress he => exact .inl rfl
  | truncated he hp hl => exact .inr rfl
  | noIngress he hp hl hi => exact .inl rfl
  | otherProtocol he hp => exact absurd rfl hv
  | admitted he hp hl hi => exact absurd rfl hv

/-! ## Packets that differ in the transport header and the records only -/

/-- Agreement on all that the rewrites read. -/
structure SamePacket (q pkt : TransitPacket) : Prop where
  data : q.data = pkt.data
  vni : q.vni = pkt.vni
  eth : q.eth = pkt.eth
  ip : q.ip = pkt.ip
  innerEth : q.innerEth = pkt.innerEth
  innerIp : q.innerIp = pkt.innerIp
  tail : q.pktNotAddTail = pkt.pktNotAddTail

theorem SamePacket.refl (pkt : TransitPacket) : SamePacket pkt pkt :=
  ⟨rfl, rfl, rfl, rfl, rfl, rfl, rfl⟩

theorem SamePacket.trans {a b c : TransitPacket} (h : SamePacket a b) (h' : SamePacket b c) :
    SamePacket a c :=
  ⟨h.data.trans h'.data, h.vni.trans h'.vni, h.eth.trans h'.eth, h.ip.trans h'.ip,
    h.innerEth.trans h'.innerEth, h.innerIp.trans h'.innerIp, h.tail.trans h'.tail⟩

theorem SamePacket.trnRewrite {q pkt : TransitPacket} (h : SamePacket q pkt) (ep : Endpoint) :
    trnRewrite q ep = trnRewrite pkt ep := by
  simp only [ArionDp.trnRewrite, h.data, h.eth, h.ip, h.innerEth]

theorem trnSgCheckIngress_same (m : Maps) (port : U16) (pkt : TransitPacket) :
    SamePacket (trnSgCheckIngress m port pkt).2 pkt := by
  simp only [trnSgCheckIngress]
  split_ifs <;> exact ⟨rfl, rfl, rfl, rfl, rfl, rfl, rfl⟩

theorem trnSgCheck_same (m : Maps) (pkt : TransitPacket) :
    SamePacket (trnSgCheck m pkt).2 pkt := by
  simp only [trnSgCheck]
  split_ifs
  · exact ⟨rfl, rfl, rfl, rfl, rfl, rfl, rfl⟩
  · exact ⟨rfl, rfl, rfl, rfl, rfl, rfl, rfl⟩
  · exact (trnSgCheckIngress_same m _ _).trans ⟨rfl, rfl, rfl, rfl, rfl, rfl, rfl⟩
  · exact ⟨rfl, rfl, rfl, rfl, rfl, rfl, rfl⟩
  · exact (trnSgCheckIngress_same m _ _).trans ⟨rfl, rfl, rfl, rfl, rfl, rfl, rfl⟩
  · exact ⟨rfl, rfl, rfl, rfl, rfl, rfl, rfl⟩

/-- **Behind a complete transport header the flow record is all that changes before the rewrite.** -/
theorem trnFlow_eq (C : TailConf) (ep : Endpoint) (pkt : TransitPacket)
    (h : ∀ n, l4Len (rd pkt.data (pkt.innerIp + 9)) = some n →
      pkt.innerIp + 20 + n ≤ pkt.data.length) :
    ∃ q, trnFlow C ep pkt = trnForward C ep (rd pkt.data (pkt.innerIp + 9)) q ∧
      SamePacket q pkt ∧ q.sgTrace = pkt.sgTrace := by
  simp only [trnFlow, sizeofIphdr]
  by_cases htcp : rd pkt.data (pkt.innerIp + 9) = ipprotoTcp
  · have hl : ¬ pkt.innerIp + 20 + sizeofTcphdr > pkt.data.length :=
      Nat.not_lt.mpr (h _ (by rw [l4Len, if_pos htcp]))
    rw [if_pos htcp, if_neg hl]
    exact ⟨_, rfl, ⟨rfl, rfl, rfl, rfl, rfl, rfl, rfl⟩, rfl⟩
  by_cases hudp : rd pkt.data (pkt.innerIp + 9) = ipprotoUdp
  · have hl : ¬ pkt.innerIp + 20 + sizeofUdphdr > pkt.data.length :=
      Nat.not_lt.mpr (h _ (by rw [l4Len, if_neg htcp, if_pos hudp]))
    rw [if_neg htcp, if_pos hudp, if_neg hl]
    exact ⟨_, rfl, ⟨rfl, rfl, rfl, rfl, rfl, rfl, rfl⟩, rfl⟩
  · simp only [if_neg htcp, if_neg hudp]
    exact ⟨_, rfl, ⟨rfl, rfl, rfl, rfl, rfl, rfl, rfl⟩, rfl⟩

theorem trnForward_compiled (ep : Endpoint) (protocol : U8) (pkt : TransitPacket) :
    trnForward .compiled ep protocol pkt = (.tx, { pkt with data := trnRewrite pkt ep }) := rfl

/-! ## Inner IPv4 -/

/-- The endpoint that an inner IPv4 packet is looked up for. -/
def ipEndpointKey (pkt : TransitPacket) : EndpointKey := ⟨pkt.vni, ld32 pkt.data (pkt.innerIp + 16)⟩

/-- **The outcomes of `trn_process_inner_ip`** on a complete inner header: verdict, bytes and
lookups. -/
inductive IpRun (m : Maps) (pkt : TransitPacket) : XdpAction → Bytes → SgTrace → Prop
  | refused {v : XdpAction} {l : SgTrace} (hs : SgCheck m pkt v l) (hv : v ≠ .pass) :
      IpRun m pkt v pkt.data l
  | unknown {l : SgTrace} (hs : SgCheck m pkt .pass l)
      (he : m.endpointsMap (ipEndpointKey pkt) = none) : IpRun m pkt .epNotFound pkt.data l
  | forward {l : SgTrace} {ep : Endpoint} (hs : SgCheck m pkt .pass l)
      (he : m.endpointsMap (ipEndpointKey pkt) = some ep) : IpRun m pkt .tx (trnRewrite pkt ep) l

section Lookup

variable (C : TailConf) {m : Maps} {pkt q : TransitPacket} (hq : SamePacket q pkt)

include hq

theorem SamePacket.trnLookupEndpoint_none (he : m.endpointsMap (ipEndpointKey pkt) = none) :
    trnLookupEndpoint C m q = (.epNotFound, q) := by
  rw [trnLookupEndpoint, hq.vni, hq.data, hq.innerIp, ← ipEndpointKey, he]

theorem SamePacket.trnLookupEndpoint_some {ep : Endpoint} (he : m.endpointsMap (ipEndpointKey pkt) = some ep) :
    trnLookupEndpoint C m q = trnFlow C ep q := by
  rw [trnLookupEndpoint, hq.vni, hq.data, hq.innerIp, ← ipEndpointKey, he]

/-- The lookup reads a single entry. -/
theorem SamePacket.trnLookupEndpoint_congr {m' : Maps}
    (he : m.endpointsMap (ipEndpointKey pkt) = m'.endpointsMap (ipEndpointKey pkt)) :
    trnLookupEndpoint C m q = trnLookupEndpoint C m' q := by
  cases hep : m'.endpointsMap (ipEndpointKey pkt) with
  | none => rw [hq.trnLookupEndpoint_none C hep, hq.trnLookupEndpoint_none C (he.trans hep)]
  | some ep => rw [hq.trnLookupEndpoint_some C hep, hq.trnLookupEndpoint_some C (he.trans hep)]

end Lookup

theorem trnLookupEndpoint_spec {m : Maps} {pkt q : TransitPacket} {l : SgTrace}
    (hs : SgCheck m pkt .pass l) (hq : SamePacket q pkt) :
    IpRun m pkt (trnLookupEndpoint .compiled m q).1 (trnLookupEndpoint .compiled m q).2.data l ∧
      (trnLookupEndpoint .compiled m q).2.sgTrace = q.sgTrace := by
  cases he : m.endpointsMap (ipEndpointKey pkt) with
  | none =>
    rw [hq.trnLookupEndpoint_none _ he]
    refine ⟨?_, rfl⟩
    rw [hq.data]
    exact .unknown hs he
  | some ep =>
    obtain ⟨q', heq, hq', ht⟩ := trnFlow_eq .compiled ep q (by
      rw [hq.data, hq.innerIp]
      exact hs.complete)
    rw [hq.trnLookupEndpoint_some _ he, heq, trnForward_compiled]
    refine ⟨?_, ht⟩
    dsimp only
    rw [(hq'.trans hq).trnRewrite]
    exact .forward hs he

/-- **Every run of `trn_process_inner_ip` is one of the three.** -/
theorem trnProcessInnerIp_spec (m : Maps) (pkt : TransitPacket)
    (hl : pkt.innerEth + 34 ≤ pkt.data.length) :
    ∃ l, IpRun m { pkt with innerIp := pkt.innerEth + 14 } (trnProcessInnerIp .compiled m pkt).1
        (trnProcessInnerIp .compiled m pkt).2.data l ∧
      (trnProcessInnerIp .compiled m pkt).2.sgTrace = pkt.sgTrace ++ l := by
  obtain ⟨l, hs, ht⟩ := trnSgCheck_spec m { pkt with innerIp := pkt.innerEth + 14 }
  have hq := trnSgCheck_same m { pkt with innerIp := pkt.innerEth + 14 }
  have hlen : ¬ pkt.innerEth + 14 + 20 > pkt.data.length := by omega
  simp only [trnProcessInnerIp, sizeofEthhdr, sizeofIphdr, if_neg hlen]
  by_cases hv : (trnSgCheck m { pkt with innerIp := pkt.innerEth + 14 }).1 = .pass
  · rw [hv] at hs
    simp only [hv, ne_eq, not_true_eq_false, if_false]
    obtain ⟨hr, hr'⟩ := trnLookupEndpoint_spec hs hq
    exact ⟨l, hr, hr'.trans ht⟩
  · simp only [ne_eq, hv, not_false_eq_true, if_true]
    refine ⟨l, ?_, ht⟩
    rw [hq.data]
    exact .refused hs hv

/-! ## Inner ARP -/

/-- An inner frame with a whole ARP request for an IPv4 address. -/
structure ArpRequest (p : Bytes) (inner : ℕ) : Prop where
  len : inner + 42 ≤ p.length
  pro : ld16 p (inner + 16) = bpfHtons ethPIp
  hrd : ld16 p (inner + 14) = bpfHtons arphrdEther
  op : ld16 p (inner + 20) = bpfHtons arpopRequest

/-- The endpoint that an ARP request asks for. -/
def arpEndpointKey (pkt : TransitPacket) : EndpointKey := ⟨pkt.vni, ld32 pkt.data (pkt.innerEth + 38)⟩

/-- **The outcomes of `trn_process_inner_arp`** on a whole request: verdict and bytes. -/
inductive ArpRun (m : Maps) (pkt : TransitPacket) : XdpAction → Bytes → Prop
  | unknown (he : m.endpointsMap (arpEndpointKey pkt) = none) : ArpRun m pkt .epNotFound pkt.data
  | reply {ep : Endpoint} (he : m.endpointsMap (arpEndpointKey pkt) = some ep) :
      ArpRun m pkt .tx (trnArpReply { pkt with innerArp := pkt.innerEth + 14 } ep)

theorem trnProcessInnerArp_spec (m : Maps) (pkt : TransitPacket)
    (h : ArpRequest pkt.data pkt.innerEth) :
    ArpRun m pkt (trnProcessInnerArp m pkt).1 (trnProcessInnerArp m pkt).2.data ∧
      (trnProcessInnerArp m pkt).2.sgTrace = pkt.sgTrace := by
  obtain ⟨hl, hpro, hhrd, hop⟩ := h
  simp only [trnProcessInnerArp, sizeofEthhdr, sizeofArphdr, Nat.add_assoc, Nat.reduceAdd]
  rw [if_neg (by omega), if_neg (not_or.mpr ⟨not_not.mpr hpro, not_not.mpr hhrd⟩),
    if_neg (not_not.mpr hop), if_neg (by omega), if_neg (by omega), if_neg (by omega),
    if_neg (by omega), ← arpEndpointKey]
  cases he : m.endpointsMap (arpEndpointKey pkt) with
  | none => exact ⟨.unknown he, rfl⟩
  | some ep =>
    dsimp only
    exact ⟨.reply he, rfl⟩

theorem trnProcessInnerArp_stops (pkt : TransitPacket)
    (h : ¬ ArpRequest pkt.data pkt.innerEth) :
    ∃ r, (∀ m, trnProcessInnerArp m pkt = r) ∧ Stops pkt r := by
  simp only [trnProcessInnerArp, sizeofEthhdr, sizeofArphdr, Nat.add_assoc, Nat.reduceAdd]
  by_cases h1 : pkt.innerEth + 22 > pkt.data.length
  · exact ⟨_, fun m => if_pos h1, .aborted rfl rfl⟩
  simp only [if_neg h1]
  by_cases h2 : ld16 pkt.data (pkt.innerEth + 16) ≠ bpfHtons ethPIp ∨
      ld16 pkt.data (pkt.innerEth + 14) ≠ bpfHtons arphrdEther
  · exact ⟨_, fun m => if_pos h2, .drop rfl rfl⟩
  simp only [if_neg h2]
  by_cases h3 : ld16 pkt.data (pkt.innerEth + 20) ≠ bpfHtons arpopRequest
  · exact ⟨_, fun m => if_pos h3, .drop rfl rfl⟩
  simp only [if_neg h3]
  by_cases h4 : pkt.innerEth + 28 > pkt.data.length
  · exact ⟨_, fun m => if_pos h4, .aborted rfl rfl⟩
  simp only [if_neg h4]
  by_cases h5 : pkt.innerEth + 32 > pkt.data.length
  · exact ⟨_, fun m => if_pos h5, .aborted rfl rfl⟩
  simp only [if_neg h5]
  by_cases h6 : pkt.innerEth + 38 > pkt.data.length
  · exact ⟨_, fun m => if_pos h6, .aborted rfl rfl⟩
  simp only [if_neg h6]
  by_cases h7 : pkt.innerEth + 42 > pkt.data.length
  · exact ⟨_, fun m => if_pos h7, .aborted rfl rfl⟩
  · rw [not_or, not_not, not_not] at h2
    exact absurd ⟨by omega, h2.1, h2.2, not_not.mp h3⟩ h

/-! ## Frames -/

/-- A tunnel frame whose inner frame holds a complete IPv4 header. -/
structure IpFrame (itf : TunnelIface) (p : Bytes) (ent : Fin tranMaxZgcEntrances) (inner : ℕ) : Prop
    extends TunnelFrame itf p ent inner where
  ethertype : ld16 p (inner + 12) = bpfHtons ethPIp
  ipLen : inner + 34 ≤ p.length

/-- A tunnel frame from the tenant side whose inner frame is a whole ARP request. -/
structure ArpFrame (itf : TunnelIface) (p : Bytes) (ent : Fin tranMaxZgcEntrances) (inner : ℕ) :
    Prop extends TunnelFrame itf p ent inner where
  role : itf.role = xdpFwd
  ethertype : ld16 p (inner + 12) = bpfHtons ethPArp
  request : ArpRequest p inner

theorem ethPIp_ne_ethPArp : bpfHtons ethPIp ≠ bpfHtons ethPArp := by decide

section Frames

variable (C : TailConf) (m : Maps) {pkt : TransitPacket}

theorem trnProcessInnerEth_ip (hl : pkt.innerEth + 34 ≤ pkt.data.length)
    (ht : ld16 pkt.data (pkt.innerEth + 12) = bpfHtons ethPIp) :
    trnProcessInnerEth C m pkt = trnProcessInnerIp C m pkt := by
  simp only [trnProcessInnerEth, sizeofEthhdr]
  rw [if_neg (by omega), if_neg fun hc => ethPIp_ne_ethPArp (ht.symm.trans hc.2),
    if_neg (not_not.mpr ht)]

theorem trnProcessInnerEth_arp (hl : pkt.innerEth + 42 ≤ pkt.data.length)
    (hr : pkt.itf.role = xdpFwd) (ht : ld16 pkt.data (pkt.innerEth + 12) = bpfHtons ethPArp) :
    trnProcessInnerEth C m pkt = trnProcessInnerArp m pkt := by
  simp only [trnProcessInnerEth, sizeofEthhdr]
  rw [if_neg (by omega), if_pos ⟨hr, ht⟩]

theorem trnProcessInnerEth_stops (pkt : TransitPacket)
    (hip : ¬ (ld16 pkt.data (pkt.innerEth + 12) = bpfHtons ethPIp ∧
      pkt.innerEth + 34 ≤ pkt.data.length))
    (harp : ¬ (pkt.itf.role = xdpFwd ∧ ld16 pkt.data (pkt.innerEth + 12) = bpfHtons ethPArp ∧
      ArpRequest pkt.data pkt.innerEth)) :
    ∃ r, (∀ C m, trnProcessInnerEth C m pkt = r) ∧ Stops pkt r := by
  simp only [trnProcessInnerEth, sizeofEthhdr]
  by_cases h1 : pkt.innerEth + 14 > pkt.data.length
  · exact ⟨_, fun C m => if_pos h1, .aborted rfl rfl⟩
  simp only [if_neg h1]
  by_cases h2 : pkt.itf.role = xdpFwd ∧ ld16 pkt.data (pkt.innerEth + 12) = bpfHtons ethPArp
  · obtain ⟨r, hr, hs⟩ := trnProcessInnerArp_stops pkt fun h => harp ⟨h2.1, h2.2, h⟩
    exact ⟨r, fun C m => (if_pos h2).trans (hr m), hs⟩
  simp only [if_neg h2]
  by_cases h3 : ld16 pkt.data (pkt.innerEth + 12) = bpfHtons ethPIp
  swap
  · exact ⟨_, fun C m => if_pos h3, .drop rfl rfl⟩
  simp only [if_neg (not_not.mpr h3), trnProcessInnerIp, sizeofEthhdr, sizeofIphdr]
  have h4 : pkt.innerEth + 14 + 20 > pkt.data.length := by
    by_contra hc
    exact hip ⟨h3, by omega⟩
  exact ⟨_, fun C m => if_pos h4, .aborted rfl rfl⟩

theorem trnProcessEth_of_ipFrame {ent : Fin tranMaxZgcEntrances} {inner : ℕ}
    (h : IpFrame pkt.itf pkt.data ent inner) :
    trnProcessEth C m pkt = trnProcessInnerIp C m (pkt.atInner ent inner) :=
  (trnProcessEth_of_frame C m h.toTunnelFrame).trans
    (trnProcessInnerEth_ip C m h.ipLen h.ethertype)

theorem trnProcessEth_of_arpFrame {ent : Fin tranMaxZgcEntrances} {inner : ℕ}
    (h : ArpFrame pkt.itf pkt.data ent inner) :
    trnProcessEth C m pkt = trnProcessInnerArp m (pkt.atInner ent inner) :=
  (trnProcessEth_of_frame C m h.toTunnelFrame).trans
    (trnProcessInnerEth_arp C m h.request.len h.role h.ethertype)

end Frames

/-- **A frame carries an inner IPv4 packet or an ARP request, or the run stops with the packet
untouched and a result that no map can change.** -/
theorem trnProcessEth_frames (pkt : TransitPacket) :
    (∃ ent inner, IpFrame pkt.itf pkt.data ent inner) ∨
    (∃ ent inner, ArpFrame pkt.itf pkt.data ent inner) ∨
    ∃ r, (∀ C m, trnProcessEth C m pkt = r) ∧ Stops pkt r := by
  obtain ⟨ent, inner, hf, heq⟩ | h := trnProcessEth_cases pkt
  swap
  · exact .inr (.inr h)
  by_cases hip : ld16 pkt.data (inner + 12) = bpfHtons ethPIp ∧ inner + 34 ≤ pkt.data.length
  · exact .inl ⟨ent, inner, hf, hip.1, hip.2⟩
  by_cases harp : pkt.itf.role = xdpFwd ∧ ld16 pkt.data (inner + 12) = bpfHtons ethPArp ∧
      ArpRequest pkt.data inner
  · exact .inr (.inl ⟨ent, inner, hf, harp.1, harp.2.1, harp.2.2⟩)
  · obtain ⟨r, hr, hs⟩ := trnProcessInnerEth_stops (pkt.atInner ent inner) hip harp
    exact .inr (.inr ⟨r, fun C m => (heq C m).trans (hr C m), ⟨hs.data, hs.sgTrace⟩, hs.verdict⟩)

/-! ## Runs of the program -/

/-- The state in which an inner IPv4 packet is judged. -/
def ipPacket (itf : TunnelIface) (p : Bytes) (ent : Fin tranMaxZgcEntrances) (inner : ℕ) :
    TransitPacket :=
  { (TransitPacket.start p itf true).atInner ent inner with innerIp := inner + 14 }

/-- The state in which an inner ARP request is answered. -/
def arpPacket (itf : TunnelIface) (p : Bytes) (ent : Fin tranMaxZgcEntrances) (inner : ℕ) :
    TransitPacket :=
  (TransitPacket.start p itf true).atInner ent inner

/-- The dispatch leaves every verdict as it is, except for unknown endpoints. -/
theorem transitExit_eq (m : Maps) (q : U32) (v : XdpAction) (hv : v ≠ .epNotFound) :
    transitExit m q v = v := by
  cases v with
  | epNotFound => exact absurd rfl hv
  | aborted => rfl
  | _ =>
    simp only [transitExit, bpfTailCall, transitTxProc, transitPassProc, transitDropProc,
      transitRedirectProc, ite_self]

/-- The verdict for an unknown endpoint. -/
theorem transitExit_epNotFound (m : Maps) (q : U32) :
    transitExit m q .epNotFound = if m.xsksMap q then .redirect else .drop := by
  simp only [transitExit, bpfTailCall, transitDropProc, ite_self]

section Run

variable {m : Maps} {ctx : XdpMd} {itf : TunnelIface} {ent : Fin tranMaxZgcEntrances} {inner : ℕ}

theorem transit_of_config (hc : m.ifConfigMap ctx.ingressIfindex = some itf) :
    transit .compiled m ctx =
      ⟨transitExit m ctx.rxQueueIndex
          (trnProcessEth .compiled m (.start ctx.data itf true)).1,
        (trnProcessEth .compiled m (.start ctx.data itf true)).2.data,
        (trnProcessEth .compiled m (.start ctx.data itf true)).2.sgTrace,
        (trnProcessEth .compiled m (.start ctx.data itf true)).2.flow⟩ := by
  simp only [transit, hc, TailConf.compiled, Bool.false_and, Bool.false_eq_true, if_false,
    Bool.not_false]

/-- **A run on an inner IPv4 packet.** -/
theorem transit_ip (hc : m.ifConfigMap ctx.ingressIfindex = some itf)
    (hf : IpFrame itf ctx.data ent inner) :
    ∃ v, (transit .compiled m ctx).verdict = transitExit m ctx.rxQueueIndex v ∧
      IpRun m (ipPacket itf ctx.data ent inner) v (transit .compiled m ctx).data
        (transit .compiled m ctx).sgTrace := by
  obtain ⟨l, hr, ht⟩ := trnProcessInnerIp_spec m
    ((TransitPacket.start ctx.data itf true).atInner ent inner) hf.ipLen
  rw [transit_of_config hc, trnProcessEth_of_ipFrame .compiled m hf]
  refine ⟨_, rfl, ?_⟩
  dsimp only
  rw [ht]
  exact hr

/-- **A run on an inner ARP request.** -/
theorem transit_arp (hc : m.ifConfigMap ctx.ingressIfindex = some itf)
    (hf : ArpFrame itf ctx.data ent inner) :
    ∃ v, (transit .compiled m ctx).verdict = transitExit m ctx.rxQueueIndex v ∧
      ArpRun m (arpPacket itf ctx.data ent inner) v (transit .compiled m ctx).data ∧
      (transit .compiled m ctx).sgTrace = [] := by
  obtain ⟨hr, ht⟩ := trnProcessInnerArp_spec m
    ((TransitPacket.start ctx.data itf true).atInner ent inner) hf.request
  rw [transit_of_config hc, trnProcessEth_of_arpFrame .compiled m hf]
  exact ⟨_, rfl, hr, ht⟩

/-- **A run that transmits, redirects or makes a lookup is on one of the two frames.** -/
theorem transit_frames (h : (transit .compiled m ctx).verdict = .tx ∨
      (transit .compiled m ctx).verdict = .redirect ∨ (transit .compiled m ctx).sgTrace ≠ []) :
    ∃ itf ent inner, m.ifConfigMap ctx.ingressIfindex = some itf ∧
      (IpFrame itf ctx.data ent inner ∨ ArpFrame itf ctx.data ent inner) := by
  cases hc : m.ifConfigMap ctx.ingressIfindex with
  | none =>
    simp only [transit, hc] at h
    simp at h
  | some itf =>
    obtain ⟨ent, inner, hf⟩ | ⟨ent, inner, hf⟩ | ⟨r, hr, hs⟩ :=
      trnProcessEth_frames (.start ctx.data itf true)
    · exact ⟨itf, ent, inner, rfl, .inl hf⟩
    · exact ⟨itf, ent, inner, rfl, .inr hf⟩
    · have hv : transitExit m ctx.rxQueueIndex r.1 = r.1 :=
        transitExit_eq m _ _ (by obtain h1 | h1 | h1 := hs.verdict <;> rw [h1] <;> decide)
      have ht : r.2.sgTrace = [] := hs.sgTrace
      rw [transit_of_config hc, hr] at h
      simp only [hv, ht, ne_eq, not_true_eq_false, or_false] at h
      obtain h1 | h1 | h1 := hs.verdict <;> rw [h1] at h <;> simp at h

end Run

end ArionDp
