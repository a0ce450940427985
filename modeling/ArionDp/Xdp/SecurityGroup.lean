import ArionDp.Xdp.Inner

/-!
# Security groups

What the security-group check admits, compared with what the rules of `sg_cidr_map` say about the
packet.

* `SgAdmits`, `trnSgCheck_pass_iff`: the packets that pass the check;
* `OwnRules`, `Near`, `Far`, `Foreign`, **`sgCheck_exact_iff`**: the rules with which the check decides
  as the packet's own keys do. The egress half looks at a fixed port, and no lookup reaches the
  addresses;
* `StopRule`, **`deny_iff`**: when a deny rule denies;
* **`transit_mediated`**: the lookups behind every packet that goes on.
-/

namespace ArionDp

open Wire

/-! ## What passes -/

/-- The egress lookup hits and, where there is a transport header, it is complete and the ingress
lookup hits. -/
def SgAdmits (m : Maps) (pkt : TransitPacket) : Prop :=
  (m.sgCidrLookup (sgEgressKey pkt)).isSome ∧
    ∀ n, l4Len (rd pkt.data (pkt.innerIp + 9)) = some n →
      pkt.innerIp + 20 + n ≤ pkt.data.length ∧
        (m.sgCidrLookup (sgIngressKey pkt (sgPort pkt))).isSome

theorem SgCheck.admits {m : Maps} {pkt : TransitPacket} {l : SgTrace}
    (h : SgCheck m pkt .pass l) : SgAdmits m pkt := by
  cases h with
  | otherProtocol he hp =>
    refine ⟨by rw [he]; rfl, fun n hn => ?_⟩
    rw [hp] at hn
    exact absurd hn (by simp)
  | admitted he hp hl hi =>
    refine ⟨by rw [he]; rfl, fun n hn => ?_⟩
    rw [hp] at hn
    obtain rfl := Option.some.inj hn
    exact ⟨hl, by rw [hi]; rfl⟩

theorem SgCheck.pass_of_admits {m : Maps} {pkt : TransitPacket} {v : XdpAction} {l : SgTrace}
    (h : SgCheck m pkt v l) (ha : SgAdmits m pkt) : v = .pass := by
  cases h with
  | noEgress he =>
    have := ha.1
    rw [he] at this
    exact absurd this (by simp)
  | otherProtocol he hp => rfl
  | truncated he hp hl => exact absurd (ha.2 _ hp).1 (by omega)
  | noIngress he hp hl hi =>
    have := (ha.2 _ hp).2
    rw [hi] at this
    exact absurd this (by simp)
  | admitted he hp hl hi => rfl

/-- **The packets that pass the check.** -/
theorem trnSgCheck_pass_iff (m : Maps) (pkt : TransitPacket) :
    (trnSgCheck m pkt).1 = .pass ↔ SgAdmits m pkt := by
  obtain ⟨l, hs, -⟩ := trnSgCheck_spec m pkt
  refine ⟨fun h => ?_, fun ha => hs.pass_of_admits ha⟩
  rw [h] at hs
  exact hs.admits

/-! ## The keys of a packet -/

/-- The length of the inner IPv4 header, from its IHL field. -/
def ipHdrLen (pkt : TransitPacket) : ℕ := 4 * (rd pkt.data pkt.innerIp &&& 0xf#8).toNat

/-- The destination port of the packet, behind the whole IPv4 header. -/
def l4Dest (pkt : TransitPacket) : U16 := ld16 pkt.data (pkt.innerIp + ipHdrLen pkt + 2)

/-- An inner TCP or UDP packet: a legal IHL and a complete transport header behind it. -/
structure InnerL4 (pkt : TransitPacket) : Prop where
  ihl : 20 ≤ ipHdrLen pkt
  l4 : ∃ n, l4Len (rd pkt.data (pkt.innerIp + 9)) = some n ∧
    pkt.innerIp + ipHdrLen pkt + n ≤ pkt.data.length

/-- The packet's own egress key. -/
def ownEgressKey (pkt : TransitPacket) : SgCidrKey where
  prefixlen := 128
  vni := pkt.vni
  port := l4Dest pkt
  direction := 0
  protocol := rd pkt.data (pkt.innerIp + 9)
  srcIp := ld32 pkt.data (pkt.innerIp + 12)
  dstIp := ld32 pkt.data (pkt.innerIp + 16)

/-- The packet's own ingress key: the addresses are swapped. -/
def ownIngressKey (pkt : TransitPacket) : SgCidrKey where
  prefixlen := 128
  vni := pkt.vni
  port := l4Dest pkt
  direction := 1
  protocol := rd pkt.data (pkt.innerIp + 9)
  srcIp := ld32 pkt.data (pkt.innerIp + 16)
  dstIp := ld32 pkt.data (pkt.innerIp + 12)

/-- **What the rules say**: some rule agrees with the packet's own key on all its bits, in both
directions. -/
def OwnRules (m : Maps) (pkt : TransitPacket) : Prop :=
  Lpm.Covers m.sgCidrMap 128 (ownEgressKey pkt).bits ∧
    Lpm.Covers m.sgCidrMap 128 (ownIngressKey pkt).bits

/-- The two halves of the check. -/
inductive Direction
  | egress | ingress
  deriving DecidableEq

/-- The other half. -/
def Direction.other : Direction → Direction
  | .egress => .ingress
  | .ingress => .egress

theorem Direction.forall_of {P : Direction → Prop} (d : Direction) (h : P d) (h' : P d.other) :
    ∀ d, P d := by
  intro d'
  cases d <;> cases d' <;> assumption

/-- The packet's own key. -/
def ownKey (pkt : TransitPacket) : Direction → SgCidrKey
  | .egress => ownEgressKey pkt
  | .ingress => ownIngressKey pkt

/-- The key that is looked up: its port is 30011, or what stands 22 bytes behind the start of the
inner IPv4 header. -/
def lookedUpKey (pkt : TransitPacket) : Direction → SgCidrKey
  | .egress => sgEgressKey pkt
  | .ingress => sgIngressKey pkt (sgPort pkt)

/-- How far the two keys agree, in the 64 bits that are compared. -/
def reach (pkt : TransitPacket) (d : Direction) : ℕ :=
  min 64 (Lpm.agree (ownKey pkt d).bits (lookedUpKey pkt d).bits)

section Reach

variable {pkt : TransitPacket}

/-- The keys differ in their ports only. -/
theorem lookedUpKey_bits {d : Direction} (h : (lookedUpKey pkt d).port = l4Dest pkt) :
    (lookedUpKey pkt d).bits = (ownKey pkt d).bits := by
  have hdata : (lookedUpKey pkt d).data = (ownKey pkt d).data := by
    unfold SgCidrKey.data
    rw [h]
    cases d <;> rfl
  exact congrArg Lpm.bits hdata

/-- **Where the port is the packet's own, all 64 bits agree.** -/
theorem reach_of_port {d : Direction} (h : (lookedUpKey pkt d).port = l4Dest pkt) :
    reach pkt d = 64 := by
  rw [reach, lookedUpKey_bits h, Lpm.agree_self, SgCidrKey.length_bits]
  rfl

/-- Without options in the inner IPv4 header the ingress port is the packet's own. -/
theorem reach_ingress (h : ipHdrLen pkt = 20) : reach pkt .ingress = 64 := by
  refine reach_of_port ?_
  change sgPort pkt = l4Dest pkt
  rw [sgPort, l4Dest, h]

/-- The VNI always agrees. -/
theorem le_reach (d : Direction) : 32 ≤ reach pkt d := by
  have hvni : (lookedUpKey pkt d).vni = (ownKey pkt d).vni := by cases d <;> rfl
  have hbits (k : SgCidrKey) : ∃ rest, k.bits = Lpm.bits (le32 k.vni) ++ rest := ⟨_, Lpm.bits_append _ _⟩
  obtain ⟨rest, hown⟩ := hbits (ownKey pkt d)
  obtain ⟨rest', hlooked⟩ := hbits (lookedUpKey pkt d)
  have hlen : (Lpm.bits (le32 (ownKey pkt d).vni)).length = 32 := by simp [le32]
  rw [reach, hown, hlooked, hvni, Lpm.agree_append, hlen]
  omega

end Reach

/-! ## Rules near and far -/

section Rules

variable (m : Maps) (pkt : TransitPacket) (d : Direction)

/-- A rule for the packet that ends where the keys still agree. -/
def Near : Prop := Lpm.Covers m.sgCidrMap (reach pkt d) (ownKey pkt d).bits

/-- A longer rule for the packet, which the lookup misses. -/
def Far : Prop := Lpm.CoversBetween m.sgCidrMap (reach pkt d) 128 (ownKey pkt d).bits

/-- A rule for another port that the lookup takes for the packet's. -/
def Foreign : Prop := Lpm.CoversBetween m.sgCidrMap (reach pkt d) 64 (lookedUpKey pkt d).bits

/-- All the rules for the packet are far. -/
structure OnlyFar : Prop where
  far : Far m pkt d
  near : ¬ Near m pkt d
  foreign : ¬ Foreign m pkt d

/-- All the rules that the lookup finds are foreign. -/
structure OnlyForeign : Prop where
  foreign : Foreign m pkt d
  near : ¬ Near m pkt d
  far : ¬ Far m pkt d

theorem onlyFar_iff : OnlyFar m pkt d ↔
    (Near m pkt d ∨ Far m pkt d) ∧ ¬ (Near m pkt d ∨ Foreign m pkt d) :=
  ⟨fun h => ⟨.inr h.far, not_or.2 ⟨h.near, h.foreign⟩⟩,
    fun ⟨h, hn⟩ => ⟨h.resolve_left (not_or.1 hn).1, (not_or.1 hn).1, (not_or.1 hn).2⟩⟩

theorem onlyForeign_iff : OnlyForeign m pkt d ↔
    (Near m pkt d ∨ Foreign m pkt d) ∧ ¬ (Near m pkt d ∨ Far m pkt d) :=
  ⟨fun h => ⟨.inr h.foreign, not_or.2 ⟨h.near, h.far⟩⟩,
    fun ⟨h, hn⟩ => ⟨h.resolve_left (not_or.1 hn).1, (not_or.1 hn).1, (not_or.1 hn).2⟩⟩

/-- The rules for the packet are near or far. -/
theorem covers_ownKey_iff :
    Lpm.Covers m.sgCidrMap 128 (ownKey pkt d).bits ↔ Near m pkt d ∨ Far m pkt d :=
  Lpm.covers_iff_or ((min_le_left ..).trans (by decide))

/-- The rules that a lookup finds are near or foreign. -/
theorem sgCidrLookup_isSome_iff :
    (m.sgCidrLookup (lookedUpKey pkt d)).isSome ↔ Near m pkt d ∨ Foreign m pkt d := by
  have hlen : (lookedUpKey pkt d).prefixlen = 64 := by cases d <;> rfl
  have hnear : Near m pkt d ↔ Lpm.Covers m.sgCidrMap (reach pkt d) (lookedUpKey pkt d).bits :=
    Lpm.covers_iff_of_agree (min_le_right ..)
  rw [Maps.sgCidrLookup, Lpm.lookup_isSome_iff, hlen, hnear]
  exact Lpm.covers_iff_or (min_le_left ..)

theorem ownRules_iff : OwnRules m pkt ↔ ∀ d, Near m pkt d ∨ Far m pkt d := by
  refine ⟨fun h d => (covers_ownKey_iff m pkt d).1 ?_, fun h => ⟨?_, ?_⟩⟩
  · cases d with
    | egress => exact h.1
    | ingress => exact h.2
  · exact (covers_ownKey_iff m pkt .egress).2 (h .egress)
  · exact (covers_ownKey_iff m pkt .ingress).2 (h .ingress)

variable {pkt} in
/-- What the check needs of a complete packet is a hit in both directions. -/
theorem sgAdmits_iff (h : InnerL4 pkt) : SgAdmits m pkt ↔ ∀ d, Near m pkt d ∨ Foreign m pkt d := by
  obtain ⟨hihl, n, hn, hl⟩ := h
  refine ⟨fun ha d => ?_, fun ha => ⟨(sgCidrLookup_isSome_iff m pkt .egress).2 (ha .egress),
    fun n' hn' => ⟨?_, (sgCidrLookup_isSome_iff m pkt .ingress).2 (ha .ingress)⟩⟩⟩
  · cases d with
    | egress => exact (sgCidrLookup_isSome_iff m pkt .egress).1 ha.1
    | ingress => exact (sgCidrLookup_isSome_iff m pkt .ingress).1 (ha.2 n hn).2
  · obtain rfl := Option.some.inj (hn.symm.trans hn')
    omega

end Rules

/-- **The check decides an inner TCP or UDP packet as its own keys do exactly when** no direction has
far rules only, or the other one has no rules for the packet either, **and** none has foreign rules
only, or the other one has none that a lookup finds. -/
theorem sgCheck_exact_iff (m : Maps) (pkt : TransitPacket) (h : InnerL4 pkt) :
    ((trnSgCheck m pkt).1 = .pass ↔ OwnRules m pkt) ↔ ∀ d,
      (OnlyFar m pkt d → ¬ Near m pkt d.other ∧ ¬ Far m pkt d.other) ∧
        (OnlyForeign m pkt d → ¬ Near m pkt d.other ∧ ¬ Foreign m pkt d.other) := by
  rw [trnSgCheck_pass_iff, sgAdmits_iff m h, ownRules_iff]
  simp only [onlyFar_iff, onlyForeign_iff, ← not_or]
  constructor
  · refine fun heq d => ⟨fun ⟨hown, hmiss⟩ hother => ?_, fun ⟨hhit, hnot⟩ hother => ?_⟩
    · exact hmiss (heq.2 (Direction.forall_of d hown hother) d)
    · exact hnot (heq.1 (Direction.forall_of d hhit hother) d)
  · refine fun hc => ⟨fun hhit d => ?_, fun hown d => ?_⟩
    · by_contra hnot
      exact (hc d).2 ⟨hhit d, hnot⟩ (hhit d.other)
    · by_contra hmiss
      exact (hc d).1 ⟨hown d, hmiss⟩ (hown d.other)

/-! ## A sample network -/

/-- A tenant-side interface with one entrance, 10.0.0.1 at 02:00:0a:00:00:01. -/
def sampleIface : TunnelIface where
  ifaceIndex := 2
  iboPort := 0
  protocol := 0
  role := xdpFwd
  numEntrances := 1
  entrances := fun _ => ⟨0x0100000a, 0, ![0x02, 0x00, 0x0a, 0x00, 0x00, 0x01]⟩

/-- The endpoint 192.168.0.2 of VNI 7, and a rule set. -/
def sampleMaps (rules : Lpm.Trie SecurityGroup) : Maps where
  ifConfigMap := fun i => if i = 2 then some sampleIface else none
  endpointsMap := fun k => if k = ⟨7, 0x0200a8c0⟩ then
    some ⟨0x0300000a, ![0x00, 0x00, 0x00, 0x00, 0x00, 0x22], ![0x00, 0x00, 0x00, 0x00, 0x00, 0x33]⟩
    else none
  sgCidrMap := rules
  xsksMap := fun _ => false
  jmpTable := fun _ => false

/-- A VXLAN frame for VNI 7 from 192.168.0.1 to port 80 of 192.168.0.2. -/
def sampleFrame (protocol : U8) : Bytes :=
  [0x02, 0x00, 0x0a, 0x00, 0x00, 0x01, 0x02, 0x00, 0x0a, 0x00, 0x00, 0x02, 0x08, 0x00] ++
  [0x45, 0x00, 0x00, 0x5a, 0x00, 0x00, 0x00, 0x00, 0x40, 0x11, 0x00, 0x00,
    0x0a, 0x00, 0x00, 0x02, 0x0a, 0x00, 0x00, 0x01] ++
  [0x30, 0x39, 0x12, 0xb5, 0x00, 0x46, 0x00, 0x00] ++
  [0x08, 0x00, 0x00, 0x00, 0x00, 0x00, 0x07, 0x00] ++
  [0x00, 0x00, 0x00, 0x00, 0x00, 0x22, 0x00, 0x00, 0x00, 0x00, 0x00, 0x11, 0x08, 0x00] ++
  [0x45, 0x00, 0x00, 0x28, 0x00, 0x00, 0x00, 0x00, 0x40, protocol, 0x00, 0x00,
    0xc0, 0xa8, 0x00, 0x01, 0xc0, 0xa8, 0x00, 0x02] ++
  [0x30, 0x39, 0x00, 0x50, 0x00, 0x00, 0x00, 0x00, 0x00, 0x00, 0x00, 0x00, 0x50, 0x00, 0x00, 0x00,
    0x00, 0x00, 0x00, 0x00]

/-- The sample frame on the sample interface. -/
def sampleCtx (protocol : U8) : XdpMd := ⟨sampleFrame protocol, 2, 0⟩

/-- The sample frame when its inner packet is judged. -/
def samplePacket (protocol : U8) : TransitPacket := ipPacket sampleIface (sampleFrame protocol) 0 50

/-- Permit rules of full length for exactly one packet, in both directions. -/
def fullRules (pkt : TransitPacket) : Lpm.Trie SecurityGroup := fun b =>
  if b = (ownEgressKey pkt).bits ∨ b = (ownIngressKey pkt).bits then some ⟨1, tranSgPass⟩ else none

/-- **Rules of full length for exactly this packet do not admit it.** -/
theorem sgCheck_full_rules_drop :
    InnerL4 (samplePacket ipprotoTcp) ∧
      OwnRules (sampleMaps (fullRules (samplePacket ipprotoTcp))) (samplePacket ipprotoTcp) ∧
      (trnSgCheck (sampleMaps (fullRules (samplePacket ipprotoTcp)))
        (samplePacket ipprotoTcp)).1 = .drop := by
  refine ⟨⟨by decide, 20, by decide, by decide⟩,
    ⟨⟨_, ?_, List.prefix_rfl, ?_⟩, ⟨_, ?_, List.prefix_rfl, ?_⟩⟩, ?_⟩
  · exact (SgCidrKey.length_bits _).le
  · simp [sampleMaps, fullRules]
  · exact (SgCidrKey.length_bits _).le
  · simp [sampleMaps, fullRules]
  · decide

/-- Rules for VNI 7 with one action, whatever the rest of the key. -/
def vniRules (action : U8) : Lpm.Trie SecurityGroup := fun b =>
  if b = Lpm.bits (le32 7) then some ⟨1, action⟩ else none

/-- A rule for the whole VNI is near, and the check decides as the packet's own keys do. -/
theorem sgCheck_exact_iff_sample :
    (trnSgCheck (sampleMaps (vniRules tranSgPass)) (samplePacket ipprotoTcp)).1 = .pass ↔
      OwnRules (sampleMaps (vniRules tranSgPass)) (samplePacket ipprotoTcp) := by
  have hnear : ∀ d, Near (sampleMaps (vniRules tranSgPass)) (samplePacket ipprotoTcp) d := fun d =>
    ⟨Lpm.bits (le32 7), le_reach d, by cases d <;> decide, by decide⟩
  exact (sgCheck_exact_iff _ _ ⟨by decide, 20, by decide, by decide⟩).2 fun d =>
    ⟨fun hd => absurd (hnear d) hd.near, fun hd => absurd (hnear d) hd.near⟩

/-! ## Deny rules -/

/-- Some lookup of the run returned a deny rule. -/
def StopReturned (l : SgTrace) : Prop := ∃ k e, (k, some e) ∈ l ∧ e.action = tranSgStop

/-- The packet goes on: it is transmitted or handed to user space. -/
def GoesOn (v : XdpAction) : Prop := v = .tx ∨ v = .redirect

/-- The egress rule of the packet or, where there is a transport header, its ingress rule is a deny
rule. -/
def StopRule (m : Maps) (pkt : TransitPacket) : Prop :=
  (∃ e, m.sgCidrLookup (sgEgressKey pkt) = some e ∧ e.action = tranSgStop) ∨
    (l4Len (rd pkt.data (pkt.innerIp + 9)) ≠ none ∧
      ∃ i, m.sgCidrLookup (sgIngressKey pkt (sgPort pkt)) = some i ∧ i.action = tranSgStop)

/-- Nothing but a deny rule is in the way: every lookup hits, the transport header is complete, and
the endpoint is known or somebody listens on the receive queue. -/
def Unhindered (m : Maps) (rxQueueIndex : U32) (pkt : TransitPacket) : Prop :=
  SgAdmits m pkt ∧ ((m.endpointsMap (ipEndpointKey pkt)).isSome ∨ m.xsksMap rxQueueIndex)

/-- The lookups of a passed check contain a deny rule iff there is one for the packet. -/
theorem SgCheck.stopReturned_iff {m : Maps} {pkt : TransitPacket} {l : SgTrace}
    (h : SgCheck m pkt .pass l) : StopReturned l ↔ StopRule m pkt := by
  cases h with
  | @otherProtocol e he hp =>
    rw [StopRule, he, hp]
    simp [StopReturned]
  | @admitted e i n he hp hl hi =>
    rw [StopRule, he, hp, hi]
    simp only [StopReturned, List.mem_cons, Prod.mk.injEq, Option.some.injEq, List.not_mem_nil,
      or_false, ne_eq, reduceCtorEq, not_false_eq_true, true_and]
    constructor
    · rintro ⟨k, x, ⟨-, rfl⟩ | ⟨-, rfl⟩, hx⟩
      · exact .inl ⟨x, rfl, hx⟩
      · exact .inr ⟨x, rfl, hx⟩
    · rintro (⟨x, rfl, hx⟩ | ⟨x, rfl, hx⟩)
      · exact ⟨_, _, .inl ⟨rfl, rfl⟩, hx⟩
      · exact ⟨_, _, .inr ⟨rfl, rfl⟩, hx⟩

section Run

variable {m : Maps} {ctx : XdpMd} {itf : TunnelIface} {ent : Fin tranMaxZgcEntrances} {inner : ℕ}

/-- A refused packet does not go on. -/
theorem not_goesOn_of_refused {v : XdpAction} (q : U32) (hv : v = .drop ∨ v = .aborted) :
    ¬ GoesOn (transitExit m q v) := by
  obtain rfl | rfl := hv <;> rw [transitExit_eq m q _ (by decide)] <;> simp [GoesOn]

/-- **An inner IPv4 packet goes on iff nothing but deny rules is in the way.** -/
theorem transit_goesOn_iff (hc : m.ifConfigMap ctx.ingressIfindex = some itf)
    (hf : IpFrame itf ctx.data ent inner) :
    GoesOn (transit .compiled m ctx).verdict ↔
      Unhindered m ctx.rxQueueIndex (ipPacket itf ctx.data ent inner) := by
  obtain ⟨v, hv, hr⟩ := transit_ip hc hf
  rw [hv]
  generalize (transit .compiled m ctx).data = out at hr
  generalize (transit .compiled m ctx).sgTrace = l at hr
  cases hr with
  | refused hs hne =>
    refine ⟨fun h => absurd h (not_goesOn_of_refused _ (hs.refused hne)), fun h => ?_⟩
    exact absurd (hs.pass_of_admits h.1) hne
  | unknown hs he =>
    rw [transitExit_epNotFound, Unhindered, he]
    by_cases hx : m.xsksMap ctx.rxQueueIndex <;> simp [GoesOn, hx, hs.admits]
  | forward hs he =>
    rw [transitExit_eq m _ _ (by decide), Unhindered, he]
    simp [GoesOn, hs.admits]

theorem transit_stopReturned_iff (hc : m.ifConfigMap ctx.ingressIfindex = some itf)
    (hf : IpFrame itf ctx.data ent inner) (hg : GoesOn (transit .compiled m ctx).verdict) :
    StopReturned (transit .compiled m ctx).sgTrace ↔
      StopRule m (ipPacket itf ctx.data ent inner) := by
  obtain ⟨v, hv, hr⟩ := transit_ip hc hf
  rw [hv] at hg
  generalize (transit .compiled m ctx).data = out at hr
  cases hr with
  | refused hs hne => exact absurd hg (not_goesOn_of_refused _ (hs.refused hne))
  | unknown hs he => exact hs.stopReturned_iff
  | forward hs he => exact hs.stopReturned_iff

end Run

/-- **A deny rule denies exactly when it is not met, or something else stops the packet**: its action
is never read. -/
theorem deny_iff (m : Maps) (ctx : XdpMd) :
    (StopReturned (transit .compiled m ctx).sgTrace → ¬ GoesOn (transit .compiled m ctx).verdict) ↔
      ∀ itf ent inner, m.ifConfigMap ctx.ingressIfindex = some itf →
        IpFrame itf ctx.data ent inner →
        StopRule m (ipPacket itf ctx.data ent inner) →
        ¬ Unhindered m ctx.rxQueueIndex (ipPacket itf ctx.data ent inner) := by
  constructor
  · intro h itf ent inner hc hf hs hu
    have hg := (transit_goesOn_iff hc hf).mpr hu
    exact h ((transit_stopReturned_iff hc hf hg).mpr hs) hg
  · intro h hs hg
    obtain ⟨itf, ent, inner, hc, hf | hf⟩ :=
      transit_frames (hg.imp_right .inl : _ ∨ _ ∨ (transit .compiled m ctx).sgTrace ≠ [])
    · exact h itf ent inner hc hf ((transit_stopReturned_iff hc hf hg).mp hs)
        ((transit_goesOn_iff hc hf).mp hg)
    · obtain ⟨v, -, -, ht⟩ := transit_arp hc hf
      obtain ⟨k, e, hk, -⟩ := hs
      rw [ht] at hk
      exact absurd hk (by simp)

/-- **A packet with nothing but deny rules is transmitted.** -/
theorem deny_rules_transmitted :
    StopReturned (transit .compiled (sampleMaps (vniRules tranSgStop)) (sampleCtx ipprotoTcp)).sgTrace ∧
      (transit .compiled (sampleMaps (vniRules tranSgStop)) (sampleCtx ipprotoTcp)).verdict = .tx := by
  refine ⟨⟨sgEgressKey (samplePacket ipprotoTcp), ⟨1, tranSgStop⟩, ?_, rfl⟩, ?_⟩
  · decide
  · decide

/-! ## Mediation -/

/-- A lookup for the direction, VNI and protocol was made and returned a rule. -/
def Mediated (l : SgTrace) (direction : U8) (vni : U32) (protocol : U8) : Prop :=
  ∃ k e, (k, some e) ∈ l ∧ k.direction = direction ∧ k.vni = vni ∧ k.protocol = protocol

theorem SgCheck.mediated {m : Maps} {pkt : TransitPacket} {l : SgTrace}
    (h : SgCheck m pkt .pass l) :
    Mediated l 0 pkt.vni (rd pkt.data (pkt.innerIp + 9)) ∧
      (l4Len (rd pkt.data (pkt.innerIp + 9)) ≠ none →
        Mediated l 1 pkt.vni (rd pkt.data (pkt.innerIp + 9))) := by
  cases h with
  | otherProtocol he hp =>
    exact ⟨⟨_, _, List.mem_cons_self, rfl, rfl, rfl⟩, fun h => absurd hp h⟩
  | admitted he hp hl hi =>
    exact ⟨⟨_, _, List.mem_cons_self, rfl, rfl, rfl⟩, fun _ =>
      ⟨_, _, List.mem_cons_of_mem _ List.mem_cons_self, rfl, rfl, rfl⟩⟩

theorem mediated_ip {m : Maps} {ctx : XdpMd} {itf : TunnelIface} {ent : Fin tranMaxZgcEntrances}
    {inner : ℕ} (hc : m.ifConfigMap ctx.ingressIfindex = some itf)
    (hf : IpFrame itf ctx.data ent inner) (hg : GoesOn (transit .compiled m ctx).verdict) :
    SgCheck m (ipPacket itf ctx.data ent inner) .pass (transit .compiled m ctx).sgTrace := by
  obtain ⟨v, hv, hr⟩ := transit_ip hc hf
  rw [hv] at hg
  generalize (transit .compiled m ctx).data = out at hr
  cases hr with
  | refused hs hne => exact absurd hg (not_goesOn_of_refused _ (hs.refused hne))
  | unknown hs he => exact hs
  | forward hs he => exact hs

/-- **Whatever goes on is a tunnel frame, and an inner IPv4 packet that goes on has an egress rule; a
TCP or UDP packet has an ingress rule, too.** -/
theorem transit_mediated (m : Maps) (ctx : XdpMd) (hg : GoesOn (transit .compiled m ctx).verdict) :
    ∃ itf ent inner, m.ifConfigMap ctx.ingressIfindex = some itf ∧
      TunnelFrame itf ctx.data ent inner ∧
      (ld16 ctx.data (inner + 12) = bpfHtons ethPIp →
        Mediated (transit .compiled m ctx).sgTrace 0 (frameVni ctx.data)
            (rd ctx.data (inner + 23)) ∧
          (rd ctx.data (inner + 23) = ipprotoTcp ∨ rd ctx.data (inner + 23) = ipprotoUdp →
            Mediated (transit .compiled m ctx).sgTrace 1 (frameVni ctx.data)
              (rd ctx.data (inner + 23)))) := by
  obtain ⟨itf, ent, inner, hc, hf | hf⟩ :=
    transit_frames (hg.imp_right .inl : _ ∨ _ ∨ (transit .compiled m ctx).sgTrace ≠ [])
  · have hs := mediated_ip hc hf hg
    refine ⟨itf, ent, inner, hc, hf.toTunnelFrame, fun _ => ⟨hs.mediated.1, fun hp =>
      hs.mediated.2 ?_⟩⟩
    change l4Len (rd ctx.data (inner + 23)) ≠ none
    obtain hp | hp := hp <;> rw [hp] <;> decide
  · exact ⟨itf, ent, inner, hc, hf.toTunnelFrame, fun ht =>
      absurd (ht.symm.trans hf.ethertype) ethPIp_ne_ethPArp⟩

/-- The sample TCP packet under permit rules goes on. -/
theorem transit_mediated_sample :
    ∃ itf ent inner, (sampleMaps (vniRules tranSgPass)).ifConfigMap 2 = some itf ∧
      TunnelFrame itf (sampleFrame ipprotoTcp) ent inner ∧
      (ld16 (sampleFrame ipprotoTcp) (inner + 12) = bpfHtons ethPIp →
        Mediated (transit .compiled (sampleMaps (vniRules tranSgPass)) (sampleCtx ipprotoTcp)).sgTrace
            0 (frameVni (sampleFrame ipprotoTcp)) (rd (sampleFrame ipprotoTcp) (inner + 23)) ∧
          (rd (sampleFrame ipprotoTcp) (inner + 23) = ipprotoTcp ∨
              rd (sampleFrame ipprotoTcp) (inner + 23) = ipprotoUdp →
            Mediated (transit .compiled (sampleMaps (vniRules tranSgPass))
              (sampleCtx ipprotoTcp)).sgTrace 1 (frameVni (sampleFrame ipprotoTcp))
              (rd (sampleFrame ipprotoTcp) (inner + 23)))) :=
  transit_mediated (sampleMaps (vniRules tranSgPass)) (sampleCtx ipprotoTcp) (.inl (by decide))

/-- **An ICMP packet is transmitted without an ingress lookup.** -/
theorem icmp_not_mediated :
    (transit .compiled (sampleMaps (vniRules tranSgPass)) (sampleCtx ipprotoIcmp)).verdict = .tx ∧
      ¬ Mediated (transit .compiled (sampleMaps (vniRules tranSgPass)) (sampleCtx ipprotoIcmp)).sgTrace
          1 (frameVni (sampleFrame ipprotoIcmp)) ipprotoIcmp := by
  refine ⟨by decide, ?_⟩
  have htrace : (transit .compiled (sampleMaps (vniRules tranSgPass)) (sampleCtx ipprotoIcmp)).sgTrace =
      [(sgEgressKey (samplePacket ipprotoIcmp), some ⟨1, tranSgPass⟩)] := by decide
  rw [htrace]
  rintro ⟨k, e, hk, hd, -, -⟩
  simp only [List.mem_cons, Prod.mk.injEq, List.not_mem_nil, or_false] at hk
  rw [hk.1] at hd
  exact absurd hd (by decide)

end ArionDp
