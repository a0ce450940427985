import ArionDp.Xdp.SecurityGroup

/-!
# Tenant isolation

Two map states that agree on everything of one VNI give the same run for its packets.

* `AgreeOn`: agreement of two map states on a VNI;
* `trnSgCheck_congr`, `trnProcessInnerIp_congr`, `trnProcessInnerArp_congr`: every lookup key carries
  the VNI of the packet;
* **`transit_congr`**: the runs are the same.
-/

namespace ArionDp

open Wire

/-- A rule prefix that keys of the VNI can match: it is comparable with the VNI's bits. -/
def VniRule (vni : U32) (b : List Bool) : Prop :=
  b <+: Lpm.bits (le32 vni) ∨ Lpm.bits (le32 vni) <+: b

/-- **Agreement on a VNI**: the interfaces and sockets, the endpoints of the VNI, and the rules that
its keys can match. The tail-call table is free. -/
structure AgreeOn (vni : U32) (m m' : Maps) : Prop where
  ifConfigMap : m.ifConfigMap = m'.ifConfigMap
  xsksMap : m.xsksMap = m'.xsksMap
  endpointsMap : ∀ ip, m.endpointsMap ⟨vni, ip⟩ = m'.endpointsMap ⟨vni, ip⟩
  sgCidrMap : ∀ b, VniRule vni b → m.sgCidrMap b = m'.sgCidrMap b

theorem SgCidrKey.vni_prefix (k : SgCidrKey) : Lpm.bits (le32 k.vni) <+: k.bits := by
  rw [SgCidrKey.bits, SgCidrKey.data, Lpm.bits_append]
  exact List.prefix_append _ _

variable {m m' : Maps} {pkt : TransitPacket}

/-- **A lookup sees the rules of its VNI only.** -/
theorem sgCidrLookup_congr {vni : U32} (h : AgreeOn vni m m') {k : SgCidrKey} (hk : k.vni = vni) :
    m.sgCidrLookup k = m'.sgCidrLookup k := by
  refine Lpm.lookup_congr fun q => h.sgCidrMap _ ?_
  rw [← hk]
  exact List.prefix_or_prefix_of_prefix (List.take_prefix _ _) k.vni_prefix

theorem trnSgCheckIngress_congr (h : AgreeOn pkt.vni m m') (port : U16) :
    trnSgCheckIngress m port pkt = trnSgCheckIngress m' port pkt := by
  have hi := sgCidrLookup_congr h (rfl : (sgIngressKey pkt port).vni = pkt.vni)
  simp only [trnSgCheckIngress, sgLookup, hi]

theorem trnSgCheck_congr (h : AgreeOn pkt.vni m m') : trnSgCheck m pkt = trnSgCheck m' pkt := by
  have he := sgCidrLookup_congr h (rfl : (sgEgressKey pkt).vni = pkt.vni)
  have hi : ∀ q : TransitPacket, q.vni = pkt.vni → ∀ port,
      trnSgCheckIngress m port q = trnSgCheckIngress m' port q := fun q hq port =>
    trnSgCheckIngress_congr (hq ▸ h) port
  have hl : sgLookup m (sgEgressKey pkt) pkt = sgLookup m' (sgEgressKey pkt) pkt := by
    rw [sgLookup, he, sgLookup]
  dsimp only [trnSgCheck]
  rw [he, hl, hi, hi]
  · rfl
  · rfl

theorem trnProcessInnerIp_congr (C : TailConf) (h : AgreeOn pkt.vni m m') :
    trnProcessInnerIp C m pkt = trnProcessInnerIp C m' pkt := by
  have hs : trnSgCheck m { pkt with innerIp := pkt.innerEth + sizeofEthhdr } =
      trnSgCheck m' { pkt with innerIp := pkt.innerEth + sizeofEthhdr } := trnSgCheck_congr h
  have hv := (trnSgCheck_same m' { pkt with innerIp := pkt.innerEth + sizeofEthhdr }).vni
  simp only [trnProcessInnerIp, hs]
  generalize (trnSgCheck m' { pkt with innerIp := pkt.innerEth + sizeofEthhdr }).2 = q at hv
  simp only [trnLookupEndpoint, hv, h.endpointsMap]

theorem trnProcessInnerArp_congr (h : AgreeOn pkt.vni m m') :
    trnProcessInnerArp m pkt = trnProcessInnerArp m' pkt := by
  simp only [trnProcessInnerArp, h.endpointsMap]

theorem trnProcessEth_congr (C : TailConf) (h : AgreeOn (frameVni pkt.data) m m') :
    trnProcessEth C m pkt = trnProcessEth C m' pkt := by
  obtain ⟨ent, inner, hf⟩ | ⟨ent, inner, hf⟩ | ⟨r, hr, -⟩ := trnProcessEth_frames pkt
  · rw [trnProcessEth_of_ipFrame C m hf, trnProcessEth_of_ipFrame C m' hf]
    exact trnProcessInnerIp_congr C h
  · rw [trnProcessEth_of_arpFrame C m hf, trnProcessEth_of_arpFrame C m' hf]
    exact trnProcessInnerArp_congr h
  · rw [hr, hr]

/-- **Tenant isolation**: whatever else two map states hold, agreement on the packet's VNI gives the
same verdict, the same bytes and the same lookups. -/
theorem transit_congr (m m' : Maps) (ctx : XdpMd) (h : AgreeOn (frameVni ctx.data) m m') :
    transit .compiled m ctx = transit .compiled m' ctx := by
  have hexit : ∀ v, transitExit m ctx.rxQueueIndex v = transitExit m' ctx.rxQueueIndex v := by
    intro v
    by_cases hv : v = .epNotFound
    · rw [hv, transitExit_epNotFound, transitExit_epNotFound, h.xsksMap]
    · rw [transitExit_eq m _ _ hv, transitExit_eq m' _ _ hv]
  cases hc : m.ifConfigMap ctx.ingressIfindex with
  | none =>
    have hc' := hc
    rw [h.ifConfigMap] at hc'
    simp only [transit, hc, hc']
  | some itf =>
    have hc' := hc
    rw [h.ifConfigMap] at hc'
    have he : trnProcessEth .compiled m (.start ctx.data itf true) =
        trnProcessEth .compiled m' (.start ctx.data itf true) := trnProcessEth_congr .compiled h
    rw [transit_of_config hc, transit_of_config hc', he, hexit]

/-- Deny rules and endpoints of VNI 8 do not matter to the sample frame of VNI 7. -/
theorem transit_congr_sample :
    transit .compiled (sampleMaps (vniRules tranSgPass)) (sampleCtx ipprotoTcp) =
      transit .compiled
        { sampleMaps (fun b => if b = Lpm.bits (le32 8) then some ⟨2, tranSgStop⟩
            else vniRules tranSgPass b) with
          endpointsMap := fun k => if k.vni = 8 then none
            else (sampleMaps (vniRules tranSgPass)).endpointsMap k }
        (sampleCtx ipprotoTcp) := by
  refine transit_congr _ _ _ ⟨rfl, rfl, fun ip => ?_, fun b hb => ?_⟩
  · have hv : frameVni (sampleCtx ipprotoTcp).data = 7 := by decide
    simp only [hv]
    rw [if_neg (by decide)]
  · have hv : frameVni (sampleCtx ipprotoTcp).data = 7 := by decide
    rw [hv] at hb
    have hne : b ≠ Lpm.bits (le32 8) := by
      rintro rfl
      exact absurd hb (by unfold VniRule; decide)
    simp only [sampleMaps, if_neg hne]

end ArionDp
