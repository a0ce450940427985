import ArionDp.Xdp.Transit

/-!
# The way to the inner frame

Every function from `_transit` down to `trn_process_vxlan` and `trn_process_geneve` either stops
with the packet untouched or hands it on. `TunnelFrame` says for which frames the inner Ethernet
frame is reached, and where it starts.

* `VxlanFrame`, `GeneveFrame`, `TunnelFrame`: the frames that are taken apart;
* **`trnProcessEth_cases`**: a frame is a tunnel frame and goes to `trnProcessInnerEth`, or the run
  stops without a look at the maps.
-/

namespace ArionDp

open Wire

/-! ## Frames -/

/-- A VXLAN header that the program accepts. -/
structure VxlanFrame (role : U8) (p : Bytes) : Prop where
  port : ld16 p 36 = vxlDstport
  role : role = xdpFwd
  len : 50 ≤ p.length

/-- A Geneve header that the program accepts: both options, and no others. -/
structure GeneveFrame (role : U8) (p : Bytes) : Prop where
  port : ld16 p 36 = genDstport
  role : role = xdpFtn
  len : 98 ≤ p.length
  protoType : ld16 p 44 = bpfHtons ethPTeb
  optLen : (rd p 42 &&& 0x3f#8).toNat * 4 = sizeofRtsOpt + sizeofScaledEpOpt
  rtsOpt : ld16 p 50 = trnGnvOptClass
  scaledEpOpt : ld16 p 66 = trnGnvOptClass

/-- Frame `p`, received on interface `itf`, is for entrance `ent` and has its inner frame at offset
`inner`. -/
structure TunnelFrame (itf : TunnelIface) (p : Bytes) (ent : Fin tranMaxZgcEntrances) (inner : ℕ) :
    Prop where
  len : 42 ≤ p.length
  proto : ld16 p 12 = bpfHtons ethPIp
  entrance : trnFindEntrance itf p 0 = some ent
  daddr : ld32 p 30 = (itf.entrances ent).ip
  ttl : rd p 22 ≠ 0
  protocol : rd p 23 = ipprotoUdp
  overlay : VxlanFrame itf.role p ∧ inner = 50 ∨ GeneveFrame itf.role p ∧ inner = 98

/-- The VNI of a frame, at the same offset in both tunnel headers. -/
def frameVni (p : Bytes) : U32 := trnGetVni p 46

theorem xdpFwd_ne_xdpFtn : xdpFwd ≠ xdpFtn := by decide

theorem TunnelFrame.le_length {itf : TunnelIface} {p : Bytes} {ent : Fin tranMaxZgcEntrances}
    {inner : ℕ} (h : TunnelFrame itf p ent inner) : 50 ≤ inner ∧ inner ≤ p.length := by
  obtain ⟨hv, rfl⟩ | ⟨hg, rfl⟩ := h.overlay
  · exact ⟨le_rfl, hv.len⟩
  · exact ⟨by omega, hg.len⟩

/-- **A frame has one entrance and one inner frame.** -/
theorem TunnelFrame.unique {itf : TunnelIface} {p : Bytes} {ent ent' : Fin tranMaxZgcEntrances}
    {inner inner' : ℕ} (h : TunnelFrame itf p ent inner) (h' : TunnelFrame itf p ent' inner') :
    ent = ent' ∧ inner = inner' := by
  refine ⟨Option.some.inj (h.entrance.symm.trans h'.entrance), ?_⟩
  obtain ⟨hv, rfl⟩ | ⟨hg, rfl⟩ := h.overlay <;> obtain ⟨hv', rfl⟩ | ⟨hg', rfl⟩ := h'.overlay
  · rfl
  · exact absurd (hv.role.symm.trans hg'.role) xdpFwd_ne_xdpFtn
  · exact absurd (hv'.role.symm.trans hg.role) xdpFwd_ne_xdpFtn
  · rfl

/-! ## Stopping and handing on -/

/-- The state in which `trn_process_inner_eth` is entered. -/
def TransitPacket.atInner (pkt : TransitPacket) (ent : Fin tranMaxZgcEntrances) (inner : ℕ) :
    TransitPacket :=
  { pkt with
    entIdx := ent, eth := 0, ip := 14, udp := 34, vni := frameVni pkt.data, innerEth := inner }

section AtInner

variable (pkt : TransitPacket) (ent : Fin tranMaxZgcEntrances) (inner : ℕ)

@[simp] theorem atInner_data : (pkt.atInner ent inner).data = pkt.data := rfl
@[simp] theorem atInner_itf : (pkt.atInner ent inner).itf = pkt.itf := rfl
@[simp] theorem atInner_eth : (pkt.atInner ent inner).eth = 0 := rfl
@[simp] theorem atInner_ip : (pkt.atInner ent inner).ip = 14 := rfl
@[simp] theorem atInner_vni : (pkt.atInner ent inner).vni = frameVni pkt.data := rfl
@[simp] theorem atInner_innerEth : (pkt.atInner ent inner).innerEth = inner := rfl
@[simp] theorem atInner_sgTrace : (pkt.atInner ent inner).sgTrace = pkt.sgTrace := rfl

end AtInner

/-- A result with the packet as it was and no lookup made. -/
structure Untouched (pkt : TransitPacket) (r : XdpAction × TransitPacket) : Prop where
  data : r.2.data = pkt.data
  sgTrace : r.2.sgTrace = pkt.sgTrace

/-- A run that ends before the inner frame: one of three verdicts and an untouched packet. -/
structure Stops (pkt : TransitPacket) (r : XdpAction × TransitPacket) : Prop
    extends Untouched pkt r where
  verdict : r.1 = .aborted ∨ r.1 = .drop ∨ r.1 = .pass

theorem Stops.aborted {pkt q : TransitPacket} (hd : q.data = pkt.data)
    (hs : q.sgTrace = pkt.sgTrace) : Stops pkt (.aborted, q) := ⟨⟨hd, hs⟩, .inl rfl⟩

theorem Stops.drop {pkt q : TransitPacket} (hd : q.data = pkt.data)
    (hs : q.sgTrace = pkt.sgTrace) : Stops pkt (.drop, q) := ⟨⟨hd, hs⟩, .inr (.inl rfl)⟩

theorem Stops.pass {pkt q : TransitPacket} (hd : q.data = pkt.data)
    (hs : q.sgTrace = pkt.sgTrace) : Stops pkt (.pass, q) := ⟨⟨hd, hs⟩, .inr (.inr rfl)⟩

/-! ## Function by function -/

section Functions

variable (C : TailConf) (m : Maps) {pkt : TransitPacket}

theorem trnProcessVxlan_of_le (hu : pkt.udp = 34) (hl : 50 ≤ pkt.data.length) :
    trnProcessVxlan C m pkt =
      trnProcessInnerEth C m { pkt with vni := frameVni pkt.data, innerEth := 50 } := by
  simp only [trnProcessVxlan, hu, sizeofUdphdr, sizeofVxlanhdr]
  rw [if_neg (by omega)]
  rfl

theorem trnProcessVxlan_of_lt (hu : pkt.udp = 34) (hl : ¬ 50 ≤ pkt.data.length) :
    trnProcessVxlan C m pkt = (.aborted, pkt) := by
  simp only [trnProcessVxlan, hu, sizeofUdphdr, sizeofVxlanhdr]
  rw [if_pos (by omega)]

theorem trnProcessGeneve_of_frame (hu : pkt.udp = 34) (h : GeneveFrame pkt.itf.role pkt.data) :
    trnProcessGeneve C m pkt =
      trnProcessInnerEth C m { pkt with vni := frameVni pkt.data, innerEth := 98 } := by
  obtain ⟨-, -, hl, ht, ho, h1, h2⟩ := h
  simp only [trnProcessGeneve, hu, sizeofUdphdr, sizeofGenevehdr, sizeofRtsOpt, sizeofScaledEpOpt,
    Nat.reduceAdd] at ho ⊢
  rw [if_neg (by omega), if_neg (not_not.mpr ht), if_neg (by omega), if_neg (not_not.mpr h1),
    if_neg (by omega), if_neg (not_not.mpr h2), if_neg (not_not.mpr ho.symm)]
  rfl

theorem trnProcessGeneve_of_not (hu : pkt.udp = 34) (hp : ld16 pkt.data 36 = genDstport)
    (hr : pkt.itf.role = xdpFtn) (h : ¬ GeneveFrame pkt.itf.role pkt.data) :
    trnProcessGeneve C m pkt = (.aborted, pkt) := by
  simp only [trnProcessGeneve, hu, sizeofUdphdr, sizeofGenevehdr, sizeofRtsOpt, sizeofScaledEpOpt,
    Nat.reduceAdd]
  split_ifs with h1 h2 h3 h4 h5 h6 h7 <;> try rfl
  exact absurd ⟨hp, hr, by omega, not_not.mp h2, (not_not.mp h7).symm, not_not.mp h4,
    not_not.mp h6⟩ h

/-- **A tunnel frame is handed on to `trn_process_inner_eth`.** -/
theorem trnProcessEth_of_frame {ent : Fin tranMaxZgcEntrances} {inner : ℕ}
    (h : TunnelFrame pkt.itf pkt.data ent inner) :
    trnProcessEth C m pkt = trnProcessInnerEth C m (pkt.atInner ent inner) := by
  have hl := h.len
  simp only [trnProcessEth, trnProcessIp, trnProcessUdp, sizeofEthhdr, sizeofIphdr, sizeofUdphdr,
    Nat.reduceAdd, Nat.zero_add, h.entrance]
  rw [if_neg (by omega), if_neg (not_not.mpr h.proto), if_neg (by omega),
    if_neg (not_not.mpr h.daddr), if_neg h.ttl, if_neg (not_not.mpr h.protocol), if_neg (by omega)]
  obtain ⟨hv, rfl⟩ | ⟨hg, rfl⟩ := h.overlay
  · rw [if_neg fun hc => xdpFwd_ne_xdpFtn (hv.role.symm.trans hc.2), if_pos ⟨hv.port, hv.role⟩]
    exact trnProcessVxlan_of_le C m rfl hv.len
  · rw [if_pos ⟨hg.port, hg.role⟩]
    exact trnProcessGeneve_of_frame C m rfl hg

end Functions

theorem trnProcessEth_stops (pkt : TransitPacket)
    (h : ∀ ent inner, ¬ TunnelFrame pkt.itf pkt.data ent inner) :
    ∃ r, (∀ C m, trnProcessEth C m pkt = r) ∧ Stops pkt r := by
  simp only [trnProcessEth, sizeofEthhdr, Nat.zero_add]
  by_cases h1 : 14 > pkt.data.length
  · exact ⟨_, fun C m => if_pos h1, .aborted rfl rfl⟩
  simp only [if_neg h1]
  by_cases h2 : ld16 pkt.data 12 = bpfHtons ethPIp
  swap
  · exact ⟨_, fun C m => if_pos h2, .pass rfl rfl⟩
  simp only [if_neg (not_not.mpr h2)]
  cases he : trnFindEntrance pkt.itf pkt.data 0 with
  | none => exact ⟨_, fun _ _ => rfl, .aborted rfl rfl⟩
  | some ent =>
    simp only [trnProcessIp, trnProcessUdp, sizeofEthhdr, sizeofIphdr, sizeofUdphdr, Nat.zero_add,
      Nat.reduceAdd]
    by_cases h3 : 34 > pkt.data.length
    · exact ⟨_, fun C m => if_pos h3, .aborted rfl rfl⟩
    simp only [if_neg h3]
    by_cases h4 : ld32 pkt.data 30 = (pkt.itf.entrances ent).ip
    swap
    · exact ⟨_, fun C m => if_pos h4, .aborted rfl rfl⟩
    simp only [if_neg (not_not.mpr h4)]
    by_cases h5 : rd pkt.data 22 = 0
    · exact ⟨_, fun C m => if_pos h5, .drop rfl rfl⟩
    simp only [if_neg h5]
    by_cases h6 : rd pkt.data 23 = ipprotoUdp
    swap
    · exact ⟨_, fun C m => if_pos h6, .pass rfl rfl⟩
    simp only [if_neg (not_not.mpr h6)]
    by_cases h7 : 42 > pkt.data.length
    · exact ⟨_, fun C m => if_pos h7, .aborted rfl rfl⟩
    simp only [if_neg h7]
    -- all that is left of a tunnel frame is the overlay header
    have frame := fun inner ho => h ent inner ⟨by omega, h2, he, h4, h5, h6, ho⟩
    by_cases h8 : ld16 pkt.data 36 = genDstport ∧ pkt.itf.role = xdpFtn
    · exact ⟨_, fun C m => (if_pos h8).trans (trnProcessGeneve_of_not C m rfl h8.1 h8.2 fun hg =>
        frame 98 (.inr ⟨hg, rfl⟩)), .aborted rfl rfl⟩
    simp only [if_neg h8]
    by_cases h9 : ld16 pkt.data 36 = vxlDstport ∧ pkt.itf.role = xdpFwd
    · exact ⟨_, fun C m => (if_pos h9).trans (trnProcessVxlan_of_lt C m rfl fun hl =>
        frame 50 (.inl ⟨⟨h9.1, h9.2, hl⟩, rfl⟩)), .aborted rfl rfl⟩
    · exact ⟨_, fun C m => if_neg h9, .pass rfl rfl⟩

/-- **Either the frame is a tunnel frame and its inner frame is processed, or the run stops with
the packet untouched and a result that no map can change.** -/
theorem trnProcessEth_cases (pkt : TransitPacket) :
    (∃ ent inner, TunnelFrame pkt.itf pkt.data ent inner ∧
      ∀ C m, trnProcessEth C m pkt = trnProcessInnerEth C m (pkt.atInner ent inner)) ∨
    ∃ r, (∀ C m, trnProcessEth C m pkt = r) ∧ Stops pkt r := by
  by_cases h : ∃ ent inner, TunnelFrame pkt.itf pkt.data ent inner
  · obtain ⟨ent, inner, hf⟩ := h
    exact .inl ⟨ent, inner, hf, fun C m => trnProcessEth_of_frame C m hf⟩
  · refine .inr (trnProcessEth_stops pkt fun ent inner hf => h ⟨ent, inner, hf⟩)

end ArionDp
