import ArionDp.Xdp.SecurityGroup
import ArionDp.Xdp.Transport

/-!
# Rewriting the ports of the inner packet

`trn_set_src_dst_port` stores new ports and updates the checksum by their differences.

* `trnSetSrcDstPort` and what it calls;
* `portCheck`, **`toNat_trnPortCsum`**: one update in closed form. With `d` the old checksum and the difference of the
  ports, it is `d` modulo `0xffff` but for `d = -1` and for the sums that carry;
* **`trnSetPorts_edits`**: what is stored by the two updates;
* `PortsCancel`, **`trnSetSrcDstPort_right_iff`**: the packets and ports for which the checksum stays right.
-/

namespace ArionDp

open Wire

/-! ## The code -/

/-- `trn_update_l4_csum_port`. The old port is promoted to a signed integer before it is complemented. -/
def trnUpdateL4CsumPort (csum : U64) (oldPort newPort : U16) : U64 :=
  (trnCsumFoldHelper ((~~~ csum &&& 0xffff#64) + (~~~ (oldPort.setWidth 32 : U32)).signExtend 64 +
    newPort.setWidth 64)).setWidth 64

/-- The checksum at offset `check` after one port has changed. -/
def trnPortCsum (check : ℕ) (oldPort newPort : U16) (p : Bytes) : Bytes :=
  if oldPort ≠ newPort then
    let cs := trnUpdateL4CsumPort ((ld16 p check).setWidth 64) oldPort newPort
    st16 p check ((cs - (bpfHtons 256).setWidth 64).setWidth 16)
  else p

/-- The ports of the header at `hdr`, whose checksum is at offset `check`. -/
def trnSetPorts (hdr check : ℕ) (sport dport : U16) (p : Bytes) : Bytes :=
  let oldDport := ld16 p (hdr + 2)
  let oldSport := ld16 p hdr
  let p := st16 p hdr sport
  let p := st16 p (hdr + 2) dport
  let p := trnPortCsum check oldDport dport p
  trnPortCsum check oldSport sport p

/-- `trn_set_src_dst_port` -/
def trnSetSrcDstPort (pkt : TransitPacket) (sport dport : U16) : TransitPacket :=
  let protocol := (pkt.flow.getD Ipv4Flow.zero).protocol
  if protocol = ipprotoTcp then
    if pkt.innerTcp + sizeofTcphdr > pkt.data.length then pkt
    else { pkt with data := trnSetPorts pkt.innerTcp (pkt.innerTcp + 16) sport dport pkt.data }
  else if protocol = ipprotoUdp then
    if pkt.innerUdp + sizeofUdphdr > pkt.data.length then pkt
    else { pkt with data := trnSetPorts pkt.innerUdp (pkt.innerUdp + 6) sport dport pkt.data }
  else pkt

/-! ## One update -/

theorem signExtend_not (old : U16) : (~~~ (old.setWidth 32 : U32)).signExtend 64 = ~~~ (old.setWidth 64 : U64) := by
  have hmsb : (~~~ (old.setWidth 32 : U32)).msb = true := by
    rw [BitVec.msb_not, BitVec.msb_setWidth]
    simp
  have hwide : ((old.setWidth 32 : U32).setWidth 64 : U64) = old.setWidth 64 := by
    refine BitVec.eq_of_toNat_eq ?_
    rw [BitVec.toNat_setWidth_of_le (by decide), BitVec.toNat_setWidth_of_le (by decide),
      BitVec.toNat_setWidth_of_le (by decide)]
  rw [BitVec.signExtend_eq_not_setWidth_not_of_msb_true hmsb, BitVec.not_not, hwide]

/-- The accumulator that is folded. -/
theorem toNat_portAccumulator (c old new : U16) :
    ((~~~ (c.setWidth 64 : U64) &&& 0xffff#64) + (~~~ (old.setWidth 32 : U32)).signExtend 64 +
        new.setWidth 64).toNat =
      (65535 - c.toNat + (2 ^ 64 - 1 - old.toNat) + new.toNat) % 2 ^ 64 := by
  have hold := old.isLt
  have hnew := new.isLt
  rw [signExtend_not, BitVec.toNat_add, BitVec.toNat_add, toNat_csumComplement, BitVec.toNat_not,
    BitVec.toNat_setWidth, BitVec.toNat_setWidth, Nat.mod_eq_of_lt (by omega : old.toNat < 2 ^ 64),
    Nat.mod_eq_of_lt (by omega : new.toNat < 2 ^ 64), Nat.mod_add_mod]

/-- The stored checksum after one update, `d` being the old one with the old port and without the new one. -/
def portCheck (d : ℤ) : ℤ :=
  if d ≤ -2 then d + 65535
  else if d = -1 ∨ d = 65535 ∨ d = 131070 then 65535
  else if d < 65535 then d
  else d - 65536

/-- **One update in closed form.** -/
theorem toNat_trnPortCsum (p : Bytes) {check : ℕ} (h : check + 1 < p.length) (old new : U16) :
    ((ld16 (trnPortCsum check old new p) check).toNat : ℤ) =
      portCheck ((ld16 p check).toNat + old.toNat - new.toNat) := by
  have hcs := (ld16 p check).isLt
  have hold := old.isLt
  have hnew := new.isLt
  unfold trnPortCsum
  by_cases hne : old ≠ new
  · have hone : ((bpfHtons 256).setWidth 64 : U64).toNat = 1 := by decide
    rw [if_pos hne, ld16_st16 _ _ h, BitVec.toNat_setWidth, BitVec.toNat_sub, hone, trnUpdateL4CsumPort,
      BitVec.toNat_setWidth, toNat_trnCsumFoldHelper, toNat_portAccumulator, OnesComplement.checksum,
      OnesComplement.residue]
    generalize (ld16 p check).toNat = c at hcs ⊢
    generalize old.toNat = a at hold ⊢
    generalize new.toNat = b at hnew ⊢
    have hcases : (65535 - c + (2 ^ 64 - 1 - a) + b) % 2 ^ 64 =
        if c + a ≤ 65534 + b then 65534 + b - c - a else 2 ^ 64 + 65534 + b - c - a := by
      split_ifs <;> omega
    rw [hcases]
    unfold portCheck
    split_ifs <;> omega
  · rw [if_neg hne, not_not.1 hne]
    unfold portCheck
    split_ifs <;> omega

/-! ## Both updates -/

@[simp] theorem length_trnPortCsum (check : ℕ) (old new : U16) (p : Bytes) :
    (trnPortCsum check old new p).length = p.length := by
  unfold trnPortCsum
  split_ifs <;> simp

theorem rd_trnPortCsum_of_ne (p : Bytes) {check i : ℕ} (old new : U16) (h : i ≠ check) (h' : i ≠ check + 1) :
    rd (trnPortCsum check old new p) i = rd p i := by
  unfold trnPortCsum
  split_ifs
  · exact rd_st16_of_ne _ _ h h'
  · rfl

theorem ld16_trnPortCsum_of_ne (p : Bytes) {check i : ℕ} (old new : U16) (h : i + 1 < check ∨ check + 1 < i) :
    ld16 (trnPortCsum check old new p) i = ld16 p i := by
  rw [ld16, rd_trnPortCsum_of_ne _ _ _ (by omega) (by omega), rd_trnPortCsum_of_ne _ _ _ (by omega) (by omega),
    ← ld16]

section Ports

variable (p : Bytes) {hdr check : ℕ} (sport dport : U16)

@[simp] theorem length_trnSetPorts : (trnSetPorts hdr check sport dport p).length = p.length := by
  simp [trnSetPorts]

/-- The ports and the checksum are stored in their places only. -/
theorem rd_trnSetPorts_of_ne {i : ℕ} (h : i < hdr ∨ hdr + 4 ≤ i) (hc : i ≠ check) (hc' : i ≠ check + 1) :
    rd (trnSetPorts hdr check sport dport p) i = rd p i := by
  rw [trnSetPorts, rd_trnPortCsum_of_ne _ _ _ hc hc', rd_trnPortCsum_of_ne _ _ _ hc hc',
    rd_st16_of_ne _ _ (by omega) (by omega), rd_st16_of_ne _ _ (by omega) (by omega)]

theorem ld16_trnSetPorts_of_ne {i : ℕ} (h : i + 1 < hdr ∨ hdr + 4 ≤ i) (hc : i + 1 < check ∨ check + 1 < i) :
    ld16 (trnSetPorts hdr check sport dport p) i = ld16 p i := by
  rw [ld16, rd_trnSetPorts_of_ne _ _ _ (by omega) (by omega) (by omega),
    rd_trnSetPorts_of_ne _ _ _ (by omega) (by omega) (by omega), ← ld16]

/-- **What the two updates store**: the new ports, and the checksum updated for one port and then for the other. -/
theorem trnSetPorts_edits (h : hdr + 4 ≤ check) (hl : check + 1 < p.length) :
    ld16 (trnSetPorts hdr check sport dport p) hdr = sport ∧
      ld16 (trnSetPorts hdr check sport dport p) (hdr + 2) = dport ∧
      ((ld16 (trnSetPorts hdr check sport dport p) check).toNat : ℤ) =
        portCheck (portCheck ((ld16 p check).toNat + (ld16 p (hdr + 2)).toNat - dport.toNat) +
          (ld16 p hdr).toNat - sport.toNat) := by
  refine ⟨?_, ?_, ?_⟩
  · rw [trnSetPorts, ld16_trnPortCsum_of_ne _ _ _ (by omega), ld16_trnPortCsum_of_ne _ _ _ (by omega),
      ld16_st16_of_ne _ _ (by omega), ld16_st16 _ _ (by omega)]
  · rw [trnSetPorts, ld16_trnPortCsum_of_ne _ _ _ (by omega), ld16_trnPortCsum_of_ne _ _ _ (by omega),
      ld16_st16 _ _ (by simp; omega)]
  · rw [trnSetPorts, toNat_trnPortCsum _ (by simpa using hl), toNat_trnPortCsum _ (by simpa using hl),
      ld16_st16_of_ne _ _ (by omega), ld16_st16_of_ne _ _ (by omega)]

end Ports

/-! ## When the checksum stays right -/

/-- By how much an update is off. -/
def portSlip (d : ℤ) : ℤ := if d = -1 then 1 else if 65535 < d ∧ d < 131070 then -1 else 0

theorem portSlip_cases (d : ℤ) : d = -1 ∧ portSlip d = 1 ∨ 65535 < d ∧ d < 131070 ∧ portSlip d = -1 ∨
    d ≠ -1 ∧ (d ≤ 65535 ∨ 131070 ≤ d) ∧ portSlip d = 0 := by
  unfold portSlip
  split_ifs <;> omega

/-- An update and by how much it is off, case by case. -/
theorem portUpdate_cases {d : ℤ} (hd : -65535 ≤ d ∧ d ≤ 131070) :
    (d ≤ -2 ∧ portCheck d = d + 65535 ∧ portSlip d = 0) ∨ (d = -1 ∧ portCheck d = 65535 ∧ portSlip d = 1) ∨
    ((d = 65535 ∨ d = 131070) ∧ portCheck d = 65535 ∧ portSlip d = 0) ∨
    ((0 ≤ d ∧ d < 65535) ∧ portCheck d = d ∧ portSlip d = 0) ∨
    ((65535 < d ∧ d < 131070) ∧ portCheck d = d - 65536 ∧ portSlip d = -1) := by
  have hcases : d ≤ -2 ∨ d = -1 ∨ (d = 65535 ∨ d = 131070) ∨ (0 ≤ d ∧ d < 65535) ∨ (65535 < d ∧ d < 131070) := by
    omega
  unfold portCheck portSlip
  obtain h | h | h | h | h := hcases
  · refine .inl ⟨h, ?_, ?_⟩ <;> split_ifs <;> omega
  · refine .inr (.inl ⟨h, ?_, ?_⟩) <;> split_ifs <;> omega
  · refine .inr (.inr (.inl ⟨h, ?_, ?_⟩)) <;> split_ifs <;> omega
  · refine .inr (.inr (.inr (.inl ⟨h, ?_, ?_⟩))) <;> split_ifs <;> omega
  · refine .inr (.inr (.inr (.inr ⟨h, ?_, ?_⟩))) <;> split_ifs <;> omega

theorem portCheck_mod {d : ℤ} (hd : -65535 ≤ d ∧ d ≤ 131070) :
    portCheck d % 65535 = (d + portSlip d) % 65535 := by
  obtain ⟨_, hc, hs⟩ | ⟨_, hc, hs⟩ | ⟨_, hc, hs⟩ | ⟨_, hc, hs⟩ | ⟨_, hc, hs⟩ := portUpdate_cases hd <;>
    rw [hc, hs] <;> omega

/-- The updates for the two ports are right, or their errors cancel. Here `d` is the checksum with the old
destination port and without the new one, and `e` is the old source port without the new one. -/
def PortsCancel (d e : ℤ) : Prop :=
  d ≤ -2 ∧ d + e ≤ 0 ∧ d + e ≠ -65536 ∨
  d = -1 ∧ 0 < e ∧ e < 65535 ∨
  0 ≤ d ∧ d ≤ 65535 ∧ d + e ≠ -1 ∧ (d + e ≤ 65535 ∨ d + e = 131070) ∨
  65535 < d ∧ d < 131070 ∧ d + e = 65535 ∨
  d = 131070 ∧ (e ≤ 0 ∨ e = 65535)

/-- The errors of the two updates in terms of the old values. -/
theorem portsCancel_iff {d e : ℤ} (hd : -65535 ≤ d ∧ d ≤ 131070) (he : -65535 ≤ e ∧ e ≤ 65535) :
    portSlip d + portSlip (portCheck d + e) = 0 ↔ PortsCancel d e := by
  unfold PortsCancel
  obtain ⟨_, hc, hs⟩ | ⟨_, hc, hs⟩ | ⟨_, hc, hs⟩ | ⟨_, hc, hs⟩ | ⟨_, hc, hs⟩ := portUpdate_cases hd <;>
    rw [hc, hs]
  · obtain h2 | h2 | h2 := portSlip_cases (d + 65535 + e) <;> omega
  · obtain h2 | h2 | h2 := portSlip_cases (65535 + e) <;> omega
  · obtain h2 | h2 | h2 := portSlip_cases (65535 + e) <;> omega
  · obtain h2 | h2 | h2 := portSlip_cases (d + e) <;> omega
  · obtain h2 | h2 | h2 := portSlip_cases (d - 65536 + e) <;> omega

/-- **Two updates are right modulo `0xffff`** under this condition only. -/
theorem portCheck_portCheck_iff {d e : ℤ} (hd : -65535 ≤ d ∧ d ≤ 131070) (he : -65535 ≤ e ∧ e ≤ 65535) :
    portCheck (portCheck d + e) % 65535 = (d + e) % 65535 ↔ PortsCancel d e := by
  have hcases := portUpdate_cases hd
  have hfirst := portCheck_mod hd
  have hsecond := portCheck_mod (d := portCheck d + e) (by omega)
  have h2 := portSlip_cases (portCheck d + e)
  rw [← portsCancel_iff hd he]
  omega

/-- A packet whose inner segment has been found at `o`. -/
structure InnerSegment (pkt : TransitPacket) (o : ℕ) : Prop extends L4Segment pkt.data pkt.innerIp o where
  innerTcp : rd pkt.data (pkt.innerIp + 9) = ipprotoTcp → pkt.innerTcp = o
  innerUdp : rd pkt.data (pkt.innerIp + 9) = ipprotoUdp → pkt.innerUdp = o

/-- The protocol of the flow has been recorded as well. -/
structure FlowSegment (pkt : TransitPacket) (o : ℕ) : Prop extends InnerSegment pkt o where
  flow : (pkt.flow.getD Ipv4Flow.zero).protocol = rd pkt.data (pkt.innerIp + 9)

variable {pkt : TransitPacket} {o : ℕ}

theorem FlowSegment.trnSetSrcDstPort_data (h : FlowSegment pkt o) (sport dport : U16) :
    (trnSetSrcDstPort pkt sport dport).data =
      trnSetPorts o (o + 2 * l4CheckWord pkt.data pkt.innerIp) sport dport pkt.data := by
  have hroom := h.room
  have hcomplete := h.complete
  have hne : ¬ ipprotoTcp = ipprotoUdp := by decide
  have hne' : ¬ ipprotoUdp = ipprotoTcp := by decide
  obtain hp | hp := h.protocol
  · have ho := h.innerTcp hp
    rw [hp, if_neg hne] at hroom
    rw [trnSetSrcDstPort, h.flow, l4CheckWord, hp, if_pos rfl, if_neg hne, ho, if_neg (by omega)]
  · have ho := h.innerUdp hp
    rw [hp, if_pos rfl] at hroom
    rw [trnSetSrcDstPort, h.flow, l4CheckWord, hp, if_neg hne', if_pos rfl, if_pos rfl, ho, if_neg (by omega)]

/-- The plain sum after the ports have been set: they and the checksum replace the old ones. -/
theorem InnerSegment.sum_trnSetPorts (h : InnerSegment pkt o) (sport dport : U16) :
    let out := trnSetPorts o (o + 2 * l4CheckWord pkt.data pkt.innerIp) sport dport pkt.data
    L4Segment out pkt.innerIp o ∧
      (l4Sum out pkt.innerIp o).sum +
          ((ld16 pkt.data o).toNat + (ld16 pkt.data (o + 2)).toNat + (l4Check pkt.data pkt.innerIp o).toNat) =
        (l4Sum pkt.data pkt.innerIp o).sum + (sport.toNat + dport.toNat +
          (ld16 out (o + 2 * l4CheckWord pkt.data pkt.innerIp)).toNat) := by
  have hheader : pkt.innerIp + 20 ≤ o := h.header
  have hcomplete := h.complete
  have hcw := h.checkWord_lt
  have hcases := l4CheckWord_cases pkt.data pkt.innerIp
  rw [l4Check]
  generalize l4CheckWord pkt.data pkt.innerIp = c at hcw hcases ⊢
  intro out
  obtain ⟨hs, hd, -⟩ : ld16 out o = sport ∧ ld16 out (o + 2) = dport ∧ _ :=
    trnSetPorts_edits pkt.data sport dport (by omega) (by omega)
  have hproto : rd out (pkt.innerIp + 9) = rd pkt.data (pkt.innerIp + 9) :=
    rd_trnSetPorts_of_ne _ _ _ (by omega) (by omega) (by omega)
  have haddr : ∀ k ≤ 18, ld16 out (pkt.innerIp + k) = ld16 pkt.data (pkt.innerIp + k) := fun k hk =>
    ld16_trnSetPorts_of_ne _ _ _ (by omega) (by omega)
  have hoff : ∀ k ∉ [0, 1, c], ld16 out (o + 2 * k) = ld16 pkt.data (o + 2 * k) := fun k hk => by
    have hk' : k ≠ 0 ∧ k ≠ 1 ∧ k ≠ c := by simpa using hk
    exact ld16_trnSetPorts_of_ne _ _ _ (by omega) (by omega)
  obtain ⟨hlen, hsum⟩ := l4Sum_edits pkt.data out pkt.innerIp o (l := [0, 1, c])
    (w := fun k => ld16 out (o + 2 * k)) (by simp; omega) (by simp; omega) hproto (haddr 2 (by omega))
    (fun k _ => rfl) hoff
  have haddrs : l4Addrs out pkt.innerIp = l4Addrs pkt.data pkt.innerIp := by
    unfold l4Addrs
    rw [haddr 12 (by omega), haddr 14 (by omega), haddr 16 (by omega), haddr 18 (by omega)]
  refine ⟨h.toL4Segment.congr hproto hlen (length_trnSetPorts ..), ?_⟩
  simp only [List.map_cons, List.map_nil, List.sum_cons, List.sum_nil, haddrs, Nat.mul_zero, Nat.add_zero,
    Nat.mul_one] at hsum
  rw [cut_of_lt _ (by omega), cut_of_lt _ (by omega), cut_of_lt _ (by omega), cut_of_lt _ (by omega),
    cut_of_lt _ (by omega), cut_of_lt _ (by omega), hs, hd] at hsum
  omega

/-- **The packets and ports for which the checksum stays right.** -/
theorem trnSetSrcDstPort_right_iff (h : FlowSegment pkt o) (hv : L4Valid pkt.data pkt.innerIp o)
    (sport dport : U16) :
    (ld16 (trnSetSrcDstPort pkt sport dport).data o = sport ∧
      ld16 (trnSetSrcDstPort pkt sport dport).data (o + 2) = dport ∧
      L4Right (trnSetSrcDstPort pkt sport dport).data pkt.innerIp o) ↔
    PortsCancel ((l4Check pkt.data pkt.innerIp o).toNat + (ld16 pkt.data (o + 2)).toNat - dport.toNat)
      ((ld16 pkt.data o).toNat - sport.toNat) := by
  have hcomplete := h.complete
  have hcw := h.checkWord_lt
  have hcases := l4CheckWord_cases pkt.data pkt.innerIp
  have hfield : o + 4 ≤ o + 2 * l4CheckWord pkt.data pkt.innerIp := by omega
  obtain ⟨hseg, hsum⟩ := h.sum_trnSetPorts sport dport
  obtain ⟨hs, hd, hc⟩ := trnSetPorts_edits pkt.data sport dport hfield (by omega)
  have hvalid := h.valid_iff.1 hv
  rw [h.trnSetSrcDstPort_data, and_iff_right hs, and_iff_right hd, hseg.right_iff]
  rw [← l4Check] at hc
  have hcheck := (l4Check pkt.data pkt.innerIp o).isLt
  have hdp := (ld16 pkt.data (o + 2)).isLt
  have hsp := (ld16 pkt.data o).isLt
  have hdport := dport.isLt
  have hsport := sport.isLt
  rw [← portCheck_portCheck_iff (by omega) (by omega), ← add_sub_assoc, ← hc]
  unfold Nat.ModEq at *
  omega

/-- The sample frame as a TCP segment with sequence number `0x00100000`, once its flow has been recorded. -/
def sampleTcp : TransitPacket :=
  { TransitPacket.start (st16 (st16 (sampleFrame ipprotoTcp) 88 0x1000) 100 0xf7fd) sampleIface false with
    innerIp := 64
    innerTcp := 84
    flow := some { Ipv4Flow.zero with protocol := ipprotoTcp } }

theorem sampleTcp_flowSegment : FlowSegment sampleTcp 84 where
  protocol := by decide
  header := by decide
  room := by decide
  complete := by decide
  flow := by decide
  innerTcp _ := rfl
  innerUdp h := absurd h (by decide)

/-- **A valid segment for port 80 is not valid any more when it is sent to port 53.** -/
theorem trnSetSrcDstPort_stale : FlowSegment sampleTcp 84 ∧ L4Valid sampleTcp.data sampleTcp.innerIp 84 ∧
    ¬ L4Right (trnSetSrcDstPort sampleTcp 0x3930 0x3500).data sampleTcp.innerIp 84 :=
  ⟨sampleTcp_flowSegment, by decide, by decide⟩

/-- The same segment, sent to port 8080. -/
theorem trnSetSrcDstPort_right_sample :
    (ld16 (trnSetSrcDstPort sampleTcp 0x3930 0x901f).data 84 = 0x3930 ∧
      ld16 (trnSetSrcDstPort sampleTcp 0x3930 0x901f).data 86 = 0x901f ∧
      L4Right (trnSetSrcDstPort sampleTcp 0x3930 0x901f).data sampleTcp.innerIp 84) ↔
    PortsCancel ((l4Check sampleTcp.data sampleTcp.innerIp 84).toNat + (ld16 sampleTcp.data 86).toNat -
      (0x901f : U16).toNat) ((ld16 sampleTcp.data 84).toNat - (0x3930 : U16).toNat) :=
  trnSetSrcDstPort_right_iff sampleTcp_flowSegment (by decide) 0x3930 0x901f

end ArionDp
