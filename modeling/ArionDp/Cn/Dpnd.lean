import ArionDp.Xdp.SecurityGroup
import Mathlib.Tactic.MkIffOfInductiveProp

/-!
# The compute node XDP program

`cn_dpnd_xdp.c`, which looks for the hints that a gateway has left behind a VXLAN packet, and queues a
request for the direct path. Its helpers are copies of those of `trn_kern.h`.

* `FlowCtx`: the request, with its memory image `FlowCtx.data`;
* `Cn.transit` and the functions that it calls, one definition for each; the packet is only read;
* `HintFrame`, `hintRequest`, **`transit_pushes_iff`**: the packets with hints, and what is queued for them.
-/

namespace ArionDp.Cn

open Wire

/-! ## Requests -/

/-- `struct ethhdr` -/
structure EthHdr where
  hDest : Mac
  hSource : Mac
  hProto : U16
  deriving DecidableEq

/-- `struct iphdr`; the version and the IHL share a byte. -/
structure IpHdr where
  versionIhl : U8
  tos : U8
  totLen : U16
  id : U16
  fragOff : U16
  ttl : U8
  protocol : U8
  check : U16
  saddr : U32
  daddr : U32
  deriving DecidableEq

/-- `struct udphdr` -/
structure UdpHdr where
  source : U16
  dest : U16
  len : U16
  check : U16
  deriving DecidableEq

/-- `dp_encap_opdata_t` -/
structure DpEncapOpdata where
  dip : U32
  dhip : U32
  dmac : Mac
  dhmac : Mac
  timeout : U16
  rsvd : U16
  deriving DecidableEq

/-- `flow_ctx_t` -/
structure FlowCtx where
  len : U16
  eth : EthHdr
  ip : IpHdr
  udp : UdpHdr
  opcode : U32
  flow : Ipv4Flow
  opdata : DpEncapOpdata

abbrev sizeofOpcode : ℕ := 4
/-- `sizeof(ipv4_flow_t)` -/
abbrev sizeofFlow : ℕ := 16
/-- `sizeof(dp_encap_opdata_t)` -/
abbrev sizeofOpdata : ℕ := 24
/-- `offsetof(flow_ctx_t, opcode)` -/
abbrev offsetofOpcode : ℕ := 2 + sizeofEthhdr + sizeofIphdr + sizeofUdphdr
/-- `sizeof(flow_ctx_t)` -/
abbrev sizeofFlowCtx : ℕ := offsetofOpcode + sizeofOpcode + sizeofFlow + sizeofOpdata

/-! The memory images of the records, field by field. -/

def EthHdr.data (h : EthHdr) : Bytes := List.ofFn h.hDest ++ List.ofFn h.hSource ++ le16 h.hProto

def IpHdr.data (h : IpHdr) : Bytes :=
  [h.versionIhl, h.tos] ++ le16 h.totLen ++ le16 h.id ++ le16 h.fragOff ++ [h.ttl, h.protocol] ++
    le16 h.check ++ le32 h.saddr ++ le32 h.daddr

def UdpHdr.data (h : UdpHdr) : Bytes := le16 h.source ++ le16 h.dest ++ le16 h.len ++ le16 h.check

/-- The flow matcher. -/
def flowData (f : Ipv4Flow) : Bytes :=
  le32 f.saddr ++ le32 f.daddr ++ le16 f.sport ++ le16 f.dport ++ [f.protocol] ++ List.ofFn f.vni

def DpEncapOpdata.data (o : DpEncapOpdata) : Bytes :=
  le32 o.dip ++ le32 o.dhip ++ List.ofFn o.dmac ++ List.ofFn o.dhmac ++ le16 o.timeout ++ le16 o.rsvd

/-- The fields that a datagram is to have. -/
def FlowCtx.operation (e : FlowCtx) : Bytes := le32 e.opcode ++ flowData e.flow ++ e.opdata.data

def FlowCtx.data (e : FlowCtx) : Bytes :=
  le16 e.len ++ e.eth.data ++ e.ip.data ++ e.udp.data ++ e.operation

theorem FlowCtx.length_operation (e : FlowCtx) :
    e.operation.length = sizeofOpcode + sizeofFlow + sizeofOpdata := by
  simp [operation, flowData, DpEncapOpdata.data, le16, le32]
  rfl

theorem FlowCtx.length_header (e : FlowCtx) :
    (le16 e.len ++ e.eth.data ++ e.ip.data ++ e.udp.data).length = offsetofOpcode := by
  simp [EthHdr.data, IpHdr.data, UdpHdr.data, le16, le32]
  rfl

theorem FlowCtx.length_data (e : FlowCtx) : e.data.length = sizeofFlowCtx := by
  rw [data, List.length_append, length_operation, length_header]
  rfl

/-- The operation starts at the opcode. -/
theorem FlowCtx.drop_data (e : FlowCtx) : e.data.drop offsetofOpcode = e.operation := by
  rw [data, ← length_header e, List.drop_left]

/-! ## The program -/

/-- `bpf_htonl` on a little-endian machine -/
def bpfHtonl (v : U32) : U32 := byte v 0 ++ byte v 1 ++ byte v 2 ++ byte v 3

/-- `TRAN_DP_FLOW_TIMEOUT` -/
def tranDpFlowTimeout : U16 := 30

/-- `XDP_FLOW_OP_ENCAP` -/
def xdpFlowOpEncap : U32 := 0

/-- `IPDEFTTL` -/
def ipdefttl : U8 := 64

/-- The MAC address at an offset of the packet. -/
def macOf (p : Bytes) (o : ℕ) : Mac := fun k => rd p (o + k)

/-- `struct transit_packet`, as far as the functions read it. Pointers are offsets into `data`. -/
structure TransitPacket where
  data : Bytes
  eth : ℕ
  ip : ℕ
  udp : ℕ
  vni : U32
  innerEth : ℕ
  innerIp : ℕ

/-- `trn_set_src_dst_ip_csum`, on a header that its bound does not cut off -/
def trnSetSrcDstIpCsum (ip : IpHdr) (saddr daddr : U32) : IpHdr :=
  let ip := { ip with ttl := ip.ttl - 1, saddr := saddr, daddr := daddr, check := 0 }
  { ip with check := (trnIpv4CsumInline ip.data 0 0).setWidth 16 }

/-- The direct path request, for the hints at offset `hSrc`. -/
def directPathRequest (pkt : TransitPacket) (flow : Ipv4Flow) (hSrc : ℕ) : FlowCtx :=
  let len := sizeofUdphdr + sizeofOpcode + sizeofFlow + sizeofOpdata
  let ipLen := len + sizeofIphdr
  { opcode := bpfHtonl xdpFlowOpEncap
    flow := flow
    opdata :=
      { dip := ld32 pkt.data (pkt.innerIp + 12)
        dhip := ld32 pkt.data (hSrc + 6)
        dmac := macOf pkt.data (pkt.innerEth + 6)
        dhmac := macOf pkt.data (hSrc + 10)
        timeout := bpfHtons tranDpFlowTimeout
        rsvd := 0 }
    udp := ⟨0, 0, bpfHtons (BitVec.ofNat 16 len), 0⟩
    ip := trnSetSrcDstIpCsum
      { versionIhl := 0x45
        tos := 0
        totLen := bpfHtons (BitVec.ofNat 16 ipLen)
        id := bpfHtons 54321
        fragOff := 0
        ttl := ipdefttl
        protocol := ipprotoUdp
        check := 0
        saddr := 0
        daddr := 0 } (ld32 pkt.data (pkt.ip + 16)) (ld32 pkt.data (pkt.ip + 12))
    eth := ⟨macOf pkt.data (pkt.eth + 6), macOf pkt.data pkt.eth, bpfHtons ethPIp⟩
    len := BitVec.ofNat 16 (sizeofEthhdr + ipLen) }

/-- `trn_process_inner_ip` behind the ports, which are cleared again -/
def trnProcessHints (pkt : TransitPacket) (flow : Ipv4Flow) : XdpAction × Option FlowCtx :=
  let flow := { flow with sport := 0, dport := 0 }
  if flow.protocol = ipprotoIcmp then (.pass, none)
  else
    let ipTotLen := bpfHtons (ld16 pkt.data (pkt.ip + 2))
    if ipTotLen.toNat < 2 then (.drop, none)
    else
      let ipTotLen := (ipTotLen &&& 0xfff#16).toNat
      if ipTotLen + sizeofXdpHintsSrc + sizeofEthhdr > pkt.data.length then (.pass, none)
      else
        let hSrc := ipTotLen + sizeofEthhdr
        if ld16 pkt.data hSrc ≠ 0x5354 ∨ ld32 pkt.data (hSrc + 2) ≠ pkt.vni then (.pass, none)
        else (.pass, some (directPathRequest pkt flow hSrc))

/-- `trn_process_inner_ip` -/
def trnProcessInnerIp (pkt : TransitPacket) : XdpAction × Option FlowCtx :=
  let pkt := { pkt with innerIp := pkt.innerEth + sizeofEthhdr }
  if pkt.innerIp + sizeofIphdr > pkt.data.length then (.aborted, none)
  else
    let flow : Ipv4Flow := { Ipv4Flow.zero with
      vni := trnSetVni pkt.vni
      saddr := ld32 pkt.data (pkt.innerIp + 16)
      daddr := ld32 pkt.data (pkt.innerIp + 12)
      protocol := rd pkt.data (pkt.innerIp + 9) }
    if flow.protocol = ipprotoTcp then
      let innerTcp := pkt.innerIp + sizeofIphdr
      if innerTcp + sizeofTcphdr > pkt.data.length then (.aborted, none)
      else trnProcessHints pkt { flow with
        sport := ld16 pkt.data innerTcp, dport := ld16 pkt.data (innerTcp + 2) }
    else if flow.protocol = ipprotoUdp then
      let innerUdp := pkt.innerIp + sizeofIphdr
      if innerUdp + sizeofUdphdr > pkt.data.length then (.aborted, none)
      else trnProcessHints pkt { flow with
        sport := ld16 pkt.data innerUdp, dport := ld16 pkt.data (innerUdp + 2) }
    else trnProcessHints pkt flow

/-- `trn_process_inner_eth` -/
def trnProcessInnerEth (pkt : TransitPacket) : XdpAction × Option FlowCtx :=
  if pkt.innerEth + sizeofEthhdr > pkt.data.length then (.aborted, none)
  else if ld16 pkt.data (pkt.innerEth + 12) ≠ bpfHtons ethPIp then (.pass, none)
  else trnProcessInnerIp pkt

/-- `trn_process_vxlan` -/
def trnProcessVxlan (pkt : TransitPacket) : XdpAction × Option FlowCtx :=
  let vxlan := pkt.udp + sizeofUdphdr
  if vxlan + sizeofVxlanhdr > pkt.data.length then (.aborted, none)
  else trnProcessInnerEth
    { pkt with vni := trnGetVni pkt.data (vxlan + 4), innerEth := vxlan + sizeofVxlanhdr }

/-- `trn_process_udp` -/
def trnProcessUdp (pkt : TransitPacket) : XdpAction × Option FlowCtx :=
  let pkt := { pkt with udp := pkt.ip + sizeofIphdr }
  if pkt.udp + sizeofUdphdr > pkt.data.length then (.aborted, none)
  else if ld16 pkt.data (pkt.udp + 2) = vxlDstport then trnProcessVxlan pkt
  else (.pass, none)

/-- `trn_process_ip` -/
def trnProcessIp (pkt : TransitPacket) : XdpAction × Option FlowCtx :=
  let pkt := { pkt with ip := pkt.eth + sizeofEthhdr }
  if pkt.ip + sizeofIphdr > pkt.data.length then (.aborted, none)
  else if rd pkt.data (pkt.ip + 8) = 0 then (.drop, none)
  else if rd pkt.data (pkt.ip + 9) ≠ ipprotoUdp then (.pass, none)
  else trnProcessUdp pkt

/-- `trn_process_eth` -/
def trnProcessEth (pkt : TransitPacket) : XdpAction × Option FlowCtx :=
  let pkt := { pkt with eth := 0 }
  if pkt.eth + sizeofEthhdr > pkt.data.length then (.aborted, none)
  else if ld16 pkt.data (pkt.eth + 12) ≠ bpfHtons ethPIp then (.pass, none)
  else trnProcessIp pkt

/-- **`_transit`**, with the request that it pushes on `local_queue_map`. The verdict 0 for a frame without
an Ethernet header is that of `XDP_ABORTED`. -/
def transit (data : Bytes) : XdpAction × Option FlowCtx :=
  if sizeofEthhdr > data.length then (.aborted, none)
  else trnProcessEth ⟨data, 0, 0, 0, 0, 0, 0⟩

/-! ## Packets with hints -/

/-- The total length of the outer IPv4 packet. -/
def ipTotLen (p : Bytes) : U16 := bpfHtons (ld16 p 16)

/-- Where the hints are. -/
def hintOffset (p : Bytes) : ℕ := (ipTotLen p &&& 0xfff#16).toNat + 14

/-- The hints behind a packet: the signature, and the VNI of the packet. -/
@[mk_iff]
structure Hints (p : Bytes) : Prop where
  totLen : 2 ≤ (ipTotLen p).toNat
  hints : hintOffset p + sizeofXdpHintsSrc ≤ p.length
  flags : ld16 p (hintOffset p) = 0x5354
  vni : ld32 p (hintOffset p + 2) = frameVni p

/-- **A packet with hints**: a VXLAN packet with an inner IPv4 packet that is not ICMP, and with the hints
behind it. -/
@[mk_iff]
structure HintFrame (p : Bytes) : Prop extends Hints p where
  len : 84 ≤ p.length
  proto : ld16 p 12 = bpfHtons ethPIp
  ttl : rd p 22 ≠ 0
  protocol : rd p 23 = ipprotoUdp
  port : ld16 p 36 = vxlDstport
  ethertype : ld16 p 62 = bpfHtons ethPIp
  transport : ∀ n, l4Len (rd p 73) = some n → 84 + n ≤ p.length
  notIcmp : rd p 73 ≠ ipprotoIcmp

instance (p : Bytes) : Decidable (HintFrame p) :=
  decidable_of_iff _ ((hintFrame_iff p).trans (and_congr_left fun _ => hints_iff p)).symm

/-- The state in which the inner IPv4 packet is looked at. -/
def innerPacket (p : Bytes) : TransitPacket := ⟨p, 0, 14, 34, frameVni p, 50, 64⟩

/-- The flow matcher of a packet: its addresses are swapped. -/
def hintFlow (p : Bytes) : Ipv4Flow :=
  { saddr := ld32 p 80, daddr := ld32 p 76, sport := 0, dport := 0, protocol := rd p 73
    vni := trnSetVni (frameVni p) }

/-- The request for a packet with hints. -/
def hintRequest (p : Bytes) : FlowCtx := directPathRequest (innerPacket p) (hintFlow p) (hintOffset p)

section Pushes

variable {p : Bytes} {e : FlowCtx} {c : Prop} [Decidable c] {v : XdpAction} {r : XdpAction × Option FlowCtx}

/-- A check that is failed pushes nothing. -/
theorem pushes_of_check : (if c then (v, none) else r).2 = some e ↔ ¬ c ∧ r.2 = some e := by
  split_ifs with h
  · exact iff_of_false (fun hc => nomatch hc) fun hc => hc.1 h
  · exact (and_iff_right h).symm

theorem pushes_of_case : (if c then r else (v, none)).2 = some e ↔ c ∧ r.2 = some e := by
  rw [← ite_not, pushes_of_check, not_not]

/-- The hints of a packet. -/
theorem trnProcessHints_iff : (trnProcessHints (innerPacket p) (hintFlow p)).2 = some e ↔
    rd p 73 ≠ ipprotoIcmp ∧ Hints p ∧ e = hintRequest p := by
  unfold trnProcessHints
  dsimp only
  rw [pushes_of_check, pushes_of_check, pushes_of_check, pushes_of_check, not_or, not_not, not_not,
    Option.some_inj]
  constructor
  · rintro ⟨hicmp, htot, hend, ⟨hflags, hvni⟩, he⟩
    change ¬ (ipTotLen p).toNat < 2 at htot
    change ¬ (ipTotLen p &&& 0xfff#16).toNat + 16 + 14 > p.length at hend
    refine ⟨hicmp, ⟨by omega, ?_, hflags, hvni⟩, he.symm⟩
    change (ipTotLen p &&& 0xfff#16).toNat + 14 + 16 ≤ p.length
    omega
  · rintro ⟨hicmp, ⟨htot, hend, hflags, hvni⟩, he⟩
    change (ipTotLen p &&& 0xfff#16).toNat + 14 + 16 ≤ p.length at hend
    refine ⟨hicmp, ?_, ?_, ⟨hflags, hvni⟩, he.symm⟩
    · change ¬ (ipTotLen p).toNat < 2
      omega
    · change ¬ (ipTotLen p &&& 0xfff#16).toNat + 16 + 14 > p.length
      omega

/-- The inner IPv4 packet. -/
theorem trnProcessInnerIp_iff : (trnProcessInnerIp ⟨p, 0, 14, 34, frameVni p, 50, 0⟩).2 = some e ↔
    84 ≤ p.length ∧ (∀ n, l4Len (rd p 73) = some n → 84 + n ≤ p.length) ∧ rd p 73 ≠ ipprotoIcmp ∧
      Hints p ∧ e = hintRequest p := by
  have hflow : ∀ sport dport, trnProcessHints (innerPacket p) { hintFlow p with
      sport := sport, dport := dport } = trnProcessHints (innerPacket p) (hintFlow p) := fun _ _ => rfl
  have hrun : trnProcessInnerIp ⟨p, 0, 14, 34, frameVni p, 50, 0⟩ =
      if 84 > p.length then (.aborted, none)
      else if rd p 73 = ipprotoTcp then
        if 84 + 20 > p.length then (.aborted, none) else trnProcessHints (innerPacket p) (hintFlow p)
      else if rd p 73 = ipprotoUdp then
        if 84 + 8 > p.length then (.aborted, none) else trnProcessHints (innerPacket p) (hintFlow p)
      else trnProcessHints (innerPacket p) (hintFlow p) := rfl
  rw [hrun, pushes_of_check, ← trnProcessHints_iff, Nat.not_lt]
  refine and_congr_right fun _ => ?_
  by_cases htcp : rd p 73 = ipprotoTcp
  · rw [if_pos htcp, pushes_of_check, Nat.not_lt, l4Len, if_pos htcp]
    exact and_congr_left' ⟨fun h n hn => Option.some.inj hn ▸ h, fun h => h _ rfl⟩
  rw [if_neg htcp]
  by_cases hudp : rd p 73 = ipprotoUdp
  · rw [if_pos hudp, pushes_of_check, Nat.not_lt, l4Len, if_neg htcp, if_pos hudp]
    exact and_congr_left' ⟨fun h n hn => Option.some.inj hn ▸ h, fun h => h _ rfl⟩
  · rw [if_neg hudp, l4Len, if_neg htcp, if_neg hudp]
    exact (and_iff_right fun n hn => by cases hn).symm

/-- **What the program pushes**: the request for a packet with hints, and nothing for others. -/
theorem transit_pushes_iff : (transit p).2 = some e ↔ HintFrame p ∧ e = hintRequest p := by
  have hrun : transit p =
      if 14 > p.length then (.aborted, none)
      else if 14 > p.length then (.aborted, none)
      else if ld16 p 12 ≠ bpfHtons ethPIp then (.pass, none)
      else if 34 > p.length then (.aborted, none)
      else if rd p 22 = 0 then (.drop, none)
      else if rd p 23 ≠ ipprotoUdp then (.pass, none)
      else if 42 > p.length then (.aborted, none)
      else if ld16 p 36 = vxlDstport then
        if 50 > p.length then (.aborted, none)
        else if 64 > p.length then (.aborted, none)
        else if ld16 p 62 ≠ bpfHtons ethPIp then (.pass, none)
        else trnProcessInnerIp ⟨p, 0, 14, 34, frameVni p, 50, 0⟩
      else (.pass, none) := rfl
  simp only [hrun, pushes_of_check, pushes_of_case, trnProcessInnerIp_iff, not_not, Nat.not_lt]
  constructor
  · rintro ⟨-, -, hproto, -, httl, hudp, -, hport, -, -, htype, hlen, hl4, hicmp, hhints, he⟩
    exact ⟨⟨hhints, hlen, hproto, httl, hudp, hport, htype, hl4, hicmp⟩, he⟩
  · rintro ⟨⟨hhints, hlen, hproto, httl, hudp, hport, htype, hl4, hicmp⟩, he⟩
    exact ⟨by omega, by omega, hproto, by omega, httl, hudp, by omega, hport, by omega, by omega, htype,
      hlen, hl4, hicmp, hhints, he⟩

end Pushes

end ArionDp.Cn
