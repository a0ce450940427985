import ArionDp.Xdp.Kern

/-!
# The transit XDP program

`trn_transit_xdp.c`, one definition for each C function. A function takes the packet state and
returns its verdict with the new state; the maps are a parameter, since the program only reads them.

* `TransitPacket`: the state of one run; `sgTrace` records the lookups made in `sg_cidr_map`, which
  the program itself does not keep;
* `trnSgCheck`, `trnProcessInnerIp`, `trnProcessInnerArp`: the work on the inner packet;
* `trnProcessEth` down to `trnProcessVxlan` and `trnProcessGeneve`: the way to it;
* **`transit`**: the program `_transit`.
-/

namespace ArionDp

open Wire

/-! ## State -/

/-- The switch `appendTail`, and the frames that `bpf_xdp_adjust_tail` can grow. -/
structure TailConf where
  appendTail : Bool
  adjustTail : Bytes → Bool

/-- The switch as it stands in `trn_kern.h`. -/
def TailConf.compiled : TailConf := ⟨false, fun _ => false⟩

/-- `struct transit_packet`. Pointers are offsets into `data`, and `flow` is empty until the flow
context is cleared. -/
structure TransitPacket where
  data : Bytes
  itf : TunnelIface
  pktNotAddTail : Bool
  entIdx : Fin tranMaxZgcEntrances
  eth : ℕ
  ip : ℕ
  udp : ℕ
  vni : U32
  innerEth : ℕ
  innerArp : ℕ
  innerIp : ℕ
  innerUdp : ℕ
  innerTcp : ℕ
  flow : Option Ipv4Flow
  sgTrace : List (SgCidrKey × Option SecurityGroup)

/-- The state before any header is read. -/
def TransitPacket.start (data : Bytes) (itf : TunnelIface) (pktNotAddTail : Bool) :
    TransitPacket where
  data := data
  itf := itf
  pktNotAddTail := pktNotAddTail
  entIdx := 0
  eth := 0
  ip := 0
  udp := 0
  vni := 0
  innerEth := 0
  innerArp := 0
  innerIp := 0
  innerUdp := 0
  innerTcp := 0
  flow := none
  sgTrace := []

/-! ## Security groups -/

/-- The key of the egress lookup. -/
def sgEgressKey (pkt : TransitPacket) : SgCidrKey where
  prefixlen := sgIpv4Prefix
  vni := pkt.vni
  port := 30011
  direction := 0
  protocol := rd pkt.data (pkt.innerIp + 9)
  srcIp := ld32 pkt.data (pkt.innerIp + 12)
  dstIp := ld32 pkt.data (pkt.innerIp + 16)

/-- The key of the ingress lookup. -/
def sgIngressKey (pkt : TransitPacket) (port : U16) : SgCidrKey :=
  { sgEgressKey pkt with
    port := port
    direction := 1
    srcIp := ld32 pkt.data (pkt.innerIp + 16)
    dstIp := ld32 pkt.data (pkt.innerIp + 12) }

/-- A lookup in `sg_cidr_map`, recorded. -/
def sgLookup (m : Maps) (sgkey : SgCidrKey) (pkt : TransitPacket) : TransitPacket :=
  { pkt with sgTrace := pkt.sgTrace ++ [(sgkey, m.sgCidrLookup sgkey)] }

/-- The last part of `trn_sg_check`, once the port of the ingress key is known. -/
def trnSgCheckIngress (m : Maps) (port : U16) (pkt : TransitPacket) : XdpAction × TransitPacket :=
  let sgkey := sgIngressKey pkt port
  if (m.sgCidrLookup sgkey).isNone then (.drop, sgLookup m sgkey pkt)
  else (.pass, sgLookup m sgkey pkt)

/-- `trn_sg_check` -/
def trnSgCheck (m : Maps) (pkt : TransitPacket) : XdpAction × TransitPacket :=
  let sgkey := sgEgressKey pkt
  let pkt := sgLookup m sgkey pkt
  if (m.sgCidrLookup sgkey).isNone then (.drop, pkt)
  else if sgkey.protocol = ipprotoTcp then
    let pkt := { pkt with innerTcp := pkt.innerIp + sizeofIphdr }
    if pkt.innerTcp + sizeofTcphdr > pkt.data.length then (.aborted, pkt)
    else trnSgCheckIngress m (ld16 pkt.data (pkt.innerTcp + 2)) pkt
  else if sgkey.protocol = ipprotoUdp then
    let pkt := { pkt with innerUdp := pkt.innerIp + sizeofIphdr }
    if pkt.innerUdp + sizeofUdphdr > pkt.data.length then (.aborted, pkt)
    else trnSgCheckIngress m (ld16 pkt.data (pkt.innerUdp + 2)) pkt
  else (.pass, pkt)

/-! ## Inner IPv4 -/

/-- The rewrite of a forwarded packet: inner destination MAC, then the outer IP and Ethernet
headers. -/
def trnRewrite (pkt : TransitPacket) (ep : Endpoint) : Bytes :=
  let p := trnSetDstMac pkt.innerEth (macWords ep.mac) pkt.data
  let p := trnSetSrcDstIpCsum pkt.ip (ld32 p (pkt.ip + 16)) ep.hip p
  let p := trnSetSrcMac pkt.eth (macAt pkt.eth) p
  trnSetDstMac pkt.eth (macWords ep.hmac) p

/-- The trailer `struct xdp_hints_src` behind the outer IP packet. -/
def trnAppendHints (pkt : TransitPacket) (tip : U32) : XdpAction × TransitPacket :=
  let ipTotLen := bpfHtons (ld16 pkt.data (pkt.ip + 2))
  if ipTotLen.toNat < 2 then (.drop, pkt)
  else
    let ipTotLen := (ipTotLen &&& 0xfff#16).toNat
    if ipTotLen + sizeofXdpHintsSrc + sizeofEthhdr > pkt.data.length then (.aborted, pkt)
    else
      let hSrc := ipTotLen + sizeofEthhdr
      let p := st32 pkt.data (hSrc + 2) pkt.vni
      let p := st32 p (hSrc + 6) tip
      let p := st16 p hSrc 0x5354
      let p := wr p (hSrc + 10) (rd p (pkt.eth + 6))
      let p := wr p (hSrc + 11) (rd p (pkt.eth + 7))
      let p := wr p (hSrc + 12) (rd p (pkt.eth + 8))
      let p := wr p (hSrc + 13) (rd p (pkt.eth + 9))
      let p := wr p (hSrc + 14) (rd p (pkt.eth + 10))
      let p := wr p (hSrc + 15) (rd p (pkt.eth + 11))
      (.tx, { pkt with data := p })

/-- `trn_process_inner_ip` from the rewrite on. -/
def trnForward (C : TailConf) (ep : Endpoint) (protocol : U8) (pkt : TransitPacket) :
    XdpAction × TransitPacket :=
  let addTail := C.appendTail && protocol != ipprotoIcmp && !pkt.pktNotAddTail
  let tip := if addTail then ld32 pkt.data (pkt.ip + 12) else 0
  let pkt := { pkt with data := trnRewrite pkt ep }
  if addTail then trnAppendHints pkt tip else (.tx, pkt)

/-- `trn_process_inner_ip` from the flow record on. -/
def trnFlow (C : TailConf) (ep : Endpoint) (pkt : TransitPacket) : XdpAction × TransitPacket :=
  let flow : Ipv4Flow := { Ipv4Flow.zero with
    vni := trnSetVni pkt.vni
    saddr := ld32 pkt.data (pkt.innerIp + 12)
    daddr := ld32 pkt.data (pkt.innerIp + 16)
    protocol := rd pkt.data (pkt.innerIp + 9) }
  let pkt := { pkt with flow := some flow }
  if flow.protocol = ipprotoTcp then
    let pkt := { pkt with innerTcp := pkt.innerIp + sizeofIphdr }
    if pkt.innerTcp + sizeofTcphdr > pkt.data.length then (.aborted, pkt)
    else trnForward C ep flow.protocol { pkt with flow := some { flow with
      sport := ld16 pkt.data pkt.innerTcp
      dport := ld16 pkt.data (pkt.innerTcp + 2) } }
  else if flow.protocol = ipprotoUdp then
    let pkt := { pkt with innerUdp := pkt.innerIp + sizeofIphdr }
    if pkt.innerUdp + sizeofUdphdr > pkt.data.length then (.aborted, pkt)
    else trnForward C ep flow.protocol { pkt with flow := some { flow with
      sport := ld16 pkt.data pkt.innerUdp
      dport := ld16 pkt.data (pkt.innerUdp + 2) } }
  else trnForward C ep flow.protocol pkt

/-- `trn_process_inner_ip` from the endpoint lookup on. -/
def trnLookupEndpoint (C : TailConf) (m : Maps) (pkt : TransitPacket) : XdpAction × TransitPacket :=
  match m.endpointsMap ⟨pkt.vni, ld32 pkt.data (pkt.innerIp + 16)⟩ with
  | none => (.epNotFound, pkt)
  | some ep => trnFlow C ep pkt

/-- `trn_process_inner_ip` -/
def trnProcessInnerIp (C : TailConf) (m : Maps) (pkt : TransitPacket) : XdpAction × TransitPacket :=
  let pkt := { pkt with innerIp := pkt.innerEth + sizeofEthhdr }
  if pkt.innerIp + sizeofIphdr > pkt.data.length then (.aborted, pkt)
  else
    let r := trnSgCheck m pkt
    if r.1 ≠ .pass then r else trnLookupEndpoint C m r.2

/-! ## Inner ARP -/

/-- The rewrite of an ARP request into its reply. -/
def trnArpReply (pkt : TransitPacket) (ep : Endpoint) : Bytes :=
  let sha := pkt.innerArp + sizeofArphdr
  let sip := sha + 6
  let tha := sip + 4
  let tip := tha + 6
  let p := st16 pkt.data (pkt.innerArp + 6) (bpfHtons arpopReply)
  let p := trnSetMac tha (macAt sha) p
  let p := trnSetMac sha (macWords ep.mac) p
  let tmpIp := ld32 p sip
  let p := st32 p sip (ld32 p tip)
  let p := st32 p tip tmpIp
  let p := trnSetDstMac pkt.innerEth (macAt (pkt.innerEth + 6)) p
  let p := trnSetSrcMac pkt.innerEth (macWords ep.mac) p
  let p := trnSetSrcDstIpCsum pkt.ip (ld32 p (pkt.ip + 16)) (ld32 p (pkt.ip + 12)) p
  trnSwapSrcDstMac 0 p

/-- `trn_process_inner_arp` -/
def trnProcessInnerArp (m : Maps) (pkt : TransitPacket) : XdpAction × TransitPacket :=
  let pkt := { pkt with innerArp := pkt.innerEth + sizeofEthhdr }
  if pkt.innerArp + sizeofArphdr > pkt.data.length then (.aborted, pkt)
  else if ld16 pkt.data (pkt.innerArp + 2) ≠ bpfHtons ethPIp ∨
      ld16 pkt.data pkt.innerArp ≠ bpfHtons arphrdEther then (.drop, pkt)
  else if ld16 pkt.data (pkt.innerArp + 6) ≠ bpfHtons arpopRequest then (.drop, pkt)
  else
    let sha := pkt.innerArp + sizeofArphdr
    let sip := sha + 6
    let tha := sip + 4
    let tip := tha + 6
    if sha + 6 > pkt.data.length then (.aborted, pkt)
    else if sip + 4 > pkt.data.length then (.aborted, pkt)
    else if tha + 6 > pkt.data.length then (.aborted, pkt)
    else if tip + 4 > pkt.data.length then (.aborted, pkt)
    else match m.endpointsMap ⟨pkt.vni, ld32 pkt.data tip⟩ with
      | none => (.epNotFound, pkt)
      | some ep => (.tx, { pkt with data := trnArpReply pkt ep })

/-! ## Tunnels -/

/-- `trn_process_inner_eth` -/
def trnProcessInnerEth (C : TailConf) (m : Maps) (pkt : TransitPacket) :
    XdpAction × TransitPacket :=
  if pkt.innerEth + sizeofEthhdr > pkt.data.length then (.aborted, pkt)
  else if pkt.itf.role = xdpFwd ∧ ld16 pkt.data (pkt.innerEth + 12) = bpfHtons ethPArp then
    trnProcessInnerArp m pkt
  else if ld16 pkt.data (pkt.innerEth + 12) ≠ bpfHtons ethPIp then (.drop, pkt)
  else trnProcessInnerIp C m pkt

/-- `trn_process_geneve` -/
def trnProcessGeneve (C : TailConf) (m : Maps) (pkt : TransitPacket) : XdpAction × TransitPacket :=
  let hdr := pkt.udp + sizeofUdphdr
  if hdr + sizeofGenevehdr > pkt.data.length then (.aborted, pkt)
  else if ld16 pkt.data (hdr + 2) ≠ bpfHtons ethPTeb then (.aborted, pkt)
  else
    let gnvOptLen := (rd pkt.data hdr &&& 0x3f#8).toNat * 4
    let rtsOpt := hdr + sizeofGenevehdr
    if rtsOpt + sizeofRtsOpt > pkt.data.length then (.aborted, pkt)
    else if ld16 pkt.data rtsOpt ≠ trnGnvOptClass then (.aborted, pkt)
    else
      let gnvHdrLen := sizeofRtsOpt
      let scaledEpOpt := rtsOpt + sizeofRtsOpt
      if scaledEpOpt + sizeofScaledEpOpt > pkt.data.length then (.aborted, pkt)
      else if ld16 pkt.data scaledEpOpt ≠ trnGnvOptClass then (.aborted, pkt)
      else
        let gnvHdrLen := gnvHdrLen + sizeofScaledEpOpt
        if gnvHdrLen ≠ gnvOptLen then (.aborted, pkt)
        else
          let gnvHdrLen := gnvHdrLen + sizeofGenevehdr
          trnProcessInnerEth C m
            { pkt with vni := trnGetVni pkt.data (hdr + 4), innerEth := hdr + gnvHdrLen }

/-- `trn_process_vxlan` -/
def trnProcessVxlan (C : TailConf) (m : Maps) (pkt : TransitPacket) : XdpAction × TransitPacket :=
  let vxlan := pkt.udp + sizeofUdphdr
  if vxlan + sizeofVxlanhdr > pkt.data.length then (.aborted, pkt)
  else trnProcessInnerEth C m
    { pkt with vni := trnGetVni pkt.data (vxlan + 4), innerEth := vxlan + sizeofVxlanhdr }

/-! ## Outer headers -/

/-- `trn_process_udp` -/
def trnProcessUdp (C : TailConf) (m : Maps) (pkt : TransitPacket) : XdpAction × TransitPacket :=
  let pkt := { pkt with udp := pkt.ip + sizeofIphdr }
  if pkt.udp + sizeofUdphdr > pkt.data.length then (.aborted, pkt)
  else if ld16 pkt.data (pkt.udp + 2) = genDstport ∧ pkt.itf.role = xdpFtn then
    trnProcessGeneve C m pkt
  else if ld16 pkt.data (pkt.udp + 2) = vxlDstport ∧ pkt.itf.role = xdpFwd then
    trnProcessVxlan C m pkt
  else (.pass, pkt)

/-- `trn_process_ip` -/
def trnProcessIp (C : TailConf) (m : Maps) (pkt : TransitPacket) : XdpAction × TransitPacket :=
  let pkt := { pkt with ip := pkt.eth + sizeofEthhdr }
  if pkt.ip + sizeofIphdr > pkt.data.length then (.aborted, pkt)
  else if ld32 pkt.data (pkt.ip + 16) ≠ (pkt.itf.entrances pkt.entIdx).ip then (.aborted, pkt)
  else if rd pkt.data (pkt.ip + 8) = 0 then (.drop, pkt)
  else if rd pkt.data (pkt.ip + 9) ≠ ipprotoUdp then (.pass, pkt)
  else trnProcessUdp C m pkt

/-- The loop of `trn_process_eth`: the first valid entrance with the destination MAC. -/
def trnFindEntrance (itf : TunnelIface) (p : Bytes) (eth : ℕ) : Option (Fin tranMaxZgcEntrances) :=
  (List.finRange tranMaxZgcEntrances).find? fun i =>
    decide (i.val < itf.numEntrances.toNat) && trnIsMacEqual p eth (itf.entrances i).mac

/-- `trn_process_eth` -/
def trnProcessEth (C : TailConf) (m : Maps) (pkt : TransitPacket) : XdpAction × TransitPacket :=
  let pkt := { pkt with eth := 0 }
  if pkt.eth + sizeofEthhdr > pkt.data.length then (.aborted, pkt)
  else if ld16 pkt.data (pkt.eth + 12) ≠ bpfHtons ethPIp then (.pass, pkt)
  else match trnFindEntrance pkt.itf pkt.data pkt.eth with
    | none => (.aborted, pkt)
    | some i => trnProcessIp C m { pkt with entIdx := i }

/-! ## The program -/

/-- What a run leaves: the verdict and the frame, the lookups made in `sg_cidr_map`, and the flow
record. -/
structure Outcome where
  verdict : XdpAction
  data : Bytes
  sgTrace : List (SgCidrKey × Option SecurityGroup)
  flow : Option Ipv4Flow

/-- `bpf_tail_call` to a program that returns `proc`, before the exit with `exit`. -/
def bpfTailCall (m : Maps) (slot : Prog) (proc exit : XdpAction) : XdpAction :=
  if m.jmpTable slot then proc else exit

/-- `_transit_tx_proc` -/
def transitTxProc : XdpAction := .tx
/-- `_transit_pass_proc` -/
def transitPassProc : XdpAction := .pass
/-- `_transit_drop_proc` -/
def transitDropProc : XdpAction := .drop
/-- `_transit_redirect_proc` -/
def transitRedirectProc : XdpAction := .redirect

/-- The dispatch at the end of `_transit`. -/
def transitExit (m : Maps) (rxQueueIndex : U32) : XdpAction → XdpAction
  | .pass => bpfTailCall m .pass transitPassProc .pass
  | .epNotFound =>
    if m.xsksMap rxQueueIndex then .redirect else bpfTailCall m .drop transitDropProc .drop
  | .drop => bpfTailCall m .drop transitDropProc .drop
  | .tx => bpfTailCall m .tx transitTxProc .tx
  | .aborted => .aborted
  | .redirect => bpfTailCall m .redirect transitRedirectProc .redirect

/-- **`_transit`** -/
def transit (C : TailConf) (m : Maps) (ctx : XdpMd) : Outcome :=
  let addTail := C.appendTail && C.adjustTail ctx.data
  let data := if addTail then ctx.data ++ List.replicate sizeofXdpHintsSrc 0 else ctx.data
  match m.ifConfigMap ctx.ingressIfindex with
  | none => ⟨.aborted, data, [], none⟩
  | some itf =>
    let r := trnProcessEth C m (.start data itf !addTail)
    ⟨transitExit m ctx.rxQueueIndex r.1, r.2.data, r.2.sgTrace, r.2.flow⟩

end ArionDp
