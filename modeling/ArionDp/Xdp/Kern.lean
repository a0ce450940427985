import ArionDp.Xdp.DataModel

/-!
# Packet helpers

The helpers of `trn_kern.h` that the transit program calls. A pointer into the packet is an offset
into its bytes, and a helper that writes the packet returns the new bytes.
-/

namespace ArionDp

open Wire

/-- `GEN_DSTPORT`, port 6081 in network byte order -/
def genDstport : U16 := 0xc117
/-- `VXL_DSTPORT`, port 4789 in network byte order -/
def vxlDstport : U16 := 0xb512
/-- `TRN_GNV_OPT_CLASS` -/
def trnGnvOptClass : U16 := 0x0111

/-- `trn_get_vni` -/
def trnGetVni (p : Bytes) (vni : ℕ) : U32 :=
  ((rd p vni).setWidth 32 <<< 16) ||| ((rd p (vni + 1)).setWidth 32 <<< 8) |||
    (rd p (vni + 2)).setWidth 32

/-- `trn_set_vni` -/
def trnSetVni (src : U32) : Fin 3 → U8 :=
  ![(src >>> 16).setWidth 8, (src >>> 8).setWidth 8, src.setWidth 8]

/-! ## Checksums -/

/-- One round of the loop of `trn_csum_fold_helper`. -/
def csumRound (csum : U64) : U64 :=
  if csum >>> 16 ≠ 0 then (csum &&& 0xffff#64) + (csum >>> 16) else csum

/-- `trn_csum_fold_helper` -/
def trnCsumFoldHelper (csum : U64) : U16 :=
  (~~~ csumRound (csumRound (csumRound (csumRound csum)))).setWidth 16

/-- The loop of `trn_ipv4_csum_inline`: add `n` words from offset `o` to the accumulator. -/
def csumWords (p : Bytes) (o : ℕ) : ℕ → U64 → U64
  | 0, csum => csum
  | n + 1, csum => csumWords p (o + 2) n (csum + (ld16 p o).setWidth 64)

/-- `trn_ipv4_csum_inline` -/
def trnIpv4CsumInline (p : Bytes) (iph : ℕ) (csum : U64) : U64 :=
  (trnCsumFoldHelper (csumWords p iph (sizeofIphdr / 2) csum)).setWidth 64

/-! ## MAC addresses -/

/-- The three words of a MAC address outside the packet. -/
def macWords (mac : Mac) : Bytes → Fin 3 → U16 :=
  fun _ => ![mac 1 ++ mac 0, mac 3 ++ mac 2, mac 5 ++ mac 4]

/-- The three words of the MAC address at offset `s` of the packet. -/
def macAt (s : ℕ) : Bytes → Fin 3 → U16 :=
  fun p => ![ld16 p s, ld16 p (s + 2), ld16 p (s + 4)]

/-- `trn_is_mac_equal`, of the address at offset `s` and one outside the packet -/
def trnIsMacEqual (p : Bytes) (s : ℕ) (d : Mac) : Bool :=
  macWords d p 0 == ld16 p s && macWords d p 1 == ld16 p (s + 2) &&
    macWords d p 2 == ld16 p (s + 4)

/-- `trn_set_mac`. The source may be in the packet, so each word is read when it is stored. -/
def trnSetMac (dst : ℕ) (mac : Bytes → Fin 3 → U16) (p : Bytes) : Bytes :=
  let p := st16 p dst (mac p 0)
  let p := st16 p (dst + 2) (mac p 1)
  st16 p (dst + 4) (mac p 2)

/-- `trn_set_dst_mac` -/
def trnSetDstMac (data : ℕ) (dstMac : Bytes → Fin 3 → U16) (p : Bytes) : Bytes :=
  trnSetMac data dstMac p

/-- `trn_set_src_mac` -/
def trnSetSrcMac (data : ℕ) (srcMac : Bytes → Fin 3 → U16) (p : Bytes) : Bytes :=
  trnSetMac (data + 6) srcMac p

/-- `trn_swap_src_dst_mac` -/
def trnSwapSrcDstMac (data : ℕ) (p : Bytes) : Bytes :=
  let tmp := macAt data p
  let p := st16 p data (ld16 p (data + 6))
  let p := st16 p (data + 2) (ld16 p (data + 8))
  let p := st16 p (data + 4) (ld16 p (data + 10))
  let p := st16 p (data + 6) (tmp 0)
  let p := st16 p (data + 8) (tmp 1)
  st16 p (data + 10) (tmp 2)

/-! ## IP addresses -/

/-- `trn_set_src_ip`, whose bound is on the start of the field only -/
def trnSetSrcIp (ip : ℕ) (saddr : U32) (p : Bytes) : Bytes :=
  if ip + 12 > p.length then p else st32 p (ip + 12) saddr

/-- `trn_set_dst_ip` -/
def trnSetDstIp (ip : ℕ) (daddr : U32) (p : Bytes) : Bytes :=
  if ip + 16 > p.length then p else st32 p (ip + 16) daddr

/-- `trn_set_src_dst_ip_csum` -/
def trnSetSrcDstIpCsum (ip : ℕ) (saddr daddr : U32) (p : Bytes) : Bytes :=
  let p := wr p (ip + 8) (rd p (ip + 8) - 1)
  let p := trnSetSrcIp ip saddr p
  let p := trnSetDstIp ip daddr p
  let p := st16 p (ip + 10) 0
  st16 p (ip + 10) ((trnIpv4CsumInline p ip 0).setWidth 16)

end ArionDp
