import ArionDp.Lib.Lpm
import Mathlib.Data.Fin.VecNotation
import Mathlib.Data.Fintype.Pi

/-!
# Data model shared by the daemon and the XDP program

The records of `trn_datamodel.h` that the transit program reads, the content of the eBPF maps, and
the constants of the kernel headers it compares with. Fields hold the raw words of a little-endian
machine, so an address or a port read from a packet is in network byte order.
-/

namespace ArionDp

open Wire

/-! ## Constants -/

/-- `TRAN_MAX_ZGC_ENTRANCES` -/
abbrev tranMaxZgcEntrances : ℕ := 128

instance : NeZero tranMaxZgcEntrances := ⟨by decide⟩

/-- `TRAN_SG_STOP`, the action of a deny rule -/
def tranSgStop : U8 := 1

/-- `TRAN_SG_PASS`, the action of a permit rule -/
def tranSgPass : U8 := 0

/-- `SG_STATIC_PREFIX`, the size of a `__be32` in bits -/
def sgStaticPrefix : ℕ := 4 * 8

/-- `SG_PREFIX_LEN` -/
def sgPrefixLen (n : ℕ) : ℕ := sgStaticPrefix + n

/-- `SG_IPV4_PREFIX` -/
def sgIpv4Prefix : ℕ := sgPrefixLen 32

/-- `XDP_FWD`, the role of the tenant interface -/
def xdpFwd : U8 := 0

/-- `XDP_FTN`, the role of the ZGC interface -/
def xdpFtn : U8 := 1

def ipprotoIcmp : U8 := 1
def ipprotoTcp : U8 := 6
def ipprotoUdp : U8 := 17

/-- `bpf_htons` on a little-endian machine -/
def bpfHtons (v : U16) : U16 := byte v 0 ++ byte v 1

/-- `ETH_P_IP` -/
def ethPIp : U16 := 0x0800
/-- `ETH_P_ARP` -/
def ethPArp : U16 := 0x0806
/-- `ETH_P_TEB`, Ethernet frames inside a tunnel -/
def ethPTeb : U16 := 0x6558
/-- `ARPHRD_ETHER` -/
def arphrdEther : U16 := 1
/-- `ARPOP_REQUEST` -/
def arpopRequest : U16 := 1
/-- `ARPOP_REPLY` -/
def arpopReply : U16 := 2

/-! ## Header sizes -/

abbrev sizeofEthhdr : ℕ := 14
abbrev sizeofIphdr : ℕ := 20
abbrev sizeofUdphdr : ℕ := 8
abbrev sizeofTcphdr : ℕ := 20
abbrev sizeofArphdr : ℕ := 8
abbrev sizeofVxlanhdr : ℕ := 8
abbrev sizeofGenevehdr : ℕ := 8
/-- `struct trn_gnv_rts_opt`: 4 header bytes and 11 bytes of data, padded to words -/
abbrev sizeofRtsOpt : ℕ := 16
/-- `struct trn_gnv_scaled_ep_opt`: 4 header bytes and 25 bytes of data, padded to words -/
abbrev sizeofScaledEpOpt : ℕ := 32
/-- `struct xdp_hints_src` -/
abbrev sizeofXdpHintsSrc : ℕ := 16

/-! ## Records -/

/-- A MAC address, `unsigned char mac[6]`. -/
abbrev Mac := Fin 6 → U8

/-- `endpoint_key_t` -/
structure EndpointKey where
  vni : U32
  ip : U32
  deriving DecidableEq

/-- `endpoint_t` -/
structure Endpoint where
  hip : U32
  mac : Mac
  hmac : Mac
  deriving DecidableEq

/-- `sg_cidr_key_t` -/
structure SgCidrKey where
  prefixlen : ℕ
  vni : U32
  port : U16
  direction : U8
  protocol : U8
  srcIp : U32
  dstIp : U32
  deriving DecidableEq

/-- `security_group_t`, the value type of `sg_cidr_map` -/
structure SecurityGroup where
  sgId : U32
  action : U8
  deriving DecidableEq

/-- `zgc_entrance_t` -/
structure ZgcEntrance where
  ip : U32
  announced : U16
  mac : Mac

/-- `struct tunnel_iface_t` -/
structure TunnelIface where
  ifaceIndex : U32
  iboPort : U16
  protocol : U8
  role : U8
  numEntrances : U32
  entrances : Fin tranMaxZgcEntrances → ZgcEntrance

/-- `ipv4_flow_t` -/
structure Ipv4Flow where
  saddr : U32
  daddr : U32
  sport : U16
  dport : U16
  protocol : U8
  vni : Fin 3 → U8

/-- The flow record after `memset`. -/
def Ipv4Flow.zero : Ipv4Flow := ⟨0, 0, 0, 0, 0, fun _ => 0⟩

namespace SgCidrKey

/-- The 16 data bytes of a key, in memory order. -/
def data (k : SgCidrKey) : Bytes :=
  le32 k.vni ++ (le16 k.port ++ ([k.direction, k.protocol] ++ (le32 k.srcIp ++ le32 k.dstIp)))

/-- The 128 data bits of a key, as the trie compares them. -/
def bits (k : SgCidrKey) : List Bool := Lpm.bits k.data

@[simp] theorem length_data (k : SgCidrKey) : k.data.length = 16 := by
  simp [data, le32, le16]

@[simp] theorem length_bits (k : SgCidrKey) : k.bits.length = 128 := by
  simp [bits]

end SgCidrKey

/-! ## Maps -/

/-- Slots of the tail-call table, `enum trn_xdp_prog_id_t`. -/
inductive Prog
  | transit | tx | pass | redirect | drop
  deriving DecidableEq

/-- What a program returns: `enum xdp_action`, and `EP_NOT_FOUND` between the functions of
`trn_transit_xdp.c`. -/
inductive XdpAction
  | aborted | drop | pass | tx | redirect | epNotFound
  deriving DecidableEq

/-- The content of the maps of `trn_transit_xdp_maps.h` that the program reads. -/
structure Maps where
  ifConfigMap : U32 → Option TunnelIface
  endpointsMap : EndpointKey → Option Endpoint
  sgCidrMap : Lpm.Trie SecurityGroup
  xsksMap : U32 → Bool
  jmpTable : Prog → Bool

/-- `bpf_map_lookup_elem(&sg_cidr_map, &sgkey)` -/
def Maps.sgCidrLookup (m : Maps) (k : SgCidrKey) : Option SecurityGroup :=
  Lpm.lookup m.sgCidrMap k.bits k.prefixlen

/-- `struct xdp_md`: the received frame and where it came from. -/
structure XdpMd where
  data : Bytes
  ingressIfindex : U32
  rxQueueIndex : U32

end ArionDp
