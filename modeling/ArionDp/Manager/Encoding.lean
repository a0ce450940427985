import ArionDp.Manager.Endpoint
import ArionDp.Xdp.SecurityGroup

/-!
# One encoding of an endpoint

The path of an endpoint from the texts of a request to the packet that is looked up: Python
integers, JSON numbers, the batch parser, the words of the message, the map of the node and the load
from the inner header.

* `EndpointSpec.Names`: the packets that an endpoint is for, in octets;
* **`names_iff`**: the key that `trn_process_inner_ip` looks up names exactly these;
* **`endpoint_encoding`**: control plane and data plane agree on every endpoint.
-/

namespace ArionDp

open Wire Inet

/-- The configuration of `get-ep` and `delete-ep`. -/
def keyConf (vni : ℤ) (ip : Text) : Json ℤ :=
  .obj [("vni".toList, .num vni), ("ip".toList, .str ip)]

/-- **The packets of an endpoint**: the three VNI bytes at offset `o` of the tunnel header, and the
four destination bytes of the inner IPv4 header. -/
def EndpointSpec.Names (s : EndpointSpec) (pkt : TransitPacket) (o : ℕ) : Prop :=
  octetsNat [rd pkt.data o, rd pkt.data (o + 1), rd pkt.data (o + 2)] = s.vni ∧
    ∀ k : Fin 4, rd pkt.data (pkt.innerEth + 30 + k) = s.ip k

/-- `trn_process_inner_ip` has a whole inner IPv4 header, and the VNI is from the tunnel header. -/
structure InnerIpCall (pkt : TransitPacket) (o : ℕ) : Prop where
  vni : pkt.vni = trnGetVni pkt.data o
  len : pkt.innerEth + 34 ≤ pkt.data.length

/-- The packet as `trn_sg_check` sees it. -/
abbrev TransitPacket.atInnerIp (pkt : TransitPacket) : TransitPacket :=
  { pkt with innerIp := pkt.innerEth + sizeofEthhdr }

theorem toNat_trnGetVni (p : Bytes) (o : ℕ) :
    (trnGetVni p o).toNat = octetsNat [rd p o, rd p (o + 1), rd p (o + 2)] := by
  have h0 := (rd p o).isLt
  have h1 := (rd p (o + 1)).isLt
  have h2 := (rd p (o + 2)).isLt
  have hw : ∀ b : U8, (b.setWidth 32 : U32).toNat = b.toNat := fun b => by
    rw [BitVec.toNat_setWidth, Nat.mod_eq_of_lt (b.isLt.trans (by norm_num))]
  have hs : ∀ b : U8, ∀ n ≤ 16, ((b.setWidth 32 : U32) <<< n).toNat = b.toNat <<< n := by
    intro b n hn
    have hb := b.isLt
    have hp : 2 ^ n ≤ 2 ^ 16 := Nat.pow_le_pow_right (by omega) hn
    have hm : b.toNat * 2 ^ n < 2 ^ 32 := by
      calc b.toNat * 2 ^ n ≤ 255 * 2 ^ 16 := Nat.mul_le_mul (by omega) hp
        _ < 2 ^ 32 := by norm_num
    rw [BitVec.toNat_shiftLeft, hw, Nat.shiftLeft_eq, Nat.mod_eq_of_lt hm]
  rw [trnGetVni, BitVec.toNat_or, BitVec.toNat_or, hs _ 16 (by omega), hs _ 8 (by omega), hw]
  have h8 : (rd p (o + 1)).toNat <<< 8 < 2 ^ 16 := by
    rw [Nat.shiftLeft_eq]
    omega
  rw [← Nat.shiftLeft_add_eq_or_of_lt h8, Nat.shiftLeft_eq, Nat.shiftLeft_eq]
  have hv : (rd p o).toNat * 2 ^ 16 + (rd p (o + 1)).toNat * 2 ^ 8 =
      ((rd p o).toNat * 256 + (rd p (o + 1)).toNat) <<< 8 := by
    rw [Nat.shiftLeft_eq]
    ring
  rw [hv, ← Nat.shiftLeft_add_eq_or_of_lt (show (rd p (o + 2)).toNat < 2 ^ 8 by omega),
    Nat.shiftLeft_eq]
  simp [octetsNat]

/-- **The lookup of `trn_process_inner_ip` is for the endpoint's key exactly for its packets.** -/
theorem names_iff (s : EndpointSpec) {pkt : TransitPacket} {o : ℕ} (h : InnerIpCall pkt o) :
    ipEndpointKey pkt.atInnerIp = s.trnEp.key ↔ s.Names pkt o := by
  have hip : ld32 pkt.data (pkt.innerEth + 30) = networkWord s.ip ↔
      ∀ k : Fin 4, rd pkt.data (pkt.innerEth + 30 + k) = s.ip k := by
    constructor
    · intro he k
      rw [← byte_ld32 _ _ k.isLt, he, byte_networkWord]
    · intro he
      exact eq_networkWord fun k => (byte_ld32 _ _ k.isLt).trans (he k)
  have hvni : pkt.vni = BitVec.ofNat 32 s.vni ↔
      octetsNat [rd pkt.data o, rd pkt.data (o + 1), rd pkt.data (o + 2)] = s.vni := by
    rw [h.vni, ← toNat_trnGetVni]
    constructor
    · intro he
      rw [he]
      exact s.toNat_vni
    · intro he
      rw [← he, BitVec.ofNat_toNat, BitVec.setWidth_eq]
  rw [EndpointSpec.Names, ← hip, ← hvni]
  exact EndpointKey.mk.injEq .. ▸ Iff.rfl

/-! ## Lookups -/

section Lookup

variable (C : TailConf) (m : Maps) {pkt : TransitPacket} {o : ℕ} (h : InnerIpCall pkt o)

include h

theorem trnProcessInnerIp_of_call :
    trnProcessInnerIp C m pkt = if (trnSgCheck m pkt.atInnerIp).1 ≠ .pass
      then trnSgCheck m pkt.atInnerIp
      else trnLookupEndpoint C m (trnSgCheck m pkt.atInnerIp).2 := by
  have hl := h.len
  have hlen : ¬ pkt.innerEth + 14 + 20 > pkt.data.length := by omega
  simp only [trnProcessInnerIp, sizeofEthhdr, sizeofIphdr, if_neg hlen]

/-- An admitted packet of the endpoint goes on with its entry. -/
theorem trnProcessInnerIp_of_names {s : EndpointSpec} {ep : Endpoint} (hn : s.Names pkt o)
    (he : m.endpointsMap s.trnEp.key = some ep)
    (hs : (trnSgCheck m pkt.atInnerIp).1 = .pass) :
    trnProcessInnerIp C m pkt = trnFlow C ep (trnSgCheck m pkt.atInnerIp).2 := by
  rw [trnProcessInnerIp_of_call C m h, if_neg (not_not.mpr hs)]
  exact (trnSgCheck_same m pkt.atInnerIp).trnLookupEndpoint_some C ((names_iff s h).2 hn ▸ he)

/-- Any other packet is treated as if the entry were another one, or none. -/
theorem trnProcessInnerIp_of_not_names {s : EndpointSpec} (hn : ¬ s.Names pkt o) {e : EndpointsMap}
    (he : ∀ k ≠ s.trnEp.key, e k = m.endpointsMap k) :
    trnProcessInnerIp C { m with endpointsMap := e } pkt = trnProcessInnerIp C m pkt := by
  have hk := he _ fun hc => hn ((names_iff s h).1 hc)
  rw [trnProcessInnerIp_of_call C m h, trnProcessInnerIp_of_call C _ h]
  change (if (trnSgCheck m pkt.atInnerIp).1 ≠ .pass then _ else
    trnLookupEndpoint C { m with endpointsMap := e } (trnSgCheck m pkt.atInnerIp).2) = _
  rw [(trnSgCheck_same m pkt.atInnerIp).trnLookupEndpoint_congr C hk]
  rfl

end Lookup

/-! ## Agreement -/

theorem trnCliParseEpKey_keyConf (num : JsonNumber) (s : EndpointSpec) :
    trnCliParseEpKey ((keyConf s.vni (dotted s.ip)).map num.read) = .ok s.trnEp.key := by
  have hv := s.vni_lt
  have hvni : trnCliParseJsonNumberU32 ((keyConf s.vni (dotted s.ip)).map num.read) "vni" =
      .ok (BitVec.ofNat 32 s.vni) := by
    rw [trnCliParseJsonNumberU32, cliNumber_map num (n := s.vni) (by omega) rfl]
    exact congrArg Except.ok (Json.cUInt_natCast 32 s.vni)
  rw [trnCliParseEpKey, hvni, trnCliParseJsonStrIp_dotted s.ip (by rw [Json.getObjectItem_map]; rfl)]
  rfl

/-- **Agreement on an endpoint** between its entry `e`, its place `key` in the map and the value `ep`
stored there. -/
structure EndpointAgreement (num : JsonNumber) (s : EndpointSpec) (e : EpRpc) (key : EndpointKey)
    (ep : Endpoint) : Prop where
  /-- The entry is stored, in whatever batch it is sent. -/
  stored : ∀ (pre post : List EndpointSpec) (m : EndpointsMap),
    pre.length + 1 + post.length ≤ tranMaxEpBatchSize →
    (∀ t ∈ post, ¬ (t.vni = s.vni ∧ t.ip = s.ip)) →
    ∃ m', trnRpcUpdateEp num (pre.map EndpointSpec.rpc ++ e :: post.map EndpointSpec.rpc) (some m) =
      some m' ∧ m' key = some ep
  /-- Packets of the endpoint find it. -/
  found : ∀ (C : TailConf) (m : Maps) (pkt : TransitPacket) (o : ℕ), InnerIpCall pkt o →
    m.endpointsMap key = some ep → s.Names pkt o → (trnSgCheck m pkt.atInnerIp).1 = .pass →
    trnProcessInnerIp C m pkt = trnFlow C ep (trnSgCheck m pkt.atInnerIp).2
  /-- No other packets do. -/
  others : ∀ (C : TailConf) (m : Maps) (pkt : TransitPacket) (o : ℕ), InnerIpCall pkt o →
    ¬ s.Names pkt o → ∀ e : EndpointsMap, (∀ k ≠ key, e k = m.endpointsMap k) →
    trnProcessInnerIp C { m with endpointsMap := e } pkt = trnProcessInnerIp C m pkt
  /-- The stored bytes are the octets in written order. -/
  hip : le32 ep.hip = List.ofFn s.hip
  mac : List.ofFn ep.mac = List.ofFn s.mac
  hmac : List.ofFn ep.hmac = List.ofFn s.hmac
  /-- The key made from the dotted string is the same one. -/
  parsedKey : trnCliParseEpKey ((keyConf s.vni (dotted s.ip)).map num.read) = .ok key
  getEp : ∀ m : EndpointsMap, m key = some ep →
    trnCliGetEpSubcmd ((keyConf s.vni (dotted s.ip)).map num.read) (some m) = some ⟨key, ep⟩
  deleteEp : ∀ m : EndpointsMap, m key = some ep →
    trnCliDeleteEpSubcmd ((keyConf s.vni (dotted s.ip)).map num.read) (some m) =
      (true, some (trnDeleteEndpoint m key))

/-- **Control plane and data plane agree on the encoding of every endpoint.** -/
theorem endpoint_encoding (num : JsonNumber) (s : EndpointSpec) {vni : Option PyScalar}
    {mac hmac : Text} (hv : PyScalar.toInt vni = .ok (s.vni : ℤ)) (hm : MacText s.mac mac)
    (hh : MacText s.hmac hmac) :
    ∃ e key ep, epRpc vni (dotted s.ip) (dotted s.hip) mac hmac = .ok e ∧
      EndpointAgreement num s e key ep := by
  have hkey := trnCliParseEpKey_keyConf num s
  refine ⟨s.rpc, s.trnEp.key, s.trnEp.val, epRpc_spec s hv hm hh, ?_, ?_, ?_, ?_, rfl, rfl, hkey,
    ?_, ?_⟩
  · intro pre post m hl hpost
    have hlen : (pre ++ s :: post).length ≤ tranMaxEpBatchSize := by
      rw [List.length_append, List.length_cons]
      omega
    have hbatch := trnRpcUpdateEp_specs num (pre ++ s :: post) hlen m
    rw [List.map_append, List.map_cons, List.map_append, List.map_cons] at hbatch
    refine ⟨_, hbatch, updateEndpoints_apply m _ _ _ ?_⟩
    intro e' he' hk
    obtain ⟨t, ht, rfl⟩ := List.mem_map.1 he'
    exact hpost t ht ((t.key_eq_iff s).1 hk)
  · intro C m pkt o hc he hn hs
    exact trnProcessInnerIp_of_names C m hc hn he hs
  · intro C m pkt o hc hn e he
    exact trnProcessInnerIp_of_not_names C m hc hn he
  · have hb : ∀ k : Fin 4, byte s.trnEp.val.hip k = s.hip k := byte_networkWord s.hip
    rw [le32]
    exact congrArg₂ _ (hb 0) (congrArg₂ _ (hb 1) (congrArg₂ _ (hb 2) (congrArg₂ _ (hb 3) rfl)))
  · intro m he
    rw [trnCliGetEpSubcmd, hkey]
    change (m s.trnEp.key).map _ = _
    rw [he]
    rfl
  · intro m he
    rw [trnCliDeleteEpSubcmd, hkey]
    simp only [deleteEp1Svc, he]
    rfl

/-- The endpoint 10.10.0.92 of VNI 888, on host 172.16.17.73. -/
def sampleEndpoint : EndpointSpec where
  vni := 888
  ip := ![10, 10, 0, 92]
  hip := ![172, 16, 17, 73]
  mac := ![0xcc, 0xdd, 0xee, 0xff, 0x11, 0x22]
  hmac := ![0x48, 0x7b, 0x6b, 0xb9, 0xe2, 0x9a]
  vni_lt := by decide

/-- The sample endpoint, written as a request has it. -/
theorem endpoint_encoding_sample :
    ∃ e key ep, epRpc (some (.str "888".toList)) (dotted sampleEndpoint.ip)
        (dotted sampleEndpoint.hip) "cc:DD:ee:ff:11:22".toList "48:7b:6b:b9:e2:9a".toList = .ok e ∧
      EndpointAgreement .cast sampleEndpoint e key ep := by
  refine endpoint_encoding .cast sampleEndpoint (by decide)
    ⟨![['c', 'c'], ['D', 'D'], ['e', 'e'], ['f', 'f'], ['1', '1'], ['2', '2']], by decide, by decide⟩
    ⟨![['4', '8'], ['7', 'b'], ['6', 'b'], ['b', '9'], ['e', '2'], ['9', 'a']], by decide, by decide⟩

end ArionDp
