import ArionDp.Manager.ItfConf
import ArionDp.Manager.NodesRun
import ArionDp.Xdp.Rewrite
import ArionDp.Xdp.Transit

/-!
# Entrances end to end

From the gateways of a droplet, through the configuration and the daemon, to the entrance that the
transit program selects for a frame.

* `gateway`, **`gateway_denotes`**: the address of a gateway in text, and the octets it is stored as;
* **`trnFindEntrance_shows`**: the scan finds the one entrance with the frame's destination MAC address;
* **`entrance_selection`**: frames with the MAC and IP address of one gateway pass, those of two are
  aborted.
-/

namespace ArionDp

open Wire Inet PyText Py

/-! ## Gateways -/

theorem dotted_inj {o o' : Fin 4 → U8} (h : dotted o = dotted o') : o = o' := by
  have h1 := ipToInt_dotted o
  rw [h, ipToInt_dotted, Except.ok.injEq] at h1
  have h2 : octetsNat (List.ofFn o') = octetsNat (List.ofFn o) := by exact_mod_cast h1
  rw [← octets_octetsNat o, ← octets_octetsNat o', h2]

theorem networkWord_inj {o o' : Fin 4 → U8} (h : networkWord o = networkWord o') : o = o' :=
  funext fun k => by rw [← byte_networkWord o k, h, byte_networkWord]

theorem MacText.unique {o o' : Mac} {s : Text} (h : MacText o s) (h' : MacText o' s) : o = o' := by
  have h1 := macToInt_of_macText h
  rw [macToInt_of_macText h', Except.ok.injEq] at h1
  have h2 : octetsNat (List.ofFn o') = octetsNat (List.ofFn o) := by exact_mod_cast h1
  rw [← octets_octetsNat o, ← octets_octetsNat o', h2]

/-- The MAC address that `get_mac_from_ip` makes of an address. -/
def gatewayMac (mp : MacPrivate) (q : Fin 4 → U8) : Mac := octets 6 (mp.val + octetsNat (List.ofFn q))

/-- A gateway of the manager. -/
def gateway (mp : MacPrivate) (q : Fin 4 → U8) : GwAddr :=
  ⟨dotted q, intToMac ((mp.val + octetsNat (List.ofFn q) : ℕ) : ℤ)⟩

/-- An entrance of the daemon. -/
def gatewayAddr (mp : MacPrivate) (q : Fin 4 → U8) : RpcAddr := ⟨networkWord q, gatewayMac mp q⟩

section Gateway

variable (mp : MacPrivate)

theorem getMacFromIp_dotted (q : Fin 4 → U8) :
    getMacFromIp mp.val (dotted q) = .ok (gateway mp q).mac := by
  have hq : octetsNat (List.ofFn q) < 2 ^ 32 := octetsNat_lt q
  rw [getMacFromIp, ipToInt_dotted, gateway, ← pyOr_macPrivate mp hq]
  rfl

theorem gateway_macText (q : Fin 4 → U8) : MacText (gatewayMac mp q) (gateway mp q).mac :=
  macText_intToMac (macPrivate_add_lt mp (octetsNat_lt q))

/-- **A gateway in text denotes what the daemon stores.** -/
theorem gateway_denotes (q : Fin 4 → U8) : Denotes (gatewayAddr mp q) (gateway mp q) :=
  ⟨gateway_macText mp q, q, rfl, rfl⟩

/-- Gateways with the same MAC address are the same. -/
theorem gatewayMac_inj {q q' : Fin 4 → U8} (h : gatewayMac mp q = gatewayMac mp q') : q = q' := by
  have h1 := congrArg (fun o => octetsNat (List.ofFn o)) h
  have hq : mp.val + octetsNat (List.ofFn q) < 256 ^ 6 := macPrivate_add_lt mp (octetsNat_lt q)
  have hq' : mp.val + octetsNat (List.ofFn q') < 256 ^ 6 := macPrivate_add_lt mp (octetsNat_lt q')
  dsimp only [gatewayMac] at h1
  rw [octetsNat_octets hq, octetsNat_octets hq'] at h1
  rw [← octets_octetsNat q, ← octets_octetsNat q', Nat.add_left_cancel h1]

/-- MAC addresses made from the addresses of gateways. -/
theorem macs_eq_gateways {quads : List (Fin 4 → U8)} {macs : List Text}
    (h : (quads.map dotted).map (getMacFromIp mp.val) = macs.map .ok) :
    macs = quads.map fun q => (gateway mp q).mac := by
  rw [List.map_map] at h
  refine List.map_injective_iff.2 (fun _ _ he => Except.ok.inj he) (h.symm.trans ?_)
  rw [List.map_map]
  exact List.map_congr_left fun q _ => getMacFromIp_dotted mp q

theorem forall₂_gateways (quads : List (Fin 4 → U8)) :
    List.Forall₂ Denotes (quads.map (gatewayAddr mp)) (quads.map (gateway mp)) := by
  rw [List.forall₂_map_left_iff, List.forall₂_map_right_iff]
  exact List.forall₂_same.2 fun q _ => gateway_denotes mp q

end Gateway

/-! ## Frames -/

/-- An IPv4 frame with complete Ethernet and IPv4 headers. -/
structure Ipv4Frame (p : Bytes) : Prop where
  complete : sizeofEthhdr + sizeofIphdr ≤ p.length
  proto : ld16 p 12 = bpfHtons ethPIp

/-- The destination address of the packet in a frame. -/
def dstIp (p : Bytes) : Fin 4 → U8 := fun k => rd p (sizeofEthhdr + 16 + k)

/-- The address check of `trn_process_ip`. -/
def AddressCheck (pkt : TransitPacket) : Prop :=
  ld32 pkt.data (pkt.eth + sizeofEthhdr + 16) = (pkt.itf.entrances pkt.entIdx).ip

/-- The frame selects the entrance of the interface and passes the address check there, with or without
the trailer that the program makes room for. -/
def SelectsEntrance (C : TailConf) (maps : Maps) (ifindex : U32) (p : Bytes) (j : ℕ) : Prop :=
  ∃ itf, maps.ifConfigMap ifindex = some itf ∧ ∃ k : Fin tranMaxZgcEntrances, k.1 = j ∧
    ∀ (t : Bytes) (b : Bool), let pkt := { TransitPacket.start (p ++ t) itf b with entIdx := k }
      trnProcessEth C maps (.start (p ++ t) itf b) = trnProcessIp C maps pkt ∧ AddressCheck pkt

theorem rd_append_left {p t : Bytes} {k : ℕ} (h : k < p.length) : rd (p ++ t) k = rd p k :=
  List.getD_append _ _ _ _ h

section Frames

variable {p : Bytes} (hp : Ipv4Frame p)

include hp

/-- What is behind the headers does not matter. -/
theorem Ipv4Frame.append (t : Bytes) : Ipv4Frame (p ++ t) ∧ dstMac (p ++ t) = dstMac p ∧
    dstIp (p ++ t) = dstIp p := by
  have hlen : 34 ≤ p.length := hp.complete
  refine ⟨⟨?_, ?_⟩, funext fun k => rd_append_left (by omega), funext fun k => rd_append_left ?_⟩
  · rw [List.length_append]
    exact hp.complete.trans (Nat.le_add_right _ _)
  · rw [← hp.proto, ld16, ld16, rd_append_left (by omega), rd_append_left (by omega)]
  · change 14 + 16 + k.1 < _
    omega

omit hp in
theorem ld32_dstIp (p : Bytes) : ld32 p (sizeofEthhdr + 16) = networkWord (dstIp p) :=
  eq_networkWord fun k => byte_ld32 p _ k.isLt

end Frames

/-! ## The scan -/

section Scan

variable {itf : TunnelIface} {gws : List GwAddr} (h : Shows itf gws)
  (hl : gws.length ≤ tranMaxZgcEntrances) {p : Bytes}

include h

/-- **The scan finds the entrance with the destination MAC address of the frame**, if there is one. -/
theorem trnFindEntrance_shows {j : Fin tranMaxZgcEntrances} (hj : j.1 < gws.length)
    (hmac : MacText (dstMac p) gws[j.1].mac)
    (honly : ∀ (i : ℕ) (hi : i < gws.length), MacText (dstMac p) gws[i].mac → i = j.1) :
    trnFindEntrance itf p 0 = some j := by
  have hsel : ∀ i : Fin tranMaxZgcEntrances, (decide (i.1 < itf.numEntrances.toNat) &&
      trnIsMacEqual p 0 (itf.entrances i).mac) = true ↔ i = j := by
    intro i
    rw [Bool.and_eq_true, decide_eq_true_iff, trnIsMacEqual_iff, h.1]
    constructor
    · rintro ⟨hi, he⟩
      refine Fin.ext (honly i.1 hi ?_)
      rw [he]
      exact (h.2 i hi).1
    · rintro rfl
      exact ⟨hj, hmac.unique (h.2 i hj).1⟩
  unfold trnFindEntrance
  cases hf : (List.finRange tranMaxZgcEntrances).find? fun i =>
      decide (i.1 < itf.numEntrances.toNat) && trnIsMacEqual p 0 (itf.entrances i).mac with
  | none => exact absurd ((hsel j).2 rfl) (List.find?_eq_none.1 hf j (List.mem_finRange j))
  | some i =>
    have hi := List.find?_some hf
    rw [(hsel i).1 hi]

/-- The address of an entrance. -/
theorem Shows.entrance_ip {j : Fin tranMaxZgcEntrances} (hj : j.1 < gws.length) {o : Fin 4 → U8}
    (ho : gws[j.1].ip = dotted o) : (itf.entrances j).ip = networkWord o := by
  obtain ⟨-, o', ho', hip⟩ := h.2 j hj
  rw [dotted_inj (ho.symm.trans ho')]
  exact hip

end Scan

/-- The way of a frame to its entrance. -/
theorem trnProcessEth_entrance (C : TailConf) (m : Maps) {p : Bytes} (hp : Ipv4Frame p)
    {itf : TunnelIface} {j : Fin tranMaxZgcEntrances} (hj : trnFindEntrance itf p 0 = some j) (b : Bool) :
    trnProcessEth C m (.start p itf b) =
      trnProcessIp C m { TransitPacket.start p itf b with entIdx := j } := by
  have hlen : ¬ sizeofEthhdr > p.length := by
    have := hp.complete
    omega
  rw [trnProcessEth]
  simp only [TransitPacket.start, Nat.zero_add, if_neg hlen, hp.proto, ne_eq, not_true, if_false, hj]

/-- A frame for another address than the entrance's is aborted. -/
theorem trnProcessIp_aborted (C : TailConf) (m : Maps) {pkt : TransitPacket} (h : ¬ AddressCheck pkt) :
    (trnProcessIp C m pkt).1 = .aborted := by
  rw [trnProcessIp]
  dsimp only
  split_ifs with h1 h2
  · rfl
  · rfl
  all_goals exact absurd (not_not.1 h2) h

theorem transit_aborted {C : TailConf} {m : Maps} {p : Bytes} {ifindex : U32} {itf : TunnelIface}
    (hitf : m.ifConfigMap ifindex = some itf)
    (h : ∀ t b, (trnProcessEth C m (.start (p ++ t) itf b)).1 = .aborted) (q : U32) :
    (transit C m ⟨p, ifindex, q⟩).verdict = .aborted := by
  have hdata : ∀ c : Bool, (if c then p ++ List.replicate sizeofXdpHintsSrc 0 else p) =
      p ++ if c then List.replicate sizeofXdpHintsSrc 0 else [] := by
    intro c
    cases c
    · exact (List.append_nil p).symm
    · rfl
  simp only [transit, hitf, hdata, h, transitExit]

/-! ## From the manager to the program -/

section Installed

variable {mp : MacPrivate} {quads : List (Fin 4 → U8)} (hn : quads.Nodup)
  (hl : quads.length ≤ tranMaxZgcEntrances) {itf : TunnelIface}
  (h : Shows itf (quads.map (gateway mp))) {p : Bytes} {i : ℕ} (hi : i < quads.length)

include hn hl h

/-- A frame with the MAC address of a gateway selects its entrance. -/
theorem entrance_of_mac (hmac : MacText (dstMac p) (gateway mp quads[i]).mac) :
    trnFindEntrance itf p 0 = some ⟨i, hi.trans_le hl⟩ := by
  refine trnFindEntrance_shows h (j := ⟨i, hi.trans_le hl⟩) (by rwa [List.length_map]) ?_ ?_
  · rwa [List.getElem_map]
  · intro i' hi' hmac'
    rw [List.getElem_map] at hmac'
    rw [List.length_map] at hi'
    have heq : gatewayMac mp quads[i'] = gatewayMac mp quads[i] :=
      ((gateway_macText mp _).unique hmac').trans (hmac.unique (gateway_macText mp _))
    exact (List.Nodup.getElem_inj_iff hn).1 (gatewayMac_inj mp heq)

omit hn in
theorem entrance_ip : (itf.entrances ⟨i, hi.trans_le hl⟩).ip = networkWord quads[i] := by
  have hi' : i < (quads.map (gateway mp)).length := by rwa [List.length_map]
  refine h.entrance_ip (j := ⟨i, hi.trans_le hl⟩) hi' ?_
  rw [List.getElem_map]
  rfl

/-- **A frame for two gateways**: it selects the entrance of both, if they are the same one, and is aborted
otherwise. -/
theorem selects_or_aborted {C : TailConf} {maps : Maps} {ifindex : U32}
    (hentry : maps.ifConfigMap ifindex = some itf) (hp : Ipv4Frame p) {j : ℕ} (hj : j < quads.length)
    (hmac : MacText (dstMac p) (gateway mp quads[i]).mac) (hip : dstIp p = quads[j]) :
    (i = j → SelectsEntrance C maps ifindex p j) ∧
      (i ≠ j → ∀ q, (transit C maps ⟨p, ifindex, q⟩).verdict = .aborted) := by
  have hfind : ∀ t, trnFindEntrance itf (p ++ t) 0 = some ⟨i, hi.trans_le hl⟩ := fun t =>
    entrance_of_mac hn hl h hi ((hp.append t).2.1 ▸ hmac)
  have hcheck : ∀ t b, AddressCheck
      { TransitPacket.start (p ++ t) itf b with entIdx := ⟨i, hi.trans_le hl⟩ } ↔ i = j := by
    intro t b
    change ld32 (p ++ t) (0 + sizeofEthhdr + 16) = (itf.entrances ⟨i, hi.trans_le hl⟩).ip ↔ _
    rw [Nat.zero_add, ld32_dstIp, (hp.append t).2.2, hip, entrance_ip hl h hi]
    constructor
    · exact fun he => ((List.Nodup.getElem_inj_iff hn).1 (networkWord_inj he)).symm
    · rintro rfl
      rfl
  refine ⟨?_, fun hij q => ?_⟩
  · rintro rfl
    exact ⟨itf, hentry, ⟨i, hi.trans_le hl⟩, rfl, fun t b =>
      ⟨trnProcessEth_entrance C maps (hp.append t).1 (hfind t) b, (hcheck t b).2 rfl⟩⟩
  · refine transit_aborted hentry (fun t b => ?_) q
    rw [trnProcessEth_entrance C maps (hp.append t).1 (hfind t) b]
    exact trnProcessIp_aborted C maps fun hc => hij ((hcheck t b).1 hc)

end Installed

/-- **Entrance selection end to end.** A droplet with at most 128 different gateways, each with the
MAC address made from its IP address, is sent to a node. The node installs it if the array of interfaces
has the index. Where it does, a frame with the destination MAC and IP address of one gateway selects that
entrance and passes the address check, and a frame with the MAC address of one and the IP address of
another is aborted. -/
theorem entrance_selection (mp : MacPrivate) (quads : List (Fin 4 → U8)) (hn : quads.Nodup)
    (hl : quads.length ≤ tranMaxZgcEntrances) (macs : List Text)
    (hmacs : (quads.map dotted).map (getMacFromIp mp.val) = macs.map .ok) (spec : DropletSpec)
    (hspec : spec.ip = quads.map dotted ∧ spec.mac = macs) (nodeIp : Text) (w : World)
    (num : JsonNumber) (d : Transitd) (eth : TrnIface) (hd : trnGetItfContext d spec.itf = some eth)
    (stack : Fin tranMaxZgcEntrances → ZgcEntrance) (m : IfConfigMap) :
    ∃ conf, dropletUpdateItfConfig nodeIp spec w =
        (.ok (), { w with itfConfs := w.itfConfs ++ [(nodeIp, conf)] }) ∧
      (quads ≠ [] → ((∃ m', trnRpcUpdateDroplet num conf d stack (some m) = (true, some m')) ↔
        eth.ifaceIndex.toNat < tranMaxItf)) ∧
      ∀ m', trnRpcUpdateDroplet num conf d stack (some m) = (true, some m') →
        ∀ (C : TailConf) (maps : Maps), maps.ifConfigMap = m'.content → ∀ p, Ipv4Frame p →
        ∀ (i j : ℕ) (hi : i < macs.length) (hj : j < quads.length), MacText (dstMac p) macs[i] →
          dstIp p = quads[j] →
            (i = j → SelectsEntrance C maps eth.ifaceIndex p j) ∧
            (i ≠ j → ∀ q, (transit C maps ⟨p, eth.ifaceIndex, q⟩).verdict = .aborted) := by
  obtain ⟨hip, hmac⟩ := hspec
  obtain rfl := macs_eq_gateways mp hmacs
  have hz : zipAddrs spec.ip spec.mac = .ok (quads.map (gateway mp)) := by
    have hzip := zipAddrs_map (quads.map (gateway mp))
    rw [List.map_map, List.map_map] at hzip
    rw [hip, hmac]
    exact hzip
  have hrun := dropletUpdateItfConfig_run (w := w) hz nodeIp
  by_cases hnil : quads = []
  · subst hnil
    rw [World.sent, hip] at hrun
    refine ⟨_, hrun, fun hne => absurd rfl hne, fun m' _ C maps _ p _ i j _ hj => ?_⟩
    exact absurd hj (Nat.not_lt_zero j)
  · have hne : spec.ip ≠ [] := fun hc => hnil (List.map_eq_nil_iff.1 (hip.symm.trans hc))
    have hlen : spec.ip.length = (quads.map (gateway mp)).length := by
      rw [hip, List.length_map, List.length_map]
    rw [World.sent, if_neg hne, hlen] at hrun
    have hshort : (quads.map (gateway mp)).length ≤ tranMaxZgcEntrances := by rwa [List.length_map]
    by_cases hindex : eth.ifaceIndex.toNat < tranMaxItf
    · obtain ⟨itf, m₁, hshows, hlook, hupd⟩ :=
        trnRpcUpdateDroplet_shows num (forall₂_gateways mp quads) hshort hd hindex stack m
      refine ⟨_, hrun, fun _ => iff_of_true ⟨m₁, hupd⟩ hindex, fun m' hm' => ?_⟩
      obtain rfl : m₁ = m' := Option.some.inj (congrArg Prod.snd (hupd.symm.trans hm'))
      intro C maps hmaps p hp i j hi hj hmaci hipj
      rw [List.length_map] at hi
      rw [List.getElem_map] at hmaci
      have hentry : maps.ifConfigMap eth.ifaceIndex = some itf := by
        rw [hmaps, IfConfigMap.content, hlook]
        exact Function.update_self ..
      exact selects_or_aborted hn hl hshows hi hentry hp hj hmaci hipj
    · have hupd := trnRpcUpdateDroplet_refused num (forall₂_gateways mp quads) hshort hd (not_lt.1 hindex) stack m
      have hnone : ∀ m', trnRpcUpdateDroplet num ⟨some spec.itf, (quads.map (gateway mp)).length,
          quads.map (gateway mp)⟩ d stack (some m) ≠ (true, some m') := fun m' hm' =>
        absurd (congrArg Prod.fst (hupd.symm.trans hm')) Bool.false_ne_true
      exact ⟨_, hrun, fun _ => iff_of_false (fun ⟨m', hm'⟩ => hnone m' hm') hindex,
        fun m' hm' => absurd hm' (hnone m')⟩

/-! ## Samples -/

/-- A daemon that has loaded the program on `eth1` and `eth2`. -/
def twoItfs : Transitd where
  ifNametoindex t := if t = "eth1".toList then 1 else if t = "eth2".toList then 2 else 0
  md := some ![⟨1, 8300, 0, xdpFwd⟩, ⟨2, 8300, 0, xdpFtn⟩]

/-- A UDP frame to a MAC address and an address. -/
def udpFrame (mac : Mac) (o : Fin 4 → U8) : Bytes :=
  List.ofFn mac ++ [2, 0, 0, 0, 0, 9, 8, 0, 0x45, 0, 0, 28, 0, 0, 0, 0, 64, 17, 0, 0, 10, 0, 0, 9] ++
    List.ofFn o ++ [0, 0, 0, 0, 0, 0, 0, 0]

theorem udpFrame_spec (mac : Mac) (o : Fin 4 → U8) :
    Ipv4Frame (udpFrame mac o) ∧ dstMac (udpFrame mac o) = mac ∧ dstIp (udpFrame mac o) = o := by
  refine ⟨⟨?_, ?_⟩, funext fun ⟨k, hk⟩ => ?_, funext fun ⟨k, hk⟩ => ?_⟩
  · simp [udpFrame, sizeofEthhdr, sizeofIphdr]
  · rfl
  · interval_cases k <;> rfl
  · interval_cases k <;> rfl

/-- A droplet with the gateways 10.0.0.1 and 10.0.0.2. -/
def twoGateways : DropletSpec where
  ip := [dotted ![10, 0, 0, 1], dotted ![10, 0, 0, 2]]
  mac := [(gateway .default ![10, 0, 0, 1]).mac, (gateway .default ![10, 0, 0, 2]).mac]
  status := []
  itf := "eth1".toList
  network := []
  zgcId := []

/-- A frame for the second gateway selects its entrance, and one with its address and the MAC address
of the first one is aborted. -/
theorem entrance_selection_sample : ∃ conf m',
    trnRpcUpdateDroplet .cast conf twoItfs (fun _ => ⟨0, 0, fun _ => 0⟩) (some .new) = (true, some m') ∧
    let maps : Maps := ⟨m'.content, fun _ => none, fun _ => none, fun _ => false, fun _ => false⟩
    SelectsEntrance .compiled maps 1 (udpFrame (gatewayMac .default ![10, 0, 0, 2]) ![10, 0, 0, 2]) 1 ∧
    (transit .compiled maps ⟨udpFrame (gatewayMac .default ![10, 0, 0, 1]) ![10, 0, 0, 2], 1, 0⟩).verdict
      = .aborted := by
  obtain ⟨conf, -, hiff, hframes⟩ := entrance_selection .default [![10, 0, 0, 1], ![10, 0, 0, 2]]
    (by decide) (by decide) twoGateways.mac (by decide +kernel) twoGateways ⟨rfl, rfl⟩ []
    (.start ⟨[], [], []⟩ (.int 0)) .cast twoItfs ⟨1, 8300, 0, xdpFwd⟩ rfl (fun _ => ⟨0, 0, fun _ => 0⟩)
    .new
  obtain ⟨m', hm'⟩ := (hiff (List.cons_ne_nil _ _)).2 (by decide)
  have hframe := fun q => hframes m' hm' .compiled
    ⟨m'.content, fun _ => none, fun _ => none, fun _ => false, fun _ => false⟩ rfl
    (udpFrame (gatewayMac .default q) ![10, 0, 0, 2]) (udpFrame_spec _ _).1
  have hmac : ∀ q, MacText (dstMac (udpFrame (gatewayMac .default q) ![10, 0, 0, 2]))
      (gateway .default q).mac := by
    intro q
    rw [(udpFrame_spec _ _).2.1]
    exact gateway_macText .default q
  have hip := fun q => (udpFrame_spec (gatewayMac .default q) ![10, 0, 0, 2]).2.2
  refine ⟨conf, m', hm', ?_, ?_⟩
  · exact (hframe ![10, 0, 0, 2] 1 1 (Nat.lt_add_one 1) (Nat.lt_add_one 1) (hmac _) (hip _)).1 rfl
  · exact (hframe ![10, 0, 0, 1] 0 1 Nat.two_pos (Nat.lt_add_one 1) (hmac _) (hip _)).2
      Nat.zero_ne_one 0

end ArionDp
