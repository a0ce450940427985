import ArionDp.Manager.PortsSpec

/-!
# Ports and their entries

What the database says of a port's entry on the nodes.

* `portKey`, `portMac`: the key and the MAC address of a port's entry;
* `VniHeld`: `vnis` has the VNI of a network's row;
* `Consistent`: the settings and the rows fit together, with **`Effect.consistent`**;
* **`Committed.port_entry`**: the entries of new ports are the ones that the database then says.
-/

namespace ArionDp

open PyText Py Wire Inet

/-! ## Keys -/

/-- The VNI of a network. -/
def World.vniOf (w : World) (vpcId : Text) : Option PyScalar :=
  (w.vpcs.find? fun r => r.vpcId = vpcId).map fun r => r.vni

/-- The first address of a port. -/
def World.firstIp (w : World) (portId : Text) : Option Text :=
  (w.epRows.find? fun e => e.portId = portId).map fun e => e.ip

section Keys

variable (num : JsonNumber)

/-- **The key of a port**: the VNI of its network and its first address, as nodes read them. -/
def portKey (w : World) (r : PortRow) : Option EndpointKey := do
  let vni ← (PyScalar.toInt (w.vniOf r.vpcId)).toOption
  let ip ← w.firstIp r.portId
  let ip ← (ipToInt ip).toOption
  pure (endpointKey num vni ip)

/-- The MAC address of a port, as nodes read it. -/
def portMac (r : PortRow) : Option Mac := (macToInt r.macPort).toOption.map (macOctets num)

theorem portKey_eq_some {w : World} {r : PortRow} {k : EndpointKey} :
    portKey num w r = some k ↔ ∃ vni ip ipint, PyScalar.toInt (w.vniOf r.vpcId) = .ok vni ∧
      w.firstIp r.portId = some ip ∧ ipToInt ip = .ok ipint ∧ endpointKey num vni ipint = k := by
  have hopt : ∀ {α : Type} (x : Except PyError α) (a : α), x.toOption = some a ↔ x = .ok a := by
    intro α x a
    cases x with
    | error e => exact ⟨(nomatch ·), (nomatch ·)⟩
    | ok b => exact ⟨fun h => congrArg _ (Option.some.inj h), fun h => by cases h; rfl⟩
  simp only [portKey, Option.bind_eq_bind, Option.bind_eq_some_iff, hopt, Option.pure_def,
    Option.some.injEq]
  constructor
  · rintro ⟨vni, hv, ip, hip, ipint, hi, hk⟩
    exact ⟨vni, ip, ipint, hv, hip, hi, hk⟩
  · rintro ⟨vni, ip, ipint, hv, hip, hi, hk⟩
    exact ⟨vni, hv, ip, hip, ipint, hi, hk⟩

/-- The key of a port with canonical data. -/
theorem portKey_spec (s : EndpointSpec) {w : World} {r : PortRow}
    (hv : PyScalar.toInt (w.vniOf r.vpcId) = .ok (s.vni : ℤ))
    (hip : w.firstIp r.portId = some (dotted s.ip)) : portKey num w r = some s.trnEp.key := by
  refine (portKey_eq_some num).2 ⟨_, _, _, hv, hip, ipToInt_dotted s.ip, ?_⟩
  exact congrArg TrnEp.key (trnEp_rpc num s)

/-- A key stays as long as the network and the first address do. -/
theorem portKey_mono {w w' : World} {r : PortRow}
    (hv : ∀ v, w.vniOf r.vpcId = some v → w'.vniOf r.vpcId = some v)
    (hip : ∀ ip, w.firstIp r.portId = some ip → w'.firstIp r.portId = some ip) {k : EndpointKey}
    (h : portKey num w r = some k) : portKey num w' r = some k := by
  obtain ⟨vni, ip, ipint, hvni, hfirst, hi, hk⟩ := (portKey_eq_some num).1 h
  refine (portKey_eq_some num).2 ⟨vni, ip, ipint, ?_, hip ip hfirst, hi, hk⟩
  cases hw : w.vniOf r.vpcId with
  | none =>
    rw [hw] at hvni
    cases hvni
  | some v => rwa [hv v hw, ← hw]

end Keys

/-! ## Rows that fit together -/

/-- `vnis` has a key for each network of the database, and no others. -/
def KeysOfRows (w : World) : Prop := ∀ v, (w.vnis v).isSome ↔ ∃ r ∈ w.vpcs, r.vpcId = v

/-- **The row of a network holds the VNI that `int` makes of the one in `vnis`.** -/
def VniHeld (w : World) (vpcId : Text) : Prop :=
  ∀ n, PyScalar.toInt (w.vnis vpcId) = .ok n → PyScalar.toInt (w.vniOf vpcId) = .ok n

/-- **A consistent state**: `vnis` has the networks of the database, ids of ports are unique, and
addresses belong to ports. -/
structure Consistent (w : World) : Prop where
  keys : KeysOfRows w
  ids : (w.ports.map fun r => r.portId).Nodup
  owned : ∀ e ∈ w.epRows, ∃ r ∈ w.ports, r.portId = e.portId

theorem Consistent.start (z : ZgcRow) (portIbo : PyScalar) : Consistent (.start z portIbo) :=
  ⟨fun _ => ⟨fun h => absurd h Bool.false_ne_true, fun ⟨_, h, _⟩ => absurd h List.not_mem_nil⟩,
    List.nodup_nil, fun _ h => absurd h List.not_mem_nil⟩

theorem Consistent.congr {w w' : World} (h : Consistent w) (hvnis : w'.vnis = w.vnis)
    (hvpcs : w'.vpcs = w.vpcs) (hports : w'.ports = w.ports) (hrows : w'.epRows = w.epRows) :
    Consistent w' where
  keys v := by
    rw [hvnis, hvpcs]
    exact h.keys v
  ids := hports ▸ h.ids
  owned := by rw [hports, hrows]; exact h.owned

section Networks

variable {w : World}

theorem isSome_vniOf {v : Text} : (w.vniOf v).isSome ↔ ∃ r ∈ w.vpcs, r.vpcId = v := by
  rw [World.vniOf, Option.isSome_map, List.find?_isSome]
  exact exists_congr fun r => and_congr_right fun _ => decide_eq_true_iff

/-- A network that is not in the database has no VNI. -/
theorem KeysOfRows.none (h : KeysOfRows w) {vpcId : Text} (hnew : ∀ r ∈ w.vpcs, r.vpcId ≠ vpcId) :
    w.vnis vpcId = none := by
  refine Option.not_isSome_iff_eq_none.1 fun hs => ?_
  obtain ⟨r, hr, hid⟩ := (h vpcId).1 hs
  exact hnew r hr hid

variable {b : NewVpc} (hnew : ∀ r ∈ w.vpcs, r.vpcId ≠ b.vpcId)

include hnew

theorem vniOf_withNetwork (zgcId : Text) (n : ℤ)
    (v : Text) : (w.withNetwork zgcId b n).vniOf v = if v = b.vpcId then some (.int n) else w.vniOf v := by
  unfold World.vniOf World.withNetwork
  dsimp only
  rw [List.find?_append, List.find?_singleton]
  split_ifs with h h' h'
  · have hnone : w.vpcs.find? (fun r => r.vpcId = v) = none :=
      List.find?_eq_none.2 fun r hr he => hnew r hr ((of_decide_eq_true he).trans h')
    rw [hnone]
    rfl
  · exact absurd (of_decide_eq_true h).symm h'
  · exact absurd (decide_eq_true h'.symm) h
  · rw [Option.or_none]

/-- A new network changes no other one. -/
theorem vniOf_withNetwork_of_eq_some (zgcId : Text) (n : ℤ) {vpcId : Text} {v : PyScalar}
    (hv : w.vniOf vpcId = some v) : (w.withNetwork zgcId b n).vniOf vpcId = some v := by
  rw [vniOf_withNetwork hnew, if_neg, hv]
  rintro rfl
  obtain ⟨r, hr, hid⟩ := isSome_vniOf.1 (Option.isSome_iff_exists.2 ⟨v, hv⟩)
  exact hnew r hr hid

theorem KeysOfRows.withNetwork (h : KeysOfRows w) (zgcId : Text) (n : ℤ) :
    KeysOfRows (w.withNetwork zgcId b n) := by
  intro v
  rw [← isSome_vniOf, vniOf_withNetwork hnew]
  change (if v = b.vpcId then some b.vni.cached else w.vnis v).isSome ↔ _
  split_ifs
  · exact Iff.rfl
  · exact (h v).trans isSome_vniOf.symm

theorem Consistent.withNetwork (h : Consistent w) (zgcId : Text) (n : ℤ) :
    Consistent (w.withNetwork zgcId b n) := ⟨h.keys.withNetwork hnew zgcId n, h.ids, h.owned⟩

/-- A new network changes nothing about the others, and its own VNI is held if the column keeps it. -/
theorem vniHeld_withNetwork (zgcId : Text) (n : ℤ) (vpcId : Text) :
    VniHeld (w.withNetwork zgcId b n) vpcId ↔
      if vpcId = b.vpcId then ∀ m, PyScalar.toInt (some b.vni.cached) = .ok m → m = n
      else VniHeld w vpcId := by
  unfold VniHeld
  rw [vniOf_withNetwork hnew]
  change (∀ m, PyScalar.toInt (if vpcId = b.vpcId then some b.vni.cached else w.vnis vpcId) = .ok m → _) ↔ _
  split_ifs
  · exact forall₂_congr fun m _ => ⟨fun he => (Except.ok.inj he).symm, fun he => congrArg _ he.symm⟩
  · exact Iff.rfl

end Networks

section Ports

variable {env : Env} {w w' : World} {portList : List PortBody}

theorem exists_of_forall₂ {α β : Type} {R : α → β → Prop} {l : List α} {l' : List β}
    (h : List.Forall₂ R l l') {b : β} (hb : b ∈ l') : ∃ a ∈ l, R a b := by
  induction h with
  | nil => exact absurd hb List.not_mem_nil
  | @cons a b' l l' hab _ ih =>
    rcases List.mem_cons.1 hb with rfl | hb
    · exact ⟨a, List.mem_cons_self .., hab⟩
    · obtain ⟨a', ha', hr⟩ := ih hb
      exact ⟨a', List.mem_cons_of_mem _ ha', hr⟩

theorem exists_of_forall₂' {α β : Type} {R : α → β → Prop} {l : List α} {l' : List β}
    (h : List.Forall₂ R l l') {a : α} (ha : a ∈ l) : ∃ b ∈ l', R a b :=
  exists_of_forall₂ (R := flip R) h.flip ha

/-- An entry that could be built has the port's data. -/
theorem PortBody.epRpc_ok {vnis : Text → Option PyScalar} {b : PortBody} {e : EpRpc}
    (h : b.epRpc vnis = .ok e) : ∃ ip rest, b.ipsPort = ip :: rest ∧
      PyScalar.toInt (vnis b.vpcId) = .ok e.vni ∧ ipToInt ip.ip = .ok e.ip ∧
      macToInt b.macPort = .ok e.mac := by
  rw [PortBody.epRpc] at h
  cases hips : b.ipsPort with
  | nil =>
    rw [hips] at h
    obtain ⟨_, -, h⟩ := bind_eq_ok.1 h
    cases h
  | cons ip rest =>
    rw [hips] at h
    obtain ⟨vni, hv, h⟩ := bind_eq_ok.1 h
    obtain ⟨ipint, hi, h⟩ := bind_eq_ok.1 h
    obtain ⟨hip, -, h⟩ := bind_eq_ok.1 h
    obtain ⟨mac, hm, h⟩ := bind_eq_ok.1 h
    obtain ⟨hmac, -, h⟩ := bind_eq_ok.1 h
    cases h
    exact ⟨ip, rest, rfl, hv, hi, hm⟩

theorem Committed.firstIp (h : Committed env w portList w') {portId ip : Text}
    (hip : w.firstIp portId = some ip) : w'.firstIp portId = some ip := by
  obtain ⟨_, _, _, -, -, -, rfl⟩ := h
  obtain ⟨e, he, rfl⟩ := Option.map_eq_some_iff.1 hip
  rw [World.firstIp, List.find?_append, he]
  rfl

/-- Ports that were there stay, with their keys. -/
theorem Committed.mem_ports (h : Committed env w portList w') {r : PortRow} (hr : r ∈ w.ports) :
    r ∈ w'.ports := by
  obtain ⟨_, _, _, -, -, -, rfl⟩ := h
  exact List.mem_append_left _ hr

theorem Committed.portKey (h : Committed env w portList w') {num : JsonNumber} {r : PortRow}
    {k : EndpointKey} (hk : portKey num w r = some k) : portKey num w' r = some k := by
  refine portKey_mono num (fun v hv => ?_) (fun _ => h.firstIp) hk
  obtain ⟨_, _, _, -, -, -, rfl⟩ := h
  exact hv

theorem mem_epRows {b : PortBody} {e : EpRow} (he : e ∈ b.epRows) : e.portId = b.portId := by
  obtain ⟨ip, -, rfl⟩ := List.mem_map.1 he
  rfl

theorem Committed.consistent (h : Committed env w portList w') (hc : Consistent w) :
    Consistent w' := by
  obtain ⟨es, ports, _, -, hrows, hids, rfl⟩ := h
  refine ⟨hc.keys, hids, fun e he => ?_⟩
  rcases List.mem_append.1 he with he | he
  · obtain ⟨r, hr, hre⟩ := hc.owned e he
    exact ⟨r, List.mem_append_left _ hr, hre⟩
  · obtain ⟨b, hb, he⟩ := List.mem_flatMap.1 he
    obtain ⟨r, hr, hbr, -⟩ := exists_of_forall₂' hrows hb
    exact ⟨r, List.mem_append_right _ hr, hbr.trans (mem_epRows he).symm⟩

/-- **The first address of a new port** is the first one of the request. -/
theorem firstIp_new (hids : (portList.map fun b => b.portId).Nodup)
    (hnew : ∀ e ∈ w.epRows, ∀ b ∈ portList, e.portId ≠ b.portId) {b : PortBody} (hb : b ∈ portList)
    {ip : PortIp} {rest : List PortIp} (hips : b.ipsPort = ip :: rest) :
    ((w.epRows ++ portList.flatMap PortBody.epRows).find? fun e => e.portId = b.portId).map
      (fun e => e.ip) = some ip.ip := by
  obtain ⟨pre, post, rfl⟩ := List.append_of_mem hb
  have hold : w.epRows.find? (fun e => e.portId = b.portId) = none :=
    List.find?_eq_none.2 fun e he hc => hnew e he b hb (of_decide_eq_true hc)
  have hpre : (pre.flatMap PortBody.epRows).find? (fun e => e.portId = b.portId) = none := by
    refine List.find?_eq_none.2 fun e he hc => ?_
    obtain ⟨b', hb', he⟩ := List.mem_flatMap.1 he
    rw [List.map_append, List.nodup_append] at hids
    exact hids.2.2 _ (List.mem_map_of_mem hb') _ (List.mem_map_of_mem (List.mem_cons_self ..))
      ((mem_epRows he).symm.trans (of_decide_eq_true hc))
  have hrows : b.epRows = ⟨ip.ip, ip.vip, b.portId⟩ :: rest.map fun ip => ⟨ip.ip, ip.vip, b.portId⟩ := by
    rw [PortBody.epRows, hips]
    rfl
  rw [List.find?_append, hold, List.flatMap_append, List.find?_append, hpre, List.flatMap_cons, hrows,
    List.cons_append]
  simp only [List.find?_cons, decide_true, Option.none_or, Option.map_some]

/-- What a port and its entry have in common. -/
def HasEntry (num : JsonNumber) (w : World) (r : PortRow) (e : EpRpc) : Prop :=
  portKey num w r = some (e.trnEp num).key ∧ portMac num r = some (e.trnEp num).val.mac

/-- **The entries of new ports** are the ones that the database then says, where it holds the VNIs, and
every new port has one. -/
theorem Committed.port_entry (h : Committed env w portList w') (hc : Consistent w) :
    ∃ es, w'.maps = sendTo env.num w.nodeIps.ips (w.eps ++ es) w.maps ∧
      (∀ r ∈ w'.ports, r ∈ w.ports ∨ ∃ e ∈ es, VniHeld w r.vpcId → HasEntry env.num w' r e) ∧
      ∀ e ∈ es, ∃ r ∈ w'.ports, VniHeld w r.vpcId → HasEntry env.num w' r e := by
  obtain ⟨es, ports, hosts, hes, hrows, hids, rfl⟩ := h
  rw [List.map_append, map_portId_of_rowsOf hrows, List.nodup_append] at hids
  have hnew : ∀ e ∈ w.epRows, ∀ b ∈ portList, e.portId ≠ b.portId := by
    intro e he b hb
    obtain ⟨r, hr, hre⟩ := hc.owned e he
    rw [← hre]
    exact hids.2.2 _ (List.mem_map_of_mem hr) _ (List.mem_map_of_mem hb)
  have hentry : ∀ b ∈ portList, ∀ r e, b.epRpc w.vnis = .ok e →
      r.portId = b.portId ∧ r.macPort = b.macPort ∧ r.vpcId = b.vpcId → VniHeld w r.vpcId →
      HasEntry env.num { w with
        hosts := hosts
        ports := w.ports ++ ports
        epRows := w.epRows ++ portList.flatMap PortBody.epRows
        eps := []
        maps := sendTo env.num w.nodeIps.ips (w.eps ++ es) w.maps } r e := by
    rintro b hb r e he ⟨hid, hmac, hvpc⟩ hheld
    obtain ⟨ip, rest, hips, hv, hi, hm⟩ := PortBody.epRpc_ok he
    constructor
    · refine (portKey_eq_some env.num).2 ⟨e.vni, ip.ip, e.ip, hheld _ (hvpc ▸ hv), ?_, hi, rfl⟩
      · rw [hid]
        exact firstIp_new hids.2.1 hnew hb hips
    · rw [portMac, hmac, hm]
      rfl
  refine ⟨es, rfl, fun r hr => ?_, fun e he => ?_⟩
  · rcases List.mem_append.1 hr with hr | hr
    · exact .inl hr
    · obtain ⟨b, hb, hbr⟩ := exists_of_forall₂ hrows hr
      obtain ⟨e, he, hbe⟩ := exists_of_forall₂' hes hb
      exact .inr ⟨e, he, hentry b hb r e hbe hbr⟩
  · obtain ⟨b, hb, hbe⟩ := exists_of_forall₂ hes he
    obtain ⟨r, hr, hbr⟩ := exists_of_forall₂' hrows hb
    exact ⟨r, List.mem_append_right _ hr, hentry b hb r e hbe hbr⟩

end Ports

section Requests

variable {env : Env} {col : IntegerColumn} {w w' : World}

theorem Stopped.consistent {portList : List PortBody} (h : Stopped w portList w')
    (hc : Consistent w) : Consistent w' := by
  obtain ⟨_, _, _, _, -, -, -, rfl⟩ := h
  exact hc.congr rfl rfl rfl rfl

theorem Consistent.withMac (h : Consistent w) (portId macPort : Text) :
    Consistent (w.withMac portId macPort) := by
  have hids : ((w.withMac portId macPort).ports.map fun r => r.portId) =
      w.ports.map fun r => r.portId := by
    rw [World.withMac, List.map_map]
    refine List.map_congr_left fun r _ => ?_
    rw [Function.comp_apply]
    split_ifs <;> rfl
  refine ⟨h.keys, hids ▸ h.ids, fun e he => ?_⟩
  obtain ⟨r, hr, hre⟩ := h.owned e he
  obtain ⟨r', hr', he'⟩ := List.mem_map.1 (hids ▸ List.mem_map_of_mem hr)
  exact ⟨r', hr', he'.trans hre⟩

theorem Consistent.withoutPort (h : Consistent w) (portId : Text) :
    Consistent (w.withoutPort portId) := by
  refine ⟨h.keys, h.ids.sublist (List.filter_sublist.map _), fun e he => ?_⟩
  obtain ⟨he, hne⟩ := List.mem_filter.1 he
  obtain ⟨r, hr, hre⟩ := h.owned e he
  exact ⟨r, List.mem_filter.2 ⟨hr, by rwa [hre]⟩, hre⟩

/-- The other ports keep their addresses. -/
theorem firstIp_withoutPort {portId portId' : Text} (hne : portId' ≠ portId) :
    (w.withoutPort portId).firstIp portId' = w.firstIp portId' := by
  rw [World.firstIp, World.firstIp, World.withoutPort, List.find?_filter]
  refine congrArg (Option.map _) (congrArg (fun p => w.epRows.find? p) (funext fun e => ?_))
  by_cases he : e.portId = portId'
  · simp [he, hne]
  · simp [he]

theorem NodeAdded.portKey {ip : Text} (h : NodeAdded w ip w'.portView) {num : JsonNumber}
    {r : PortRow} {k : EndpointKey} (hk : portKey num w r = some k) : portKey num w' r = some k := by
  refine portKey_mono num (fun v hv => ?_) (fun ip hip => ?_) hk
  · rw [← hv]
    exact congrArg (fun l => (List.find? _ l).map _) h.vpcs
  · rw [← hip]
    exact congrArg (fun l => (List.find? _ l).map _) h.epRows

theorem portKey_withoutPort {num : JsonNumber} {r : PortRow} {portId : Text} (hne : r.portId ≠ portId)
    {k : EndpointKey} (hk : portKey num w r = some k) :
    portKey num (w.withoutPort portId) r = some k := by
  refine portKey_mono num (fun _ hv => ?_) (fun _ hip => ?_) hk
  · exact hv
  · rwa [firstIp_withoutPort hne]

/-- **Requests keep the state consistent.** -/
theorem Effect.consistent {r : Request} (he : Effect env col w r w') (h : Consistent w) :
    Consistent w' := by
  cases he with
  | refused => exact h
  | vpc zgcId b hnew => exact h.withNetwork hnew zgcId _
  | committed hw => exact hw.consistent h
  | stopped hw => exact hw.consistent h
  | put portId macPort => exact h.withMac portId macPort
  | delete portId => exact h.withoutPort portId
  | node hw => exact h.congr hw.vnis hw.vpcs hw.ports hw.epRows

/-- **A VNI that the rows hold in the end was held before**, as long as it was known. -/
theorem Effect.vniHeld {r : Request} (he : Effect env col w r w') (h : Consistent w) {vpcId : Text}
    (hv : VniHeld w' vpcId) : VniHeld w vpcId := by
  have hsame : w'.vnis = w.vnis → w'.vpcs = w.vpcs → VniHeld w vpcId := by
    intro hvnis hvpcs
    rwa [VniHeld, World.vniOf, hvnis, hvpcs] at hv
  cases he with
  | refused => exact hv
  | vpc zgcId b hnew =>
    by_cases hid : vpcId = b.vpcId
    · intro n hn
      rw [hid, h.keys.none hnew] at hn
      cases hn
    · exact (if_neg hid).mp ((vniHeld_withNetwork hnew zgcId _ vpcId).1 hv)
  | committed hw =>
    obtain ⟨_, _, _, -, -, -, rfl⟩ := hw
    exact hv
  | stopped hw =>
    obtain ⟨_, _, _, _, -, -, -, rfl⟩ := hw
    exact hv
  | put | delete => exact hv
  | node hw => exact hsame hw.vnis hw.vpcs

end Requests

end ArionDp
