import ArionDp.Manager.LateNodes

/-!
# Stale entries

The entries on the nodes are those of ports in the database, as long as no request changes or removes
a port that an entry rests on, and none stops half-way: a new port is sent to the nodes, but neither a
new MAC address nor a removal is, and what a stopped request leaves in `eps` is sent with the next one.

* `InSync`: the invariant; `NewVpc.Exact`, `Request.Safe`: the condition on requests;
* **`no_stale_endpoint`**: runs of safe requests;
* **`put_delete_leave_stale`**: runs with other requests.
-/

namespace ArionDp

open Py Runs

section Defs

variable (num : JsonNumber) (w : World)

/-- **A port stands behind an entry**: it has its key and its MAC address. -/
def Backs (r : PortRow) (k : EndpointKey) (v : Endpoint) : Prop :=
  portKey num w r = some k ∧ portMac num r = some v.mac

instance (r : PortRow) (k : EndpointKey) (v : Endpoint) : Decidable (Backs num w r k v) :=
  inferInstanceAs (Decidable (_ ∧ _))

/-- Every entry that a port stands behind has another port behind it. -/
def Spare (portId : Text) : Prop :=
  ∀ n ∈ w.nodeIps.ips, ∀ m ∈ w.maps n, ∀ r ∈ w.ports, r.portId = portId → ∀ k ∈ portKey num w r,
    ∀ v ∈ m k, portMac num r = some v.mac → ∃ r' ∈ w.ports, r'.portId ≠ portId ∧ Backs num w r' k v

instance (portId : Text) : Decidable (Spare num w portId) :=
  inferInstanceAs (Decidable (∀ n ∈ w.nodeIps.ips, ∀ m ∈ w.maps n, ∀ r ∈ w.ports, r.portId = portId →
    ∀ k ∈ portKey num w r, ∀ v ∈ m k, portMac num r = some v.mac →
      ∃ r' ∈ w.ports, r'.portId ≠ portId ∧ Backs num w r' k v))

instance (portList : List PortBody) : Decidable (Accepts w portList) :=
  decidable_of_iff ((∀ b ∈ portList, (b.epRpc w.vnis).isOk) ∧
    (w.ports.map (fun r => r.portId) ++ portList.map fun b => b.portId).Nodup ∧
    (w.hosts.map (fun r => r.hostId) ++ portList.map fun b => b.hostId).Nodup)
    ⟨fun h => ⟨h.1, h.2.1, h.2.2⟩, fun h => ⟨h.readable, h.portIds, h.hostIds⟩⟩

end Defs

/-- The column does not round a VNI to another number than `int` makes of it. -/
def NewVpc.Exact (col : IntegerColumn) (b : NewVpc) : Prop :=
  match b.vni with
  | .scalar _ => True
  | .float x => ∀ n ∈ col.stored (.float x), x.num.tdiv x.den = n

instance (col : IntegerColumn) : ∀ b : NewVpc, Decidable (b.Exact col)
  | ⟨_, .scalar _⟩ => isTrue True.intro
  | ⟨_, .float x⟩ => inferInstanceAs (Decidable (∀ n ∈ col.stored (.float x), x.num.tdiv x.den = n))

/-- **A safe request**: the VNI of a new network is not rounded; new ports are accepted, or refused at the
first one; a new MAC address is the same number, or no entry rests on the port alone; and none rests on a
removed port alone. -/
def Request.Safe (num : JsonNumber) (col : IntegerColumn) : Request → World → Prop
  | .postVpc b, _ => b.Exact col
  | .postPorts portList, w =>
    Accepts w portList ∨ ∃ b ∈ portList.head?, (b.epRpc w.vnis).isOk = false
  | .putPort portId macPort, w =>
    (∀ r ∈ w.ports, r.portId = portId → portMac num { r with macPort := macPort } = portMac num r) ∨
      Spare num w portId
  | .deletePort portId, w => Spare num w portId
  | .postNode _ _, _ => True

instance (num : JsonNumber) (col : IntegerColumn) :
    ∀ (r : Request) (w : World), Decidable (r.Safe num col w)
  | .postVpc b, _ => inferInstanceAs (Decidable (b.Exact col))
  | .postPorts portList, w => inferInstanceAs (Decidable
    (Accepts w portList ∨ ∃ b ∈ portList.head?, (b.epRpc w.vnis).isOk = false))
  | .putPort portId macPort, w => inferInstanceAs (Decidable
    ((∀ r ∈ w.ports, r.portId = portId → portMac num { r with macPort := macPort } = portMac num r) ∨
      Spare num w portId))
  | .deletePort portId, w => inferInstanceAs (Decidable (Spare num w portId))
  | .postNode _ _, _ => isTrue True.intro

/-- **The invariant**: the rows hold the VNIs, nothing is left over to be sent, and every entry has a port
behind it. -/
structure InSync (num : JsonNumber) (w : World) : Prop where
  consistent : Consistent w
  held : ∀ vpcId, VniHeld w vpcId
  eps : w.eps = []
  loaded : ∀ n, (w.maps n).isSome → n ∈ w.nodeIps.ips
  backed : ∀ n, ∀ m ∈ w.maps n, ∀ k, ∀ v ∈ m k, ∃ r ∈ w.ports, Backs num w r k v

theorem InSync.start (num : JsonNumber) (z : ZgcRow) (portIbo : PyScalar) :
    InSync num (.start z portIbo) :=
  ⟨.start z portIbo, fun _ _ h => (nomatch h), rfl, fun _ h => absurd h Bool.false_ne_true,
    fun _ _ h => (nomatch h)⟩

section Steps

variable {env : Env} {col : IntegerColumn} {num : JsonNumber} {w w' : World}

/-- What stands behind an entry still does where its port stays, with its key and MAC address. -/
theorem backed_mono {k : EndpointKey} {v : Endpoint} (h : ∃ r ∈ w.ports, Backs num w r k v)
    (hk : ∀ r ∈ w.ports, portKey num w r = some k →
      ∃ r' ∈ w'.ports, portKey num w' r' = some k ∧ portMac num r' = portMac num r) :
    ∃ r ∈ w'.ports, Backs num w' r k v := by
  obtain ⟨r, hr, hkey, hmac⟩ := h
  obtain ⟨r', hr', hkey', hmac'⟩ := hk r hr hkey
  exact ⟨r', hr', hkey', hmac'.trans hmac⟩

/-- Networks that stay keep their VNIs held. -/
theorem held_congr (h : ∀ vpcId, VniHeld w vpcId) (hvnis : w'.vnis = w.vnis) (hvpcs : w'.vpcs = w.vpcs)
    (vpcId : Text) : VniHeld w' vpcId := by
  rw [VniHeld, World.vniOf, hvnis, hvpcs]
  exact h vpcId

theorem NewVpc.Exact.float {b : NewVpc} (h : b.Exact col) (x : ℚ) (n : ℤ) (hv : b.vni = .float x)
    (hn : col.stored (.float x) = some n) : x.num.tdiv x.den = n := by
  rw [NewVpc.Exact, hv] at h
  exact h n hn

/-- **A new network** with a VNI that the column keeps. -/
theorem InSync.withNetwork (hs : InSync num w) {zgcId : Text} {b : NewVpc} {n : ℤ}
    (hnew : ∀ r ∈ w.vpcs, r.vpcId ≠ b.vpcId) (hn : col.stored b.vni = some n) (hexact : b.Exact col) :
    InSync num (w.withNetwork zgcId b n) := by
  refine ⟨hs.consistent.withNetwork hnew zgcId n, fun v => ?_, hs.eps, hs.loaded,
    fun m' m hm k e he => backed_mono (hs.backed m' m hm k e he) fun r hr hk => ⟨r, hr, ?_, rfl⟩⟩
  · rw [vniHeld_withNetwork hnew]
    split_ifs
    · exact fun m hm => col.agrees hn hexact.float hm
    · exact hs.held v
  · exact portKey_mono _ (fun _ => vniOf_withNetwork_of_eq_some hnew zgcId n) (fun _ hip => hip) hk

/-- **New ports come with their entries.** -/
theorem Committed.inSync {portList : List PortBody} (h : Committed env w portList w')
    (hs : InSync env.num w) : InSync env.num w' := by
  obtain ⟨es, hmaps, -, hes⟩ := h.port_entry hs.consistent
  have hfields : w'.eps = [] ∧ w'.nodeIps = w.nodeIps ∧ w'.vnis = w.vnis ∧ w'.vpcs = w.vpcs := by
    obtain ⟨_, _, _, -, -, -, rfl⟩ := h
    exact ⟨rfl, rfl, rfl, rfl⟩
  have hold : ∀ n, w'.maps n = sendTo env.num w.nodeIps.ips es w.maps n := fun n => by
    rw [hmaps, hs.eps, List.nil_append]
  have hbacked : ∀ n, ∀ m ∈ w.maps n, ∀ k, ∀ v ∈ m k, ∃ r ∈ w'.ports, Backs env.num w' r k v :=
    fun n m hm k v hv => backed_mono (hs.backed n m hm k v hv) fun r hr hk =>
      ⟨r, h.mem_ports hr, h.portKey hk, rfl⟩
  refine ⟨h.consistent hs.consistent, held_congr hs.held hfields.2.2.1 hfields.2.2.2, hfields.1,
    fun n hn => ?_, fun n m hm k v hv => ?_⟩
  · rw [hfields.2.1]
    by_cases hmem : n ∈ w.nodeIps.ips
    · exact hmem
    · rw [hold, sendTo, if_neg hmem] at hn
      exact hs.loaded n hn
  · rw [Option.mem_def, hold, sendTo] at hm
    split_ifs at hm
    · obtain ⟨m₀, hm₀, rfl⟩ := Option.map_eq_some_iff.1 hm
      rcases updateEndpoints_some hv with hv | hv
      · exact hbacked n m₀ hm₀ k v hv
      · obtain ⟨e, he, hke⟩ := List.mem_map.1 hv
        obtain ⟨r, hr, hentry⟩ := hes e he
        obtain ⟨hkey, hmac⟩ := hentry (hs.held r.vpcId)
        rw [hke] at hkey hmac
        exact ⟨r, hr, hkey, hmac⟩
    · exact hbacked n m hm k v hv

/-- A safe request for new ports that stops has been through none. -/
theorem Stopped.inSync {portList : List PortBody} (h : Stopped w portList w')
    (hsafe : (Request.postPorts portList).Safe num col w) (hs : InSync num w) : InSync num w' := by
  obtain ⟨done, todo, es, hosts, rfl, hes, hstop, rfl⟩ := h
  have hempty : es = [] := by
    rcases hsafe with ha | ⟨b, hb, hfail⟩
    · rcases hstop with ⟨b, hb, hfail⟩ | ⟨-, hna⟩
      · have hok := ha.readable b (List.mem_append_right _ (List.mem_of_mem_head? hb))
        rw [hfail] at hok
        cases hok
      · exact absurd ha hna
    · cases hes with
      | nil => rfl
      | cons hok _ =>
        obtain rfl := Option.some.inj hb
        rw [hok] at hfail
        cases hfail
  subst hempty
  have heps : w.eps ++ [] = [] := by rw [List.append_nil, hs.eps]
  exact ⟨hs.consistent.congr rfl rfl rfl rfl, hs.held, heps, hs.loaded, hs.backed⟩

/-- **A new MAC address** that is the same number, or for which no entry has to change. -/
theorem InSync.withMac {portId macPort : Text} (hs : InSync num w)
    (hsafe : (Request.putPort portId macPort).Safe num col w) : InSync num (w.withMac portId macPort) := by
  refine ⟨hs.consistent.withMac portId macPort, hs.held, hs.eps, hs.loaded, fun n m hm k v hv => ?_⟩
  have hother : ∀ r ∈ w.ports, r.portId ≠ portId → r ∈ (w.withMac portId macPort).ports :=
    fun r hr hne => List.mem_map.2 ⟨r, hr, if_neg hne⟩
  obtain ⟨r, hr, hkey, hmac⟩ := hs.backed n m hm k v hv
  by_cases hid : r.portId = portId
  · rcases hsafe with hsame | hspare
    · refine ⟨{ r with macPort := macPort }, List.mem_map.2 ⟨r, hr, if_pos hid⟩, hkey, ?_⟩
      exact (hsame r hr hid).trans hmac
    · have hn := hs.loaded n (Option.isSome_iff_exists.2 ⟨m, hm⟩)
      obtain ⟨r', hr', hne, hb⟩ := hspare n hn m hm r hr hid k hkey v hv hmac
      exact ⟨r', hother r' hr' hne, hb⟩
  · exact ⟨r, hother r hr hid, hkey, hmac⟩

/-- **A removal** of a port that no entry rests on alone. -/
theorem InSync.withoutPort {portId : Text} (hs : InSync num w) (hsafe : Spare num w portId) :
    InSync num (w.withoutPort portId) := by
  refine ⟨hs.consistent.withoutPort portId, hs.held, hs.eps, hs.loaded, fun n m hm k v hv => ?_⟩
  have hother : ∀ r ∈ w.ports, r.portId ≠ portId → Backs num w r k v →
      ∃ r' ∈ (w.withoutPort portId).ports, Backs num (w.withoutPort portId) r' k v :=
    fun r hr hne hb => ⟨r, List.mem_filter.2 ⟨hr, decide_eq_true hne⟩, portKey_withoutPort hne hb.1, hb.2⟩
  obtain ⟨r, hr, hb⟩ := hs.backed n m hm k v hv
  by_cases hid : r.portId = portId
  · have hn := hs.loaded n (Option.isSome_iff_exists.2 ⟨m, hm⟩)
    obtain ⟨r', hr', hne, hb'⟩ := hsafe n hn m hm r hr hid k hb.1 v hv hb.2
    exact hother r' hr' hne hb'
  · exact hother r hr hid hb

/-- The map of a new node is empty. -/
theorem NodeAdded.inSync {ip : Text} (h : NodeAdded w ip w'.portView) (hs : InSync num w) :
    InSync num w' := by
  refine ⟨hs.consistent.congr h.vnis h.vpcs h.ports h.epRows, held_congr hs.held h.vnis h.vpcs,
    h.eps.trans hs.eps, fun n hn => ?_, fun n m hm k v hv => ?_⟩
  · have hips : w'.nodeIps = w.nodeIps.insert ip := h.nodeIps
    rw [hips, NodeIps.mem_insert]
    rcases h.maps n with hold | ⟨rfl, -⟩
    · exact .inr (hs.loaded n (hold ▸ hn))
    · exact .inl rfl
  · have hports : w'.ports = w.ports := h.ports
    have hold : ∀ m ∈ w.maps n, ∀ k, ∀ v ∈ m k, ∃ r ∈ w'.ports, Backs num w' r k v :=
      fun m hm k v hv => backed_mono (hs.backed n m hm k v hv) fun r hr hk =>
        ⟨r, hports.symm ▸ hr, h.portKey hk, rfl⟩
    rcases h.maps n with heq | ⟨rfl, heq⟩
    · exact hold m (heq.symm.trans hm) k v hv
    · cases hmap : w.maps n with
      | none =>
        rw [hmap] at heq
        obtain rfl := Option.some.inj (heq.symm.trans hm)
        cases hv
      | some m₀ =>
        rw [hmap] at heq
        obtain rfl := Option.some.inj (heq.symm.trans hm)
        exact hold _ hmap k v hv

/-- **Step lemma.** -/
theorem Effect.inSync {r : Request} (he : Effect env col w r w') (hsafe : r.Safe env.num col w)
    (hs : InSync env.num w) : InSync env.num w' := by
  cases he with
  | refused => exact hs
  | vpc zgcId b hnew hn => exact hs.withNetwork hnew hn hsafe
  | committed hw => exact hw.inSync hs
  | stopped hw => exact hw.inSync hsafe hs
  | put portId macPort => exact hs.withMac hsafe
  | delete portId => exact hs.withoutPort hsafe
  | node hw => exact hw.inSync hs

end Steps

/-! ## Runs -/

/-- **No stale entry.** In every run of safe requests, every entry of every node has a port in the
database behind it, with its key and its present MAC address. -/
theorem no_stale_endpoint (env : Env) (col : IntegerColumn) {rs : List Request} {w w' : World}
    (hw : InSync env.num w) (hrun : run (requestStep env col) rs w = some w')
    (hsafe : EachStep (requestStep env col) (Request.Safe env.num col) rs w) :
    ∀ n, ∀ m ∈ w'.maps n, ∀ k, ∀ v ∈ m k, ∃ r ∈ w'.ports, portKey env.num w' r = some k ∧
      portMac env.num r = some v.mac := by
  refine (run_inv (fun r w w' hw hsafe hs => ?_) hrun hsafe hw).backed
  obtain rfl := Option.some.inj hs
  exact (r.run_effect env col w).inSync hsafe hw

/-! ## Stale entries after runs -/

/-- A port is added, gets its MAC address again in other letters, and shares its address with another
one before it is removed. -/
def safeRequests : List Request :=
  [sampleJoin "a" "172.16.0.1", sampleNetwork,
    .postPorts [samplePort "p" "10.10.0.92", samplePort "q" "10.10.0.92"],
    .putPort "p".toList "AA:BB:CC:00:00:01".toList, .deletePort "p".toList]

/-- The other port is behind the entry then. -/
theorem no_stale_endpoint_sample : ∃ w m v,
    run (requestStep .default sampleColumn) safeRequests sampleManager = some w ∧
    w.maps "172.16.0.1".toList = some m ∧ m (endpointKey .cast 888 168427612) = some v ∧
    ∃ r ∈ w.ports, portKey .cast w r = some (endpointKey .cast 888 168427612) ∧
      portMac .cast r = some v.mac := by
  have hsafe : EachStep (requestStep .default sampleColumn) (Request.Safe .cast sampleColumn) safeRequests
      sampleManager := by
    simp only [safeRequests, EachStep, requestStep, Option.mem_def, Option.some.injEq, forall_eq',
      Request.run, sampleJoin, sampleNetwork, allPortsPost, portsUpdateEpsConfig_eq, and_true]
    decide +kernel
  have hentry : ∃ m ∈ (safeRequests.foldl (fun w r => r.run .default sampleColumn w) sampleManager).maps
      "172.16.0.1".toList, (m (endpointKey .cast 888 168427612)).isSome := by
    simp only [safeRequests, List.foldl_cons, List.foldl_nil, Request.run, sampleJoin, sampleNetwork,
      allPortsPost, portsUpdateEpsConfig_eq]
    decide +kernel
  obtain ⟨m, hm, hv⟩ := hentry
  obtain ⟨v, hv⟩ := Option.isSome_iff_exists.1 hv
  have hrun := run_requestStep .default sampleColumn safeRequests sampleManager
  exact ⟨_, m, v, hrun, hm, hv, no_stale_endpoint .default sampleColumn (.start .cast _ _) hrun hsafe _ m hm _ v hv⟩

/-- A run after which a node has an entry, under the key of an address of VNI 888, with no port behind
it. -/
def LeavesStale (rs : List Request) (ip : ℤ) : Prop :=
  ∃ w, run (requestStep .default sampleColumn) rs sampleManager = some w ∧ ∃ n ∈ w.nodeIps.ips, ∃ m ∈ w.maps n,
    ∃ v ∈ m (endpointKey .cast 888 ip), ¬ ∃ r ∈ w.ports,
      portKey .cast w r = some (endpointKey .cast 888 ip) ∧ portMac .cast r = some v.mac

/-- A node, a network and the port 10.10.0.92. -/
def oneNode : List Request :=
  [sampleJoin "a" "172.16.0.1", sampleNetwork, .postPorts [samplePort "p" "10.10.0.92"]]

/-- **A new MAC address and a removal leave a stale entry**, and so does a stopped request: its second
port has no known network, and its first one is sent with the next request. -/
theorem put_delete_leave_stale :
    LeavesStale (oneNode ++ [.putPort "p".toList "aa:bb:cc:00:00:02".toList]) 168427612 ∧
    LeavesStale (oneNode ++ [.deletePort "p".toList]) 168427612 ∧
    LeavesStale (oneNode ++ [.postPorts [samplePort "q" "10.10.0.93",
        { samplePort "r" "10.10.0.94" with vpcId := "u".toList }],
      .postPorts [samplePort "s" "10.10.0.95"]]) 168427613 := by
  refine ⟨⟨_, run_requestStep _ _ _ _, ?_⟩, ⟨_, run_requestStep _ _ _ _, ?_⟩,
    ⟨_, run_requestStep _ _ _ _, ?_⟩⟩
  all_goals
    simp only [oneNode, List.cons_append, List.nil_append, List.foldl_cons, List.foldl_nil, sampleJoin,
      sampleNetwork, Request.run, allPortsPost, portsUpdateEpsConfig_eq]
    decide +kernel

end ArionDp
