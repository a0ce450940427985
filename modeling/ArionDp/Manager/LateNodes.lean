import ArionDp.Manager.PortKeys

/-!
# Nodes that join late

The endpoints of new ports are sent to the nodes that are there; a node that is added later is sent
nothing that went out before.

* `Knows`: a node has an entry for a port;
* `Ready`, **`Effect.ready`**: in every state that requests reach, all nodes have their program;
* `KnowsSince`, **`late_node_endpoints`**: a node knows all ports that were added after it;
* **`late_node_misses`**: it need not know the others, nor those of a network whose VNI is rounded.
-/

namespace ArionDp

open Py Runs

/-- **A node knows a port**: its map has an entry under the port's key. -/
def Knows (num : JsonNumber) (w : World) (n : Text) (r : PortRow) : Prop :=
  ∃ m ∈ w.maps n, ∃ k ∈ portKey num w r, (m k).isSome

instance (num : JsonNumber) (w : World) (n : Text) (r : PortRow) : Decidable (Knows num w n r) :=
  inferInstanceAs (Decidable (∃ m ∈ w.maps n, ∃ k ∈ portKey num w r, (m k).isSome))

/-- No key of a node's map goes out of use. -/
def Grows (n : Text) (w w' : World) : Prop :=
  ∀ m ∈ w.maps n, ∃ m' ∈ w'.maps n, ∀ k, (m k).isSome → (m' k).isSome

section Steps

variable {env : Env} {col : IntegerColumn} {w w' : World} {n : Text}

theorem Grows.of_eq (h : w'.maps n = w.maps n) : Grows n w w' :=
  fun m hm => ⟨m, h.trans hm, fun _ hk => hk⟩

theorem Grows.isSome (h : Grows n w w') (hw : (w.maps n).isSome) : (w'.maps n).isSome := by
  obtain ⟨m, hm⟩ := Option.isSome_iff_exists.1 hw
  obtain ⟨m', hm', -⟩ := h m hm
  exact Option.isSome_iff_exists.2 ⟨m', hm'⟩

theorem Committed.grows {portList : List PortBody} (h : Committed env w portList w') :
    Grows n w w' := by
  obtain ⟨es, _, _, -, -, -, rfl⟩ := h
  intro m hm
  by_cases hn : n ∈ w.nodeIps.ips
  · refine ⟨_, (if_pos hn).trans (congrArg (Option.map _) hm), fun k hk => ?_⟩
    exact updateEndpoints_isSome (.inl hk)
  · exact ⟨m, (if_neg hn).trans hm, fun _ hk => hk⟩

theorem NodeAdded.grows {ip : Text} (h : NodeAdded w ip w'.portView) : Grows n w w' := by
  rcases h.maps n with hn | ⟨-, hn⟩
  · exact Grows.of_eq hn
  · intro m hm
    refine ⟨m, hn.trans ?_, fun _ hk => hk⟩
    rw [hm]
    rfl

/-- **Requests remove no entry.** -/
theorem Effect.grows {r : Request} (he : Effect env col w r w') (n : Text) : Grows n w w' := by
  cases he with
  | committed hw => exact hw.grows
  | stopped hw =>
    obtain ⟨_, _, _, _, -, -, -, rfl⟩ := hw
    exact Grows.of_eq rfl
  | node hw => exact hw.grows
  | refused | vpc | put | delete => exact Grows.of_eq rfl

/-! ## Nodes with their program -/

/-- **A ready state**: the rows fit together, and all nodes have their program. -/
structure Ready (w : World) : Prop where
  consistent : Consistent w
  hasPort : w.HasPort
  loaded : ∀ n ∈ w.nodeIps.ips, (w.maps n).isSome

theorem Ready.start (z : ZgcRow) {portIbo : PyScalar} {n : ℤ}
    (h : PyScalar.toInt (some portIbo) = .ok n) : Ready (.start z portIbo) :=
  ⟨.start z portIbo, ⟨_, rfl, n, h⟩, fun _ hn => absurd hn List.not_mem_nil⟩

/-- The active ZGC and the nodes stay, but for a new node. -/
theorem Effect.settings {r : Request} (he : Effect env col w r w') : w'.activeZgc = w.activeZgc ∧
    ((∃ ip, w'.nodeIps = w.nodeIps.insert ip ∧ (w.HasPort → (w'.maps ip).isSome)) ∨
      w'.nodeIps = w.nodeIps) := by
  cases he with
  | committed hw =>
    obtain ⟨_, _, _, -, -, -, rfl⟩ := hw
    exact ⟨rfl, .inr rfl⟩
  | stopped hw =>
    obtain ⟨_, _, _, _, -, -, -, rfl⟩ := hw
    exact ⟨rfl, .inr rfl⟩
  | node hw =>
    refine ⟨hw.activeZgc, .inl ⟨_, hw.nodeIps, fun hp => ?_⟩⟩
    have hl := hw.loaded hp
    exact Option.isSome_iff_exists.2 ⟨_, hl⟩
  | refused | vpc | put | delete => exact ⟨rfl, .inr rfl⟩

theorem Effect.mem_nodeIps {r : Request} (he : Effect env col w r w') (hn : n ∈ w.nodeIps.ips) :
    n ∈ w'.nodeIps.ips := by
  rcases he.settings.2 with ⟨ip, hip, -⟩ | hips
  · exact hip ▸ NodeIps.mem_insert.2 (.inr hn)
  · exact hips ▸ hn

/-- **Requests keep a state ready.** -/
theorem Effect.ready {r : Request} (he : Effect env col w r w') (h : Ready w) : Ready w' := by
  obtain ⟨hzgc, hips⟩ := he.settings
  refine ⟨he.consistent h.consistent, ?_, fun n hn => ?_⟩
  · unfold World.HasPort
    rw [hzgc]
    exact h.hasPort
  · rcases hips with ⟨ip, hip, hload⟩ | hips
    · rcases NodeIps.mem_insert.1 (hip ▸ hn) with rfl | hn
      · exact hload h.hasPort
      · exact (he.grows n).isSome (h.loaded n hn)
    · exact (he.grows n).isSome (h.loaded n (hips ▸ hn))

/-! ## What a node knows -/

theorem Knows.mono {num : JsonNumber} {r r' : PortRow} (h : Knows num w n r) (hg : Grows n w w')
    (hk : ∀ k, portKey num w r = some k → portKey num w' r' = some k) : Knows num w' n r' := by
  obtain ⟨m, hm, k, hkey, hmk⟩ := h
  obtain ⟨m', hm', hgm⟩ := hg m hm
  exact ⟨m', hm', k, hk k hkey, hgm k hmk⟩

/-- **A node learns of new ports.** -/
theorem Committed.knows {portList : List PortBody} (h : Committed env w portList w')
    (hc : Consistent w) (hn : n ∈ w.nodeIps.ips) (hm : (w.maps n).isSome) :
    ∀ r ∈ w'.ports, VniHeld w r.vpcId → r ∈ w.ports ∨ Knows env.num w' n r := by
  intro r hr hheld
  obtain ⟨es, hmaps, hnew, -⟩ := h.port_entry hc
  obtain ⟨m, hm⟩ := Option.isSome_iff_exists.1 hm
  rcases hnew r hr with hr | ⟨e, he, hentry⟩
  · exact .inl hr
  · obtain ⟨hkey, -⟩ := hentry hheld
    refine .inr ⟨_, (congrFun hmaps n).trans ((if_pos hn).trans (congrArg (Option.map _) hm)), _, hkey,
      updateEndpoints_isSome (.inr ⟨e.trnEp env.num, ?_, rfl⟩)⟩
    exact List.mem_map_of_mem (List.mem_append_right _ he)

/-- **Step lemma**: a port that a node does not know was there before, and not known. -/
theorem Effect.knows {r : Request} (he : Effect env col w r w') (h : Ready w) (hn : n ∈ w.nodeIps.ips) :
    ∀ r' ∈ w'.ports, VniHeld w r'.vpcId → Knows env.num w' n r' ∨
      ∃ r₀ ∈ w.ports, r₀.portId = r'.portId ∧ r₀.vpcId = r'.vpcId ∧ ¬ Knows env.num w n r₀ := by
  intro r' hr' hheld
  have hold : ∀ r₀ ∈ w.ports, r₀.portId = r'.portId ∧ r₀.vpcId = r'.vpcId →
      (∀ k, portKey env.num w r₀ = some k → portKey env.num w' r' = some k) →
      Knows env.num w' n r' ∨
        ∃ r₀ ∈ w.ports, r₀.portId = r'.portId ∧ r₀.vpcId = r'.vpcId ∧ ¬ Knows env.num w n r₀ := by
    intro r₀ hr₀ hid hk
    by_cases hkn : Knows env.num w n r₀
    · exact .inl (hkn.mono (he.grows n) hk)
    · exact .inr ⟨r₀, hr₀, hid.1, hid.2, hkn⟩
  cases he with
  | refused => exact hold r' hr' ⟨rfl, rfl⟩ fun _ hk => hk
  | vpc zgcId b hnew =>
    exact hold r' hr' ⟨rfl, rfl⟩ fun _ =>
      portKey_mono _ (fun _ => vniOf_withNetwork_of_eq_some hnew zgcId _) fun _ hip => hip
  | committed hw =>
    rcases hw.knows h.consistent hn (h.loaded n hn) r' hr' hheld with hr | hk
    · exact hold r' hr ⟨rfl, rfl⟩ fun _ => hw.portKey
    · exact .inl hk
  | stopped hw =>
    obtain ⟨_, _, _, _, -, -, -, rfl⟩ := hw
    exact hold r' hr' ⟨rfl, rfl⟩ fun _ hk => hk
  | put portId macPort =>
    obtain ⟨r₀, hr₀, rfl⟩ := List.mem_map.1 hr'
    refine hold r₀ hr₀ (by split_ifs <;> exact ⟨rfl, rfl⟩) fun k hk => ?_
    split_ifs
    · exact hk
    · exact hk
  | delete portId =>
    obtain ⟨hr, hne⟩ := List.mem_filter.1 hr'
    exact hold r' hr ⟨rfl, rfl⟩ fun _ => portKey_withoutPort (of_decide_eq_true hne)
  | node hw => exact hold r' (hw.ports ▸ hr') ⟨rfl, rfl⟩ fun _ => hw.portKey

/-- **A node knows the ports that are new** since there were some old ones, those whose networks' rows hold
the VNI that is sent. -/
def KnowsSince (num : JsonNumber) (old : List PortRow) (w : World) (n : Text) : Prop :=
  ∀ r ∈ w.ports, (∀ r₁ ∈ old, r₁.portId ≠ r.portId) → VniHeld w r.vpcId → Knows num w n r

/-- Known ports stay known, and new ones are known. -/
theorem Effect.knowsSince {r : Request} (he : Effect env col w r w') (h : Ready w)
    (hn : n ∈ w.nodeIps.ips) {old : List PortRow} (hk : KnowsSince env.num old w n) :
    KnowsSince env.num old w' n := by
  intro r' hr' hne hheld
  have hbefore : VniHeld w r'.vpcId := he.vniHeld h.consistent hheld
  rcases he.knows h hn r' hr' hbefore with hknows | ⟨r₀, hr₀, hid, hvpc, hnot⟩
  · exact hknows
  · exact absurd (hk r₀ hr₀ (fun r₁ hr₁ => hid ▸ hne r₁ hr₁) (hvpc ▸ hbefore)) hnot

end Steps

/-! ## Runs -/

/-- **Late nodes.** In every run of requests from a manager with an active ZGC, a node that is in
`node_ips` has an entry for the VNI and the first address of every port that was committed after it, if the
row of the port's network holds the VNI that `int` makes of the one in `vnis`. -/
theorem late_node_endpoints (env : Env) (col : IntegerColumn) (z : ZgcRow) {portIbo : PyScalar} {ibo : ℤ}
    (hibo : PyScalar.toInt (some portIbo) = .ok ibo) (before after : List Request) {w₁ w₂ : World}
    (h₁ : run (requestStep env col) before (.start z portIbo) = some w₁)
    (h₂ : run (requestStep env col) after w₁ = some w₂) :
    ∀ n ∈ w₁.nodeIps.ips, ∀ r ∈ w₂.ports, (∀ r₁ ∈ w₁.ports, r₁.portId ≠ r.portId) →
      VniHeld w₂ r.vpcId → Knows env.num w₂ n r := by
  intro n hn
  have hready : Ready w₁ := by
    refine run_inv_all (fun r w w' hw hs => ?_) h₁ (.start z hibo)
    obtain rfl := Option.some.inj hs
    exact (r.run_effect env col w).ready hw
  have hrun : Ready w₂ ∧ n ∈ w₂.nodeIps.ips ∧ KnowsSince env.num w₁.ports w₂ n := by
    refine run_inv_all (I := fun w => Ready w ∧ n ∈ w.nodeIps.ips ∧ KnowsSince env.num w₁.ports w n)
      (fun r w w' hw hs => ?_) h₂ ⟨hready, hn, fun r hr hne => absurd rfl (hne r hr)⟩
    obtain rfl := Option.some.inj hs
    obtain ⟨hw, hn, hk⟩ := hw
    have he := r.run_effect env col w
    exact ⟨he.ready hw, he.mem_nodeIps hn, he.knowsSince hw hn hk⟩
  exact hrun.2.2

/-! ## A node that misses a port -/

/-- A manager whose ZGC has the addresses 10.0.0.1 to 10.0.0.3. -/
def sampleManager : World :=
  .start ⟨"z".toList, "10.0.0.1".toList, "10.0.0.3".toList⟩ (.int 8300)

/-- A column of 32-bit integers that rounds to the nearest one. -/
def sampleColumn : IntegerColumn where
  stored
    | .scalar (.int n) => if -2 ^ 31 ≤ n ∧ n < 2 ^ 31 then some n else none
    | .scalar (.str s) => (ArionDp.int 10 s).toOption.filter fun n => -2 ^ 31 ≤ n ∧ n < 2 ^ 31
    | .float x => some (if 0 ≤ x then ⌊x + 1 / 2⌋ else -⌊1 / 2 - x⌋) |>.filter fun n =>
        -2 ^ 31 ≤ n ∧ n < 2 ^ 31
  int n m h := by
    dsimp only at h
    split_ifs at h
    exact Option.some.inj h
  str s n m h hn := by
    dsimp only at h
    rw [hn] at h
    exact (Option.filter_eq_some_iff.1 h).1 |> Option.some.inj

/-- A node joins. -/
def sampleJoin (name ip : String) : Request :=
  .postNode name.toList
    (NodeBody.mk "z".toList name.toList ip.toList "eth1".toList "eth2".toList)

/-- The network with VNI 888. -/
def sampleNetwork : Request := .postVpc ⟨"v".toList, .scalar (.int 888)⟩

/-- A port of the network, on host 172.16.17.73. -/
def samplePort (portId ip : String) : PortBody where
  portId := portId.toList
  macPort := "aa:bb:cc:00:00:01".toList
  vpcId := "v".toList
  ipNode := "172.16.17.73".toList
  macNode := "02:00:00:00:00:49".toList
  ipsPort := [⟨ip.toList, []⟩]
  hostId := portId.toList

/-- A node joins, a port is added, and another node joins. -/
def joinLate : List Request :=
  [sampleJoin "a" "172.16.0.1", sampleNetwork, .postPorts [samplePort "p" "10.10.0.92"],
    sampleJoin "b" "172.16.0.2"]

/-- The node that joins late knows the next port. -/
theorem late_node_endpoints_sample :
    let w₁ := (run (requestStep .default sampleColumn) joinLate sampleManager).get (by decide +kernel)
    let w₂ := (run (requestStep .default sampleColumn) [.postPorts [samplePort "q" "10.10.0.93"]] w₁).get
      (by decide +kernel)
    Knows .cast w₂ "172.16.0.2".toList
      ⟨"q".toList, "aa:bb:cc:00:00:01".toList, "v".toList, "p".toList⟩ := by
  intro w₁ w₂
  have hvnis : PyScalar.toInt (w₂.vnis "v".toList) = .ok 888 := by decide +kernel
  have hrow : PyScalar.toInt (w₂.vniOf "v".toList) = .ok 888 := by decide +kernel
  have hheld : VniHeld w₂ "v".toList := fun n hn => hrow.trans (hvnis.symm.trans hn)
  exact late_node_endpoints .default sampleColumn _ rfl joinLate _ (Option.some_get _).symm
    (Option.some_get _).symm _ (by decide +kernel) _ (by decide +kernel) (by decide +kernel) hheld

/-- A run after which a node, with its program, does not know a port. -/
def MissesPort (rs : List Request) : Prop :=
  ∃ w, run (requestStep .default sampleColumn) rs sampleManager = some w ∧
    ∃ n ∈ w.nodeIps.ips, ∃ r ∈ w.ports, (w.maps n).isSome ∧ (portKey .cast w r).isSome ∧
      ¬ Knows .cast w n r

/-- A network whose VNI of 100.5 the column rounds, and a port, both after the node. -/
def roundedVni : List Request :=
  [sampleJoin "a" "172.16.0.1", .postVpc ⟨"v".toList, .float (201 / 2)⟩,
    .postPorts [samplePort "p" "10.10.0.92"]]

/-- **The node that joins late does not know the first port**, and no node knows a port of a network whose
VNI is rounded. -/
theorem late_node_misses : MissesPort joinLate ∧ MissesPort roundedVni :=
  ⟨⟨(run (requestStep .default sampleColumn) joinLate sampleManager).get (by decide +kernel),
    (Option.some_get _).symm, by decide +kernel⟩,
   ⟨(run (requestStep .default sampleColumn) roundedVni sampleManager).get (by decide +kernel),
    (Option.some_get _).symm, by decide +kernel⟩⟩

end ArionDp
