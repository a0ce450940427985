import ArionDp.Manager.NodesPool

/-!
# The pool of gateway addresses over runs

In every state that node requests reach, the tenant droplets of a ZGC hold its gateway addresses,
each one once, or there is no droplet, as long as no request stops between the droplet of its node and
the row.

* `NodePost.Complete`, **`allNodesPost_complete`**: a complete request, whatever else it has that `Node`
  takes;
* `NodePost.StopsEarly`, **`allNodesPost_early`**: a request without a key that is read at first;
* `NodeRequest`, **`gateway_pool`**: the pool over runs of such requests;
* **`gateway_address_lost`**: runs with others.
-/

namespace ArionDp

open ApiServer PyText Py Inet Wire

/-! ## Complete requests and early stops -/

/-- **A complete request**: all keys are there, `gws` has no entries, and `Node` takes all of them. -/
structure NodePost.Complete (env : Env) (d : NodePost) (b : NodeBody) : Prop where
  zgcId : d.zgcId = some b.zgcId
  name : d.name = some b.name
  ipControl : d.ipControl = some b.ipControl
  infTenant : d.infTenant = some b.infTenant
  infZgc : d.infZgc = some b.infZgc
  gws : d.gws = .missing ∨ d.gws = .list 0
  attrs : ∀ key ∈ d.others, isNodeAttr env key = true
  columns : ∀ c ∈ nodeColumns, c ∈ d.others

/-- **An early stop**: a key is missing that is read before any droplet is written. -/
def NodePost.StopsEarly (d : NodePost) : Prop :=
  d.ipControl = none ∨ d.infTenant = none ∨ d.infZgc = none ∨ d.zgcId = none ∨
    "mac_zgc".toList ∉ d.others

instance (d : NodePost) : Decidable d.StopsEarly := inferInstanceAs (Decidable (_ ∨ _))

section Posts

variable {env : Env} {d : NodePost} {b : NodeBody}

theorem NodeBody.complete_post (env : Env) (b : NodeBody) : NodePost.Complete env b b :=
  ⟨rfl, rfl, rfl, rfl, rfl, .inl rfl, fun _ h => decide_eq_true (.inl h), fun _ h => h⟩

theorem NodePost.Complete.readName (h : d.Complete env b) : readName d = pure b.name := by
  rw [ArionDp.readName, h.name]

theorem NodePost.Complete.readMacZgc (h : d.Complete env b) : readMacZgc d = pure () :=
  if_pos (h.columns _ (by decide))

theorem NodePost.Complete.appendGws (h : d.Complete env b) (gws : List GwAddr) :
    appendGws d gws = pure () := by
  refine if_neg fun hc => ?_
  rcases h.gws with hg | hg
  · exact nomatch hg.symm.trans hc.1
  · exact nomatch hg.symm.trans hc.1

theorem NodePost.Complete.newNode (h : d.Complete env b) (zgcId nodeId : Text) (gws : List GwAddr) :
    newNode env d zgcId nodeId gws =
      pure ⟨nodeId, zgcId, b.name, b.ipControl, b.infTenant, b.infZgc, gws⟩ := by
  have hattrs : ¬ ∃ key ∈ d.others, isNodeAttr env key = false := fun ⟨key, hkey, hno⟩ =>
    nomatch (h.attrs key hkey).symm.trans hno
  have hrow : d.row zgcId nodeId gws =
      some ⟨nodeId, zgcId, b.name, b.ipControl, b.infTenant, b.infZgc, gws⟩ := by
    rw [NodePost.row, if_pos h.columns, h.name, h.ipControl, h.infTenant, h.infZgc]
    rfl
  rw [ArionDp.newNode, if_neg hattrs, hrow]
  rcases h.gws with hg | hg
  · rw [hg]
  · rw [hg]

/-- **What `Node` takes besides makes no difference.** -/
theorem allNodesPost_complete (h : d.Complete env b) (nodeId : Text) :
    allNodesPost env nodeId d = allNodesPost env nodeId b := by
  have hgws (zgcId : Text) : newNodeGws env zgcId d = newNodeGws env zgcId b := by
    rw [newNodeGws_post, newNodeGws, h.ipControl, h.readMacZgc, h.readName, h.infTenant]
    simp only [h.appendGws]
    rfl
  have hadd (zgcId : Text) : addNode env zgcId nodeId d = addNode env zgcId nodeId b := by
    rw [addNode_post, addNode, hgws]
    simp only [h.newNode]
    rfl
  rw [allNodesPost_post, allNodesPost, h.ipControl, h.infTenant, h.infZgc, h.zgcId, ← hadd]
  rfl

/-- **A request that stops early leaves the droplets and the rows.** -/
theorem allNodesPost_early (h : d.StopsEarly) (nodeId : Text) (w : World) :
    (allNodesPost env nodeId d w).2.core = w.core := by
  generalize hC : w.core = C
  have hread := readKey_keeps fun w : World => w.core = C
  have hload : ∀ ip, Keeps (fun w : World => w.core = C) (nodeLoadTransitXdp ip) :=
    nodeLoadTransitXdp_spec fun C' => C' = C
  have hraise {α : Type} {v : Option Text} (hv : v = none) (f : Text → Req α) :
      Keeps (fun w : World => w.core = C) (readKey v >>= f) :=
    Triple.bind_raises (hv ▸ Triple.raise fun _ h => h)
  have hkeep : Keeps (fun w : World => w.core = C) (allNodesPost env nodeId d) := by
    rcases h with h | h | h | h | h
    · exact hraise h _
    · exact Keeps.bind (hread _) fun _ => hraise h _
    · exact Keeps.bind (hread _) fun _ => Keeps.bind (hread _) fun _ => hraise h _
    · exact Keeps.bind (hread _) fun _ => Keeps.bind (hread _) fun _ => Keeps.bind (hread _) fun _ =>
        Keeps.bind (hload _) fun _ => hraise h _
    · have hmac : readMacZgc d = raise .keyError := if_neg h
      refine Keeps.bind (hread _) fun _ => Keeps.bind (hread _) fun _ => Keeps.bind (hread _) fun _ =>
        Keeps.bind (hload _) fun _ => Keeps.bind (hread _) fun zgcId => Triple.bind_raises ?_
      refine Triple.bind ((listDroplets_spec env C zgcId).post fun _ _ h => h.2) fun _ =>
        Triple.bind (hread _) fun ip => Triple.bind_ofExcept (fun _ _ => ?_) fun _ _ _ h => h
      rw [hmac]
      exact Triple.bind_raises (Triple.raise fun _ h => h)
  exact Triple.final hkeep hC

end Posts

/-! ## Runs -/

/-- A request that adds a node, from whatever body, or removes one. -/
inductive NodeRequest
  | post (nodeId : Text) (d : NodePost)
  | hazelcast (nodeId : Text) (n : ArionNode)
  | delete (nodeId : Text)
  deriving DecidableEq

/-- The id and the name that a request adds. -/
def NodeRequest.adds : NodeRequest → List (Text × Text)
  | .post nodeId d => d.name.toList.map fun name => (nodeId, name)
  | .hazelcast nodeId n => n.name.toList.map fun name => (nodeId, name)
  | .delete _ => []

section Requests

variable (env : Env)

/-- The state after a request, whether it returns or raises. -/
def NodeRequest.run : NodeRequest → World → World
  | .post nodeId d, w => (allNodesPost env nodeId d w).2
  | .hazelcast nodeId n, w => (setUpNodeFromHazelcast env nodeId n w).2
  | .delete nodeId, w => (singleNodeDelete env nodeId w).2

/-- The state after a sequence of requests. -/
def runNodeRequests (rs : List NodeRequest) (w : World) : World := rs.foldl (fun w r => r.run env w) w

/-- **A request that does not stop half-way**: a POST is complete or stops early, a node from Hazelcast has a
name. -/
def NodeRequest.Orderly : NodeRequest → Prop
  | .post _ d => (∃ b, d.Complete env b) ∨ d.StopsEarly
  | .hazelcast _ n => n.name.isSome
  | .delete _ => True

variable {env} {row : ZgcRow} {gws : List GwAddr} {used : List (Text × Text)}
  (hk : ∀ n, env.kubeFails n = false) (hr : RangeOf env row gws)

include hk hr

/-- **Step lemma.** -/
theorem NodeRequest.run_sound {w : World} (hs : Sound env row gws used w.core) {r : NodeRequest}
    (ho : r.Orderly env) (hu : ∀ u ∈ r.adds, Unused env used u) :
    Sound env row gws (used ++ r.adds) (r.run env w).core := by
  cases r with
  | post nodeId d =>
    rcases ho with ⟨b, hd⟩ | hd
    · have hadds : (NodeRequest.post nodeId d).adds = [(nodeId, b.name)] := by
        rw [NodeRequest.adds, hd.name]
        rfl
      rw [hadds] at hu ⊢
      change Sound env row gws _ (allNodesPost env nodeId d w).2.core
      rw [allNodesPost_complete hd]
      exact NodeOp.run_sound hk hr hs (.post nodeId b) hu rfl
    · change Sound env row gws _ (allNodesPost env nodeId d w).2.core
      rw [allNodesPost_early hd]
      refine ⟨hs.zgc, fun r hr => List.mem_append_left _ (hs.rows r hr), hs.kube.mono ?_ (List.Subset.refl _)⟩
      rw [List.map_append]
      exact List.subset_append_left _ _
  | hazelcast nodeId n =>
    obtain ⟨_ | name, ipControl, infTenant, infZgc⟩ := n
    · cases ho
    · exact NodeOp.run_sound hk hr hs (.hazelcast nodeId ⟨[], name, ipControl, infTenant, infZgc⟩) hu rfl
  | delete nodeId => exact NodeOp.run_sound hk hr hs (.delete nodeId) hu rfl

/-- **Run lemma.** -/
theorem runNodeRequests_sound {rs : List NodeRequest} {w : World} (hs : Sound env row gws used w.core)
    (ho : ∀ r ∈ rs, r.Orderly env)
    (hids : (used.map Prod.fst ++ rs.flatMap fun r => r.adds.map Prod.fst).Nodup)
    (hnames : (used.map (fun u => normalName env u.2) ++
      rs.flatMap fun r => r.adds.map fun u => normalName env u.2).Nodup) :
    ∃ used', Sound env row gws used' (runNodeRequests env rs w).core := by
  induction rs generalizing w used with
  | nil => exact ⟨used, hs⟩
  | cons r rs ih =>
    rw [List.flatMap_cons] at hids hnames
    have hu : ∀ u ∈ r.adds, Unused env used u := by
      intro u hu v hv
      constructor
      · exact (List.nodup_append.1 hids).2.2 _ (List.mem_map_of_mem hv) _
          (List.mem_append_left _ (List.mem_map_of_mem hu))
      · exact (List.nodup_append.1 hnames).2.2 _ (List.mem_map.2 ⟨v, hv, rfl⟩) _
          (List.mem_append_left _ (List.mem_map.2 ⟨u, hu, rfl⟩))
    refine ih (NodeRequest.run_sound hk hr hs (ho r (List.mem_cons_self ..)) hu)
      (fun r' hr' => ho r' (List.mem_cons_of_mem _ hr')) ?_ ?_
    · rwa [List.map_append, List.append_assoc]
    · rwa [List.map_append, List.append_assoc]

end Requests

/-- **The gateway pool of a ZGC.** After every sequence of additions and removals of nodes, in this
ZGC and in others, that reuses no id and no name and has no request that stops half-way, the tenant
droplets of the ZGC hold each address of its range once, if there is a droplet; each one holds an
address, with its MAC addresses. -/
theorem gateway_pool (env : Env) (mp : MacPrivate) (hmac : env.macPrivate = mp.val)
    (hkube : ∀ name, env.kubeFails name = false) (z : Text) (a b : Fin 4 → U8)
    (hab : octetsNat (List.ofFn a) ≤ octetsNat (List.ofFn b)) (w : World)
    (hzgc : w.zgcs.find? (fun r => r.zgcId = z) = some ⟨z, dotted a, dotted b⟩)
    (hempty : w.kube.objs = []) (rs : List NodeRequest) (ho : ∀ r ∈ rs, r.Orderly env)
    (hids : (w.nodes.map (fun r => r.nodeId) ++ rs.flatMap fun r => r.adds.map Prod.fst).Nodup)
    (hnames : (w.nodes.map (fun r => normalName env r.name) ++
      rs.flatMap fun r => r.adds.map fun u => normalName env u.2).Nodup) :
    ∃ gws, getGWsFromIpRange env.macPrivate (dotted a) (dotted b) = .ok gws ∧
      (gws.map fun g => g.ip).Nodup ∧
      GatewayPool (getMacFromIp env.macPrivate) (gws.map fun g => g.ip)
        ((runNodeRequests env rs w).kube.select (selectsTenant z)) := by
  obtain ⟨gws, hr⟩ : ∃ gws, RangeOf env ⟨z, dotted a, dotted b⟩ gws :=
    ⟨_, rangeOf_dotted env mp hmac a b hab z⟩
  have hsel : w.kube.select (selectsTenant z) = [] := by
    rw [Store.select, hempty]
    rfl
  have hs : Sound env ⟨z, dotted a, dotted b⟩ gws (w.nodes.map fun r => (r.nodeId, r.name)) w.core := by
    refine ⟨hzgc, fun r hmem => ?_, ⟨⟨fun hne => absurd hsel hne, ?_, ?_⟩, ?_, ?_⟩⟩
    · obtain ⟨r', hr', rfl⟩ := List.mem_map.1 hmem
      exact List.mem_map.2 ⟨r', hr', rfl⟩
    · exact fun d hd => absurd (hsel ▸ hd) List.not_mem_nil
    · exact fun d hd => absurd (hsel ▸ hd) List.not_mem_nil
    · exact fun d hd => absurd (hsel ▸ hd) List.not_mem_nil
    · exact fun o ho => absurd (hempty ▸ ho) List.not_mem_nil
  obtain ⟨used, hused⟩ := runNodeRequests_sound hkube hr hs ho (by rw [List.map_map]; exact hids)
    (by rw [List.map_map]; exact hnames)
  exact ⟨_, hr.range, hr.nodup, hused.kube.pool⟩

/-! ## Sample runs -/

/-- The ZGC from 10.0.0.1 to 10.0.0.4. -/
def fourAddresses : ZgcRow := ⟨"z".toList, dotted ![10, 0, 0, 1], dotted ![10, 0, 0, 4]⟩

/-- A node of the ZGC. -/
def zgcNode (name ip : String) : NodeBody :=
  ⟨"z".toList, name.toList, ip.toList, "eth1".toList, "eth2".toList⟩

/-- A complete request with a description. -/
def describedNode (name ip : String) : NodePost :=
  { (zgcNode name ip).post with others := "description".toList :: nodeColumns }

/-- The tenant droplets of the ZGC after requests. -/
def dropletsAfter (rs : List NodeRequest) : List Item :=
  (runNodeRequests .default rs (.start fourAddresses (.int 8300))).kube.select (selectsTenant "z".toList)

/-- Three nodes join, a request lacks its ZGC, and the first node leaves. -/
def orderlyRequests : List NodeRequest :=
  [.post "1".toList (describedNode "Node_A" "172.16.0.1"), .hazelcast "2".toList (zgcNode "Node_B" "172.16.0.2"),
    .post "3".toList { (zgcNode "Node_D" "172.16.0.4").post with zgcId := none },
    .post "4".toList (zgcNode "Node_C" "172.16.0.3"), .delete "1".toList]

theorem gateway_pool_sample :
    (∃ gws, getGWsFromIpRange Env.default.macPrivate (dotted ![10, 0, 0, 1]) (dotted ![10, 0, 0, 4]) =
        .ok gws ∧ (gws.map fun g => g.ip).Nodup ∧
      GatewayPool (getMacFromIp Env.default.macPrivate) (gws.map fun g => g.ip)
        (dropletsAfter orderlyRequests)) ∧
    (dropletsAfter orderlyRequests).map (fun d => d.body.spec.ip) =
      [["10.0.0.4".toList, "10.0.0.1".toList], ["10.0.0.2".toList, "10.0.0.3".toList]] := by
  refine ⟨?_, by decide +kernel⟩
  have hcomplete : (describedNode "Node_A" "172.16.0.1").Complete .default (zgcNode "Node_A" "172.16.0.1") :=
    ⟨rfl, rfl, rfl, rfl, rfl, .inl rfl, by decide, by decide⟩
  refine gateway_pool .default .default rfl (fun _ => rfl) "z".toList ![10, 0, 0, 1] ![10, 0, 0, 4]
    (by decide) _ rfl rfl orderlyRequests ?_ (by decide) (by decide)
  simp only [orderlyRequests, List.forall_mem_cons]
  exact ⟨.inl ⟨_, hcomplete⟩, rfl, .inr (by decide), .inl ⟨_, NodeBody.complete_post _ _⟩, trivial,
    List.forall_mem_nil _⟩

/-- A key that `Node` does not take, and a node that joins afterwards. -/
def foreignKey : List NodeRequest :=
  [.post "1".toList (zgcNode "Node_A" "172.16.0.1"),
    .post "2".toList { (zgcNode "Node_B" "172.16.0.2").post with others := "rack".toList :: nodeColumns },
    .post "3".toList (zgcNode "Node_C" "172.16.0.3")]

/-- A request without a name. -/
def noName : List NodeRequest :=
  [.post "1".toList (zgcNode "Node_A" "172.16.0.1"),
    .post "2".toList { (zgcNode "Node_B" "172.16.0.2").post with name := none }]

/-- A node from Hazelcast without a name. -/
def nullName : List NodeRequest :=
  [.post "1".toList (zgcNode "Node_A" "172.16.0.1"),
    .hazelcast "2".toList { (zgcNode "Node_B" "172.16.0.2").arionNode with name := none }]

/-- Requests that reuse no id and no name, after which the droplets do not hold the addresses of the ZGC. -/
def LosesAddress (rs : List NodeRequest) : Prop :=
  (rs.flatMap fun r => r.adds.map Prod.fst).Nodup ∧
    (rs.flatMap fun r => r.adds.map fun u => normalName .default u.2).Nodup ∧
    dropletsAfter rs ≠ [] ∧ ∃ gws, getGWsFromIpRange Env.default.macPrivate (dotted ![10, 0, 0, 1])
      (dotted ![10, 0, 0, 4]) = .ok gws ∧ ¬ (poolIps (dropletsAfter rs)).Perm (gws.map fun g => g.ip)

/-- **Requests that stop half-way lose an address**, although Kubernetes and the database refuse nothing. -/
theorem gateway_address_lost : LosesAddress foreignKey ∧ LosesAddress noName ∧ LosesAddress nullName := by
  refine ⟨⟨by decide, by decide, by decide +kernel, _, rfl, ?_⟩,
    ⟨by decide, by decide, by decide +kernel, _, rfl, ?_⟩, ⟨by decide, by decide, by decide +kernel, _, rfl, ?_⟩⟩
  all_goals
    intro hp
    have hlen := hp.length_eq
    revert hlen
    decide +kernel

end ArionDp
