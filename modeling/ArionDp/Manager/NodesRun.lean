import ArionDp.Manager.NodesPool

/-!
# Writes of node requests, run on a state

Equations for the writes of `nodes.py`, also where Kubernetes refuses one.

* `withGws`, `World.sent`: a row with other gateways, and a configuration that has been sent;
* **`updateExistingNodesGwIpsMacs_run`**, **`updateDroplet_run`**, **`createDroplet_run`**: the state
  after each write;
* **`singleNodeDelete_run`**: what a removal does once it has its plan.
-/

namespace ArionDp

open ApiServer Py

/-! ## Rows and configurations -/

/-- A row with other gateways, if it has the id. -/
def withGws (nodeId : Text) (gws : List GwAddr) (r : NodeRow) : NodeRow :=
  if r.nodeId = nodeId then { r with gws := gws } else r

section Rows

variable (nodeId : Text) (gws : List GwAddr) (r : NodeRow)

@[simp] theorem withGws_nodeId : (withGws nodeId gws r).nodeId = r.nodeId := by
  unfold withGws
  split_ifs <;> rfl

@[simp] theorem withGws_name : (withGws nodeId gws r).name = r.name := by
  unfold withGws
  split_ifs <;> rfl

@[simp] theorem withGws_ipControl : (withGws nodeId gws r).ipControl = r.ipControl := by
  unfold withGws
  split_ifs <;> rfl

theorem withGws_self : withGws r.nodeId gws r = { r with gws := gws } := if_pos rfl

theorem withGws_of_ne {r : NodeRow} (h : r.nodeId ≠ nodeId) : withGws nodeId gws r = r := if_neg h

/-- The second write of a row's gateways counts. -/
theorem withGws_withGws (gws' : List GwAddr) :
    withGws nodeId gws (withGws nodeId gws' r) = withGws nodeId gws r := by
  by_cases h : r.nodeId = nodeId
  · subst h
    rw [withGws_self]
    exact (if_pos rfl).trans (withGws_self gws r).symm
  · rw [withGws_of_ne _ gws' h]

/-- Rows are found by an address that no write changes. -/
theorem find?_withGws (nodes : List NodeRow) (ip : Text) :
    (nodes.map (withGws nodeId gws)).find? (fun r => r.ipControl = ip) =
      (nodes.find? fun r => r.ipControl = ip).map (withGws nodeId gws) := by
  rw [List.find?_map]
  refine congrArg (fun p => (nodes.find? p).map (withGws nodeId gws)) (funext fun r => ?_)
  rw [Function.comp_apply, withGws_ipControl]

end Rows

/-- The state after a configuration has been sent to a node. -/
def World.sent (w : World) (nodeIp : Text) (spec : DropletSpec) (entrances : List GwAddr) : World :=
  { w with itfConfs := w.itfConfs ++
      [(nodeIp, ⟨if spec.ip = [] then none else some spec.itf, spec.ip.length, entrances⟩)] }

/-- Addresses and MAC addresses in pairs. -/
theorem zipAddrs_ok {ips macs : List Text} (h : ips.length ≤ macs.length) :
    ∃ l, zipAddrs ips macs = .ok l ∧ l.map (fun g => g.ip) = ips ∧
      l.map (fun g => g.mac) = macs.take ips.length := by
  induction ips, macs using zipAddrs.induct with
  | case1 macs => exact ⟨[], rfl, rfl, rfl⟩
  | case2 ip ips => exact absurd h (Nat.not_succ_le_zero _)
  | case3 ip ips mac macs ih =>
    obtain ⟨l, hl, hip, hmac⟩ := ih (Nat.le_of_succ_le_succ h)
    refine ⟨⟨ip, mac⟩ :: l, ?_, ?_, ?_⟩
    · rw [zipAddrs, hl]
      rfl
    · rw [List.map_cons, hip]
    · rw [List.map_cons, hmac]
      rfl

theorem zipAddrs_length {ips macs : List Text} {l : List GwAddr} (h : zipAddrs ips macs = .ok l) :
    ips.length ≤ macs.length := by
  induction ips, macs using zipAddrs.induct generalizing l with
  | case1 macs => exact Nat.zero_le _
  | case2 ip ips => cases h
  | case3 ip ips mac macs ih =>
    obtain ⟨l', hl', -⟩ := bind_eq_ok.1 h
    exact Nat.succ_le_succ (ih hl')

/-- The pairs of a list of gateways. -/
theorem zipAddrs_map (gws : List GwAddr) :
    zipAddrs (gws.map fun g => g.ip) (gws.map fun g => g.mac) = .ok gws := by
  induction gws with
  | nil => rfl
  | cons g gws ih =>
    rw [List.map_cons, List.map_cons, zipAddrs, ih]
    rfl

theorem zipAddrs_eq {ips macs : List Text} (h : ips.length ≤ macs.length) :
    zipAddrs ips macs = .ok (List.zipWith GwAddr.mk ips macs) := by
  induction ips, macs using zipAddrs.induct with
  | case1 macs => rfl
  | case2 ip ips => exact absurd h (Nat.not_succ_le_zero _)
  | case3 ip ips mac macs ih =>
    rw [zipAddrs, ih (Nat.le_of_succ_le_succ h)]
    rfl

/-- What is sent for a droplet, and the node it is sent to. -/
def sentConf (e : Text × Droplet) : Text × ItfConf :=
  (e.2.nodeIp, ⟨if e.2.spec.ip = [] then none else some e.2.spec.itf, e.2.spec.ip.length,
    List.zipWith GwAddr.mk e.2.spec.ip e.2.spec.mac⟩)

/-! ## Writes -/

section Writes

variable {w : World}

theorem dropletUpdateItfConfig_run {spec : DropletSpec} {l : List GwAddr}
    (h : zipAddrs spec.ip spec.mac = .ok l) (nodeIp : Text) :
    dropletUpdateItfConfig nodeIp spec w = (.ok (), w.sent nodeIp spec l) := by
  rw [dropletUpdateItfConfig, bind_run, ofExcept_run, h]
  rfl

theorem logApiException_ok {c : Req Unit} {w' : World} (h : c w = (.ok (), w')) :
    logApiException c w = (.ok (), w') := by
  rw [logApiException, tryExcept, h]

theorem logApiException_refused {c : Req Unit} {w' : World} (h : c w = (.error .apiException, w')) :
    logApiException c w = (.ok (), w') := by
  rw [logApiException, tryExcept, h]
  rfl

variable {env : Env} {name : Text}

theorem kubeWrite_run {write : Kube → Option Kube} {k : Kube} (hk : env.kubeFails name = false)
    (h : write w.kube = some k) :
    kubeWrite env name write w = (.ok (), { w with kube := k }) := by
  rw [kubeWrite, bind_run, getState_run]
  dsimp only
  rw [hk, if_neg Bool.false_ne_true, h]
  rfl

/-- Kubernetes refuses a write, or there is something in its way. -/
theorem kubeWrite_refused {write : Kube → Option Kube}
    (h : env.kubeFails name = true ∨ write w.kube = none) :
    kubeWrite env name write w = (.error .apiException, w) := by
  rw [kubeWrite, bind_run, getState_run]
  dsimp only
  by_cases hk : env.kubeFails name = true
  · rw [if_pos hk, raise_run]
  · rw [if_neg hk, h.resolve_left hk]
    rfl

theorem updateDroplet_run {d : Item} (hk : env.kubeFails d.name = false) (hd : Current w.kube d)
    {l : List GwAddr} (hl : zipAddrs d.body.spec.ip d.body.spec.mac = .ok l) :
    updateDroplet env d w =
      (.ok (), { w with kube := w.kube.put d.name d.body }.sent d.body.nodeIp d.body.spec l) := by
  obtain ⟨o, ho, hv⟩ := hd
  have hrep : w.kube.replace d.name d.resourceVersion d.body = some (w.kube.put d.name d.body) := by
    rw [← hv]
    exact w.kube.replace_of_get? d.body ho
  refine logApiException_ok ?_
  rw [bind_run, kubeWrite_run hk hrep]
  exact dropletUpdateItfConfig_run hl _

theorem updateDroplet_refused {d : Item} (hk : env.kubeFails d.name = true) :
    updateDroplet env d w = (.ok (), w) := by
  refine logApiException_refused ?_
  rw [bind_run, kubeWrite_refused (.inl hk)]

theorem createDroplet_run (hk : env.kubeFails name = false) {ip mac : List Text}
    {itf nodeIp network zgcId : Text} {k : Kube}
    (h : w.kube.create name (dropletBody ip mac itf nodeIp network zgcId) = some k)
    {l : List GwAddr} (hl : zipAddrs ip mac = .ok l) :
    createDroplet env name ip mac itf nodeIp network zgcId w = (.ok (), { w with kube := k }.sent nodeIp
      (dropletBody ip mac itf nodeIp network zgcId).spec l) := by
  refine logApiException_ok ?_
  rw [bind_run, kubeWrite_run hk h]
  exact dropletUpdateItfConfig_run hl _

theorem createDroplet_refused {ip mac : List Text} {itf nodeIp network zgcId : Text}
    (h : env.kubeFails name = true ∨
      w.kube.create name (dropletBody ip mac itf nodeIp network zgcId) = none) :
    createDroplet env name ip mac itf nodeIp network zgcId w = (.ok (), w) := by
  refine logApiException_refused ?_
  rw [bind_run, kubeWrite_refused h]

/-- A droplet is deleted, if there is one and Kubernetes lets it go. -/
theorem deleteDroplet_run (env : Env) (name : Text) (w : World) : ∃ k : Kube,
    deleteDroplet env name w = (.ok (), { w with kube := k }) ∧ k.objs ⊆ w.kube.objs ∧
      (env.kubeFails name = false → ∀ o ∈ k.objs, o.name ≠ name) := by
  by_cases hmem : ∃ o ∈ w.kube.objs, o.name = name
  · obtain ⟨k, hk, hobjs⟩ := delete_of_mem w.kube hmem
    by_cases hf : env.kubeFails name = true
    · refine ⟨w.kube, logApiException_refused (kubeWrite_refused (.inl hf)), List.Subset.refl _, ?_⟩
      exact fun hc => absurd (hf.symm.trans hc) (by decide)
    · refine ⟨k, logApiException_ok (kubeWrite_run (eq_false_of_ne_true hf) hk), ?_, fun _ o ho => ?_⟩
      · rw [hobjs]
        exact fun o ho => List.mem_of_mem_filter ho
      · rw [hobjs] at ho
        exact of_decide_eq_true (List.mem_filter.1 ho).2
  · have hno : ∀ o ∈ w.kube.objs, o.name ≠ name := fun o ho hn => hmem ⟨o, ho, hn⟩
    exact ⟨w.kube, logApiException_refused (kubeWrite_refused (.inr (delete_of_notMem w.kube hno))),
      List.Subset.refl _, fun _ => hno⟩

/-- The row of a node gets the droplet's pairs. -/
theorem updateExistingNodesGwIpsMacs_run {nodeIp : Text} {r : NodeRow}
    (hr : w.nodes.find? (fun r => r.ipControl = nodeIp) = some r) {ips macs : List Text}
    {gws : List GwAddr} (hz : zipAddrs ips macs = .ok gws) :
    updateExistingNodesGwIpsMacs nodeIp ips macs w =
      (.ok (), { w with nodes := w.nodes.map (withGws r.nodeId gws) }) := by
  have hmap : (w.nodes.map (withGws r.nodeId [])).map (withGws r.nodeId gws) =
      w.nodes.map (withGws r.nodeId gws) := by
    rw [List.map_map]
    exact List.map_congr_left fun r' _ => withGws_withGws r.nodeId gws r' []
  rw [updateExistingNodesGwIpsMacs, bind_run, getState_run]
  dsimp only
  rw [hr]
  dsimp only
  rw [bind_run, setGws, modifyState_run]
  dsimp only
  rw [bind_run, ofExcept_run, hz]
  dsimp only
  rw [setGws, modifyState_run]
  exact congrArg (fun nodes => (Except.ok (), { w with nodes := nodes })) hmap

end Writes

/-! ## Removals -/

/-- What a removal does once it has its plan. -/
def carryOutRemoval (env : Env) (node : NodeRow) (modified : List Item) : Req NodeReply := do
  deleteDroplet env (tenantName env node.name)
  deleteDroplet env (zgcName env node.name)
  forEach (updateDroplet env) modified
  nodeUnloadTransitXdp node.ipControl
  modifyState fun w => { w with nodes := w.nodes.filter fun r => r.nodeId ≠ node.nodeId }
  pure .deleted

/-- **A removal step by step**: it looks for the droplet, makes a plan and carries it out. -/
theorem singleNodeDelete_run (env : Env) {w : World} {node : NodeRow}
    (hnode : w.nodes.find? (fun r => r.nodeId = node.nodeId) = some node) :
    ∃ all : List Item, all.Perm (w.kube.select (selectsTenant node.zgcId)) ∧
      singleNodeDelete env node.nodeId w =
        match all.find? fun d => d.name = tenantName env node.name with
        | none => (.ok (.error "Droplet not found"), w)
        | some d =>
          match planRemoval (getMacFromIp env.macPrivate) d.body.spec.ip (all.erase d) with
          | .error e => (.error e, w)
          | .ok modified => carryOutRemoval env node modified w := by
  have hlist : listDroplets env node.zgcId w =
      (.ok (env.order.run (w.kube.select (selectsTenant node.zgcId))), w) := rfl
  refine ⟨_, env.order.perm _, ?_⟩
  rw [singleNodeDelete, bind_run, getState_run]
  dsimp only
  rw [hnode]
  dsimp only
  rw [bind_run, hlist]
  dsimp only
  generalize env.order.run (w.kube.select (selectsTenant node.zgcId)) = all
  cases all.find? fun d => d.name = tenantName env node.name with
  | none => rfl
  | some d =>
    dsimp only
    rw [bind_run, ofExcept_run]
    cases planRemoval (getMacFromIp env.macPrivate) d.body.spec.ip (all.erase d) with
    | error e => rfl
    | ok modified => rfl

/-- A droplet of a ZGC is found by its name. -/
theorem find?_name {k : Kube} {z : Text} {all : List Item} (hall : all.Perm (k.select (selectsTenant z)))
    {d : Item} {name : Text} (hd : d ∈ all) (hn : d.name = name) :
    all.find? (fun e => e.name = name) = some d := by
  have hs : (all.find? fun e => e.name = name).isSome := List.find?_isSome.2 ⟨d, hd, decide_eq_true hn⟩
  obtain ⟨e, he⟩ := Option.isSome_iff_exists.1 hs
  have hen : e.name = name := by simpa using List.find?_some he
  have hk : ∀ e ∈ all, e ∈ k.objs := fun e he => (mem_select.1 (hall.mem_iff.1 he)).1
  rw [he, k.eq_of_name_eq (hk e (List.mem_of_find?_eq_some he)) (hk d hd) (hen.trans hn.symm)]

/-- The others, without the droplet, are none if it is the only one. -/
theorem erase_eq_nil_iff {k : Kube} {z : Text} {all : List Item}
    (hall : all.Perm (k.select (selectsTenant z))) {d : Item} (hd : d ∈ all) :
    all.erase d = [] ↔ ∀ e ∈ k.select (selectsTenant z), e.name = d.name := by
  have hn : all.Nodup := hall.nodup_iff.2 (List.Nodup.of_map _ (nodup_names_select k z))
  have hk : ∀ e ∈ all, e ∈ k.objs := fun e he => (mem_select.1 (hall.mem_iff.1 he)).1
  constructor
  · intro hnil e he
    by_contra hne
    have hmem : e ∈ all.erase d :=
      (List.mem_erase_of_ne fun hc => hne (congrArg _ hc)).2 (hall.mem_iff.2 he)
    rw [hnil] at hmem
    exact absurd hmem List.not_mem_nil
  · intro halone
    refine List.eq_nil_iff_forall_not_mem.2 fun e he => ?_
    have he' := List.mem_of_mem_erase he
    obtain rfl := k.eq_of_name_eq (hk e he') (hk d hd) (halone e (hall.mem_iff.1 he'))
    exact hn.not_mem_erase he

end ArionDp
