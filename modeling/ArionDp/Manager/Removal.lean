import ArionDp.Manager.GwRows

/-!
# Removals, half done

A removal ends with a call of `unload_transit_xdp` that has one argument too many, so that it raises
an exception after the droplet and the entry of `node_ips` are gone and before the row is.

* `Gone`, `Unchanged`: the two states that a removal may leave;
* `Refused`: what the handler finds out before it has written anything;
* **`delete_all_or_nothing_iff`**, and `removal_half_done`.
-/

namespace ArionDp

open ApiServer Py

/-! ## All or nothing -/

/-- **A node has been removed**: its droplet, whose addresses others have, its address in `node_ips`,
and its row. -/
structure Gone (env : Env) (w w' : World) (node : NodeRow) : Prop where
  droplet : ∀ d ∈ w'.kube.select (selectsTenant node.zgcId), d.name ≠ tenantName env node.name
  addresses : ∀ d ∈ w.kube.select (selectsTenant node.zgcId), d.name = tenantName env node.name →
    ∀ ip ∈ d.body.spec.ip, ∃ e ∈ w'.kube.select (selectsTenant node.zgcId), ip ∈ e.body.spec.ip
  nodeIps : node.ipControl ∉ w'.nodeIps.ips
  row : ∀ r ∈ w'.nodes, r.nodeId ≠ node.nodeId

/-- Droplets, `node_ips` and rows are as before. -/
structure Unchanged (w w' : World) : Prop where
  kube : w'.kube = w.kube
  nodeIps : w'.nodeIps = w.nodeIps
  nodes : w'.nodes = w.nodes

/-- **A removal is refused**: the node has no droplet, or the droplet has addresses and is the only
one, or an address of it cannot be read. -/
def Refused (env : Env) (w : World) (node : NodeRow) : Prop :=
  ∀ d ∈ w.kube.select (selectsTenant node.zgcId), d.name = tenantName env node.name →
    (d.body.spec.ip ≠ [] ∧
      ∀ e ∈ w.kube.select (selectsTenant node.zgcId), e.name = tenantName env node.name) ∨
    ∃ ip ∈ d.body.spec.ip, ∀ mac, getMacFromIp env.macPrivate ip ≠ .ok mac

/-! ## The handler after its plan -/

section Keeps

variable {env : Env} {name : Text}

/-- A droplet is gone, and no row has changed. -/
def NoDroplet (name : Text) (nodes : List NodeRow) (w : World) : Prop :=
  w.nodes = nodes ∧ ∀ o ∈ w.kube.objs, o.name ≠ name

theorem updateDroplet_noDroplet (nodes : List NodeRow) (d : Item) :
    Keeps (NoDroplet name nodes) (updateDroplet env d) := by
  have hsend : Keeps (NoDroplet name nodes) (dropletUpdateItfConfig d.body.nodeIp d.body.spec) :=
    Keeps.bind (Keeps.ofExcept _) fun _ => Keeps.modifyState fun _ h => h
  refine Keeps.tryExcept (Keeps.bind ?_ fun _ => hsend) fun e c hc => ?_
  · intro w hw
    by_cases hk : env.kubeFails d.name = true
    · rw [kubeWrite_refused (.inl hk)]
      exact hw
    · cases hrep : w.kube.replace d.name d.resourceVersion d.body with
      | none =>
        rw [kubeWrite_refused (.inr hrep)]
        exact hw
      | some k =>
        rw [kubeWrite_run (eq_false_of_ne_true hk) hrep]
        refine ⟨hw.1, forall_of_names (p := fun n => n ≠ name) ?_ hw.2⟩
        unfold Store.replace at hrep
        split at hrep
        · split_ifs at hrep
          obtain rfl := Option.some.inj hrep
          exact Store.map_name_update ..
        · cases hrep
  · split_ifs at hc
    · obtain rfl := Option.some.inj hc
      exact Keeps.pure ()
    · cases hc

theorem noDroplet_deleteDroplet (name : Text) (hk : ∀ n, env.kubeFails n = false) (w : World) :
    ∃ w₁ w₂, deleteDroplet env (tenantName env name) w = (.ok (), w₁) ∧
      deleteDroplet env (zgcName env name) w₁ = (.ok (), w₂) ∧
      NoDroplet (tenantName env name) w.nodes w₂ := by
  obtain ⟨k₁, h₁, -, hn₁⟩ := deleteDroplet_run env (tenantName env name) w
  obtain ⟨k₂, h₂, hs₂, -⟩ := deleteDroplet_run env (zgcName env name) { w with kube := k₁ }
  exact ⟨_, _, h₁, h₂, rfl, fun o ho => hn₁ (hk _) o (hs₂ ho)⟩

end Keeps

/-! ## The two ends -/

section Delete

variable {env : Env} {w : World} {node : NodeRow}

/-- A removal that is refused has changed nothing. -/
theorem delete_refused (hnode : w.nodes.find? (fun r => r.nodeId = node.nodeId) = some node)
    (h : Refused env w node) : Unchanged w (singleNodeDelete env node.nodeId w).2 := by
  obtain ⟨all, hall, hrun⟩ := singleNodeDelete_run env hnode
  rw [hrun]
  cases hfind : all.find? fun d => d.name = tenantName env node.name with
  | none => exact ⟨rfl, rfl, rfl⟩
  | some d =>
    have hda := List.mem_of_find?_eq_some hfind
    have hdn : d.name = tenantName env node.name := by simpa using List.find?_some hfind
    dsimp only
    cases hplan : planRemoval (getMacFromIp env.macPrivate) d.body.spec.ip (all.erase d) with
    | error e => exact ⟨rfl, rfl, rfl⟩
    | ok modified =>
      obtain ⟨hsome, hread⟩ := planRemoval_ok_iff.1 ⟨modified, hplan⟩
      rcases h d (hall.mem_iff.1 hda) hdn with ⟨hne, halone⟩ | ⟨ip, hip, hbad⟩
      · have hnil := (erase_eq_nil_iff hall hda).2 fun e he => (halone e he).trans hdn.symm
        exact absurd hnil (hsome.resolve_left hne)
      · obtain ⟨mac, hmac⟩ := hread ip hip
        exact absurd hmac (hbad mac)

/-- A removal that is not refused leaves the row, without the droplet. -/
theorem delete_not_refused (hk : ∀ n, env.kubeFails n = false)
    (hnode : w.nodes.find? (fun r => r.nodeId = node.nodeId) = some node) (h : ¬ Refused env w node) :
    (∃ d ∈ w.kube.objs, d.name = tenantName env node.name) ∧
      NoDroplet (tenantName env node.name) w.nodes (singleNodeDelete env node.nodeId w).2 := by
  obtain ⟨all, hall, hrun⟩ := singleNodeDelete_run env hnode
  unfold Refused at h
  push Not at h
  obtain ⟨d, hd, hdn, hothers, hread⟩ := h
  have hplan : ∃ modified,
      planRemoval (getMacFromIp env.macPrivate) d.body.spec.ip (all.erase d) = .ok modified := by
    refine planRemoval_ok_iff.2 ⟨or_iff_not_imp_left.2 fun hne hnil => ?_, hread⟩
    obtain ⟨e, he, hen⟩ := hothers hne
    exact hen (((erase_eq_nil_iff hall (hall.mem_iff.2 hd)).1 hnil e he).trans hdn)
  obtain ⟨modified, hplan⟩ := hplan
  refine ⟨⟨d, (mem_select.1 hd).1, hdn⟩, ?_⟩
  rw [hrun, find?_name hall (hall.mem_iff.2 hd) hdn]
  dsimp only
  rw [hplan]
  dsimp only
  obtain ⟨w₁, w₂, h₁, h₂, hw₂⟩ := noDroplet_deleteDroplet node.name hk w
  rw [carryOutRemoval, bind_run, h₁]
  dsimp only
  rw [bind_run, h₂]
  refine Triple.final (Triple.bind (Keeps.forEach (updateDroplet_noDroplet w.nodes) modified) fun _ =>
    Triple.bind (Q := fun _ _ => False) ?_ fun _ _ h => h.elim) hw₂
  exact Triple.bind (Q := fun _ => NoDroplet (tenantName env node.name) w.nodes)
    (Triple.modifyState fun _ h => h) fun _ => Triple.raise fun _ h => h

end Delete

/-- **A removal is all or nothing exactly when it is refused.** Where Kubernetes refuses nothing, it
ends with the node gone or with everything as before if and only if the handler raises an exception,
or replies that there is no droplet, before its first write. -/
theorem delete_all_or_nothing_iff (env : Env) (hk : ∀ name, env.kubeFails name = false) (w : World)
    (node : NodeRow) (hnode : w.nodes.find? (fun r => r.nodeId = node.nodeId) = some node) :
    Gone env w (singleNodeDelete env node.nodeId w).2 node ∨
      Unchanged w (singleNodeDelete env node.nodeId w).2 ↔ Refused env w node := by
  constructor
  · intro hend
    by_contra h
    obtain ⟨⟨d, hd, hdn⟩, hrows, hno⟩ := delete_not_refused hk hnode h
    rcases hend with hgone | hsame
    · exact hgone.row node (hrows ▸ List.mem_of_find?_eq_some hnode) rfl
    · exact hno d (hsame.kube ▸ hd) hdn
  · exact fun h => .inr (delete_refused hnode h)

/-- The row of the node that has joined first. -/
def firstRow (w : World) : NodeRow := w.nodes.headD (newRow [] [] (fourNode "" "") [])

/-- A node whose droplet is the only one. -/
theorem delete_all_or_nothing_iff_sample :
    let w := runNodeOps .default [.post "1".toList (fourNode "Node_A" "172.16.0.1")]
      (.start fourZgc (.int 8300))
    Gone .default w (singleNodeDelete .default (firstRow w).nodeId w).2 (firstRow w) ∨
      Unchanged w (singleNodeDelete .default (firstRow w).nodeId w).2 ↔
        Refused .default w (firstRow w) :=
  delete_all_or_nothing_iff .default (fun _ => rfl) _ _ (by decide +kernel)

/-- **A removal is half done**: with two nodes, the droplet and the address in `node_ips` of the first
one are gone, and its row is there. -/
theorem removal_half_done :
    let w := runNodeOps .default twoJoin (.start fourZgc (.int 8300))
    let w' := (singleNodeDelete .default (firstRow w).nodeId w).2
    (∀ name, Env.default.kubeFails name = false) ∧
    w.nodes.find? (fun r => r.nodeId = (firstRow w).nodeId) = some (firstRow w) ∧
    ¬ (Gone .default w w' (firstRow w) ∨ Unchanged w w') ∧
    w'.kube.objs.map Obj.name = ["droplet-tenant-node-b".toList] ∧
    w'.nodeIps.ips = ["172.16.0.2".toList] ∧
    w'.nodes.map (fun r => r.name) = ["Node_A".toList, "Node_B".toList] := by
  intro w w'
  refine ⟨fun _ => rfl, by decide +kernel, ?_, by decide +kernel, by decide +kernel, by decide +kernel⟩
  rintro (hgone | hsame)
  · exact absurd hgone.row (by decide +kernel)
  · exact absurd (congrArg (fun k : Kube => k.objs.length) hsame.kube) (by decide +kernel)

end ArionDp
