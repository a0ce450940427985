import ArionDp.Lib.Runs
import ArionDp.Manager.NodesRun

/-!
# The database's gateways

`Gw` rows repeat what the droplets list. An addition writes the rows of every droplet that it takes
addresses from; a removal writes none of those that it gives them to.

* `GwsMatch`: every node with a droplet has the droplet's pairs as its rows;
* `NodeOp.Mirrors`: the steps that keep it;
* **`addNode_mirrored`**: what one addition does to rows and droplets;
* **`run_gws_match`**: the runs of such steps, and `removal_leaves_old_gws`.
-/

namespace ArionDp

open ApiServer Py Inet

/-! ## Rows and droplets -/

/-- A droplet lists these pairs. -/
def Lists (d : Item) (gws : List GwAddr) : Prop :=
  (gws.map fun g => g.ip) = d.body.spec.ip ∧ (gws.map fun g => g.mac) = d.body.spec.mac

instance (d : Item) (gws : List GwAddr) : Decidable (Lists d gws) :=
  inferInstanceAs (Decidable ((gws.map fun g => g.ip) = d.body.spec.ip ∧
    (gws.map fun g => g.mac) = d.body.spec.mac))

/-- **Every node with a droplet has its pairs as `Gw` rows.** -/
def GwsMatch (env : Env) (k : Kube) (nodes : List NodeRow) : Prop :=
  ∀ r ∈ nodes, ∀ d ∈ k.objs, d.name = tenantName env r.name → Lists d r.gws

instance (env : Env) (k : Kube) (nodes : List NodeRow) : Decidable (GwsMatch env k nodes) :=
  inferInstanceAs (Decidable (∀ r ∈ nodes, ∀ d ∈ k.objs, d.name = tenantName env r.name →
    Lists d r.gws))

/-- Ids of rows are unique, and so are the names of their droplets. -/
structure RowsUnique (env : Env) (nodes : List NodeRow) : Prop where
  ids : (nodes.map fun r => r.nodeId).Nodup
  names : (nodes.map fun r => normalName env r.name).Nodup

/-- The row that is found for a droplet's node is the one the droplet is named for. -/
def RowFound (env : Env) (nodes : List NodeRow) (d : Item) : Prop :=
  ∃ r, nodes.find? (fun r => r.ipControl = d.body.nodeIp) = some r ∧ d.name = tenantName env r.name

instance (env : Env) (nodes : List NodeRow) (d : Item) : Decidable (RowFound env nodes d) :=
  inferInstanceAs (Decidable (∃ r ∈ nodes.find? (fun r => r.ipControl = d.body.nodeIp),
    d.name = tenantName env r.name))

section Rows

variable {env : Env} {k : Kube} {nodes : List NodeRow}

theorem RowsUnique.withGws (h : RowsUnique env nodes) (nodeId : Text) (gws : List GwAddr) :
    RowsUnique env (nodes.map (withGws nodeId gws)) where
  ids := by
    rw [List.map_map]
    exact (List.map_congr_left fun r _ => withGws_nodeId nodeId gws r) ▸ h.ids
  names := by
    rw [List.map_map]
    exact (List.map_congr_left fun r _ => congrArg (normalName env) (withGws_name nodeId gws r)) ▸
      h.names

theorem RowFound.withGws {d : Item} (h : RowFound env nodes d) (nodeId : Text) (gws : List GwAddr) :
    RowFound env (nodes.map (withGws nodeId gws)) d := by
  obtain ⟨r, hr, hd⟩ := h
  refine ⟨ArionDp.withGws nodeId gws r, ?_, ?_⟩
  · rw [find?_withGws, hr, Option.map_some]
  · rw [withGws_name, hd]

/-- **A droplet and its row are written together.** -/
theorem GwsMatch.write (h : GwsMatch env k nodes) (hu : RowsUnique env nodes) {r : NodeRow}
    (hr : r ∈ nodes) {d : Item} (hd : d.name = tenantName env r.name) {gws : List GwAddr}
    (hl : Lists d gws) : GwsMatch env (k.put d.name d.body) (nodes.map (withGws r.nodeId gws)) := by
  intro r' hr' o ho hon
  obtain ⟨r₀, hr₀, rfl⟩ := List.mem_map.1 hr'
  rw [withGws_name] at hon
  rcases k.mem_put.1 ho with ⟨ho, hne⟩ | ⟨rfl, -⟩
  · have hid : r₀.nodeId ≠ r.nodeId := by
      intro hc
      obtain rfl := List.inj_on_of_nodup_map hu.ids hr₀ hr hc
      exact hne (hon.trans hd.symm)
    rw [withGws_of_ne _ _ hid]
    exact h r₀ hr₀ o ho hon
  · obtain rfl := List.inj_on_of_nodup_map hu.names hr₀ hr (tenantName_inj (hon.symm.trans hd))
    rw [withGws_self]
    exact hl

/-- A node comes with its droplet. -/
theorem GwsMatch.add (h : GwsMatch env k nodes) {k' : Kube} (row : NodeRow) {v : ℕ} {body : Droplet}
    (hobjs : k'.objs = k.objs ++ [⟨tenantName env row.name, v, body⟩])
    (hfresh : ∀ o ∈ k.objs, o.name ≠ tenantName env row.name)
    (hnew : ∀ r ∈ nodes, normalName env r.name ≠ normalName env row.name)
    (hl : Lists ⟨tenantName env row.name, v, body⟩ row.gws) : GwsMatch env k' (nodes ++ [row]) := by
  intro r hr o ho hon
  rw [hobjs] at ho
  rcases List.mem_append.1 hr with hold | hrow <;> rcases List.mem_append.1 ho with ho' | hobj
  · exact h r hold o ho' hon
  · obtain rfl := List.mem_singleton.1 hobj
    exact absurd (tenantName_inj hon.symm) (hnew r hold)
  · obtain rfl := List.mem_singleton.1 hrow
    exact absurd hon (hfresh o ho')
  · obtain rfl := List.mem_singleton.1 hrow
    obtain rfl := List.mem_singleton.1 hobj
    exact hl

/-- A node comes without a droplet. -/
theorem GwsMatch.addBare (h : GwsMatch env k nodes) {row : NodeRow}
    (hfresh : ∀ o ∈ k.objs, o.name ≠ tenantName env row.name) : GwsMatch env k (nodes ++ [row]) := by
  intro r hr o ho hon
  rcases List.mem_append.1 hr with hr | hr
  · exact h r hr o ho hon
  · obtain rfl := List.mem_singleton.1 hr
    exact absurd hon (hfresh o ho)

theorem RowsUnique.add (h : RowsUnique env nodes) {row : NodeRow}
    (hnew : ∀ r ∈ nodes, r.nodeId ≠ row.nodeId ∧ normalName env r.name ≠ normalName env row.name) :
    RowsUnique env (nodes ++ [row]) where
  ids := by
    rw [List.map_append, List.map_singleton, ← List.concat_eq_append]
    refine h.ids.concat fun hc => ?_
    obtain ⟨r, hr, hn⟩ := List.mem_map.1 hc
    exact (hnew r hr).1 hn
  names := by
    rw [List.map_append, List.map_singleton, ← List.concat_eq_append]
    refine h.names.concat fun hc => ?_
    obtain ⟨r, hr, hn⟩ := List.mem_map.1 hc
    exact (hnew r hr).2 hn

/-- Droplets may go. -/
theorem GwsMatch.subset (h : GwsMatch env k nodes) {k' : Kube} (hs : k'.objs ⊆ k.objs) :
    GwsMatch env k' nodes := fun r hr d hd => h r hr d (hs hd)

end Rows

/-! ## Steps -/

/-- An addition mirrors what it writes: the new id and droplet name are free, and the row of each
droplet with two addresses is the one that is found by its node's address. -/
def AddMirrors (env : Env) (w : World) (zgcId nodeId : Text) (b : NodeBody) : Prop :=
  (∀ d ∈ w.kube.objs, d.name ≠ tenantName env b.name) ∧
  (∀ r ∈ w.nodes, r.nodeId ≠ nodeId ∧ normalName env r.name ≠ normalName env b.name) ∧
  ∀ d ∈ w.kube.select (selectsTenant zgcId), 1 < d.body.spec.ip.length → RowFound env w.nodes d

instance (env : Env) (w : World) (zgcId nodeId : Text) (b : NodeBody) :
    Decidable (AddMirrors env w zgcId nodeId b) :=
  inferInstanceAs (Decidable ((∀ d ∈ w.kube.objs, d.name ≠ tenantName env b.name) ∧
    (∀ r ∈ w.nodes, r.nodeId ≠ nodeId ∧ normalName env r.name ≠ normalName env b.name) ∧
    ∀ d ∈ w.kube.select (selectsTenant zgcId), 1 < d.body.spec.ip.length → RowFound env w.nodes d))

/-- **The steps that keep rows and droplets together**: a removal finds no droplet of the node, or
there is nothing to give or nobody to give it to. -/
def NodeOp.Mirrors (env : Env) : NodeOp → World → Prop
  | .post nodeId b, w => AddMirrors env w b.zgcId nodeId b
  | .hazelcast nodeId b, w => ∀ z ∈ w.activeZgc, AddMirrors env w z.zgcId nodeId b
  | .delete nodeId, w => ∀ node ∈ w.nodes.find? fun r => r.nodeId = nodeId,
      ∀ d ∈ w.kube.select (selectsTenant node.zgcId), d.name = tenantName env node.name →
        d.body.spec.ip = [] ∨
          ∀ e ∈ w.kube.select (selectsTenant node.zgcId), e.name = tenantName env node.name

instance (env : Env) : ∀ (op : NodeOp) (w : World), Decidable (op.Mirrors env w)
  | .post nodeId b, w => inferInstanceAs (Decidable (AddMirrors env w b.zgcId nodeId b))
  | .hazelcast nodeId b, w =>
    inferInstanceAs (Decidable (∀ z ∈ w.activeZgc, AddMirrors env w z.zgcId nodeId b))
  | .delete nodeId, w =>
    inferInstanceAs (Decidable (∀ node ∈ w.nodes.find? fun r => r.nodeId = nodeId,
      ∀ d ∈ w.kube.select (selectsTenant node.zgcId), d.name = tenantName env node.name →
        d.body.spec.ip = [] ∨
          ∀ e ∈ w.kube.select (selectsTenant node.zgcId), e.name = tenantName env node.name))

/-- A request as a step. -/
def nodeStep (env : Env) (op : NodeOp) (w : World) : Option World := some (op.run env w)

/-- Rows and droplets between requests. -/
structure Mirrored (env : Env) (w : World) : Prop where
  gws : GwsMatch env w.kube w.nodes
  unique : RowsUnique env w.nodes

/-- While the droplets in `todo` are written: names and rows without gateways are the old ones. -/
structure Writing (env : Env) (names : List Text) (bare : List NodeRow) (todo : List Item) (w : World) :
    Prop extends Mirrored env w where
  names : w.kube.objs.map Obj.name = names
  bare : w.nodes.map NodeRow.bare = bare
  distinct : (todo.map fun d => d.name).Nodup
  current : ∀ d ∈ todo, Current w.kube d
  found : ∀ d ∈ todo, RowFound env w.nodes d
  even : ∀ d ∈ todo, d.body.spec.mac.length = d.body.spec.ip.length

section Additions

variable {env : Env} (hk : ∀ n, env.kubeFails n = false)

include hk

/-- One round of the loop over the changed droplets. -/
theorem updateNodeAndDroplet_writing {names : List Text} {bare : List NodeRow} (d : Item)
    (todo : List Item) : Triple (Writing env names bare (d :: todo)) (updateNodeAndDroplet env d)
      (fun _ => Writing env names bare todo) fun _ _ => False := by
  intro w h
  obtain ⟨r, hr, hdr⟩ := h.found d (List.mem_cons_self ..)
  have heven := h.even d (List.mem_cons_self ..)
  have hcur := h.current d (List.mem_cons_self ..)
  obtain ⟨gws, hz, hip, hmac⟩ := zipAddrs_ok heven.ge
  rw [List.take_of_length_le heven.le] at hmac
  have hrun : updateNodeAndDroplet env d w = (.ok (), World.sent { w with
      nodes := w.nodes.map (withGws r.nodeId gws), kube := w.kube.put d.name d.body }
        d.body.nodeIp d.body.spec gws) := by
    rw [updateNodeAndDroplet, bind_run, updateExistingNodesGwIpsMacs_run hr hz]
    exact updateDroplet_run (w := { w with nodes := w.nodes.map (withGws r.nodeId gws) }) (hk _) hcur hz
  rw [hrun]
  have hdistinct := h.distinct
  rw [List.map_cons, List.nodup_cons] at hdistinct
  refine ⟨⟨h.gws.write h.unique (List.mem_of_find?_eq_some hr) hdr ⟨hip, hmac⟩,
    h.unique.withGws r.nodeId gws⟩, (Store.map_name_update ..).trans h.names, ?_, hdistinct.2,
    fun e he => ?_, fun e he => (h.found e (List.mem_cons_of_mem _ he)).withGws r.nodeId gws,
    fun e he => h.even e (List.mem_cons_of_mem _ he)⟩
  · rw [← h.bare]
    refine (List.map_map ..).trans (List.map_congr_left fun r' _ => ?_)
    rw [Function.comp_apply, withGws]
    split_ifs <;> rfl
  · obtain ⟨o, ho, hv⟩ := h.current e (List.mem_cons_of_mem _ he)
    refine ⟨o, (w.kube.get?_put_of_ne _ fun hc => ?_).trans ho, hv⟩
    exact hdistinct.1 (hc ▸ List.mem_map_of_mem he)

/-- The row of a new node. -/
def newRow (zgcId nodeId : Text) (b : NodeBody) (gws : List GwAddr) : NodeRow :=
  ⟨nodeId, zgcId, b.name, b.ipControl, b.infTenant, b.infZgc, gws⟩

omit hk in
theorem forall_of_bare {nodes nodes' : List NodeRow} {p : Text → Text → Prop}
    (hb : nodes'.map NodeRow.bare = nodes.map NodeRow.bare) (h : ∀ r ∈ nodes, p r.nodeId r.name) :
    ∀ r ∈ nodes', p r.nodeId r.name := by
  intro r hr
  have hmem : r.bare ∈ nodes.map NodeRow.bare := hb ▸ List.mem_map_of_mem hr
  obtain ⟨r', hr', he⟩ := List.mem_map.1 hmem
  have hid : r'.nodeId = r.nodeId := (congrArg (fun r => r.nodeId) he :)
  have hname : r'.name = r.name := (congrArg (fun r => r.name) he :)
  rw [← hid, ← hname]
  exact h r' hr'

omit hk in
theorem forall_of_names {k k' : Kube} {p : Text → Prop}
    (hn : k'.objs.map Obj.name = k.objs.map Obj.name) (h : ∀ o ∈ k.objs, p o.name) :
    ∀ o ∈ k'.objs, p o.name := by
  intro o ho
  have hmem : o.name ∈ k.objs.map Obj.name := hn ▸ List.mem_map_of_mem ho
  obtain ⟨o', ho', hn'⟩ := List.mem_map.1 hmem
  exact hn' ▸ h o' ho'

/-- The rows with the new one match the droplets. -/
structure ReadyFor (env : Env) (w : World) (row : NodeRow) (s : World) : Prop extends Mirrored env s where
  added : GwsMatch env s.kube (s.nodes ++ [row])
  bare : s.nodes.map NodeRow.bare = w.nodes.map NodeRow.bare

/-- The droplet of a new node. -/
theorem createDroplet_ready {w s : World} {zgcId : Text} (nodeId : Text) {b : NodeBody}
    (ha : AddMirrors env w zgcId nodeId b) (hs : Mirrored env s)
    (hn : s.kube.objs.map Obj.name = w.kube.objs.map Obj.name)
    (hb : s.nodes.map NodeRow.bare = w.nodes.map NodeRow.bare) {ips macs : List Text}
    {gws : List GwAddr} (hz : zipAddrs ips macs = .ok gws) (hip : gws.map (fun g => g.ip) = ips)
    (hmac : gws.map (fun g => g.mac) = macs) :
    ∃ s', createDroplet env (tenantName env b.name) ips macs b.infTenant b.ipControl
      "tenant".toList zgcId s = (.ok (), s') ∧ ReadyFor env w (newRow zgcId nodeId b gws) s' := by
  have hfresh : ∀ o ∈ s.kube.objs, o.name ≠ tenantName env b.name :=
    forall_of_names (p := fun n => n ≠ tenantName env b.name) hn ha.1
  have hrows := forall_of_bare
    (p := fun id name => id ≠ nodeId ∧ normalName env name ≠ normalName env b.name) hb ha.2.1
  obtain ⟨K, hK, -⟩ := create_of_fresh s.kube
    (dropletBody ips macs b.infTenant b.ipControl "tenant".toList zgcId) hfresh
  have hobjs := objs_create hK
  refine ⟨_, createDroplet_run (hk _) hK hz, ⟨fun r hr o ho hon => ?_, hs.unique⟩, ?_, hb⟩
  · refine (hs.gws.add (newRow zgcId nodeId b gws) hobjs hfresh (fun r hr => (hrows r hr).2)
      ⟨hip, hmac⟩) r (List.mem_append_left _ hr) o ho hon
  · exact hs.gws.add _ hobjs hfresh (fun r hr => (hrows r hr).2) ⟨hip, hmac⟩

/-- The droplets of a plan are written with their rows. -/
theorem forEach_writing {w : World} (hw : Mirrored env w) {zgcId nodeId : Text} {b : NodeBody}
    (ha : AddMirrors env w zgcId nodeId b) {all : List Item}
    (hall : all.Perm (w.kube.select (selectsTenant zgcId))) {p : Plan}
    (hplan : planAddition (getMacFromIp env.macPrivate) all = .ok (some p)) :
    p.macs.length = p.ips.length ∧
      Triple (fun s => s = w) (forEach (updateNodeAndDroplet env) p.modified)
        (fun _ => Writing env (w.kube.objs.map Obj.name) (w.nodes.map NodeRow.bare) [])
        fun _ _ => False := by
  obtain ⟨items, hp, -⟩ := planAddition_planned all _ hplan p rfl
  obtain ⟨hlen, hdrawn⟩ := planAddition_drawn all _ hplan p rfl
  have hv := hp.versions hall
  refine ⟨hlen, (Triple.forEach (fun _ todo => Writing env (w.kube.objs.map Obj.name)
    (w.nodes.map NodeRow.bare) todo) (fun _ d todo => updateNodeAndDroplet_writing hk d todo) []
    p.modified).conseq ?_ (fun _ _ h => h) fun _ _ h => h⟩
  rintro s rfl
  have hfrom : ∀ d' ∈ p.modified, ∃ d ∈ s.kube.select (selectsTenant zgcId), SameLabels d d' ∧
      RowFound env s.nodes d ∧ d'.body.spec.mac.length = d'.body.spec.ip.length := by
    intro d' hd'
    obtain ⟨d, hd, hsame, hip, -, -, hbal⟩ := hdrawn d' hd'
    have hd := hall.mem_iff.1 hd
    obtain ⟨r, hr, hname⟩ := ha.2.2 d hd hip
    have hl := hw.gws r (List.mem_of_find?_eq_some hr) d (mem_select.1 hd).1 hname
    have h1 := congrArg List.length hl.1
    have h2 := congrArg List.length hl.2
    rw [List.length_map] at h1 h2
    exact ⟨d, hd, hsame, ⟨r, hr, hname⟩, by omega⟩
  refine ⟨hw, rfl, rfl, hv.nodup, hv.current, fun d' hd' => ?_, fun d' hd' => ?_⟩
  · obtain ⟨d, -, ⟨_, _, rfl⟩, hfound, -⟩ := hfrom d' hd'
    exact hfound
  · obtain ⟨-, -, -, -, heven⟩ := hfrom d' hd'
    exact heven

/-- **The droplet of a new node, and its gateways.** -/
theorem newNodeGws_mirrored {w : World} (hw : Mirrored env w) {zgcId nodeId : Text} {b : NodeBody}
    (ha : AddMirrors env w zgcId nodeId b) :
    Triple (fun s => s = w) (newNodeGws env zgcId b)
      (fun o s => Mirrored env s ∧ ∀ gws ∈ o, ReadyFor env w (newRow zgcId nodeId b gws) s)
      fun _ s => Mirrored env s := by
  rw [newNodeGws_post]
  refine Triple.bind (Q := fun all s => all.Perm (w.kube.select (selectsTenant zgcId)) ∧ s = w) ?_
    fun all => ?_
  · rintro s rfl
    exact ⟨env.order.perm _, rfl⟩
  refine Triple.assume (fun _ h => h.1) fun hall => Triple.conseq (P := fun s => s = w) ?_
    (fun _ h => h.2) (fun _ _ h => h) fun _ _ h => h
  refine Triple.bind_ofExcept (fun _ _ => ?_) fun _ s _ h => h ▸ hw
  refine Triple.ite (fun _ => ?_) fun _ => ?_
  · refine Triple.bind_ofExcept (fun o ho => ?_) fun _ s _ h => h ▸ hw
    cases o with
    | none =>
      refine Triple.pure ?_
      rintro s rfl
      refine ⟨hw, fun gws hgws => ?_⟩
      obtain rfl := Option.mem_some_iff.1 hgws
      exact ⟨hw, hw.gws.addBare ha.1, rfl⟩
    | some p =>
      obtain ⟨hlen, hloop⟩ := forEach_writing hk hw ha hall ho
      obtain ⟨gws, hz, hip, hmac⟩ := zipAddrs_ok hlen.ge
      rw [List.take_of_length_le hlen.le] at hmac
      refine Triple.bind (hloop.exc fun _ _ h => h.elim) fun _ => ?_
      intro s hs
      obtain ⟨s', hrun, hready⟩ := createDroplet_ready hk nodeId ha hs.toMirrored hs.names hs.bare hz hip
        hmac
      dsimp only
      rw [bind_run, hrun]
      dsimp only
      rw [bind_run, ofExcept_run, hz]
      refine ⟨hready.toMirrored, fun gws' hgws' => ?_⟩
      obtain rfl := Option.mem_some_iff.1 hgws'
      exact hready
  · refine Triple.bind Triple.getState fun w' => ?_
    cases w'.zgcs.find? fun r => r.zgcId = zgcId with
    | none => exact Triple.pure fun s h => ⟨h.2 ▸ hw, fun _ h => nomatch h⟩
    | some zgc =>
      refine Triple.bind_ofExcept (fun gws _ => ?_) fun _ s _ h => h.2 ▸ hw
      rintro s ⟨-, rfl⟩
      obtain ⟨s', hrun, hready⟩ := createDroplet_ready hk nodeId ha hw rfl rfl
        (zipAddrs_map gws) rfl rfl
      rw [bind_run, hrun]
      refine ⟨hready.toMirrored, fun gws' hgws' => ?_⟩
      obtain rfl := Option.mem_some_iff.1 hgws'
      exact hready

/-- **An addition writes rows and droplets together**, or raises before it has written anything. -/
theorem addNode_mirrored {w : World} (hw : Mirrored env w) {zgcId nodeId : Text} {b : NodeBody}
    (ha : AddMirrors env w zgcId nodeId b) :
    Triple (fun s => s = w) (addNode env zgcId nodeId b) (fun _ => Mirrored env)
      fun _ => Mirrored env := by
  rw [addNode_post]
  refine Triple.bind (newNodeGws_mirrored hk hw ha) fun o => ?_
  cases o with
  | none => exact Triple.pure fun s h => h.1
  | some gws =>
    intro s hs
    have hready := hs.2 gws rfl
    have hrows := forall_of_bare
      (p := fun id name => id ≠ nodeId ∧ normalName env name ≠ normalName env b.name) hready.bare ha.2.1
    have hno : ¬ ∃ r ∈ s.nodes, r.nodeId = nodeId ∨ r.name = b.name := by
      rintro ⟨r, hr, hid | hname⟩
      · exact (hrows r hr).1 hid
      · exact (hrows r hr).2 (congrArg _ hname)
    have hrun : dbAddNode ⟨nodeId, zgcId, b.name, b.ipControl, b.infTenant, b.infZgc, gws⟩ s =
        (.ok (), { s with nodes := s.nodes ++ [newRow zgcId nodeId b gws] }) := by
      rw [dbAddNode, bind_run, getState_run]
      dsimp only
      rw [if_neg hno, modifyState_run]
      rfl
    dsimp only
    rw [bind_run, hrun]
    exact ⟨hready.added, hready.unique.add hrows⟩

/-! ## Removals -/

omit hk in
/-- **A removal that has nothing to give, or nobody to give it to, changes no row and no other
droplet.** -/
theorem singleNodeDelete_mirrored {w : World} (hw : Mirrored env w) {nodeId : Text}
    (hd : (NodeOp.delete nodeId).Mirrors env w) : Mirrored env (singleNodeDelete env nodeId w).2 := by
  cases hnode : w.nodes.find? fun r => r.nodeId = nodeId with
  | none =>
    rw [singleNodeDelete, bind_run, getState_run]
    dsimp only
    rw [hnode]
    exact hw
  | some node =>
    obtain rfl : node.nodeId = nodeId := by simpa using List.find?_some hnode
    obtain ⟨all, hall, hrun⟩ := singleNodeDelete_run env hnode
    rw [hrun]
    cases hfind : all.find? fun d => d.name = tenantName env node.name with
    | none => exact hw
    | some d =>
      have hda := List.mem_of_find?_eq_some hfind
      have hdk := hall.mem_iff.1 hda
      have hdn : d.name = tenantName env node.name := by simpa using List.find?_some hfind
      dsimp only
      cases hplan : planRemoval (getMacFromIp env.macPrivate) d.body.spec.ip (all.erase d) with
      | error e => exact hw
      | ok modified =>
        -- where the plan succeeds there is nothing to give
        have hnil : d.body.spec.ip = [] := by
          refine (hd node hnode d hdk hdn).elim id fun halone => ?_
          by_contra hne
          exact planRemoval_somebody hne hplan
            ((erase_eq_nil_iff hall hda).2 fun e he => (halone e he).trans hdn.symm)
        have hmod : modified = [] := by
          rw [hnil] at hplan
          exact (Except.ok.inj hplan).symm
        obtain ⟨k₁, h₁, hs₁, -⟩ := deleteDroplet_run env (tenantName env node.name) w
        obtain ⟨k₂, h₂, hs₂, -⟩ := deleteDroplet_run env (zgcName env node.name) { w with kube := k₁ }
        dsimp only
        rw [carryOutRemoval, bind_run, h₁]
        dsimp only
        rw [bind_run, h₂, hmod]
        exact ⟨hw.gws.subset (List.Subset.trans hs₂ hs₁), hw.unique⟩

/-! ## Runs -/

omit hk in
/-- Loading the program of a node concerns neither rows nor droplets. -/
theorem nodeLoadTransitXdp_mirrored (ip zgcId nodeId : Text) (b : NodeBody) :
    Keeps (fun w => Mirrored env w ∧ AddMirrors env w zgcId nodeId b) (nodeLoadTransitXdp ip) := by
  refine Keeps.bind (Keeps.modifyState fun _ h => ⟨⟨h.1.gws, h.1.unique⟩, h.2⟩) fun _ => ?_
  refine Keeps.bind Keeps.getState fun w => ?_
  cases w.activeZgc with
  | none => exact Keeps.raise _
  | some z =>
    exact Keeps.bind (Keeps.ofExcept _) fun _ => Keeps.modifyState fun _ h =>
      ⟨⟨h.1.gws, h.1.unique⟩, h.2⟩

/-- **A step that mirrors what it writes keeps rows and droplets together.** -/
theorem NodeOp.run_mirrored {w : World} (hw : Mirrored env w) (op : NodeOp) (hop : op.Mirrors env w) :
    Mirrored env (op.run env w) := by
  have hadd : ∀ zgcId nodeId (b : NodeBody), AddMirrors env w zgcId nodeId b →
      Mirrored env ((nodeLoadTransitXdp b.ipControl >>= fun _ => addNode env zgcId nodeId b :
        Req NodeReply) w).2 := by
    intro zgcId nodeId b ha
    refine Triple.final (P := fun w => Mirrored env w ∧ AddMirrors env w zgcId nodeId b)
      (Triple.bind (Triple.conseq (nodeLoadTransitXdp_mirrored b.ipControl zgcId nodeId b)
        (fun _ h => h) (fun _ _ h => h) fun _ _ h => h.1) fun _ => ?_) ⟨hw, ha⟩
    exact fun s hs => addNode_mirrored hk hs.1 hs.2 s rfl
  cases op with
  | post nodeId b => exact hadd b.zgcId nodeId b hop
  | hazelcast nodeId b =>
    change Mirrored env (setUpNodeFromHazelcast env nodeId b w).2
    rw [setUpNodeFromHazelcast_post, bind_run, getState_run]
    dsimp only
    cases hz : w.activeZgc with
    | none => exact hw
    | some z => exact hadd z.zgcId nodeId b (hop z hz)
  | delete nodeId => exact singleNodeDelete_mirrored hw hop

theorem run_mirrored {ops : List NodeOp} {w : World} (hw : Mirrored env w)
    (hops : Runs.EachStep (nodeStep env) (NodeOp.Mirrors env) ops w) :
    Mirrored env (runNodeOps env ops w) := by
  induction ops generalizing w with
  | nil => exact hw
  | cons op ops ih => exact ih (op.run_mirrored hk hw hops.1) (hops.2 _ rfl)

end Additions

/-- **The database's gateways match the droplets** after every request of a run whose steps all
mirror what they write: no removal hands addresses over, and every donor's row is found. -/
theorem run_gws_match (env : Env) (hk : ∀ name, env.kubeFails name = false) (w : World)
    (hempty : w.kube.objs = []) (hunique : RowsUnique env w.nodes) (ops : List NodeOp)
    (hops : Runs.EachStep (nodeStep env) (NodeOp.Mirrors env) ops w) (n : ℕ) :
    GwsMatch env (runNodeOps env (ops.take n) w).kube (runNodeOps env (ops.take n) w).nodes := by
  have hw : Mirrored env w := ⟨fun _ _ d hd => absurd (hempty ▸ hd) List.not_mem_nil, hunique⟩
  exact (run_mirrored hk hw (hops.take n)).gws

/-! ## Samples -/

/-- The ZGC 10.0.0.1 to 10.0.0.4. -/
def fourZgc : ZgcRow := ⟨"z".toList, dotted ![10, 0, 0, 1], dotted ![10, 0, 0, 4]⟩

/-- A node of the ZGC. -/
def fourNode (name ip : String) : NodeBody :=
  ⟨"z".toList, name.toList, ip.toList, "eth1".toList, "eth2".toList⟩

/-- Two nodes join. -/
def twoJoin : List NodeOp := [.post "1".toList (fourNode "Node_A" "172.16.0.1"),
  .hazelcast "2".toList (fourNode "Node_B" "172.16.0.2")]

/-- After two additions and a removal that is refused. -/
theorem run_gws_match_sample :
    let w := runNodeOps .default ((twoJoin ++ [NodeOp.delete "3".toList]).take 3) (.start fourZgc (.int 8300))
    GwsMatch .default w.kube w.nodes :=
  run_gws_match .default (fun _ => rfl) (.start fourZgc (.int 8300)) rfl
    ⟨List.nodup_nil, List.nodup_nil⟩ _ (by decide +kernel) 3

/-- **A removal leaves the rows of the nodes that get addresses as they were**: the droplet of Node_B
has four addresses and its row two. -/
theorem removal_leaves_old_gws :
    let w := runNodeOps .default (twoJoin ++ [.delete "1".toList]) (.start fourZgc (.int 8300))
    (∀ name, Env.default.kubeFails name = false) ∧ ¬ GwsMatch .default w.kube w.nodes ∧
    w.kube.objs.map (fun d => (d.name, d.body.spec.ip.length)) =
      [("droplet-tenant-node-b".toList, 4)] ∧
    w.nodes.map (fun r => (r.name, r.gws.length)) = [("Node_A".toList, 2), ("Node_B".toList, 2)] := by
  refine ⟨fun _ => rfl, ?_, ?_, ?_⟩ <;> decide +kernel

end ArionDp
