import ArionDp.Lib.Runs
import ArionDp.Manager.NodesPool

/-!
# The operator and the manager on the same droplets

The operator provisions droplets while the manager adds nodes, one after the other, to one ZGC. Each
action is one request to Kubernetes, or the delivery of a watch event.

* `CreateTask`: `CommonCreate`, `set_object_provisioned` and the loop of `kube_update_obj`;
* `Addition`: the requests of a node addition after its listing;
* `step`: one action of either;
* **`newNodeGws_run`**: a node addition that nobody interrupts takes these actions.
-/

namespace ArionDp

open ApiServer Py Runs

/-- `CommonCreate` of a droplet: the spec that the object of the operator has, with the new status, and
the version of the droplet that it has read, if it has to be patched next. -/
structure CreateTask where
  spec : DropletSpec
  read : Option ℕ
  deriving DecidableEq

/-- A node addition after its listing: the droplets to replace, and the one to create. -/
structure Addition where
  todo : List Item
  name : Text
  body : Droplet
  deriving DecidableEq

/-- The droplets, the specs that watch events have, the tasks of the operator, one for a droplet, and
the addition that is under way. -/
structure Cluster where
  kube : Kube
  events : List (Text × DropletSpec)
  tasks : List (Text × CreateTask)
  addition : Option Addition

/-- The task of a droplet. -/
def Cluster.task? (c : Cluster) (name : Text) : Option CreateTask :=
  (c.tasks.find? fun t => t.1 = name).map Prod.snd

/-- Set or remove the task of a droplet. -/
def Cluster.setTask (c : Cluster) (name : Text) (t : Option CreateTask) : Cluster :=
  { c with tasks := c.tasks.filter (fun t => t.1 ≠ name) ++ (t.toList.map fun t => (name, t)) }

/-- **All steps are done.** -/
def Cluster.Idle (c : Cluster) : Prop := c.addition = none ∧ c.tasks = []

instance (c : Cluster) : Decidable c.Idle := inferInstanceAs (Decidable (_ ∧ _))

/-- An action of the operator or of the manager. -/
inductive Act
  | event (name : Text) (spec : DropletSpec)
  | read (name : Text)
  | patch (name : Text)
  | list (b : NodeBody)
  | replace
  | create

/-- `kube_update_obj` patches the droplet it has read, if that is still its version. -/
def patchDroplet (name : Text) (spec : DropletSpec) (v : ℕ) (c : Cluster) : Option Cluster :=
  match c.kube.get? name with
  | none => none
  | some o =>
    match c.kube.replace name v { o.body with spec := spec } with
    | some kube =>
      some ({ c with kube := kube, events := c.events ++ [(name, spec)] }.setTask name none)
    | none => some (c.setTask name (some ⟨spec, none⟩))

section Steps

variable (env : Env) (row : ZgcRow)

/-- What an addition does after its listing; `none` when there are not enough addresses. -/
def startAddition (b : NodeBody) (items : List Item) : Except PyError (Option Addition) := do
  let _ ← zgcIp env b.ipControl
  if items.length > 0 then
    match ← planAddition (getMacFromIp env.macPrivate) items with
    | some p => pure (some ⟨p.modified, tenantName env b.name,
        dropletBody p.ips p.macs b.infTenant b.ipControl "tenant".toList row.zgcId⟩)
    | none => pure none
  else do
    let gws ← getGWsFromIpRange env.macPrivate row.ipStart row.ipEnd
    pure (some ⟨[], tenantName env b.name, dropletBody (gws.map fun gw => gw.ip)
      (gws.map fun gw => gw.mac) b.infTenant b.ipControl "tenant".toList row.zgcId⟩)

/-- **One action.** -/
def step : Act → Cluster → Option Cluster
  | .event name spec, c =>
    if (name, spec) ∈ c.events ∧ spec.status = "Init".toList ∧ c.task? name = none then
      some (c.setTask name (some ⟨{ spec with status := "Provisioned".toList }, none⟩))
    else none
  | .read name, c =>
    match c.task? name, c.kube.get? name with
    | some ⟨spec, none⟩, some o => some (c.setTask name (some ⟨spec, some o.resourceVersion⟩))
    | _, _ => none
  | .patch name, c =>
    match c.task? name with
    | some ⟨spec, some v⟩ => patchDroplet name spec v c
    | _ => none
  | .list b, c =>
    match c.addition with
    | some _ => none
    | none =>
      match startAddition env row b (env.order.run (c.kube.select (selectsTenant row.zgcId))) with
      | .ok a => some { c with addition := a }
      | .error _ => some c
  | .replace, c =>
    match c.addition with
    | some ⟨d :: todo, name, body⟩ =>
      match c.kube.replace d.name d.resourceVersion d.body with
      | some kube => some ⟨kube, c.events ++ [(d.name, d.body.spec)], c.tasks, some ⟨todo, name, body⟩⟩
      | none => some { c with addition := some ⟨todo, name, body⟩ }
    | _ => none
  | .create, c =>
    match c.addition with
    | some ⟨[], name, body⟩ =>
      match c.kube.create name body with
      | some kube => some ⟨kube, c.events ++ [(name, body.spec)], c.tasks, none⟩
      | none => some { c with addition := none }
    | _ => none

end Steps

/-! ## An addition alone -/

section Alone

variable {env : Env} {row : ZgcRow}

variable (env row) in
/-- The replacements of an addition. -/
theorem run_replaces {todo : List Item} {name : Text} {body : Droplet} {c : Cluster}
    (hn : (todo.map fun d => d.name).Nodup) (hcur : ∀ d ∈ todo, Current c.kube d)
    (hadd : c.addition = some ⟨todo, name, body⟩) :
    ∃ c', run (step env row) (todo.map fun _ => .replace) c = some c' ∧
      c'.kube = c.kube.putAll (pairs todo) ∧ c'.addition = some ⟨[], name, body⟩ := by
  induction todo generalizing c with
  | nil => exact ⟨c, rfl, rfl, hadd⟩
  | cons d todo ih =>
    obtain ⟨o, ho, hv⟩ := hcur d (List.mem_cons_self ..)
    obtain ⟨hd, hn⟩ := List.nodup_cons.1 hn
    have hstep : step env row .replace c = some ⟨c.kube.put d.name d.body,
        c.events ++ [(d.name, d.body.spec)], c.tasks, some ⟨todo, name, body⟩⟩ := by
      simp only [step]
      rw [hadd]
      dsimp only
      rw [← hv, c.kube.replace_of_get? _ ho]
    have hcur' : ∀ e ∈ todo, Current (c.kube.put d.name d.body) e := by
      intro e he
      obtain ⟨o', ho', hv'⟩ := hcur e (List.mem_cons_of_mem _ he)
      refine ⟨o', (c.kube.get?_put_of_ne d.body fun hc => hd ?_).trans ho', hv'⟩
      exact List.mem_map.2 ⟨e, he, hc⟩
    obtain ⟨c', hrun, hkube, hadd'⟩ := ih hn (c := ⟨c.kube.put d.name d.body,
      c.events ++ [(d.name, d.body.spec)], c.tasks, some ⟨todo, name, body⟩⟩) hcur' rfl
    refine ⟨c', ?_, hkube, hadd'⟩
    rw [List.map_cons, run, hstep]
    exact hrun

variable (env row) in
/-- The replacements and the creation. -/
theorem run_addition {a : Addition} {c : Cluster} (hadd : c.addition = some a)
    (hn : (a.todo.map fun d => d.name).Nodup) (hcur : ∀ d ∈ a.todo, Current c.kube d) {k : Kube}
    (hk : (c.kube.putAll (pairs a.todo)).create a.name a.body = some k) :
    ∃ c', run (step env row) ((a.todo.map fun _ => .replace) ++ [.create]) c = some c' ∧
      c'.kube = k ∧ c'.addition = none := by
  obtain ⟨c₁, hrun, hkube, hadd₁⟩ := run_replaces env row hn hcur hadd
  refine ⟨⟨k, c₁.events ++ [(a.name, a.body.spec)], c₁.tasks, none⟩, ?_, rfl, rfl⟩
  rw [run_append, hrun, Option.bind_some, run, step, hadd₁]
  dsimp only
  rw [hkube, hk]
  rfl

/-- The listing starts an addition. -/
theorem step_list {c : Cluster} (hc : c.addition = none) {b : NodeBody} {o : Option Addition}
    (ho : startAddition env row b (env.order.run (c.kube.select (selectsTenant row.zgcId))) = .ok o) :
    step env row (.list b) c = some { c with addition := o } := by
  simp only [step]
  rw [hc, ho]

/-- An addition as a whole. -/
theorem run_list {c : Cluster} (hc : c.addition = none) {b : NodeBody} {a : Addition}
    (ha : startAddition env row b (env.order.run (c.kube.select (selectsTenant row.zgcId))) = .ok (some a))
    (hv : Versions c.kube row.zgcId a.todo) {k : Kube}
    (hk : (c.kube.putAll (pairs a.todo)).create a.name a.body = some k) :
    ∃ acts c', run (step env row) (.list b :: acts) c = some c' ∧ c'.kube = k ∧ c'.addition = none := by
  obtain ⟨c', hrun, hkube, hadd⟩ := run_addition env row (c := { c with addition := some a }) rfl hv.nodup
    hv.current hk
  refine ⟨a.todo.map (fun _ => .replace) ++ [.create], c', ?_, hkube, hadd⟩
  rw [run, step_list hc ha]
  exact hrun

section Start

variable (row) {b : NodeBody} {all : List Item} {ip : Text} (hip : zgcIp env b.ipControl = .ok ip)

include hip

/-- The start of an addition to nodes that are there. -/
theorem startAddition_others (hlen : all.length > 0) {o : Option Plan}
    (hplan : planAddition (getMacFromIp env.macPrivate) all = .ok o) :
    startAddition env row b all = .ok (o.map fun p => ⟨p.modified, tenantName env b.name,
      dropletBody p.ips p.macs b.infTenant b.ipControl "tenant".toList row.zgcId⟩) := by
  rw [startAddition, hip]
  change (if all.length > 0 then _ else _) = _
  rw [if_pos hlen, hplan]
  cases o <;> rfl

/-- The start of an addition of the first node. -/
theorem startAddition_first (hlen : ¬ all.length > 0) {gws : List GwAddr}
    (hgws : getGWsFromIpRange env.macPrivate row.ipStart row.ipEnd = .ok gws) :
    startAddition env row b all = .ok (some ⟨[], tenantName env b.name,
      dropletBody (gws.map fun gw => gw.ip) (gws.map fun gw => gw.mac) b.infTenant b.ipControl
        "tenant".toList row.zgcId⟩) := by
  rw [startAddition, hip]
  change (if all.length > 0 then _ else _) = _
  rw [if_neg hlen, hgws]
  rfl

end Start

/-- **A node addition that nobody interrupts** is a run: its listing, its replacements and its
creation. -/
theorem newNodeGws_run (hk : ∀ n, env.kubeFails n = false) {C : Core} {b : NodeBody}
    (hzgc : C.zgcs.find? (fun r => r.zgcId = row.zgcId) = some row)
    (hfresh : ∀ o ∈ C.kube.objs, o.name ≠ tenantName env b.name) {c : Cluster}
    (hck : c.kube = C.kube) (hc : c.addition = none) :
    Triple (fun w => w.core = C) (newNodeGws env row.zgcId b)
      (fun _ w => ∃ acts c', run (step env row) (.list b :: acts) c = some c' ∧ c'.kube = w.kube ∧
        c'.addition = none) fun _ _ => True := by
  rw [newNodeGws_post]
  refine Triple.bind (listDroplets_eq env C row.zgcId) fun all => Triple.assume (fun _ h => h.1)
    fun hall => Triple.conseq (P := fun w => w.core = C) ?_ (fun _ h => h.2) (fun _ _ h => h)
      fun _ _ h => h
  have hperm : all.Perm (C.kube.select (selectsTenant row.zgcId)) := hall ▸ env.order.perm _
  rw [← hck] at hall
  refine Triple.bind_ofExcept (fun zip hzip => ?_) fun _ _ _ _ => trivial
  refine Triple.ite (fun hlen => ?_) fun hlen => ?_
  · refine Triple.bind_ofExcept (fun o hplan => ?_) fun _ _ _ _ => trivial
    have hstart := hall ▸ startAddition_others row hzip hlen hplan
    cases o with
    | none =>
      refine Triple.pure fun w hw => ⟨[], { c with addition := none }, ?_, ?_, rfl⟩
      · rw [run, step_list hc hstart]
        rfl
      · exact hck.trans (congrArg Core.kube hw).symm
    | some p =>
      obtain ⟨items, hp, -⟩ := planAddition_planned all _ hplan p rfl
      have hv := hp.versions hperm
      refine Triple.bind ((forEach_writes hv.nodup hv.current fun C' d =>
        updateNodeAndDroplet_spec hk).exc fun _ _ _ => trivial)
        fun _ => ?_
      refine Triple.bind ((createDroplet_spec (hk _) (fresh_writes hfresh p.modified) p.ips p.macs
        b.infTenant b.ipControl "tenant".toList row.zgcId).conseq (fun _ h => h) ?_
        fun _ _ _ => trivial) fun _ => Triple.bind_ofExcept (fun _ _ => Triple.pure fun _ h => h)
          fun _ _ _ _ => trivial
      rintro - w ⟨k, hcreate, hw⟩
      obtain rfl : w.kube = k := congrArg Core.kube hw
      exact run_list hc hstart (hck ▸ hv) (hck ▸ hcreate)
  · refine Triple.bind Triple.getState fun w => Triple.assume (p := w.core = C) ?_ fun hw => ?_
    · rintro s ⟨rfl, hs⟩
      exact hs
    have hfind : w.zgcs.find? (fun r => r.zgcId = row.zgcId) = some row := by
      rw [← hw] at hzgc
      exact hzgc
    rw [hfind]
    refine Triple.bind_ofExcept (fun gws hgws => ?_) fun _ _ _ _ => trivial
    have hstart := hall ▸ startAddition_first row hzip hlen hgws
    refine Triple.bind ((createDroplet_spec (hk _) hfresh _ _ b.infTenant b.ipControl "tenant".toList
      row.zgcId).conseq (fun _ h => h.2) ?_ fun _ _ _ => trivial) fun _ => Triple.pure fun _ h => h
    rintro - w ⟨k, hcreate, hw⟩
    obtain rfl : w.kube = k := congrArg Core.kube hw
    exact run_list hc hstart ⟨List.nodup_nil, fun d hd => absurd hd List.not_mem_nil⟩ (hck ▸ hcreate)

end Alone

end ArionDp
