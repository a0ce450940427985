import ArionDp.Manager.Nodes

/-!
# What node requests do to the droplets

Where Kubernetes refuses nothing, every handler of `nodes.py` has a triple over the part of the
state that the redistribution depends on.

* `Core`: the droplets, the ZGCs, and the nodes without their gateways;
* `updateDroplet_spec`, `createDroplet_spec`, `deleteDroplet_spec`: the writes;
* **`forEach_writes`**: a loop that writes changed droplets writes them all, or stops at one whose
  node is unknown or which has fewer MAC addresses than addresses.
-/

namespace ArionDp

open ApiServer PyText Py

/-! ## Reading a request -/

section Reads

variable {env : Env} (I : World → Prop) (d : NodePost)

theorem readKey_keeps (v : Option Text) : Keeps I (readKey v) := by
  cases v with
  | none => exact Keeps.raise _
  | some t => exact Keeps.pure _

theorem readName_keeps : Keeps I (readName d) := by
  unfold readName
  cases d.name with
  | none => exact Keeps.raise _
  | some t => exact Keeps.pure _

theorem readMacZgc_keeps : Keeps I (readMacZgc d) := by
  unfold readMacZgc
  split_ifs
  · exact Keeps.pure _
  · exact Keeps.raise _

theorem appendGws_keeps (gws : List GwAddr) : Keeps I (appendGws d gws) := by
  unfold appendGws
  split_ifs
  · exact Keeps.raise _
  · exact Keeps.pure _

theorem newNode_keeps (zgcId nodeId : Text) (gws : List GwAddr) :
    Keeps I (newNode env d zgcId nodeId gws) := by
  unfold newNode
  split_ifs
  · exact Keeps.raise _
  · split
    · exact Keeps.raise _
    · exact Keeps.raise _
    · exact Keeps.pure _
    · exact Keeps.raise _

end Reads

/-! ## The core of the state -/

/-- A node without its gateways. -/
def NodeRow.bare (r : NodeRow) : NodeRow := { r with gws := [] }

/-- What the redistribution depends on. -/
structure Core where
  kube : Kube
  zgcs : List ZgcRow
  nodes : List NodeRow

def World.core (w : World) : Core := ⟨w.kube, w.zgcs, w.nodes.map NodeRow.bare⟩

/-- The droplets after writing those in `l`. -/
def Core.writes (C : Core) (l : List Item) : Core := { C with kube := C.kube.putAll (pairs l) }

/-- The listed version is the stored one. -/
def Current (k : Kube) (d : Item) : Prop :=
  ∃ o, k.get? d.name = some o ∧ o.resourceVersion = d.resourceVersion

instance (k : Kube) (d : Item) : Decidable (Current k d) :=
  inferInstanceAs (Decidable (∃ o ∈ k.get? d.name, o.resourceVersion = d.resourceVersion))

/-- A droplet that the loops of the handlers fail at: its node is unknown, or it has fewer MAC
addresses than addresses. -/
def Unserved (nodes : List NodeRow) (d : Item) : Prop :=
  (∀ r ∈ nodes, r.ipControl ≠ d.body.nodeIp) ∨ d.body.spec.mac.length < d.body.spec.ip.length

theorem zipAddrs_error {ips macs : List Text} {e : PyError} (h : zipAddrs ips macs = .error e) :
    e = .indexError ∧ macs.length < ips.length := by
  induction ips, macs using zipAddrs.induct with
  | case1 macs => cases h
  | case2 ip ips => exact ⟨by cases h; rfl, Nat.succ_pos _⟩
  | case3 ip ips mac macs ih =>
    cases hz : zipAddrs ips macs with
    | error e' =>
      rw [zipAddrs, hz] at h
      obtain rfl : e' = e := by cases h; rfl
      obtain ⟨he, hlt⟩ := ih hz
      exact ⟨he, Nat.succ_lt_succ hlt⟩
    | ok l =>
      rw [zipAddrs, hz] at h
      cases h

/-! ## Writes to Kubernetes -/

section Writes

variable {env : Env} {C : Core} {E : PyError → World → Prop}

theorem dropletUpdateItfConfig_spec (nodeIp : Text) (spec : DropletSpec) :
    Triple (fun w => w.core = C) (dropletUpdateItfConfig nodeIp spec) (fun _ w => w.core = C)
      fun e w => e ≠ .apiException ∧ w.core = C ∧ spec.mac.length < spec.ip.length := by
  refine Triple.bind (Q := fun _ w => w.core = C) (Triple.ofExcept (fun _ _ _ h => h) ?_) fun l =>
    Triple.modifyState fun _ h => h
  intro e w he hw
  obtain ⟨rfl, hlt⟩ := zipAddrs_error he
  exact ⟨by decide, hw, hlt⟩

theorem kubeWrite_some {name : Text} (hk : env.kubeFails name = false) {write : Kube → Option Kube}
    {K : Kube} (h : write C.kube = some K) :
    Triple (fun w => w.core = C) (kubeWrite env name write) (fun _ w => w.core = { C with kube := K })
      E := by
  refine Triple.bind Triple.getState fun w => ?_
  rw [hk, if_neg Bool.false_ne_true]
  intro s hs
  obtain ⟨rfl, rfl⟩ := hs
  change write w.kube = some K at h
  rw [h]
  rfl

theorem kubeWrite_none {name : Text} (hk : env.kubeFails name = false) {write : Kube → Option Kube}
    (h : write C.kube = none) {Q : Unit → World → Prop} :
    Triple (fun w => w.core = C) (kubeWrite env name write) Q
      fun e w => e = .apiException ∧ w.core = C := by
  refine Triple.bind Triple.getState fun w => ?_
  rw [hk, if_neg Bool.false_ne_true]
  intro s hs
  obtain ⟨rfl, rfl⟩ := hs
  change write w.kube = none at h
  rw [h]
  exact ⟨rfl, rfl⟩

/-- Other exceptions than those of Kubernetes pass. -/
theorem logApiException_pass {c : Req Unit} {P : World → Prop} {Q : Unit → World → Prop}
    (h : Triple P c Q fun e w => e ≠ .apiException ∧ E e w) : Triple P (logApiException c) Q E := by
  refine Triple.tryExcept h fun e => ?_
  by_cases he : e = .apiException
  · rw [if_pos he]
    exact fun w hw => absurd he hw.1
  · rw [if_neg he]
    exact fun w hw => hw.2

theorem updateDroplet_spec {d : Item} (hk : env.kubeFails d.name = false) (hd : Current C.kube d) :
    Triple (fun w => w.core = C) (updateDroplet env d)
      (fun _ w => w.core = { C with kube := C.kube.put d.name d.body })
      fun _ w => w.core = { C with kube := C.kube.put d.name d.body } ∧
        d.body.spec.mac.length < d.body.spec.ip.length := by
  obtain ⟨o, ho, hv⟩ := hd
  refine logApiException_pass (Triple.bind (kubeWrite_some hk ?_) fun _ =>
    dropletUpdateItfConfig_spec d.body.nodeIp d.body.spec)
  rw [← hv]
  exact C.kube.replace_of_get? d.body ho

theorem createDroplet_spec {name : Text} (hk : env.kubeFails name = false)
    (hfresh : ∀ o ∈ C.kube.objs, o.name ≠ name) (ip mac : List Text)
    (itf nodeIp network zgcId : Text) :
    let body := dropletBody ip mac itf nodeIp network zgcId
    let Q : World → Prop := fun w => ∃ K, C.kube.create name body = some K ∧
      w.core = { C with kube := K }
    Triple (fun w => w.core = C) (createDroplet env name ip mac itf nodeIp network zgcId)
      (fun _ => Q) fun _ w => Q w ∧ mac.length < ip.length := by
  intro body Q
  obtain ⟨K, hK, -⟩ := create_of_fresh C.kube body hfresh
  refine logApiException_pass (Triple.bind (kubeWrite_some hk hK) fun _ => ?_)
  exact (dropletUpdateItfConfig_spec nodeIp body.spec).conseq (fun _ h => h)
    (fun _ _ h => ⟨K, hK, h⟩) fun _ _ h => ⟨h.1, ⟨K, hK, h.2.1⟩, h.2.2⟩

theorem deleteDroplet_some {name : Text} (hk : env.kubeFails name = false)
    (h : ∃ o ∈ C.kube.objs, o.name = name) :
    Triple (fun w => w.core = C) (deleteDroplet env name) (fun _ w => ∃ K : Kube,
      K.objs = C.kube.objs.filter (fun o => o.name ≠ name) ∧ w.core = { C with kube := K }) E := by
  obtain ⟨K, hK, hobjs⟩ := delete_of_mem C.kube h
  refine logApiException_pass ?_
  exact (kubeWrite_some hk hK).post fun _ _ h => ⟨K, hobjs, h⟩

theorem deleteDroplet_none {name : Text} (hk : env.kubeFails name = false)
    (h : ∀ o ∈ C.kube.objs, o.name ≠ name) :
    Triple (fun w => w.core = C) (deleteDroplet env name) (fun _ w => w.core = C) E := by
  refine Triple.tryExcept (kubeWrite_none hk (delete_of_notMem C.kube h)) fun e => ?_
  by_cases he : e = .apiException
  · rw [if_pos he]
    exact Triple.pure fun w hw => hw.2
  · rw [if_neg he]
    exact fun w hw => absurd hw.1 he

end Writes

/-! ## The nodes' gateways -/

section Gateways

variable {C : Core}

theorem setGws_spec (nodeId : Text) (gws : List GwAddr) {E : PyError → World → Prop} :
    Triple (fun w => w.core = C) (setGws nodeId gws) (fun _ w => w.core = C) E := by
  refine Triple.modifyState fun w hw => ?_
  rw [← hw]
  refine congrArg (Core.mk w.kube w.zgcs) ?_
  dsimp only
  rw [List.map_map]
  refine List.map_congr_left fun r _ => ?_
  rw [Function.comp_apply]
  split_ifs <;> rfl

theorem updateExistingNodesGwIpsMacs_spec (d : Item) :
    Triple (fun w => w.core = C)
      (updateExistingNodesGwIpsMacs d.body.nodeIp d.body.spec.ip d.body.spec.mac)
      (fun _ w => w.core = C) fun _ w => w.core = C ∧ Unserved C.nodes d := by
  refine Triple.bind Triple.getState fun w => ?_
  cases hr : w.nodes.find? fun r => r.ipControl = d.body.nodeIp with
  | none =>
    refine Triple.raise ?_
    rintro s ⟨rfl, rfl⟩
    refine ⟨rfl, .inl fun r hmem => ?_⟩
    obtain ⟨r', hr', rfl⟩ := List.mem_map.1 hmem
    exact of_decide_eq_false (Bool.eq_false_iff.2 (List.find?_eq_none.1 hr r' hr'))
  | some r =>
    refine Triple.conseq (P := fun w => w.core = C) (Triple.bind (setGws_spec r.nodeId []) fun _ =>
      Triple.bind (Q := fun _ w => w.core = C) (Triple.ofExcept (fun _ _ _ h => h) ?_) fun gws =>
        setGws_spec r.nodeId gws) (fun _ h => h.2) (fun _ _ h => h) fun _ _ h => h
    exact fun e s he hs => ⟨hs, .inr (zipAddrs_error he).2⟩

end Gateways

/-! ## Loops of writes -/

section Loops

variable {env : Env} (hk : ∀ n, env.kubeFails n = false) {C : Core}

include hk

theorem updateNodeAndDroplet_spec {d : Item} (hd : Current C.kube d) :
    Triple (fun w => w.core = C) (updateNodeAndDroplet env d) (fun _ w => w.core = C.writes [d])
      fun _ w => (w.core = C ∨ w.core = C.writes [d]) ∧ Unserved C.nodes d := by
  refine Triple.bind ((updateExistingNodesGwIpsMacs_spec d).exc fun _ _ h => ⟨.inl h.1, h.2⟩) fun _ => ?_
  exact (updateDroplet_spec (hk _) hd).exc fun _ _ h => ⟨.inr h.1, .inr h.2⟩

omit hk in
/-- **A loop of writes** has written what it has passed. -/
theorem forEach_writes {modified : List Item} (hn : (modified.map fun d => d.name).Nodup)
    (hcur : ∀ d ∈ modified, Current C.kube d) {f : Item → Req Unit}
    (hf : ∀ (C' : Core) d, Current C'.kube d →
      Triple (fun w => w.core = C') (f d) (fun _ w => w.core = C'.writes [d])
        fun _ w => (w.core = C' ∨ w.core = C'.writes [d]) ∧ Unserved C'.nodes d) :
    Triple (fun w => w.core = C) (forEach f modified) (fun _ w => w.core = C.writes modified)
      fun _ w => (∃ done, done.Sublist modified ∧ w.core = C.writes done) ∧
        ∃ d ∈ modified, Unserved C.nodes d := by
  have hconcat : ∀ done d, (C.writes done).writes [d] = C.writes (done ++ [d]) := by
    intro done d
    unfold Core.writes pairs
    rw [List.map_append, List.map_singleton]
    exact congrArg (fun k => { C with kube := k }) (C.kube.putAll_concat _ d.name d.body).symm
  refine (Triple.forEach (fun done todo w => done ++ todo = modified ∧ w.core = C.writes done)
    ?_ [] modified).conseq (fun _ h => ⟨rfl, h⟩) (fun _ _ h => h.2) fun _ _ h => h
  intro done d todo
  by_cases hsplit : done ++ d :: todo = modified
  swap
  · exact fun w hw => absurd hw.1 hsplit
  subst hsplit
  have hcur' : Current (C.writes done).kube d := by
    obtain ⟨o, ho, hv⟩ := hcur d (List.mem_append_right _ (List.mem_cons_self ..))
    refine ⟨o, ?_, hv⟩
    rw [List.map_append, List.nodup_append] at hn
    refine (C.kube.get?_putAll_of_notMem ?_).trans ho
    intro hc
    rw [pairs, List.map_map] at hc
    exact hn.2.2 d.name hc d.name (List.mem_cons_self ..) rfl
  refine (hf (C.writes done) d hcur').conseq (fun _ h => h.2) (fun _ w h => ?_) fun _ w h => ?_
  · exact ⟨by rw [List.append_assoc]; rfl, h.trans (hconcat done d)⟩
  · refine ⟨?_, d, List.mem_append_right _ (List.mem_cons_self ..), h.2⟩
    rcases h.1 with h | h
    · exact ⟨done, List.sublist_append_left _ _, h⟩
    · refine ⟨done ++ [d], ?_, h.trans (hconcat done d)⟩
      exact (List.Sublist.refl done).append (List.singleton_sublist.2 (List.mem_cons_self ..))

end Loops

/-! ## Loading and unloading -/

section Load

variable {C : Core}

theorem nodeLoadTransitXdp_spec (I : Core → Prop) (ip : Text) :
    Triple (fun w => I w.core) (nodeLoadTransitXdp ip) (fun _ w => I w.core)
      fun _ w => I w.core := by
  refine Triple.bind (Q := fun _ w => I w.core) (Triple.modifyState fun _ h => h) fun _ => ?_
  refine Triple.bind Triple.getState fun w => ?_
  cases w.activeZgc with
  | none => exact Triple.raise fun _ h => h.2
  | some z =>
    exact Triple.bind_ofExcept (fun _ _ => Triple.modifyState fun _ h => h.2) fun _ _ _ h => h.2

theorem nodeUnloadTransitXdp_spec (I : Core → Prop) (ip : Text) {Q : Unit → World → Prop} :
    Triple (fun w => I w.core) (nodeUnloadTransitXdp ip) Q fun _ w => I w.core :=
  Triple.bind (Q := fun _ w => I w.core) (Triple.modifyState fun _ h => h) fun _ =>
    Triple.raise fun _ h => h

theorem dbAddNode_spec (row : NodeRow)
    (h : ∀ r ∈ C.nodes, r.nodeId ≠ row.nodeId ∧ r.name ≠ row.name) {E : PyError → World → Prop} :
    Triple (fun w => w.core = C) (dbAddNode row)
      (fun _ w => w.core = { C with nodes := C.nodes ++ [row.bare] }) E := by
  refine Triple.bind Triple.getState fun w => Triple.ite (fun hc => ?_) fun _ => ?_
  · rintro s ⟨rfl, rfl⟩
    obtain ⟨r, hr, hrow⟩ := hc
    have := h r.bare (List.mem_map_of_mem hr)
    rcases hrow with hrow | hrow
    · exact absurd hrow this.1
    · exact absurd hrow this.2
  · refine Triple.modifyState ?_
    rintro s ⟨-, rfl⟩
    exact congrArg (Core.mk s.kube s.zgcs) List.map_append

end Load

end ArionDp
