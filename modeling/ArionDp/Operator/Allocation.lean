import ArionDp.Operator.Tasks
import Mathlib.Data.Finset.Insert

/-!
# Droplets of FWDs and FTNs

`allocated_droplets` is in memory, apart from the objects that have the droplets. Creating an object adds
its droplet; deleting one does not take it away, and a restart starts with an empty set.

* `Opr.Holds`: an object has a droplet; `Allotted`: the invariant of the steps;
* `OprAct.Accounts`: the steps that keep it, with **`OprAct.Accounts.allotted`**;
* **`allocation_exact`**: the runs of such steps, and `droplet_leaked_and_doubled`.
-/

namespace ArionDp

open Allocation ApiServer Py

/-- An object in Kubernetes has the droplet. -/
def Opr.Holds (s : Opr) (n : ObjName) (d : Text) : Prop :=
  ∃ o ∈ s.kube.objs, o.name = n ∧ o.body.droplet = d ∧ d ≠ []

instance (s : Opr) (n : ObjName) (d : Text) : Decidable (s.Holds n d) :=
  inferInstanceAs (Decidable (∃ o ∈ s.kube.objs, o.name = n ∧ o.body.droplet = d ∧ d ≠ []))

/-- **No droplet is assigned to two objects, and the allocated droplets are those that are assigned.** -/
def Opr.AllocatedExactly (s : Opr) : Prop := Exact s.Holds s.allocatedDroplets

/-- **The invariant**: moreover, an object that has still to be provisioned has no droplet. -/
structure Allotted (s : Opr) : Prop where
  exactly : s.AllocatedExactly
  init : ∀ o ∈ s.kube.objs, o.body.status = objStatusInit → o.body.droplet = []

/-- **The steps that keep the account of droplets.** An object is created without a droplet, as the operator
creates them, and deleted without one, and the operator is restarted while no object has one. -/
def OprAct.Accounts : OprAct → Opr → Prop
  | .apply _ spec, _ => spec.droplet = []
  | .delete n, s => ∀ o ∈ s.kube.get? n, o.body.droplet = []
  | .restart, s => ∀ o ∈ s.kube.objs, o.body.droplet = []
  | _, _ => True

instance : ∀ (a : OprAct) (s : Opr), Decidable (a.Accounts s)
  | .apply _ spec, _ => inferInstanceAs (Decidable (spec.droplet = []))
  | .delete n, s => inferInstanceAs (Decidable (∀ o ∈ s.kube.get? n, o.body.droplet = []))
  | .restart, s => inferInstanceAs (Decidable (∀ o ∈ s.kube.objs, o.body.droplet = []))
  | .chainFtns .., _ | .init .., _ | .provisioned _, _ | .others .., _ => isTrue trivial

/-! ## What the account depends on -/

/-- The objects in Kubernetes, and the allocated droplets. -/
def Opr.account (s : Opr) : Store ObjName OprObj × Finset Text := (s.kube, s.allocatedDroplets)

/-- An assertion about the account alone. -/
def OfAccount (I : Opr → Prop) : Prop := ∀ s t, t.account = s.account → I s → I t

theorem Allotted.ofAccount : OfAccount Allotted := by
  intro s t hst hs
  obtain ⟨hk, ha⟩ := Prod.mk.inj hst
  refine ⟨hs.exactly.congr (fun n d => ?_) (congrArg _ ha), fun o ho => hs.init o (hk ▸ ho)⟩
  unfold Opr.Holds
  rw [hk]

section Account

variable {I : Opr → Prop} (hI : OfAccount I) {n : ObjName}

include hI

theorem keeps_storeUpdateObj (obj : OprObj) : Keeps I (storeUpdateObj n obj) :=
  Keeps.modifyState fun s hs => hI s _ rfl hs

theorem keeps_storeDeleteObj : Keeps I (storeDeleteObj n) :=
  Keeps.modifyState fun s hs => hI s _ rfl hs

theorem keeps_storeGetObj (spec : OprObj) : Keeps I (storeGetObj n spec) := by
  refine Keeps.bind Keeps.getState fun s => ?_
  cases s.objs n with
  | none => exact Keeps.pure none
  | some _ => exact Keeps.bind (keeps_storeUpdateObj hI _) fun _ => Keeps.pure _

end Account

/-! ## Changes in Kubernetes -/

section Kube

variable {s : Opr} {n : ObjName} {obj : OprObj}

/-- **An object without a droplet is created.** -/
theorem Allotted.create (h : Allotted s) {kube : Store ObjName OprObj} (hk : s.kube.create n obj = some kube)
    (hobj : obj.droplet = []) : Allotted { s with kube := kube } := by
  have hmem : ∀ o, o ∈ kube.objs ↔ o ∈ s.kube.objs ∨ o = ⟨n, s.kube.next, obj⟩ := by
    intro o
    rw [objs_create hk, List.mem_append, List.mem_singleton]
  refine ⟨h.exactly.congr (fun m d => ⟨?_, ?_⟩) rfl, fun o ho hst => ?_⟩
  · rintro ⟨o, ho, hm, hd, hne⟩
    rcases (hmem o).1 ho with ho | rfl
    · exact ⟨o, ho, hm, hd, hne⟩
    · exact absurd (hd.symm.trans hobj) hne
  · rintro ⟨o, ho, hrest⟩
    exact ⟨o, (hmem o).2 (.inl ho), hrest⟩
  · rcases (hmem o).1 ho with ho | rfl
    · exact h.init o ho hst
    · exact hobj

/-- **An object without a droplet is deleted.** -/
theorem Allotted.delete (h : Allotted s) {kube : Store ObjName OprObj} (hk : s.kube.delete n = some kube)
    (hn : ∀ d, ¬ s.Holds n d) : Allotted { s with kube := kube } := by
  refine ⟨(h.exactly.release n).congr (fun m d => ⟨?_, ?_⟩) ?_, fun o ho =>
    h.init o ((mem_delete s.kube hk).1 ho).1⟩
  · rintro ⟨o, ho, rfl, hd⟩
    obtain ⟨ho, hne⟩ := (mem_delete s.kube hk).1 ho
    exact ⟨⟨o, ho, rfl, hd⟩, hne⟩
  · rintro ⟨⟨o, ho, rfl, hd⟩, hm⟩
    exact ⟨o, (mem_delete s.kube hk).2 ⟨ho, hm⟩, rfl, hd⟩
  · exact Set.ext fun d => ⟨fun hd => ⟨hd, hn d⟩, fun hd => hd.1⟩

variable (obj) in
/-- **An object gets its droplet.** -/
theorem Allotted.assign (h : Allotted s) {o : Obj ObjName OprObj} (ho : s.kube.get? n = some o)
    (hinit : o.body.status = objStatusInit) (hst : obj.status ≠ objStatusInit)
    (hfree : obj.droplet ∉ s.allocatedDroplets) (hne : obj.droplet ≠ []) :
    Allotted { s with
      kube := s.kube.put n obj, allocatedDroplets := insert obj.droplet s.allocatedDroplets } := by
  obtain ⟨hmem, rfl⟩ := s.kube.get?_eq_some_iff.1 ho
  refine ⟨(h.exactly.assign (n := o.name) (d := obj.droplet) hfree).congr (fun m d => ⟨?_, ?_⟩)
    (Finset.coe_insert ..), fun o' ho' hst' => ?_⟩
  · rintro ⟨o', ho', rfl, hd⟩
    rcases s.kube.mem_put.1 ho' with ⟨ho', -⟩ | ⟨rfl, -⟩
    · exact .inl ⟨o', ho', rfl, hd⟩
    · exact .inr ⟨rfl, hd.1.symm⟩
  · rintro (⟨o', ho', rfl, hd, hdne⟩ | ⟨rfl, rfl⟩)
    · refine ⟨o', s.kube.mem_put.2 (.inl ⟨ho', fun hc => ?_⟩), rfl, hd, hdne⟩
      rw [s.kube.eq_of_name_eq ho' hmem hc, h.init o hmem hinit] at hd
      exact hdne hd.symm
    · exact ⟨_, s.kube.mem_put.2 (.inr ⟨rfl, o, hmem, rfl⟩), rfl, rfl, hne⟩
  · rcases s.kube.mem_put.1 ho' with ⟨ho', -⟩ | ⟨rfl, -⟩
    · exact h.init o' ho' hst'
    · exact absurd hst' hst

end Kube

/-! ## Tasks -/

section Tasks

variable {n : ObjName} {obj spec : OprObj} {draw : ℕ}

/-- The operator creates an object without a droplet, or reads the one that exists. -/
theorem kubeCreateObj_allotted (hobj : obj.droplet = []) : Keeps Allotted (kubeCreateObj n obj) := by
  refine Triple.bind Triple.getState fun s => ?_
  cases s.kube.get? n with
  | some o =>
    exact (keeps_storeUpdateObj Allotted.ofAccount _).pre fun _ h => h.2
  | none =>
    cases hk : s.kube.create n obj with
    | none => exact Triple.raise fun _ h => h.2
    | some kube =>
      refine Triple.bind (Q := fun _ => Allotted) (Triple.modifyState fun t h => ?_) fun _ =>
        keeps_storeUpdateObj Allotted.ofAccount _
      obtain ⟨rfl, h⟩ := h
      exact h.create hk hobj

theorem createNFtns_allotted (chain dft : Text) (size : ℕ) : Keeps Allotted (createNFtns chain dft size) :=
  Keeps.forEach (fun _ => kubeCreateObj_allotted rfl) _

theorem commonProvisioned_allotted : Keeps Allotted (commonProvisioned n spec) := by
  refine Keeps.bind (keeps_storeGetObj Allotted.ofAccount spec) fun obj => ?_
  cases obj with
  | none => exact Keeps.raise _
  | some obj => exact keeps_storeUpdateObj Allotted.ofAccount obj

/-- The object can be deleted: it has no droplet. -/
def Idle (n : ObjName) (s : Opr) : Prop := Allotted s ∧ ∀ d, ¬ s.Holds n d

theorem Idle.ofAccount : OfAccount (Idle n) := by
  intro s t hst hs
  refine ⟨Allotted.ofAccount s t hst hs.1, fun d => ?_⟩
  have hk : t.kube = s.kube := congrArg Prod.fst hst
  unfold Opr.Holds
  rw [hk]
  exact hs.2 d

theorem kubeDeleteObj_idle : Keeps (Idle n) (kubeDeleteObj n) := by
  refine Triple.bind Triple.getState fun s => ?_
  cases hk : s.kube.delete n with
  | none => exact Triple.pure fun _ h => h.2
  | some kube =>
    refine Triple.modifyState fun t h => ?_
    obtain ⟨rfl, h, hn⟩ := h
    refine ⟨h.delete hk hn, fun d hd => ?_⟩
    obtain ⟨o, ho, hrest⟩ := hd
    exact hn d ⟨o, ((mem_delete s.kube hk).1 ho).1, hrest⟩

theorem commonDelete_idle : Keeps (Idle n) (commonDelete n spec) := by
  refine Keeps.bind (keeps_storeGetObj Idle.ofAccount spec) fun obj => ?_
  cases obj with
  | none => exact Keeps.raise _
  | some obj => exact Keeps.bind (keeps_storeDeleteObj Idle.ofAccount) fun _ => kubeDeleteObj_idle

/-- The object of a handler is still to be provisioned. -/
def Fresh (o : Obj ObjName OprObj) (s : Opr) : Prop := Allotted s ∧ s.kube.get? o.name = some o

/-- The object has its droplet in memory: the account is right once it is patched. -/
def Due (o : Obj ObjName OprObj) (obj : OprObj) (s : Opr) : Prop :=
  s.kube.get? o.name = some o ∧ Allotted { s with
    kube := s.kube.put o.name { obj with status := objStatusProvisioned } }

variable {o : Obj ObjName OprObj}

theorem Fresh.ofAccount : OfAccount (Fresh o) := by
  intro s t hst hs
  have hk : t.kube = s.kube := congrArg Prod.fst hst
  exact ⟨Allotted.ofAccount s t hst hs.1, hk ▸ hs.2⟩

theorem Due.ofAccount : OfAccount (Due o obj) := by
  intro s t hst hs
  obtain ⟨hk, ha⟩ := Prod.mk.inj hst
  refine ⟨hk ▸ hs.1, Allotted.ofAccount _ _ ?_ hs.2⟩
  unfold Opr.account
  rw [hk, ha]

/-- A droplet is drawn from those that are not allocated. -/
theorem assignDroplet_spec (hinit : o.body.status = objStatusInit) :
    Triple (fun s => Fresh o s ∧ ¬ s.getUnallocatedDroplets.length < 1) (assignDroplet draw obj)
      (Due o) fun _ => Allotted := by
  refine Triple.bind Triple.getState fun s => ?_
  cases hd : sample draw s.getUnallocatedDroplets with
  | none =>
    refine Triple.assume (p := False) (fun t h => ?_) False.elim
    obtain ⟨rfl, -, hlen⟩ := h
    have hpos : 0 < s.getUnallocatedDroplets.length := Nat.pos_of_ne_zero fun hc => hlen (hc ▸ Nat.zero_lt_one)
    exact absurd (Nat.mod_lt draw hpos) (Nat.not_lt.2 (List.getElem?_eq_none_iff.1 hd))
  | some d =>
    refine Triple.bind (Q := fun _ => Due o { obj with droplet := d }) (Triple.modifyState fun t h => ?_)
      fun _ => Triple.pure fun _ h => h
    obtain ⟨rfl, ⟨h, ho⟩, -⟩ := h
    obtain ⟨hmem, hfree⟩ := List.mem_filter.1 (List.mem_of_getElem? hd)
    refine ⟨ho, h.assign { obj with droplet := d, status := objStatusProvisioned } ho hinit ?_
      (of_decide_eq_true hfree) fun hc => s.stored.named (hc ▸ hmem)⟩
    exact (by decide : objStatusProvisioned ≠ objStatusInit)

/-- **A workflow function assigns a droplet, or nothing has changed.** -/
theorem createFunc_spec (hinit : o.body.status = objStatusInit) (kind : Kind) (obj? : Option OprObj) :
    Triple (Fresh o) (createFunc draw kind obj? spec) (Due o) fun _ => Allotted := by
  have hraise : ∀ {m : Text} {s : Opr}, Triple (fun t => s = t ∧ Fresh o t)
      (raise (.temporary m) : Task OprObj) (Due o) fun _ => Allotted := Triple.raise fun _ h => h.2.1
  have hassign : ∀ {s : Opr} {fwd : OprObj}, ¬ s.getUnallocatedDroplets.length < 1 →
      Triple (fun t => s = t ∧ Fresh o t) (assignDroplet draw fwd) (Due o) fun _ => Allotted :=
    fun hlen => (assignDroplet_spec hinit).pre fun t h => ⟨h.2, h.1 ▸ hlen⟩
  cases kind with
  | fwd =>
    exact Triple.bind Triple.getState fun s => Triple.ite (fun _ => hraise) fun _ =>
      Triple.ite (fun _ => hraise) hassign
  | ftn =>
    exact Triple.bind Triple.getState fun s => Triple.ite (fun _ => hraise) fun _ =>
      Triple.ite (fun _ => hraise) fun _ => Triple.ite (fun _ => hraise) hassign

/-- **Creating an object keeps the account.** -/
theorem commonCreate_spec (hinit : o.body.status = objStatusInit) : Triple (Fresh o)
    (commonCreate draw o.name o.body) (fun _ => Allotted) fun _ => Allotted := by
  refine Triple.bind ((keeps_storeGetObj Fresh.ofAccount o.body).exc fun _ _ h => h.1) fun obj? =>
    Triple.bind (createFunc_spec hinit o.name.1 obj?) fun obj =>
    Triple.bind (Q := fun _ => Due o obj) (Triple.modifyState fun s h => Due.ofAccount s _ rfl h) fun _ =>
    Triple.bind Triple.getState fun s => ?_
  refine Triple.assume (p := s.kube.get? o.name = some o) (fun t h => h.1 ▸ h.2.1) fun ho => ?_
  rw [ho]
  exact Triple.bind (Q := fun _ => Allotted) (Triple.modifyState fun t h => h.2.2) fun _ =>
    keeps_storeUpdateObj Allotted.ofAccount _

/-- **The start keeps the account.** -/
theorem commonOperatorStart_allotted : Keeps Allotted commonOperatorStart := by
  have hquiet : ∀ f : Opr → Opr, (∀ s, (f s).account = s.account) →
      Keeps Allotted (modifyState f : Task Unit) :=
    fun f hf => Keeps.modifyState fun s hs => Allotted.ofAccount s (f s) (hf s) hs
  exact Keeps.bind (hquiet _ fun _ => rfl) fun _ => Keeps.bind (hquiet _ fun _ => rfl) fun _ =>
    Keeps.bind (hquiet _ fun _ => rfl) fun _ => Keeps.bind (hquiet _ fun _ => rfl) fun _ =>
    Keeps.bind (hquiet _ fun _ => rfl) fun _ => Keeps.bind (hquiet _ fun _ => rfl) fun _ =>
    Keeps.forEach (fun _ => kubeCreateObj_allotted rfl) _

end Tasks

/-! ## Runs -/

/-- Objects without droplets need none allocated. -/
theorem allotted_restarted {s : Opr} (h : ∀ o ∈ s.kube.objs, o.body.droplet = []) : Allotted s.restarted where
  exactly := (exact_empty fun _ _ ⟨o, ho, _, hd, hne⟩ => hne (hd.symm.trans (h o ho))).congr
    (fun _ _ => Iff.rfl) Finset.coe_empty
  init o ho _ := h o ho

/-- A handler runs for an object that has the status. -/
theorem handle_eq_some {n : ObjName} {status : OprObj → Bool} {task : OprObj → Task Unit} {s t : Opr}
    (h : handle n status task s = some t) : ∃ o, s.kube.get? n = some o ∧ o.name = n ∧
      status o.body = true ∧ t = (task o.body s).2 := by
  unfold handle at h
  cases ho : s.kube.get? n with
  | none =>
    rw [ho] at h
    cases h
  | some o =>
    rw [ho] at h
    dsimp only at h
    split_ifs at h with hst
    exact ⟨o, rfl, (s.kube.get?_eq_some_iff.1 ho).2, hst, (Option.some.inj h).symm⟩

/-- **A step that keeps the account keeps the invariant.** -/
theorem OprAct.Accounts.allotted {a : OprAct} {s t : Opr} (h : Allotted s) (ha : a.Accounts s)
    (ht : oprStep a s = some t) : Allotted t := by
  cases a with
  | apply n spec =>
    obtain ⟨kube, hk, rfl⟩ := Option.map_eq_some_iff.1 ht
    exact h.create hk ha
  | chainFtns chain dft size =>
    obtain rfl := Option.some.inj ht
    exact (createNFtns_allotted chain dft size).final h
  | init n draw =>
    rw [oprStep] at ht
    obtain ⟨o, ho, rfl, hst, rfl⟩ := handle_eq_some ht
    exact (commonCreate_spec (of_decide_eq_true hst)).final ⟨h, ho⟩
  | provisioned n =>
    rw [oprStep] at ht
    obtain ⟨o, -, -, -, rfl⟩ := handle_eq_some ht
    exact commonProvisioned_allotted.final h
  | delete n =>
    obtain ⟨u, hu, rfl⟩ := Option.map_eq_some_iff.1 ht
    obtain ⟨o, ho, -, -, rfl⟩ := handle_eq_some hu
    have hidle : Idle n s := by
      refine ⟨h, fun d hd => ?_⟩
      obtain ⟨o', ho', hn, hd, hne⟩ := hd
      exact hne (hd.symm.trans (ha o' (s.kube.get?_eq_some_iff.2 ⟨ho', hn⟩)))
    exact (kubeDeleteObj_idle.final (commonDelete_idle.final hidle)).1
  | restart =>
    obtain rfl := Option.some.inj ht
    exact commonOperatorStart_allotted.final (allotted_restarted ha)
  | others provisioned stored =>
    obtain rfl := Option.some.inj ht
    exact Allotted.ofAccount s _ rfl h

/-- An operator that has been started while there are no FWDs and FTNs. -/
structure Opr.Starts (s : Opr) : Prop where
  kube : s.kube.objs = []
  allocatedDroplets : s.allocatedDroplets = ∅

theorem Opr.Starts.allotted {s : Opr} (h : s.Starts) : Allotted s := by
  have hnone : ∀ o ∈ s.kube.objs, o.body.droplet = [] := fun o ho => absurd (h.kube ▸ ho) List.not_mem_nil
  exact Allotted.ofAccount s.restarted s (Prod.ext rfl h.allocatedDroplets) (allotted_restarted hnone)

/-- **Allocation is exact.** In a run of steps that keep the account, in every state that is reached, no
droplet is assigned to two objects, and the allocated droplets are those that are assigned. -/
theorem allocation_exact (s : Opr) (h : s.Starts) (as : List OprAct)
    (has : Runs.EachStep oprStep OprAct.Accounts as s) (n : ℕ) (t : Opr)
    (ht : Runs.run oprStep (as.take n) s = some t) : t.AllocatedExactly :=
  (Runs.run_inv (I := Allotted) (fun _ _ _ hs ha hstep => ha.allotted hs hstep) ht (has.take n)
    h.allotted).exactly

/-! ## Samples -/

/-- Two droplets and the default DFT. -/
def twoDroplets : Names := ⟨["d0".toList, "d1".toList], [], [defaultDft], by decide⟩

/-- An operator that has stored them. -/
def Opr.start : Opr := ⟨.empty, twoDroplets, twoDroplets, fun _ => none, ∅⟩

/-- A new FWD of the default DFT. -/
def newFwd : OprObj := { OprObj.new with dft := defaultDft }

/-- An FWD is created and its handler runs. -/
def provisionFwd (name : Text) (draw : ℕ) : List OprAct := [.apply (.fwd, name) newFwd, .init (.fwd, name) draw]

/-- A restart, two FWDs, a third one for which there is no droplet, and its deletion. -/
def threeFwds : List OprAct := .restart :: provisionFwd "a".toList 1 ++ provisionFwd "b".toList 0 ++
  provisionFwd "c".toList 0 ++ [.delete (.fwd, "c".toList)]

theorem allocation_exact_sample :
    ∃ t, Runs.run oprStep (threeFwds.take 8) .start = some t ∧ t.AllocatedExactly := by
  have hsome : (Runs.run oprStep (threeFwds.take 8) .start).isSome = true := by decide +kernel
  obtain ⟨t, ht⟩ := Option.isSome_iff_exists.1 hsome
  exact ⟨t, ht, allocation_exact .start ⟨rfl, rfl⟩ threeFwds (by decide +kernel) 8 t ht⟩

/-- **Allocation is not exact**: after an FWD has been deleted its droplet is still allocated, and after a
restart a droplet is assigned to a second FWD. -/
theorem droplet_leaked_and_doubled :
    (∃ s, Runs.run oprStep (provisionFwd "a".toList 0 ++ [.delete (.fwd, "a".toList)]) .start = some s ∧
      ¬ s.AllocatedExactly) ∧
    ∃ s, Runs.run oprStep (provisionFwd "a".toList 0 ++ .restart :: provisionFwd "b".toList 0) .start = some s ∧
      s.Holds (.fwd, "a".toList) "d0".toList ∧ s.Holds (.fwd, "b".toList) "d0".toList := by
  have hleaked : (Runs.run oprStep (provisionFwd "a".toList 0 ++ [.delete (.fwd, "a".toList)]) .start).any
      (fun s => s.kube.objs = [] ∧ "d0".toList ∈ s.allocatedDroplets) = true := by decide +kernel
  have hdoubled : (Runs.run oprStep (provisionFwd "a".toList 0 ++ .restart :: provisionFwd "b".toList 0)
      .start).any (fun s => s.Holds (.fwd, "a".toList) "d0".toList ∧ s.Holds (.fwd, "b".toList) "d0".toList) =
      true := by decide +kernel
  obtain ⟨s, hs, hleaked⟩ := (Option.any_eq_true _ _).1 hleaked
  obtain ⟨s', hs', hdoubled⟩ := (Option.any_eq_true _ _).1 hdoubled
  refine ⟨⟨s, hs, fun h => ?_⟩, s', hs', of_decide_eq_true hdoubled⟩
  obtain ⟨hobjs, hmem⟩ := of_decide_eq_true hleaked
  obtain ⟨n, o, ho, -⟩ := (h.allocated _).1 hmem
  exact List.not_mem_nil (hobjs ▸ ho)

end ArionDp
