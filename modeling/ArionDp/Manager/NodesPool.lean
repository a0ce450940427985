import ArionDp.Manager.GatewayPool

/-!
# The pool of gateway addresses

What keeps the gateway addresses of a ZGC in its tenant droplets, each one once, when nodes are added
and removed.

* `KubeInv`: the invariant of the droplets in Kubernetes;
* **`newNodeGws_own`**, **`newNodeGws_other`**: what an addition does to the droplets of its own ZGC
  and of others;
* `Sound`, **`NodeOp.run_sound`**: the invariant of complete requests, with the rows.
-/

namespace ArionDp

open ApiServer PyText Py Inet Wire

/-- A ZGC row with a range that has gateways. -/
structure RangeOf (env : Env) (row : ZgcRow) (gws : List GwAddr) : Prop where
  range : getGWsFromIpRange env.macPrivate row.ipStart row.ipEnd = .ok gws
  nonempty : gws ≠ []
  nodup : (gws.map fun g => g.ip).Nodup
  paired : (gws.map fun g => g.ip).map (getMacFromIp env.macPrivate) = (gws.map fun g => g.mac).map .ok
  inj : ∀ a ∈ gws.map (fun g => g.ip), ∀ b ∈ gws.map (fun g => g.ip),
    getMacFromIp env.macPrivate a = getMacFromIp env.macPrivate b → a = b

/-- **The invariant of the droplets**: those of the ZGC share its gateways and are on known nodes,
and all have used names. -/
structure KubeInv (env : Env) (row : ZgcRow) (gws : List GwAddr) (names ips : List Text) (k : Kube) :
    Prop where
  pool : GatewayPool (getMacFromIp env.macPrivate) (gws.map fun g => g.ip)
    (k.select (selectsTenant row.zgcId))
  served : ∀ d ∈ k.select (selectsTenant row.zgcId), d.body.nodeIp ∈ ips
  names : ∀ o ∈ k.objs, o.name ∈ names

/-- **Frame of a ZGC**: its droplets are as they were, and there is at most one new name. -/
structure Apart (z name : Text) (k k' : Kube) : Prop where
  select : pairs (k'.select (selectsTenant z)) = pairs (k.select (selectsTenant z))
  names : ∀ o ∈ k'.objs, o.name = name ∨ o.name ∈ k.objs.map Obj.name

theorem Apart.refl (z name : Text) (k : Kube) : Apart z name k k :=
  ⟨rfl, fun _ ho => .inr (List.mem_map_of_mem ho)⟩

theorem KubeInv.apart {env : Env} {row : ZgcRow} {gws : List GwAddr} {names ips : List Text}
    {k k' : Kube} {name : Text} (h : KubeInv env row gws names ips k)
    (ha : Apart row.zgcId name k k') : KubeInv env row gws (names ++ [name]) ips k' where
  pool := h.pool.of_pairs (List.Perm.of_eq ha.select.symm)
  served d hd := by
    obtain ⟨d', hd', -, hb⟩ := exists_of_pairs_perm (List.Perm.of_eq ha.select.symm) hd
    exact hb ▸ h.served d' hd'
  names o ho := by
    rcases ha.names o ho with hn | hn
    · exact List.mem_append_right _ (List.mem_singleton.2 hn)
    · obtain ⟨o', ho', hn⟩ := List.mem_map.1 hn
      exact List.mem_append_left _ (hn ▸ h.names o' ho')

/-! ## Adding a node in another ZGC -/

section Additions

variable {env : Env} (hk : ∀ n, env.kubeFails n = false) {C : Core} {zgcId : Text} {b : NodeBody}
  (hfresh : ∀ o ∈ C.kube.objs, o.name ≠ tenantName env b.name)

theorem listDroplets_eq (env : Env) (C : Core) (zgcId : Text) {E : PyError → World → Prop} :
    Triple (fun w => w.core = C) (listDroplets env zgcId)
      (fun all w => all = env.order.run (C.kube.select (selectsTenant zgcId)) ∧ w.core = C) E := by
  refine Triple.bind Triple.getState fun w => Triple.pure ?_
  rintro s ⟨rfl, rfl⟩
  exact ⟨rfl, rfl⟩

theorem listDroplets_spec (env : Env) (C : Core) (zgcId : Text) {E : PyError → World → Prop} :
    Triple (fun w => w.core = C) (listDroplets env zgcId)
      (fun all w => all.Perm (C.kube.select (selectsTenant zgcId)) ∧ w.core = C) E :=
  (listDroplets_eq env C zgcId).post fun _ _ h => ⟨h.1 ▸ env.order.perm _, h.2⟩

theorem fresh_writes {name : Text} (h : ∀ o ∈ C.kube.objs, o.name ≠ name) (l : List Item) :
    ∀ o ∈ (C.writes l).kube.objs, o.name ≠ name := by
  intro o ho
  have hm : o.name ∈ C.kube.objs.map Obj.name := by
    rw [← C.kube.map_name_putAll (pairs l)]
    exact List.mem_map_of_mem ho
  obtain ⟨o', ho', hn⟩ := List.mem_map.1 hm
  exact hn ▸ h o' ho'

theorem Apart.writes {z name : Text} {k k₁ : Kube} (h : Apart z name k k₁) {l : List Item}
    (hv : Versions k₁ zgcId l) (hz : zgcId ≠ z) : Apart z name k (k₁.putAll (pairs l)) where
  select := (hv.select_other hz).trans h.select
  names o ho := by
    have hm : o.name ∈ k₁.objs.map Obj.name := by
      rw [← k₁.map_name_putAll (pairs l)]
      exact List.mem_map_of_mem ho
    obtain ⟨o', ho', hn⟩ := List.mem_map.1 hm
    exact hn ▸ h.names o' ho'

theorem Apart.create {z name : Text} {k k₁ k' : Kube} (h : Apart z name k k₁) {v : ℕ} {body : Droplet}
    (hz : body.zgcId ≠ z) (hobjs : k'.objs = k₁.objs ++ [⟨name, v, body⟩]) : Apart z name k k' where
  select := by
    have hsel : selectsTenant z body = false := decide_eq_false fun hc => hz hc.1
    rw [pairs_select_add k₁ _ hobjs, hsel, if_neg Bool.false_ne_true, List.append_nil, h.select]
  names o ho := by
    rw [hobjs, List.mem_append, List.mem_singleton] at ho
    rcases ho with ho | rfl
    · exact h.names o ho
    · exact .inl rfl

include hk hfresh

/-- **An addition leaves the droplets of other ZGCs alone**, also where it raises an exception. -/
theorem newNodeGws_other {z : Text} (hz : zgcId ≠ z) :
    let Q : World → Prop := fun w => ∃ k,
      w.core = { C with kube := k } ∧ Apart z (tenantName env b.name) C.kube k
    Triple (fun w => w.core = C) (newNodeGws env zgcId b) (fun _ => Q) fun _ => Q := by
  intro Q
  have hsame : ∀ w, w.core = C → Q w := fun w hw => ⟨C.kube, hw, .refl _ _ _⟩
  have hcreate : ∀ (l : List Item), Versions C.kube zgcId l → ∀ ip mac,
      Triple (fun w => w.core = C.writes l) (createDroplet env (tenantName env b.name) ip mac
        b.infTenant b.ipControl "tenant".toList zgcId) (fun _ => Q) fun _ => Q := by
    intro l hl ip mac
    have hQ : ∀ w, (∃ K, (C.writes l).kube.create (tenantName env b.name)
        (dropletBody ip mac b.infTenant b.ipControl "tenant".toList zgcId) = some K ∧
        w.core = { C.writes l with kube := K }) → Q w := by
      rintro w ⟨K, hK, hw⟩
      exact ⟨K, hw, ((Apart.refl _ _ _).writes hl hz).create hz (objs_create hK)⟩
    exact (createDroplet_spec (hk _) (fresh_writes hfresh l) ip mac _ _ _ _).conseq (fun _ h => h)
      (fun _ w h => hQ w h) fun _ w h => hQ w h.1
  rw [newNodeGws_post]
  refine Triple.bind (listDroplets_spec env C zgcId) fun all => ?_
  refine Triple.assume (fun _ h => h.1) fun hall => Triple.conseq (P := fun w => w.core = C) ?_
    (fun _ h => h.2) (fun _ _ h => h) fun _ _ h => h
  refine Triple.bind_ofExcept (fun _ _ => ?_) fun _ w _ h => hsame w h
  refine Triple.ite (fun _ => ?_) fun _ => ?_
  · refine Triple.bind_ofExcept (fun o ho => ?_) fun _ w _ h => hsame w h
    cases o with
    | none => exact Triple.pure fun w h => hsame w h
    | some p =>
      obtain ⟨items, hplan, -⟩ := planAddition_planned all _ ho p rfl
      have hv := hplan.versions hall
      refine Triple.bind ((forEach_writes hv.nodup hv.current fun C' d =>
        updateNodeAndDroplet_spec hk).exc ?_) fun _ => ?_
      · rintro e w ⟨⟨done, hdone, hw⟩, -⟩
        exact ⟨_, hw, (Apart.refl _ _ _).writes (hv.sublist hdone) hz⟩
      · exact Triple.bind (hcreate _ hv _ _) fun _ =>
          Triple.bind_ofExcept (fun _ _ => Triple.pure fun _ h => h) fun _ _ _ h => h
  · refine Triple.bind Triple.getState fun w => ?_
    cases w.zgcs.find? fun r => r.zgcId = zgcId with
    | none => exact Triple.pure fun _ h => hsame _ h.2
    | some zgc =>
      refine Triple.bind_ofExcept (fun gws _ => ?_) fun _ w _ h => hsame w h.2
      refine Triple.bind ((hcreate [] ⟨List.nodup_nil, fun d hd => absurd hd List.not_mem_nil⟩ _ _).pre
        fun _ h => h.2) fun _ => Triple.pure fun _ h => h

/-! ## Adding a node in the ZGC -/

omit hk hfresh in
theorem Planned.nodeIp_mem {all items modified : List Item} (h : Planned all items modified)
    {ips : List Text} (hips : ∀ d ∈ all, d.body.nodeIp ∈ ips) : ∀ d ∈ items, d.body.nodeIp ∈ ips := by
  intro d hd
  obtain ⟨i, hi, rfl⟩ := List.getElem_of_mem hd
  have hi' : i < all.length := h.same.length_eq ▸ hi
  obtain ⟨_, _, he⟩ := (List.forall₂_iff_get.1 h.same).2 i hi' hi
  simp only [List.get_eq_getElem] at he
  rw [he]
  exact hips all[i] (List.getElem_mem hi')

omit hk hfresh in
theorem not_unserved {getMac : Text → Except PyError Text} {nodes : List NodeRow} {d : Item}
    (hd : d.body.nodeIp ∈ nodes.map fun r => r.ipControl) (hp : Paired getMac d) :
    ¬ Unserved nodes d := by
  rintro (hu | hu)
  · obtain ⟨r, hr, hn⟩ := List.mem_map.1 hd
    exact hu r hr hn
  · exact absurd hp.length_eq hu.ne

variable {row : ZgcRow} {gws : List GwAddr} {names : List Text}

omit hk hfresh in
theorem KubeInv.mono {k : Kube} {names' ips ips' : List Text} (h : KubeInv env row gws names ips k)
    (hn : names ⊆ names') (hs : ips ⊆ ips') : KubeInv env row gws names' ips' k :=
  ⟨h.pool, fun d hd => hs (h.served d hd), fun o ho => hn (h.names o ho)⟩

omit hk hfresh in
/-- The invariant after a new droplet. -/
theorem KubeInv.create {k k₁ k' : Kube} {ips : List Text} (h : KubeInv env row gws names ips k)
    (items : List Item) (hitems : (pairs items).Perm (pairs (k₁.select (selectsTenant row.zgcId))))
    (hnames : k₁.objs.map Obj.name = k.objs.map Obj.name)
    (hips : ∀ d ∈ items, d.body.nodeIp ∈ ips)
    {name : Text} {v : ℕ} {body : Droplet} (hz : selectsTenant row.zgcId body = true)
    (hobjs : k'.objs = k₁.objs ++ [⟨name, v, body⟩])
    (hpool : GatewayPool (getMacFromIp env.macPrivate) (gws.map fun g => g.ip)
      (items ++ [⟨name, v, body⟩])) :
    KubeInv env row gws (names ++ [name]) (ips ++ [body.nodeIp]) k' := by
  have hp : (pairs (items ++ [⟨name, v, body⟩])).Perm
      (pairs (k'.select (selectsTenant row.zgcId))) := by
    rw [pairs_select_add k₁ _ hobjs, hz, if_pos rfl, pairs, List.map_append]
    exact hitems.append_right _
  refine ⟨hpool.of_pairs hp, fun d hd => ?_, fun o ho => ?_⟩
  · obtain ⟨d', hd', -, hb⟩ := exists_of_pairs_perm hp hd
    rw [← hb]
    rcases List.mem_append.1 hd' with hd' | hd'
    · exact List.mem_append_left _ (hips d' hd')
    · rw [List.mem_singleton.1 hd']
      exact List.mem_append_right _ (List.mem_singleton_self _)
  · rw [hobjs, List.mem_append, List.mem_singleton] at ho
    rcases ho with ho | rfl
    · have hm : o.name ∈ k.objs.map Obj.name := hnames ▸ List.mem_map_of_mem ho
      obtain ⟨o', ho', hn⟩ := List.mem_map.1 hm
      exact List.mem_append_left _ (hn ▸ h.names o' ho')
    · exact List.mem_append_right _ (List.mem_singleton_self _)

omit hk hfresh in
theorem RangeOf.tidy (hr : RangeOf env row gws) {ips : List Text} {k : Kube}
    (hi : KubeInv env row gws names ips k) {all : List Item}
    (hall : all.Perm (k.select (selectsTenant row.zgcId))) :
    Tidy (getMacFromIp env.macPrivate) all :=
  (hi.pool.perm hall.symm).tidy hr.nodup hr.inj

/-- The droplets of a plan are written, and the new one is created. -/
theorem newDroplet_plan (hi : KubeInv env row gws names (C.nodes.map fun r => r.ipControl) C.kube)
    {all : List Item} (hall : all.Perm (C.kube.select (selectsTenant row.zgcId))) {p : Plan}
    {items : List Item} (hp : Planned all items p.modified)
    (hpool : (poolIps items ++ p.ips).Perm (gws.map fun g => g.ip)) (hne : p.ips ≠ [])
    (hgood : ∀ d ∈ items, d.body.spec.ip ≠ [] ∧ Paired (getMacFromIp env.macPrivate) d)
    (hmacs : p.ips.map (getMacFromIp env.macPrivate) = p.macs.map .ok) {E : PyError → World → Prop} :
    Triple (fun w => w.core = C)
      (forEach (updateNodeAndDroplet env) p.modified >>= fun _ =>
        createDroplet env (tenantName env b.name) p.ips p.macs b.infTenant b.ipControl
          "tenant".toList row.zgcId)
      (fun _ w => ∃ k, w.core = { C with kube := k } ∧
        KubeInv env row gws (names ++ [tenantName env b.name])
          (C.nodes.map (fun r => r.ipControl) ++ [b.ipControl]) k) E := by
  have hv := hp.versions hall
  have hips := hp.nodeIp_mem fun d hd => hi.served d (hall.mem_iff.1 hd)
  have hlen := congrArg List.length hmacs
  rw [List.length_map, List.length_map] at hlen
  refine Triple.bind ((forEach_writes hv.nodup hv.current fun C' d =>
    updateNodeAndDroplet_spec hk).exc ?_) fun _ => ?_
  · rintro e w ⟨-, d, hd, hu⟩
    exact absurd hu (not_unserved (hips d (hp.mem d hd)) (hgood d (hp.mem d hd)).2)
  · refine (createDroplet_spec (hk _) (fresh_writes hfresh p.modified) p.ips p.macs b.infTenant
      b.ipControl "tenant".toList row.zgcId).conseq (fun _ h => h) ?_ fun e w h => absurd h.2 (by omega)
    rintro - w ⟨K, hK, hw⟩
    exact ⟨K, hw, hi.create items (hp.select_own hall) (C.kube.map_name_putAll _) hips
      (decide_eq_true ⟨rfl, rfl⟩) (objs_create hK) (.concat hpool hgood hne hmacs)⟩

/-- The first droplet gets all of the range. -/
theorem newDroplet_first (hr : RangeOf env row gws)
    (hi : KubeInv env row gws names (C.nodes.map fun r => r.ipControl) C.kube)
    (hnil : C.kube.select (selectsTenant row.zgcId) = []) {E : PyError → World → Prop} :
    Triple (fun w => w.core = C)
      (createDroplet env (tenantName env b.name) (gws.map fun gw => gw.ip) (gws.map fun gw => gw.mac)
        b.infTenant b.ipControl "tenant".toList row.zgcId)
      (fun _ w => ∃ k, w.core = { C with kube := k } ∧
        KubeInv env row gws (names ++ [tenantName env b.name])
          (C.nodes.map (fun r => r.ipControl) ++ [b.ipControl]) k) E := by
  refine (createDroplet_spec (hk _) hfresh _ _ b.infTenant b.ipControl "tenant".toList
    row.zgcId).conseq (fun _ h => h) ?_ fun e w h => absurd h.2 (by simp)
  rintro - w ⟨K, hK, hw⟩
  refine ⟨K, hw, hi.create [] (by rw [hnil]) rfl (fun d hd => absurd hd List.not_mem_nil)
    (decide_eq_true ⟨rfl, rfl⟩) (objs_create hK) (.concat (List.Perm.refl _)
      (fun d hd => absurd hd List.not_mem_nil) ?_ hr.paired)⟩
  exact fun hc => hr.nonempty (List.map_eq_nil_iff.1 hc)

/-- **An addition keeps the pool of its ZGC**; where it raises an exception it has written nothing. -/
theorem newNodeGws_own (hr : RangeOf env row gws)
    (hzgc : C.zgcs.find? (fun r => r.zgcId = row.zgcId) = some row)
    (hi : KubeInv env row gws names (C.nodes.map fun r => r.ipControl) C.kube) :
    Triple (fun w => w.core = C) (newNodeGws env row.zgcId b)
      (fun r w => r ≠ none ∧ ∃ k, w.core = { C with kube := k } ∧
        KubeInv env row gws (names ++ [tenantName env b.name])
          (C.nodes.map (fun r => r.ipControl) ++ [b.ipControl]) k)
      fun _ w => w.core = C := by
  rw [newNodeGws_post]
  refine Triple.bind (listDroplets_spec env C row.zgcId) fun all => ?_
  refine Triple.assume (fun _ h => h.1) fun hall => Triple.conseq (P := fun w => w.core = C) ?_
    (fun _ h => h.2) (fun _ _ h => h) fun _ _ h => h
  refine Triple.bind_ofExcept (fun _ _ => ?_) fun _ _ _ h => h
  refine Triple.ite (fun hlen => ?_) fun hlen => ?_
  · have hne : C.kube.select (selectsTenant row.zgcId) ≠ [] := by
      intro hc
      rw [hc] at hall
      rw [hall.eq_nil] at hlen
      exact absurd hlen (Nat.lt_irrefl 0)
    rcases planAddition_spec (hr.tidy hi hall) with
      hplan | ⟨p, items, hplan, hp, hpool, hpne, hgood, hmacs⟩
    · refine Triple.bind_ok hplan (Triple.pure fun w hw => ⟨Option.some_ne_none _, C.kube, hw, ?_⟩)
      exact (hi.apart (.refl _ _ _)).mono (List.Subset.refl _) (List.subset_append_left _ _)
    · have hlen' := congrArg List.length hmacs
      rw [List.length_map, List.length_map] at hlen'
      have honce := (poolIps_perm hall).trans (hi.pool.once hne)
      refine Triple.bind_ok hplan ?_
      refine Triple.bind_assoc (Triple.bind (newDroplet_plan hk hfresh hi hall hp (hpool.trans honce)
        hpne hgood hmacs) fun _ => ?_)
      exact Triple.bind_ofExcept (fun _ _ => Triple.pure fun _ h => ⟨Option.some_ne_none _, h⟩)
        fun e w he _ => absurd (zipAddrs_error he).2 (by omega)
  · have hnil : C.kube.select (selectsTenant row.zgcId) = [] := by
      rw [List.length_eq_zero_iff.1 (Nat.eq_zero_of_not_pos hlen)] at hall
      exact hall.nil_eq.symm
    refine Triple.bind Triple.getState fun w => Triple.assume (p := w.core = C) ?_ fun hw => ?_
    · rintro s ⟨rfl, hs⟩
      exact hs
    have hfind : w.zgcs.find? (fun r => r.zgcId = row.zgcId) = some row := by
      rw [← hw] at hzgc
      exact hzgc
    rw [hfind]
    refine Triple.bind_ok hr.range (Triple.bind
      ((newDroplet_first hk hfresh hr hi hnil).pre fun _ h => h.2) fun _ =>
        Triple.pure fun _ h => ⟨Option.some_ne_none _, h⟩)

end Additions

/-! ## The invariant of a request -/

/-- **The invariant between requests**, with the ids and names used so far. -/
structure Sound (env : Env) (row : ZgcRow) (gws : List GwAddr) (used : List (Text × Text)) (C : Core) :
    Prop where
  zgc : C.zgcs.find? (fun r => r.zgcId = row.zgcId) = some row
  rows : ∀ r ∈ C.nodes, (r.nodeId, r.name) ∈ used
  kube : KubeInv env row gws (used.map fun u => tenantName env u.2)
    (C.nodes.map fun r => r.ipControl) C.kube

/-- An id and a name that have not been used, also not up to the normalisation of droplet names. -/
def Unused (env : Env) (used : List (Text × Text)) (u : Text × Text) : Prop :=
  ∀ v ∈ used, v.1 ≠ u.1 ∧ normalName env v.2 ≠ normalName env u.2

section Requests

variable {env : Env} {row : ZgcRow} {gws : List GwAddr} {used : List (Text × Text)} {C : Core}

theorem Sound.grow (h : Sound env row gws used C) (u : Text × Text) {k : Kube}
    (hk : KubeInv env row gws ((used ++ [u]).map fun v => tenantName env v.2)
      (C.nodes.map fun r => r.ipControl) k) :
    Sound env row gws (used ++ [u]) { C with kube := k } :=
  ⟨h.zgc, fun r hr => List.mem_append_left _ (h.rows r hr), hk⟩

theorem Sound.addNode (h : Sound env row gws used C) {r : NodeRow} {k : Kube}
    (hk : KubeInv env row gws ((used ++ [(r.nodeId, r.name)]).map fun v => tenantName env v.2)
      (C.nodes.map (fun r => r.ipControl) ++ [r.ipControl]) k) :
    Sound env row gws (used ++ [(r.nodeId, r.name)]) ⟨k, C.zgcs, C.nodes ++ [r]⟩ where
  zgc := h.zgc
  rows r' hr' := by
    rcases List.mem_append.1 hr' with hr' | hr'
    · exact List.mem_append_left _ (h.rows r' hr')
    · rw [List.mem_singleton.1 hr']
      exact List.mem_append_right _ (List.mem_singleton_self _)
  kube := by
    have hn : (C.nodes ++ [r]).map (fun r => r.ipControl) =
        C.nodes.map (fun r => r.ipControl) ++ [r.ipControl] := List.map_append
    rw [← hn] at hk
    exact hk

theorem tenantName_inj {m n : Text} (h : tenantName env m = tenantName env n) :
    normalName env m = normalName env n := by
  unfold tenantName at h
  exact List.append_cancel_left h

theorem tenantName_ne_zgcName (m n : Text) : tenantName env m ≠ zgcName env n := by
  have hlt : 8 < "droplet-tenant-".toList.length := by simp
  have hlz : 8 < "droplet-zgc-".toList.length := by simp
  have ht : (tenantName env m)[8]? = some 't' := by
    unfold tenantName
    exact (List.getElem?_append_left hlt).trans rfl
  have hz : (zgcName env n)[8]? = some 'z' := by
    unfold zgcName
    exact (List.getElem?_append_left hlz).trans rfl
  intro h
  rw [h, hz] at ht
  exact absurd ht (by decide)

variable (hk : ∀ n, env.kubeFails n = false) (hr : RangeOf env row gws)

include hk hr

theorem addNode_spec (hs : Sound env row gws used C) {nodeId : Text} {b : NodeBody}
    (hu : Unused env used (nodeId, b.name)) (zgcId : Text) :
    let Q : World → Prop := fun w => Sound env row gws (used ++ [(nodeId, b.name)]) w.core
    Triple (fun w => w.core = C) (addNode env zgcId nodeId b) (fun _ => Q) fun _ => Q := by
  intro Q
  have hfresh : ∀ o ∈ C.kube.objs, o.name ≠ tenantName env b.name := by
    intro o ho hc
    obtain ⟨v, hv, hn⟩ := List.mem_map.1 (hs.kube.names o ho)
    exact (hu v hv).2 (tenantName_inj (hn.trans hc))
  have hrow : ∀ r ∈ C.nodes, r.nodeId ≠ nodeId ∧ r.name ≠ b.name := fun r hr =>
    ⟨(hu _ (hs.rows r hr)).1, fun hc => (hu _ (hs.rows r hr)).2 (congrArg _ hc)⟩
  have hmap : (used ++ [(nodeId, b.name)]).map (fun v => tenantName env v.2) =
      (used.map fun v => tenantName env v.2) ++ [tenantName env b.name] := List.map_append
  have hadd : ∀ k gws', KubeInv env row gws ((used.map fun v => tenantName env v.2) ++
      [tenantName env b.name]) (C.nodes.map (fun r => r.ipControl) ++ [b.ipControl]) k →
      Triple (fun w => w.core = { C with kube := k })
        (dbAddNode ⟨nodeId, zgcId, b.name, b.ipControl, b.infTenant, b.infZgc, gws'⟩ >>= fun _ =>
          pure .created : Req NodeReply) (fun _ => Q) fun _ => Q := by
    intro k gws' hkube
    refine Triple.bind (dbAddNode_spec _ hrow) fun _ => Triple.pure fun w hw => ?_
    change Sound env row gws _ w.core
    rw [hw]
    exact hs.addNode (r := ⟨nodeId, zgcId, b.name, b.ipControl, b.infTenant, b.infZgc, []⟩)
      (hmap ▸ hkube)
  have hstay : ∀ w k, w.core = { C with kube := k } → KubeInv env row gws
      ((used.map fun v => tenantName env v.2) ++ [tenantName env b.name])
      (C.nodes.map fun r => r.ipControl) k → Q w := by
    intro w k hw hkube
    change Sound env row gws _ w.core
    rw [hw]
    exact hs.grow _ (hmap ▸ hkube)
  by_cases hz : zgcId = row.zgcId
  · subst hz
    refine Triple.bind ((newNodeGws_own hk hfresh hr hs.zgc hs.kube).exc fun e w hw => hstay w C.kube hw
      (hs.kube.apart (.refl _ _ _))) fun r => ?_
    rintro w ⟨hne, k, hw, hkube⟩
    cases r with
    | none => exact absurd rfl hne
    | some gws' => exact hadd k gws' hkube w hw
  · refine Triple.bind ((newNodeGws_other hk hfresh hz).exc ?_) fun r => ?_
    · rintro e w ⟨k, hw, ha⟩
      exact hstay w k hw (hs.kube.apart ha)
    · rintro w ⟨k, hw, ha⟩
      cases r with
      | none => exact hstay w k hw (hs.kube.apart ha)
      | some gws' =>
        exact hadd k gws' ((hs.kube.apart ha).mono (List.Subset.refl _)
          (List.subset_append_left _ _)) w hw

/-! ## Removing a node -/

omit hk hr in
/-- The droplets of a ZGC without the one that is deleted. -/
theorem erase_perm_select {k k₁ : Kube} {z : Text} {all : List Item} {d : Item}
    (hall : all.Perm (k.select (selectsTenant z))) (hd : d ∈ all)
    (hobjs : k₁.objs = k.objs.filter fun o => o.name ≠ d.name) :
    (all.erase d).Perm (k₁.select (selectsTenant z)) := by
  have hsel : k₁.select (selectsTenant z) = (k.select (selectsTenant z)).erase d := by
    rw [(List.Nodup.of_map _ (nodup_names_select k z)).erase_eq_filter]
    change k₁.objs.filter _ = List.filter _ (k.objs.filter _)
    rw [hobjs, List.filter_comm]
    refine List.filter_congr fun o ho => ?_
    have hiff : o.name ≠ d.name ↔ o ≠ d := by
      refine not_congr ⟨fun hn => ?_, fun h => h ▸ rfl⟩
      exact k.eq_of_name_eq (List.mem_of_mem_filter ho) (mem_select.1 (hall.mem_iff.1 hd)).1 hn
    exact Bool.eq_iff_iff.2 (by simpa using hiff)
  rw [hsel]
  exact hall.erase d

omit hk hr in
theorem Apart.delete {k k₁ : Kube} {z z' : Text} {d : Item} (hz : z' ≠ z)
    (hd : d ∈ k.select (selectsTenant z')) (hobjs : k₁.objs = k.objs.filter fun o => o.name ≠ d.name) :
    Apart z d.name k k₁ where
  select := by
    rw [pairs_select_drop k _ hobjs]
    refine List.filter_eq_self.2 fun e he => ?_
    obtain ⟨o, ho, rfl⟩ := List.mem_map.1 he
    refine decide_eq_true fun hn => hz ?_
    obtain rfl : o = d := k.eq_of_name_eq (mem_select.1 ho).1 (mem_select.1 hd).1 hn
    have h1 := (mem_select.1 ho).2
    have h2 := (mem_select.1 hd).2
    exact (of_decide_eq_true h2).1.symm.trans (of_decide_eq_true h1).1
  names o ho := by
    rw [hobjs] at ho
    exact .inr (List.mem_map_of_mem (List.mem_of_mem_filter ho))

omit hk in
/-- **A removal keeps the pool of its ZGC.** -/
theorem KubeInv.remove {k k₁ : Kube} {names ips : List Text} (hi : KubeInv env row gws names ips k)
    {all : List Item} (hall : all.Perm (k.select (selectsTenant row.zgcId))) {d : Item} (hd : d ∈ all)
    (hobjs : k₁.objs = k.objs.filter fun o => o.name ≠ d.name) {modified : List Item}
    (hplan : planRemoval (getMacFromIp env.macPrivate) d.body.spec.ip (all.erase d) = .ok modified) :
    KubeInv env row gws names ips (k₁.putAll (pairs modified)) ∧
      ∀ e ∈ modified, e.body.nodeIp ∈ ips ∧ Paired (getMacFromIp env.macPrivate) e := by
  obtain ⟨items, hp, hpool, hgood⟩ := (hr.tidy hi hall).removed hd hplan
  have hasc : (ascending (all.erase d)).Perm (k₁.select (selectsTenant row.zgcId)) :=
    (ascending_perm _).trans (erase_perm_select hall hd hobjs)
  have hips := hp.nodeIp_mem fun e he =>
    hi.served e (hall.mem_iff.1 (List.mem_of_mem_erase ((ascending_perm _).mem_iff.1 he)))
  have hsel := hp.select_own hasc
  refine ⟨⟨GatewayPool.of_pairs ⟨fun _ => ?_, fun e he => (hgood e he).1, fun e he => (hgood e he).2⟩
    hsel, fun e he => ?_, fun o ho => ?_⟩, fun e he => ⟨hips e (hp.mem e he), (hgood e (hp.mem e he)).2⟩⟩
  · have hne' : k.select (selectsTenant row.zgcId) ≠ [] :=
      List.ne_nil_of_mem (hall.mem_iff.1 hd)
    have hcons : (poolIps (all.erase d) ++ d.body.spec.ip).Perm (poolIps all) :=
      List.perm_append_comm.trans (poolIps_perm (List.perm_cons_erase hd)).symm
    exact hpool.trans (hcons.trans ((poolIps_perm hall).trans (hi.pool.once hne')))
  · obtain ⟨e', he', -, hb⟩ := exists_of_pairs_perm hsel he
    exact hb ▸ hips e' he'
  · have hm : o.name ∈ k₁.objs.map Obj.name := by
      rw [← k₁.map_name_putAll (pairs modified)]
      exact List.mem_map_of_mem ho
    obtain ⟨o', ho', hn⟩ := List.mem_map.1 hm
    rw [hobjs] at ho'
    exact hn ▸ hi.names o' (List.mem_of_mem_filter ho')

omit hk hr in
theorem Sound.with_kube (hs : Sound env row gws used C) {w : World} {k : Kube}
    (hw : w.core = { C with kube := k })
    (h : KubeInv env row gws (used.map fun u => tenantName env u.2) (C.nodes.map fun r => r.ipControl) k) :
    Sound env row gws used w.core := by
  rw [hw]
  exact ⟨hs.zgc, hs.rows, h⟩

/-- The loop of a removal, whether it ends or stops. -/
theorem forEach_removal (hs : Sound env row gws used C) {zgcId : Text} {all : List Item}
    (hall : all.Perm (C.kube.select (selectsTenant zgcId))) {d : Item} (hd : d ∈ all)
    (hname : d.name ∈ used.map fun u => tenantName env u.2) {k₁ : Kube}
    (hobjs : k₁.objs = C.kube.objs.filter fun o => o.name ≠ d.name) {modified : List Item}
    (hplan : planRemoval (getMacFromIp env.macPrivate) d.body.spec.ip (all.erase d) = .ok modified) :
    Triple (fun w => w.core = { C with kube := k₁ }) (forEach (updateDroplet env) modified)
      (fun _ w => Sound env row gws used w.core) fun _ w => Sound env row gws used w.core := by
  obtain ⟨items, hplanned⟩ := planRemoval_planned _ _ modified hplan
  have hv : Versions k₁ zgcId modified :=
    hplanned.versions ((ascending_perm _).trans (erase_perm_select hall hd hobjs))
  have hother : zgcId ≠ row.zgcId → ∀ l, l.Sublist modified → ∀ w : World,
      w.core = { C with kube := k₁.putAll (pairs l) } → Sound env row gws used w.core := by
    intro hz l hl w hw
    have happart := (Apart.delete hz (hall.mem_iff.1 hd) hobjs).writes (hv.sublist hl) hz
    refine hs.with_kube hw ((hs.kube.apart happart).mono ?_ (List.Subset.refl _))
    refine List.append_subset.2 ⟨List.Subset.refl _, fun n hn => ?_⟩
    rw [List.mem_singleton.1 hn]
    exact hname
  refine (forEach_writes (C := { C with kube := k₁ }) hv.nodup hv.current fun C' d hd =>
    (updateDroplet_spec (hk _) hd).exc fun _ _ h => ⟨.inr h.1, .inr h.2⟩).conseq (fun _ h => h) ?_ ?_
  · intro _ w hw
    by_cases hz : zgcId = row.zgcId
    · exact hs.with_kube hw (hs.kube.remove hr (hz ▸ hall) hd hobjs hplan).1
    · exact hother hz modified (List.Sublist.refl _) w hw
  · rintro e w ⟨⟨done, hdone, hw⟩, d', hd', hu⟩
    by_cases hz : zgcId = row.zgcId
    · obtain ⟨hip, hpaired⟩ := (hs.kube.remove hr (hz ▸ hall) hd hobjs hplan).2 d' hd'
      exact absurd hu (not_unserved hip hpaired)
    · exact hother hz done hdone w hw

theorem singleNodeDelete_spec (hs : Sound env row gws used C) (nodeId : Text) :
    let Q : World → Prop := fun w => Sound env row gws used w.core
    Triple (fun w => w.core = C) (singleNodeDelete env nodeId) (fun _ => Q) fun _ => Q := by
  intro Q
  have hsame : ∀ w, w.core = C → Q w := fun w hw => by
    change Sound env row gws used w.core
    rwa [hw]
  refine Triple.bind Triple.getState fun w => Triple.assume (p := w.core = C) ?_ fun hw => ?_
  · rintro s ⟨rfl, h⟩
    exact h
  refine Triple.conseq (P := fun w => w.core = C) ?_ (fun _ h => h.2) (fun _ _ h => h) fun _ _ h => h
  cases hnode : w.nodes.find? fun r => r.nodeId = nodeId with
  | none => exact Triple.raise fun w h => hsame w h
  | some node =>
    have hname : tenantName env node.name ∈ used.map fun u => tenantName env u.2 := by
      have hmem : node.bare ∈ C.nodes := hw ▸ List.mem_map_of_mem (List.mem_of_find?_eq_some hnode)
      exact List.mem_map.2 ⟨_, hs.rows _ hmem, rfl⟩
    refine Triple.bind (listDroplets_spec env C node.zgcId) fun all => ?_
    refine Triple.assume (fun _ h => h.1) fun hall => Triple.conseq (P := fun w => w.core = C) ?_
      (fun _ h => h.2) (fun _ _ h => h) fun _ _ h => h
    cases hfind : all.find? fun d => d.name = tenantName env node.name with
    | none => exact Triple.pure fun w h => hsame w h
    | some d =>
      have hd : d ∈ all := List.mem_of_find?_eq_some hfind
      have hdn : d.name = tenantName env node.name := by simpa using List.find?_some hfind
      refine Triple.bind_ofExcept (fun modified hplan => ?_) fun _ w _ h => hsame w h
      rw [← hdn] at hname ⊢
      refine Triple.bind (deleteDroplet_some (hk _) ⟨d, (mem_select.1 (hall.mem_iff.1 hd)).1, rfl⟩)
        fun _ => ?_
      rintro w₁ ⟨k₁, hobjs, hw₁⟩
      refine (?_ : Triple (fun w => w.core = { C with kube := k₁ }) _ (fun _ => Q) fun _ => Q) w₁ hw₁
      have hzgc : ∀ o ∈ k₁.objs, o.name ≠ zgcName env node.name := by
        intro o ho
        rw [hobjs] at ho
        obtain ⟨u, -, hu⟩ := List.mem_map.1 (hs.kube.names o (List.mem_of_mem_filter ho))
        exact hu ▸ tenantName_ne_zgcName _ _
      refine Triple.bind (deleteDroplet_none (hk _) hzgc) fun _ => Triple.bind (Q := fun _ => Q)
        (forEach_removal hk hr hs hall hd hname hobjs hplan) fun _ => ?_
      exact Triple.bind (nodeUnloadTransitXdp_spec (Sound env row gws used) _ (Q := fun _ _ => False))
        fun _ _ h => h.elim

/-! ## Runs -/

/-- **A request keeps the invariant**, whether it returns or raises an exception. -/
theorem NodeOp.run_sound (hs : Sound env row gws used C) (op : NodeOp)
    (hu : ∀ u ∈ op.adds, Unused env used u) {w : World} (hw : w.core = C) :
    Sound env row gws (used ++ op.adds) (op.run env w).core := by
  -- an addition raises before it has done anything, or does what `addNode` does
  have hraise : ∀ u (w : World), w.core = C → Sound env row gws (used ++ [u]) w.core := by
    intro u w hw
    rw [hw]
    refine hs.grow u (hs.kube.mono ?_ (List.Subset.refl _))
    rw [List.map_append]
    exact List.subset_append_left _ _
  have hadd : ∀ zgcId nodeId (b : NodeBody), Unused env used (nodeId, b.name) →
      Triple (fun w => w.core = C) (nodeLoadTransitXdp b.ipControl >>= fun _ =>
        addNode env zgcId nodeId b) (fun _ w => Sound env row gws (used ++ [(nodeId, b.name)]) w.core)
        fun _ w => Sound env row gws (used ++ [(nodeId, b.name)]) w.core :=
    fun zgcId nodeId b hu => Triple.bind
      ((nodeLoadTransitXdp_spec (fun C' => C' = C) _).exc fun _ w h => hraise _ w h) fun _ =>
      addNode_spec hk hr hs hu zgcId
  cases op with
  | post nodeId b => exact (hadd b.zgcId nodeId b (hu _ (List.mem_singleton_self _))).final hw
  | hazelcast nodeId b =>
    have hset : Triple (fun w => w.core = C) (setUpNodeFromHazelcast env nodeId b)
        (fun _ w => Sound env row gws (used ++ [(nodeId, b.name)]) w.core)
        fun _ w => Sound env row gws (used ++ [(nodeId, b.name)]) w.core := by
      refine Triple.bind Triple.getState fun w => ?_
      cases w.activeZgc with
      | none => exact Triple.raise fun w h => hraise _ w h.2
      | some z =>
        exact (hadd z.zgcId nodeId b (hu _ (List.mem_singleton_self _))).pre fun _ h => h.2
    exact hset.final hw
  | delete nodeId =>
    have := (singleNodeDelete_spec hk hr hs nodeId).final hw
    change Sound env row gws (used ++ []) _
    rwa [List.append_nil]

/-- **Run lemma.** -/
theorem runNodeOps_sound (ops : List NodeOp) {w : World} (hs : Sound env row gws used w.core)
    (hids : (used.map Prod.fst ++ ops.flatMap fun op => op.adds.map Prod.fst).Nodup)
    (hnames : (used.map (fun u => normalName env u.2) ++
      ops.flatMap fun op => op.adds.map fun u => normalName env u.2).Nodup) :
    ∃ used', Sound env row gws used' (runNodeOps env ops w).core := by
  induction ops generalizing w used with
  | nil => exact ⟨used, hs⟩
  | cons op ops ih =>
    rw [List.flatMap_cons] at hids hnames
    have hu : ∀ u ∈ op.adds, Unused env used u := by
      intro u hu v hv
      constructor
      · exact (List.nodup_append.1 hids).2.2 _ (List.mem_map_of_mem hv) _
          (List.mem_append_left _ (List.mem_map_of_mem hu))
      · exact (List.nodup_append.1 hnames).2.2 _ (List.mem_map.2 ⟨v, hv, rfl⟩) _
          (List.mem_append_left _ (List.mem_map.2 ⟨u, hu, rfl⟩))
    refine ih (NodeOp.run_sound hk hr hs op hu rfl) ?_ ?_
    · rwa [List.map_append, List.append_assoc]
    · rwa [List.map_append, List.append_assoc]

end Requests

/-! ## The pool -/

/-- The range between two quads has gateways. -/
theorem rangeOf_dotted (env : Env) (mp : MacPrivate) (hmac : env.macPrivate = mp.val)
    (a b : Fin 4 → U8) (hab : octetsNat (List.ofFn a) ≤ octetsNat (List.ofFn b)) (z : Text) :
    RangeOf env ⟨z, dotted a, dotted b⟩
      ((rangeIps a b).map fun n : ℕ => ⟨ipText n, intToMac ((mp.val + n : ℕ) : ℤ)⟩) := by
  have hips : ((rangeIps a b).map fun n : ℕ =>
      (⟨ipText n, intToMac ((mp.val + n : ℕ) : ℤ)⟩ : GwAddr)).map (fun g => g.ip) =
      (rangeIps a b).map fun n : ℕ => ipText n := List.map_map
  refine ⟨?_, fun hc => ?_, ?_, ?_, ?_⟩
  · rw [hmac]
    exact getGWsFromIpRange_dotted mp a b
  · have := congrArg List.length hc
    simp only [rangeIps, List.length_map, List.length_range, List.length_nil] at this
    omega
  · rw [hips]
    exact (nodup_rangeIps a b).map_on fun m hm n hn h =>
      ipText_inj (lt_of_mem_rangeIps hm) (lt_of_mem_rangeIps hn) h
  · rw [hips, List.map_map, List.map_map, List.map_map, hmac]
    exact List.map_congr_left fun n hn => getMacFromIp_ipText mp (lt_of_mem_rangeIps hn)
  · rw [hips, hmac]
    intro s hs t ht h
    obtain ⟨m, hm, rfl⟩ := List.mem_map.1 hs
    obtain ⟨n, hn, rfl⟩ := List.mem_map.1 ht
    rw [getMacFromIp_inj mp (lt_of_mem_rangeIps hm) (lt_of_mem_rangeIps hn) h]

end ArionDp
