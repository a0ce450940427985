import ArionDp.Manager.GatewayPool
import ArionDp.Operator.Provision

/-!
# Gateway addresses under interleaving

The operator patches droplets with specs that it remembers, so it can bring back addresses that the
manager has moved in the meantime. Where it does not, and the manager's own writes are not refused,
every interleaving keeps every address in its one droplet.

* `Coherent`: the condition on a step;
* `expected`: the droplets as they will be after the addition that is under way, and **`step_kept`**,
  its invariant;
* **`run_keeps_addresses`**, over all runs, and `interleaving_doubles`, a run with a stale patch.
-/

namespace ArionDp

open ApiServer Runs

/-- An address is in the `spec.ip` of exactly one droplet. -/
def InOneDroplet (a : Text) (items : List Item) : Prop :=
  (items.filter fun d => a ∈ d.body.spec.ip).length = 1

instance (a : Text) (items : List Item) : Decidable (InOneDroplet a items) :=
  inferInstanceAs (Decidable (_ = _))

theorem count_eq_one_of_inOneDroplet {a : Text} {items : List Item}
    (hn : ∀ d ∈ items, d.body.spec.ip.count a ≤ 1) (h : InOneDroplet a items) :
    (poolIps items).count a = 1 := by
  have hc : (poolIps items).count a = (items.filter fun d => a ∈ d.body.spec.ip).length := by
    clear h
    induction items with
    | nil => rfl
    | cons d items ih =>
      have hd := hn d (List.mem_cons_self ..)
      rw [poolIps, List.flatMap_cons, List.count_append, List.filter_cons]
      have := ih fun e he => hn e (List.mem_cons_of_mem _ he)
      by_cases ha : a ∈ d.body.spec.ip
      · have hpos := List.count_pos_iff.2 ha
        rw [if_pos (decide_eq_true ha), List.length_cons, ← this, poolIps]
        omega
      · rw [if_neg (by simpa using ha), List.count_eq_zero.2 ha, ← this, poolIps, Nat.zero_add]
  rw [hc]
  exact h

theorem inOneDroplet_of_count {a : Text} {items : List Item} (h : (poolIps items).count a = 1) :
    InOneDroplet a items := by
  unfold InOneDroplet
  induction items with
  | nil => simp [poolIps] at h
  | cons d items ih =>
    rw [poolIps, List.flatMap_cons, List.count_append] at h
    by_cases ha : a ∈ d.body.spec.ip
    · have hpos := List.count_pos_iff.2 ha
      have hzero : (poolIps items).count a = 0 := by
        rw [poolIps]
        omega
      have hnil : (items.filter fun d => a ∈ d.body.spec.ip) = [] := by
        refine List.filter_eq_nil_iff.2 fun e he hae => ?_
        exact List.count_eq_zero.1 hzero (mem_poolIps.2 ⟨e, he, by simpa using hae⟩)
      rw [List.filter_cons, if_pos (decide_eq_true ha), hnil]
      rfl
    · rw [List.count_eq_zero.2 ha, Nat.zero_add] at h
      rw [List.filter_cons, if_neg (by simpa using ha)]
      exact ih h

/-! ## The condition and the invariant -/

section Run

variable {env : Env} {row : ZgcRow} {c c' : Cluster}

/-- The tenant droplets of the ZGC. -/
def tenants (row : ZgcRow) (c : Cluster) : List Item := c.kube.select (selectsTenant row.zgcId)

/-- **The condition on a step**: a patch that is not refused has the addresses that the droplet has, a
replacement is not refused, and the name of a new droplet is free. -/
def Coherent (row : ZgcRow) : Act → Cluster → Prop
  | .patch name, c => ∀ t ∈ c.task? name, ∀ o ∈ c.kube.get? name, t.read = some o.resourceVersion →
      selectsTenant row.zgcId o.body = true → t.spec.ip.Perm o.body.spec.ip
  | .replace, c => ∀ a ∈ c.addition, ∀ d ∈ a.todo.head?, Current c.kube d
  | .create, c => ∀ a ∈ c.addition, ∀ o ∈ c.kube.objs, o.name ≠ a.name
  | _, _ => True

instance (row : ZgcRow) : ∀ a c, Decidable (Coherent row a c)
  | .patch name, c => inferInstanceAs (Decidable (∀ t ∈ c.task? name, ∀ o ∈ c.kube.get? name,
      t.read = some o.resourceVersion → selectsTenant row.zgcId o.body = true →
        t.spec.ip.Perm o.body.spec.ip))
  | .replace, c => inferInstanceAs (Decidable (∀ a ∈ c.addition, ∀ d ∈ a.todo.head?, Current c.kube d))
  | .create, c =>
    inferInstanceAs (Decidable (∀ a ∈ c.addition, ∀ o ∈ c.kube.objs, o.name ≠ a.name))
  | .event _ _, _ => isTrue trivial
  | .read _, _ => isTrue trivial
  | .list _, _ => isTrue trivial

/-- The replacements to come. -/
def Cluster.todo (c : Cluster) : List Item :=
  match c.addition with
  | some a => a.todo
  | none => []

/-- The creation to come. -/
def Cluster.new (c : Cluster) : List (Text × Droplet) :=
  match c.addition with
  | some a => [(a.name, a.body)]
  | none => []

/-- **The tenant droplets after the addition that is under way.** -/
def expected (row : ZgcRow) (c : Cluster) : List (Text × Droplet) :=
  (pairs (tenants row c)).map (overlay (pairs c.todo)) ++ c.new

/-- The addresses of droplets. -/
def ipsOf (l : List (Text × Droplet)) : List Text := l.flatMap fun e => e.2.spec.ip

/-- **The invariant of an address.** -/
structure Kept (row : ZgcRow) (x : Text) (c : Cluster) : Prop where
  nodup : (c.todo.map fun d => d.name).Nodup
  mem : ∀ d ∈ c.todo, selectsTenant row.zgcId d.body = true ∧
    d.name ∈ (pairs (tenants row c)).map Prod.fst
  new : ∀ e ∈ c.new, selectsTenant row.zgcId e.2 = true
  once : (ipsOf (expected row c)).count x = 1

/-! ## Steps -/

theorem ipsOf_map_perm {l : List (Text × Droplet)} {f g : Text × Droplet → Text × Droplet}
    (h : ∀ e ∈ l, (f e).2.spec.ip.Perm (g e).2.spec.ip) : (ipsOf (l.map f)).Perm (ipsOf (l.map g)) := by
  unfold ipsOf
  rw [List.flatMap_map, List.flatMap_map]
  exact List.Perm.flatMap_left l h

/-- Only the droplets and the addition matter. -/
theorem Kept.congr {x : Text} (h : Kept row x c) (hk : c'.kube = c.kube)
    (ha : c'.addition = c.addition) : Kept row x c' := by
  obtain ⟨kube, events, tasks, addition⟩ := c'
  obtain rfl : kube = c.kube := hk
  obtain rfl : addition = c.addition := ha
  exact ⟨h.nodup, h.mem, h.new, h.once⟩

variable (row) in
theorem pairs_tenants_put {name : Text} {b : Droplet} (hk : c'.kube = c.kube.put name b)
    (hb : ∀ o ∈ c.kube.objs, o.name = name →
      selectsTenant row.zgcId o.body = selectsTenant row.zgcId b) :
    pairs (tenants row c') = (pairs (tenants row c)).map (overlay [(name, b)]) := by
  unfold tenants
  rw [hk]
  exact pairs_select_put c.kube _ hb

/-- **A write with the addresses that are there** changes no pool. -/
theorem Kept.put {x name : Text} {o : Item} {b : Droplet} (h : Kept row x c)
    (ho : c.kube.get? name = some o)
    (hsel : selectsTenant row.zgcId b = selectsTenant row.zgcId o.body)
    (hip : selectsTenant row.zgcId o.body = true → b.spec.ip.Perm o.body.spec.ip)
    (hk : c'.kube = c.kube.put name b) (ha : c'.addition = c.addition) : Kept row x c' := by
  obtain ⟨hmem, hname⟩ := (c.kube.get?_eq_some_iff).1 ho
  have hten := pairs_tenants_put row hk fun o' ho' hn => by
    rw [c.kube.eq_of_name_eq ho' hmem (hn.trans hname.symm), hsel]
  have htodo : c'.todo = c.todo := by rw [Cluster.todo, ha, Cluster.todo]
  have hnew : c'.new = c.new := by rw [Cluster.new, ha, Cluster.new]
  refine ⟨htodo ▸ h.nodup, fun d hd => ?_, hnew ▸ h.new, ?_⟩
  · rw [hten, map_fst_overlay]
    exact h.mem d (htodo ▸ hd)
  rw [← h.once]
  refine List.Perm.count_eq ?_ x
  unfold expected
  rw [htodo, hnew, hten, List.map_map, ipsOf, ipsOf, List.flatMap_append, List.flatMap_append]
  refine List.Perm.append_right _ (ipsOf_map_perm fun e he => ?_)
  rw [Function.comp_apply]
  by_cases hen : e.1 = name
  swap
  · have hs : e.1 ∉ [(name, b)].map Prod.fst := by simpa using hen
    rw [overlay_of_notMem hs]
  by_cases hover : e.1 ∈ (pairs c.todo).map Prod.fst
  · -- the replacement to come hides the write
    obtain ⟨d, hd, hdn⟩ := List.mem_map.1 hover
    have hn : ((pairs c.todo).map Prod.fst).Nodup := by
      rw [map_fst_pairs]
      exact h.nodup
    have hd' : (e.1, d.2) ∈ pairs c.todo := hdn ▸ hd
    rw [overlay_of_mem hn hd', overlay_of_mem (e := overlay [(name, b)] e) hn hd']
  · obtain ⟨o', ho', rfl⟩ := List.mem_map.1 he
    obtain rfl : o' = o := c.kube.eq_of_name_eq (mem_select.1 ho').1 hmem (hen.trans hname.symm)
    have hb : overlay [(name, b)] (o'.name, o'.body) = (o'.name, b) :=
      overlay_of_mem (List.nodup_singleton name) (List.mem_singleton.2 (by rw [hen]))
    rw [overlay_of_notMem hover, overlay_of_notMem (e := overlay [(name, b)] _) hover, hb]
    exact hip (mem_select.1 ho').2

theorem patchDroplet_kept {x name : Text} {spec : DropletSpec} {v : ℕ} (h : Kept row x c)
    (hcoh : ∀ o, c.kube.get? name = some o → o.resourceVersion = v →
      selectsTenant row.zgcId o.body = true → spec.ip.Perm o.body.spec.ip)
    (hs : patchDroplet name spec v c = some c') : Kept row x c' := by
  unfold patchDroplet at hs
  cases ho : c.kube.get? name with
  | none =>
    rw [ho] at hs
    cases hs
  | some o =>
    rw [ho] at hs
    dsimp only at hs
    by_cases hv : o.resourceVersion = v
    · rw [← hv, c.kube.replace_of_get? _ ho] at hs
      obtain rfl := Option.some.inj hs
      exact h.put (b := { o.body with spec := spec }) ho rfl (hcoh o ho hv) rfl rfl
    · rw [Store.replace, ho] at hs
      dsimp only at hs
      rw [if_neg hv] at hs
      obtain rfl := Option.some.inj hs
      exact h.congr rfl rfl

/-- What the addition does with the droplets that it has listed. -/
theorem startAddition_planned (b : NodeBody) (items : List Item) :
    Py.Returns (startAddition env row b items) fun o => ∀ a ∈ o,
      selectsTenant row.zgcId a.body = true ∧ (items ≠ [] → ∃ items', Planned items items' a.todo ∧
        (poolIps items' ++ a.body.spec.ip).Perm (poolIps items)) := by
  unfold startAddition
  refine (Py.Returns.trivial _).bind fun _ _ => Py.Returns.ite (fun _ => ?_) fun hlen => ?_
  · refine Py.Returns.bind (planAddition_planned items) fun o ho => ?_
    cases o with
    | none => exact Py.Returns.pure fun a ha => by simp at ha
    | some p =>
      refine Py.Returns.pure fun a ha => ?_
      obtain rfl := Option.mem_some_iff.1 ha
      exact ⟨decide_eq_true ⟨rfl, rfl⟩, fun _ => ho p rfl⟩
  · refine (Py.Returns.trivial _).bind fun gws _ => Py.Returns.pure fun a ha => ?_
    obtain rfl := Option.mem_some_iff.1 ha
    exact ⟨decide_eq_true ⟨rfl, rfl⟩, fun hne => absurd (List.length_pos_of_ne_nil hne) hlen⟩

theorem ipsOf_pairs (l : List Item) : ipsOf (pairs l) = poolIps l := (poolIps_eq_pairs l).symm

theorem expected_idle (h : c.addition = none) : expected row c = pairs (tenants row c) := by
  unfold expected Cluster.todo Cluster.new
  rw [h, List.append_nil]
  exact List.map_id _

/-- The plan of an addition leaves each address once. -/
theorem Kept.start {x : Text} {a : Addition} (h : Kept row x c) (hadd : c.addition = none)
    (hnew : selectsTenant row.zgcId a.body = true) {all items : List Item}
    (hall : all.Perm (tenants row c)) (hp : Planned all items a.todo)
    (hpool : (poolIps items ++ a.body.spec.ip).Perm (poolIps all)) :
    Kept row x { c with addition := some a } := by
  have honce := h.once
  rw [expected_idle hadd, ipsOf_pairs] at honce
  have hv := hp.versions hall
  refine ⟨hv.nodup, fun d hd => ?_, fun e he => ?_, ?_⟩
  · obtain ⟨d', hd', hsame⟩ := hv.same d hd
    refine ⟨(hsame.selects _).trans (mem_select.1 hd').2, ?_⟩
    rw [map_fst_pairs, hsame.name_eq]
    exact List.mem_map_of_mem hd'
  · rw [List.mem_singleton.1 he]
    exact hnew
  · rw [← honce]
    refine List.Perm.count_eq ?_ x
    change (ipsOf ((pairs (tenants row c)).map (overlay (pairs a.todo)) ++ [(a.name, a.body)])).Perm _
    rw [ipsOf, List.flatMap_append]
    refine ((hp.overlay_perm hall).flatMap_right _).append_right _ |>.trans ?_
    refine List.Perm.trans (List.Perm.of_eq ?_) (hpool.trans (poolIps_perm hall))
    rw [poolIps_eq_pairs, List.flatMap_singleton]

/-- **An addition starts.** -/
theorem list_kept {x : Text} {b : NodeBody} (h : Kept row x c) (hs : step env row (.list b) c = some c') :
    Kept row x c' := by
  simp only [step] at hs
  cases hadd : c.addition with
  | some a =>
    rw [hadd] at hs
    cases hs
  | none =>
    rw [hadd] at hs
    dsimp only at hs
    have hall := env.order.perm (tenants row c)
    cases hstart : startAddition env row b (env.order.run (tenants row c)) with
    | error e =>
      rw [tenants] at hstart
      rw [hstart] at hs
      obtain rfl := Option.some.inj hs
      exact h
    | ok o =>
      have hplan := startAddition_planned b _ o hstart
      rw [tenants] at hstart
      rw [hstart] at hs
      obtain rfl := Option.some.inj hs
      cases o with
      | none => exact h.congr rfl hadd.symm
      | some a =>
        obtain ⟨hnew, hplan⟩ := hplan a rfl
        have hne : env.order.run (tenants row c) ≠ [] := by
          intro hc
          have honce := h.once
          rw [hc] at hall
          rw [expected_idle hadd, ipsOf_pairs, hall.nil_eq.symm] at honce
          exact absurd honce (by simp [poolIps])
        obtain ⟨items, hp, hpool⟩ := hplan hne
        exact h.start hadd hnew hall hp hpool

/-- **A replacement that is not refused.** -/
theorem replace_kept {x : Text} (h : Kept row x c) (hcoh : Coherent row .replace c)
    (hs : step env row .replace c = some c') : Kept row x c' := by
  simp only [step] at hs
  obtain ⟨kube, events, tasks, addition⟩ := c
  cases addition with
  | none => cases hs
  | some a =>
    obtain ⟨todo, name, body⟩ := a
    cases todo with
    | nil => cases hs
    | cons d todo =>
      obtain ⟨o, ho, hv⟩ := hcoh _ rfl d rfl
      dsimp only at ho hs
      rw [← hv, kube.replace_of_get? _ ho] at hs
      obtain rfl := Option.some.inj hs
      obtain ⟨hd, hdm⟩ := h.mem d (List.mem_cons_self ..)
      have hten : pairs (tenants row ⟨kube.put d.name d.body, events ++ [(d.name, d.body.spec)], tasks,
          some ⟨todo, name, body⟩⟩) = (pairs (tenants row ⟨kube, events, tasks,
            some ⟨d :: todo, name, body⟩⟩)).map (overlay [(d.name, d.body)]) := by
        refine pairs_tenants_put row rfl fun o' ho' hn => ?_
        obtain ⟨e, he, hen⟩ := List.mem_map.1 hdm
        obtain ⟨o'', ho'', rfl⟩ := List.mem_map.1 he
        obtain rfl : o' = o'' := kube.eq_of_name_eq ho' (mem_select.1 ho'').1 (hn.trans hen.symm)
        rw [hd]
        exact (mem_select.1 ho'').2
      have hn := h.nodup
      have hnot : d.name ∉ (pairs todo).map Prod.fst := by
        rw [map_fst_pairs]
        exact (List.nodup_cons.1 hn).1
      refine ⟨(List.nodup_cons.1 hn).2, fun e he => ?_, h.new, ?_⟩
      · rw [hten, map_fst_overlay]
        exact h.mem e (List.mem_cons_of_mem _ he)
      · rw [← h.once]
        unfold expected
        rw [hten, List.map_map]
        refine congrArg (fun l => (ipsOf (l ++ _)).count x) (List.map_congr_left fun e _ => ?_)
        exact overlay_cons d.body hnot e

/-- **A creation with a free name.** -/
theorem create_kept {x : Text} (h : Kept row x c) (hcoh : Coherent row .create c)
    (hs : step env row .create c = some c') : Kept row x c' := by
  simp only [step] at hs
  obtain ⟨kube, events, tasks, addition⟩ := c
  cases addition with
  | none => cases hs
  | some a =>
    obtain ⟨todo, name, body⟩ := a
    cases todo with
    | cons d todo => cases hs
    | nil =>
      obtain ⟨kube', hk, hobjs⟩ := create_of_fresh kube body (hcoh _ rfl)
      dsimp only at hs
      rw [hk] at hs
      obtain rfl := Option.some.inj hs
      refine ⟨List.nodup_nil, fun d hd => absurd hd List.not_mem_nil,
        fun e he => absurd he List.not_mem_nil, ?_⟩
      have hnew := h.new _ (List.mem_singleton_self _)
      have hten : pairs (kube'.select (selectsTenant row.zgcId)) =
          pairs (kube.select (selectsTenant row.zgcId)) ++ [(name, body)] := by
        rw [pairs_select_add kube _ hobjs, hnew, if_pos rfl]
      rw [expected_idle rfl, ← h.once]
      change (ipsOf (pairs (kube'.select _))).count x = _
      rw [hten]
      refine congrArg (fun l => (ipsOf (l ++ _)).count x) ?_
      exact (List.map_id _).symm

/-- **Step lemma.** -/
theorem step_kept {x : Text} (a : Act) (h : Kept row x c) (hcoh : Coherent row a c)
    (hs : step env row a c = some c') : Kept row x c' := by
  cases a with
  | event name spec =>
    simp only [step] at hs
    split_ifs at hs
    obtain rfl := Option.some.inj hs
    exact h.congr rfl rfl
  | read name =>
    simp only [step] at hs
    split at hs
    · obtain rfl := Option.some.inj hs
      exact h.congr rfl rfl
    · cases hs
  | patch name =>
    simp only [step] at hs
    split at hs
    · next spec v ht =>
      exact patchDroplet_kept h (fun o ho hv => hcoh ⟨spec, some v⟩ ht o ho (congrArg some hv.symm)) hs
    · cases hs
  | list b => exact list_kept h hs
  | replace => exact replace_kept h hcoh hs
  | create => exact create_kept h hcoh hs

/-- **Addresses under interleaving.** In every run whose steps meet the condition, an address that is
in exactly one tenant droplet, once, before an addition starts is in exactly one in every state in which
no addition is under way. -/
theorem run_keeps_addresses {acts : List Act} (hrun : run (step env row) acts c = some c')
    (hcoh : EachStep (step env row) (Coherent row) acts c) (hc : c.addition = none)
    (hc' : c'.addition = none) {x : Text}
    (hn : ∀ d ∈ tenants row c, d.body.spec.ip.count x ≤ 1) (hx : InOneDroplet x (tenants row c)) :
    InOneDroplet x (tenants row c') := by
  have hstart : Kept row x c := by
    have htodo : c.todo = [] := by rw [Cluster.todo, hc]
    have hnew : c.new = [] := by rw [Cluster.new, hc]
    refine ⟨htodo ▸ List.nodup_nil, fun d hd => ?_, fun e he => ?_, ?_⟩
    · rw [htodo] at hd
      exact absurd hd List.not_mem_nil
    · rw [hnew] at he
      exact absurd he List.not_mem_nil
    · rw [expected_idle hc, ipsOf_pairs]
      exact count_eq_one_of_inOneDroplet hn hx
  have hend := (run_inv (fun a s t hs hP ht => step_kept a hs hP ht) hrun hcoh hstart).once
  rw [expected_idle hc', ipsOf_pairs] at hend
  exact inOneDroplet_of_count hend

end Run

/-! ## Runs that double an address -/

/-- A node that joins the ZGC `z`. -/
def sampleNode (name ip : String) : NodeBody :=
  ⟨"z".toList, name.toList, ip.toList, "eth1".toList, "eth2".toList⟩

/-- The ZGC with the addresses 10.0.0.1 to 10.0.0.3. -/
def sampleZgc : ZgcRow := ⟨"z".toList, "10.0.0.1".toList, "10.0.0.3".toList⟩

/-- The droplet of the first node, with all addresses. -/
def firstDroplet : Droplet :=
  dropletBody ["10.0.0.1".toList, "10.0.0.2".toList, "10.0.0.3".toList]
    ["92:83:0a:00:00:01".toList, "92:83:0a:00:00:02".toList, "92:83:0a:00:00:03".toList]
    "eth1".toList "172.16.0.1".toList "tenant".toList "z".toList

/-- The droplet of the second node. -/
def secondDroplet : Droplet :=
  dropletBody ["10.0.0.3".toList] ["92:83:0a:00:00:03".toList]
    "eth1".toList "172.16.0.2".toList "tenant".toList "z".toList

/-- The first droplet has been created. -/
def sampleCluster : Cluster where
  kube := (Store.empty.create "droplet-tenant-a".toList firstDroplet).getD .empty
  events := [("droplet-tenant-a".toList, firstDroplet.spec)]
  tasks := []
  addition := none

/-- The operator patches the first droplet after the manager has listed it. -/
def refusedRun : List Act :=
  [.event "droplet-tenant-a".toList firstDroplet.spec, .read "droplet-tenant-a".toList,
    .list (sampleNode "b" "172.16.0.2"), .patch "droplet-tenant-a".toList, .replace, .create,
    .event "droplet-tenant-b".toList secondDroplet.spec, .read "droplet-tenant-b".toList,
    .patch "droplet-tenant-b".toList]

/-- The manager replaces the first droplet before the operator reads it. -/
def staleRun : List Act :=
  [.event "droplet-tenant-a".toList firstDroplet.spec, .list (sampleNode "b" "172.16.0.2"), .replace,
    .create, .read "droplet-tenant-a".toList, .patch "droplet-tenant-a".toList,
    .event "droplet-tenant-b".toList secondDroplet.spec, .read "droplet-tenant-b".toList,
    .patch "droplet-tenant-b".toList]

/-- The operator provisions the first droplet before the manager adds a node. -/
def freshRun : List Act :=
  [.event "droplet-tenant-a".toList firstDroplet.spec, .read "droplet-tenant-a".toList,
    .patch "droplet-tenant-a".toList, .list (sampleNode "b" "172.16.0.2"), .replace, .create]

/-- The first droplet is provisioned, and then gives up an address. -/
theorem run_keeps_addresses_sample :
    let c := (run (step .default sampleZgc) freshRun sampleCluster).get (by decide +kernel)
    InOneDroplet "10.0.0.3".toList (tenants sampleZgc c) ∧
      (tenants sampleZgc c).map (fun d => (d.body.spec.ip, d.body.spec.status)) =
        [(["10.0.0.1".toList, "10.0.0.2".toList], "Provisioned".toList),
          (["10.0.0.3".toList], "Init".toList)] := by
  intro c
  have hrun : run (step .default sampleZgc) freshRun sampleCluster = some c := (Option.some_get _).symm
  exact ⟨run_keeps_addresses hrun (by decide +kernel) rfl (by decide +kernel) (by decide +kernel)
    (by decide +kernel), by decide +kernel⟩

/-- A run from the sample cluster after which 10.0.0.3 is in more than one droplet. -/
def Doubles (acts : List Act) : Prop :=
  ∃ c, run (step .default sampleZgc) acts sampleCluster = some c ∧ sampleCluster.Idle ∧ c.Idle ∧
    InOneDroplet "10.0.0.3".toList (tenants sampleZgc sampleCluster) ∧
    ¬ InOneDroplet "10.0.0.3".toList (tenants sampleZgc c)

/-- **A refused replacement doubles an address, and so does a stale patch.** -/
theorem interleaving_doubles : Doubles refusedRun ∧ Doubles staleRun := by
  constructor
  · exact ⟨(run (step .default sampleZgc) refusedRun sampleCluster).get (by decide +kernel),
      (Option.some_get _).symm, by decide +kernel, by decide +kernel, by decide +kernel,
      by decide +kernel⟩
  · exact ⟨(run (step .default sampleZgc) staleRun sampleCluster).get (by decide +kernel),
      (Option.some_get _).symm, by decide +kernel, by decide +kernel, by decide +kernel,
      by decide +kernel⟩

end ArionDp
