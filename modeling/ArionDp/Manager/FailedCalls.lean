import ArionDp.Manager.Removal
import Mathlib.Data.List.TakeWhile

/-!
# Additions with failed calls

The writes of an addition are refused one by one, and each refusal is only logged: the donors give up
their addresses whether or not the new droplet is created, and the other way round.

* `HeldOnce`: an address that exactly one tenant droplet lists;
* `PlansTo`, `writtenTo`, `Created`: the plan of an addition, and which of its calls have an effect;
* `Wrote`, **`newNodeGws_planned`**: the droplets and the requests after an addition, whatever is
  refused;
* **`addition_keeps_addresses_iff`**: no address is lost or doubled if and only if the replacements and
  the creation go together, and `refused_calls_lose_addresses`.
-/

namespace ArionDp

open ApiServer Py Inet

/-! ## Holders of an address -/

/-- A tenant droplet, of whatever ZGC. -/
def isTenant (d : Droplet) : Bool := d.network = "tenant".toList

/-- How many tenant droplets list an address. -/
def holders (k : Kube) (a : Text) : ℕ := (k.select isTenant).countP fun d => a ∈ d.body.spec.ip

/-- **Exactly one tenant droplet lists the address.** -/
def HeldOnce (k : Kube) (a : Text) : Prop := holders k a = 1

instance (k : Kube) (a : Text) : Decidable (HeldOnce k a) := inferInstanceAs (Decidable (holders k a = 1))

theorem holders_eq_pairs (k : Kube) (a : Text) :
    holders k a = (pairs (k.select isTenant)).countP fun e => a ∈ e.2.spec.ip := by
  rw [pairs, List.countP_map]
  rfl

/-- The droplets of a ZGC that the handlers list are tenant droplets. -/
theorem isTenant_of_mem {k : Kube} {z : Text} {d : Item} (h : d ∈ k.select (selectsTenant z)) :
    d ∈ k.select isTenant :=
  List.mem_filter.2 ⟨(mem_select.1 h).1, decide_eq_true (of_decide_eq_true (mem_select.1 h).2).2⟩

section Once

variable {α : Type} {p q : α → Bool} {l : List α} {x : α}

/-- What is in one place is nowhere in front of it or behind it. -/
theorem split_of_countP_eq_one (h : l.countP p = 1) (hx : x ∈ l) (hp : p x = true) :
    ∃ l₁ l₂, l = l₁ ++ x :: l₂ ∧ ∀ y ∈ l₁ ++ l₂, p y = false := by
  obtain ⟨l₁, l₂, rfl⟩ := List.append_of_mem hx
  rw [List.countP_append, List.countP_cons_of_pos hp] at h
  have hzero : (l₁ ++ l₂).countP p = 0 := by
    rw [List.countP_append]
    omega
  exact ⟨l₁, l₂, rfl, fun y hy => eq_false_of_ne_true (List.countP_eq_zero.1 hzero y hy)⟩

theorem eq_of_countP_eq_one (h : l.countP p = 1) (hx : x ∈ l) (hp : p x = true) {y : α} (hy : y ∈ l)
    (hpy : p y = true) : y = x := by
  obtain ⟨l₁, l₂, rfl, hrest⟩ := split_of_countP_eq_one h hx hp
  by_contra hne
  have hmem : y ∈ l₁ ++ l₂ := by
    rcases List.mem_append.1 hy with hy | hy
    · exact List.mem_append_left _ hy
    · exact List.mem_append_right _ ((List.mem_cons.1 hy).resolve_left hne)
  exact ne_true_of_eq_false (hrest y hmem) hpy

/-- A stronger property can hold only there. -/
theorem countP_of_countP_eq_one (h : l.countP p = 1) (hx : x ∈ l) (hp : p x = true)
    (hq : ∀ y ∈ l, q y = true → p y = true) : l.countP q = if q x = true then 1 else 0 := by
  obtain ⟨l₁, l₂, rfl, hrest⟩ := split_of_countP_eq_one h hx hp
  have hzero : (l₁ ++ l₂).countP q = 0 := List.countP_eq_zero.2 fun y hy hc =>
    ne_true_of_eq_false (hrest y hy) (hq y ((List.sublist_cons_self x l₂).append_left l₁ |>.subset hy) hc)
  rw [List.countP_append] at hzero
  rw [List.countP_append, List.countP_cons]
  omega

end Once

/-- Something is in one place: where it was, if it has not been taken from there, or where it was brought. -/
theorem one_place_iff {r c q : Prop} [Decidable r] [Decidable c] [Decidable q] (h : ¬ q → ¬ r) :
    (if r then 0 else 1) + (if c ∧ q then 1 else 0) = 1 ↔ (q → (r ↔ c)) := by
  by_cases hr : r
  · have hq : q := not_not.1 fun hq => h hq hr
    by_cases hc : c <;> simp [hr, hc, hq]
  · by_cases hc : c <;> by_cases hq : q <;> simp [hr, hc, hq]

/-! ## Calls -/

/-- The node of a droplet is known, and there are MAC addresses enough: its round of the loop comes to
its end. -/
def Served (ips : List Text) (d : Item) : Prop :=
  d.body.nodeIp ∈ ips ∧ d.body.spec.ip.length ≤ d.body.spec.mac.length

instance (ips : List Text) (d : Item) : Decidable (Served ips d) :=
  inferInstanceAs (Decidable (d.body.nodeIp ∈ ips ∧
    d.body.spec.ip.length ≤ d.body.spec.mac.length))

/-- The droplets that the loop writes: those before the first one that is not served, unless
Kubernetes refuses. -/
def writtenTo (env : Env) (ips : List Text) (l : List Item) : List Item :=
  (l.takeWhile fun d => Served ips d).filter fun d => env.kubeFails d.name = false

theorem writtenTo_cons (env : Env) (ips : List Text) (d : Item) (l : List Item) :
    writtenTo env ips (d :: l) = if Served ips d then
      (if env.kubeFails d.name = false then [d] else []) ++ writtenTo env ips l else [] := by
  rw [writtenTo, List.takeWhile_cons]
  by_cases hs : Served ips d
  · rw [if_pos (decide_eq_true hs), if_pos hs, List.filter_cons]
    cases env.kubeFails d.name <;> rfl
  · rw [if_neg (by simpa using hs), if_neg hs]
    rfl

/-- Droplets that nothing stops are all written. -/
theorem writtenTo_eq_self {env : Env} {ips : List Text} {l : List Item} (hs : ∀ d ∈ l, Served ips d)
    (hk : ∀ d ∈ l, env.kubeFails d.name = false) : writtenTo env ips l = l := by
  rw [writtenTo, List.takeWhile_eq_self_iff.2 fun d hd => decide_eq_true (hs d hd)]
  exact List.filter_eq_self.2 fun d hd => decide_eq_true (hk d hd)

section Loop

variable (env : Env) {w : World}

/-- A round that does not come to its end. -/
theorem updateNodeAndDroplet_unserved {d : Item}
    (h : ¬ Served (w.nodes.map fun r => r.ipControl) d) :
    ∃ e w', updateNodeAndDroplet env d w = (.error e, w') ∧ w'.kube = w.kube ∧
      w'.itfConfs = w.itfConfs := by
  rw [updateNodeAndDroplet, bind_run, updateExistingNodesGwIpsMacs, bind_run, getState_run]
  dsimp only
  cases hr : w.nodes.find? fun r => r.ipControl = d.body.nodeIp with
  | none => exact ⟨_, _, rfl, rfl, rfl⟩
  | some r =>
    have hip : r.ipControl = d.body.nodeIp := by simpa using List.find?_some hr
    have hmem : d.body.nodeIp ∈ w.nodes.map fun r => r.ipControl :=
      hip ▸ List.mem_map_of_mem (List.mem_of_find?_eq_some hr)
    dsimp only
    rw [bind_run, setGws, modifyState_run]
    dsimp only
    rw [bind_run, ofExcept_run]
    cases hz : zipAddrs d.body.spec.ip d.body.spec.mac with
    | error e => exact ⟨_, _, rfl, rfl, rfl⟩
    | ok l => exact absurd ⟨hmem, zipAddrs_length hz⟩ h

/-- A round that comes to its end has written the droplet, unless Kubernetes has refused. -/
theorem updateNodeAndDroplet_served {d : Item} (h : Served (w.nodes.map fun r => r.ipControl) d)
    (hc : Current w.kube d) :
    ∃ w', updateNodeAndDroplet env d w = (.ok (), w') ∧
      w'.kube = w.kube.putAll (pairs (if env.kubeFails d.name = false then [d] else [])) ∧
      w'.itfConfs = w.itfConfs ++
        (pairs (if env.kubeFails d.name = false then [d] else [])).map sentConf ∧
      (w'.nodes.map fun r => r.ipControl) = w.nodes.map fun r => r.ipControl := by
  obtain ⟨hip, hlen⟩ := h
  obtain ⟨r', hr', hn⟩ := List.mem_map.1 hip
  have hs : (w.nodes.find? fun r => r.ipControl = d.body.nodeIp).isSome :=
    List.find?_isSome.2 ⟨r', hr', decide_eq_true hn⟩
  obtain ⟨r, hr⟩ := Option.isSome_iff_exists.1 hs
  have hz := zipAddrs_eq hlen
  generalize hgws : List.zipWith GwAddr.mk d.body.spec.ip d.body.spec.mac = gws at hz
  have hips : ((w.nodes.map (withGws r.nodeId gws)).map fun r => r.ipControl) =
      w.nodes.map fun r => r.ipControl := by
    rw [List.map_map]
    exact List.map_congr_left fun r' _ => withGws_ipControl r.nodeId gws r'
  rw [updateNodeAndDroplet, bind_run, updateExistingNodesGwIpsMacs_run hr hz]
  dsimp only
  cases hk : env.kubeFails d.name with
  | true => exact ⟨_, updateDroplet_refused hk, rfl, (List.append_nil _).symm, hips⟩
  | false =>
    refine ⟨_, updateDroplet_run (w := { w with nodes := w.nodes.map (withGws r.nodeId gws) }) hk hc hz,
      rfl, ?_, hips⟩
    rw [← hgws]
    rfl

/-- **The loop over the changed droplets**, whatever is refused. -/
theorem forEach_kube {l : List Item} (hn : (l.map fun d => d.name).Nodup)
    (hc : ∀ d ∈ l, Current w.kube d) :
    ∃ r w', forEach (updateNodeAndDroplet env) l w = (r, w') ∧
      w'.kube = w.kube.putAll (pairs (writtenTo env (w.nodes.map fun r => r.ipControl) l)) ∧
      w'.itfConfs = w.itfConfs ++
        (pairs (writtenTo env (w.nodes.map fun r => r.ipControl) l)).map sentConf ∧
      (r = .ok () ↔ ∀ d ∈ l, Served (w.nodes.map fun r => r.ipControl) d) := by
  induction l generalizing w with
  | nil => exact ⟨.ok (), w, rfl, rfl, (List.append_nil _).symm,
      ⟨fun _ d hd => absurd hd List.not_mem_nil, fun _ => rfl⟩⟩
  | cons d l ih =>
    rw [List.map_cons, List.nodup_cons] at hn
    by_cases hs : Served (w.nodes.map fun r => r.ipControl) d
    · obtain ⟨w₁, h₁, hk₁, hi₁, hips₁⟩ :=
        updateNodeAndDroplet_served env hs (hc d (List.mem_cons_self ..))
      have hc₁ : ∀ e ∈ l, Current w₁.kube e := by
        intro e he
        obtain ⟨o, ho, hv⟩ := hc e (List.mem_cons_of_mem _ he)
        refine ⟨o, ?_, hv⟩
        rw [hk₁, Store.get?_putAll_of_notMem, ho]
        intro hmem
        have hne : e.name ≠ d.name := fun hed => hn.1 (hed ▸ List.mem_map_of_mem he)
        split_ifs at hmem
        · exact hne (List.mem_singleton.1 hmem)
        · exact absurd hmem List.not_mem_nil
      obtain ⟨r, w₂, h₂, hk₂, hi₂, hr⟩ := ih hn.2 hc₁
      rw [hips₁] at hk₂ hi₂ hr
      refine ⟨r, w₂, ?_, ?_, ?_, hr.trans ?_⟩
      · rw [forEach, bind_run, h₁]
        exact h₂
      · rw [hk₂, hk₁, writtenTo_cons, if_pos hs]
        cases hk : env.kubeFails d.name <;> rfl
      · rw [hi₂, hi₁, writtenTo_cons, if_pos hs, pairs, pairs, pairs, List.map_append, List.map_append,
          List.append_assoc]
      · rw [List.forall_mem_cons]
        exact (and_iff_right hs).symm
    · obtain ⟨e, w₁, h₁, hk₁, hi₁⟩ := updateNodeAndDroplet_unserved env hs
      refine ⟨.error e, w₁, ?_, ?_, ?_, ?_, fun h => absurd (h d ?_) hs⟩
      · rw [forEach, bind_run, h₁]
      · rw [hk₁, writtenTo_cons, if_neg hs]
        rfl
      · rw [hi₁, writtenTo_cons, if_neg hs]
        exact (List.append_nil _).symm
      · intro h
        cases h
      · exact List.mem_cons_self ..

end Loop

/-! ## What has been written -/

/-- A selection of droplets that looks at labels only. -/
def ByLabels (p : Droplet → Bool) : Prop := ∀ d d' : Item, SameLabels d d' → p d'.body = p d.body

theorem byLabels_selectsTenant (z : Text) : ByLabels (selectsTenant z) := fun _ _ hs => hs.selects z

theorem byLabels_isTenant : ByLabels isTenant := by
  rintro d _ ⟨_, _, rfl⟩
  rfl

/-- **The droplets and the requests after some writes**: new versions and new droplets, each one sent to
its node. -/
structure Wrote (w w' : World) (written : List Item) (new : List (Text × Droplet)) : Prop where
  select : ∀ p, ByLabels p → pairs (w'.kube.select p) =
    (pairs (w.kube.select p)).map (overlay (pairs written)) ++ new.filter fun e => p e.2
  sent : w'.itfConfs = w.itfConfs ++ (pairs written ++ new).map sentConf

theorem map_overlay_nil (l : List (Text × Droplet)) : l.map (overlay []) = l :=
  (List.map_congr_left fun e _ => overlay_nil e).trans (List.map_id l)

theorem Wrote.refl (w : World) : Wrote w w [] [] where
  select _ _ := ((List.append_nil _).trans (map_overlay_nil _)).symm
  sent := (List.append_nil _).symm

theorem Wrote.trans {w w₁ w₂ : World} {written : List Item} {new : List (Text × Droplet)}
    (h₁ : Wrote w w₁ written []) (h₂ : Wrote w₁ w₂ [] new) : Wrote w w₂ written new where
  select p hp := by
    rw [h₂.select p hp, h₁.select p hp, List.filter_nil, List.append_nil]
    exact congrArg (· ++ _) (map_overlay_nil _)
  sent := by
    rw [h₂.sent, h₁.sent, List.append_nil, List.append_assoc, ← List.map_append]
    rfl

/-- Versions are written. -/
theorem Versions.wrote {w w' : World} {z : Text} {l : List Item} (h : Versions w.kube z l)
    (hk : w'.kube = w.kube.putAll (pairs l)) (hi : w'.itfConfs = w.itfConfs ++ (pairs l).map sentConf) :
    Wrote w w' l [] where
  select p hp := by
    rw [hk, List.filter_nil, List.append_nil]
    exact pairs_select_putAll _ _ (by rw [map_fst_pairs]; exact h.nodup) (h.agree hp)
  sent := by rw [hi, List.append_nil]

/-! ## The droplets after an addition -/

section Addition

variable (env : Env) (w : World) (z : Text) (b : NodeBody)

/-- An addition gets as far as its writes, with this plan: the one of the redistribution, or all of
the range for the first droplet of the ZGC. -/
def PlansTo (p : Plan) : Prop :=
  (∃ ip, zgcIp env b.ipControl = .ok ip) ∧
    if w.kube.select (selectsTenant z) = [] then
      ∃ zgc gws, w.zgcs.find? (fun r => r.zgcId = z) = some zgc ∧
        getGWsFromIpRange env.macPrivate zgc.ipStart zgc.ipEnd = .ok gws ∧
        p = ⟨gws.map fun gw => gw.ip, gws.map fun gw => gw.mac, []⟩
    else planAddition (getMacFromIp env.macPrivate)
      (env.order.run (w.kube.select (selectsTenant z))) = .ok (some p)

/-- The droplet of the new node is created: the loop before it comes to its end, Kubernetes does not
refuse, and there is no droplet of that name. -/
def Created (p : Plan) : Prop :=
  (∀ d ∈ p.modified, Served (w.nodes.map fun r => r.ipControl) d) ∧
    env.kubeFails (tenantName env b.name) = false ∧
    ∀ o ∈ w.kube.objs, o.name ≠ tenantName env b.name

instance (p : Plan) : Decidable (Created env w b p) :=
  inferInstanceAs (Decidable ((∀ d ∈ p.modified, Served (w.nodes.map fun r => r.ipControl) d) ∧
    env.kubeFails (tenantName env b.name) = false ∧
    ∀ o ∈ w.kube.objs, o.name ≠ tenantName env b.name))

/-- The droplet that lists the address is replaced by a version without it. -/
def Released (p : Plan) (d : Item) (a : Text) : Prop :=
  ∃ d' ∈ writtenTo env (w.nodes.map fun r => r.ipControl) p.modified,
    d'.name = d.name ∧ a ∉ d'.body.spec.ip

instance (p : Plan) (d : Item) (a : Text) : Decidable (Released env w p d a) :=
  inferInstanceAs (Decidable (∃ d' ∈ writtenTo env (w.nodes.map fun r => r.ipControl) p.modified,
    d'.name = d.name ∧ a ∉ d'.body.spec.ip))

/-- The droplet of the new node. -/
def newDroplet (p : Plan) : Text × Droplet :=
  (tenantName env b.name, dropletBody p.ips p.macs b.infTenant b.ipControl "tenant".toList z)

end Addition

section Addition

variable {env : Env} {w : World} {z nodeId : Text} {b : NodeBody}

/-- The droplets, and the requests that have been sent for them. -/
def World.calls (w : World) : Kube × List (Text × ItfConf) := (w.kube, w.itfConfs)

/-- The row of a new node does not concern the droplets. -/
theorem addNode_calls_eq : (addNode env z nodeId b w).2.calls = (newNodeGws env z b w).2.calls := by
  rw [addNode_post, bind_run]
  rcases newNodeGws env z b w with ⟨_ | o, t⟩
  · rfl
  · cases o with
    | none => rfl
    | some gws =>
      dsimp only
      rw [bind_run, dbAddNode, bind_run, getState_run]
      dsimp only
      split_ifs <;> rfl

/-- An addition without a plan writes nothing. -/
theorem newNodeGws_unplanned (h : ∀ p, ¬ PlansTo env w z b p) : (newNodeGws env z b w).2 = w := by
  have hlist : listDroplets env z w = (.ok (env.order.run (w.kube.select (selectsTenant z))), w) := rfl
  have hall := env.order.perm (w.kube.select (selectsTenant z))
  unfold PlansTo at h
  generalize env.order.run (w.kube.select (selectsTenant z)) = all at h hall hlist
  rw [newNodeGws_post, bind_run, hlist]
  dsimp only
  rw [bind_run, ofExcept_run]
  cases hip : zgcIp env b.ipControl with
  | error e => rfl
  | ok ip =>
    dsimp only
    by_cases hnil : w.kube.select (selectsTenant z) = []
    · have hlen : ¬ all.length > 0 := by
        rw [hall.length_eq, hnil]
        exact Nat.lt_irrefl 0
      rw [if_neg hlen, bind_run, getState_run]
      dsimp only
      cases hz : w.zgcs.find? fun r => r.zgcId = z with
      | none => rfl
      | some zgc =>
        dsimp only
        rw [bind_run, ofExcept_run]
        cases hgws : getGWsFromIpRange env.macPrivate zgc.ipStart zgc.ipEnd with
        | error e => rfl
        | ok gws =>
          exact absurd ⟨⟨ip, hip⟩, by rw [if_pos hnil]; exact ⟨zgc, gws, hz, hgws, rfl⟩⟩ (h _)
    · have hlen : all.length > 0 := by
        rw [hall.length_eq]
        exact List.length_pos_of_ne_nil hnil
      rw [if_pos hlen, bind_run, ofExcept_run]
      cases hplan : planAddition (getMacFromIp env.macPrivate) all with
      | error e => rfl
      | ok o =>
        cases o with
        | none => rfl
        | some p => exact absurd ⟨⟨ip, hip⟩, by rw [if_neg hnil]; exact hplan⟩ (h p)

/-- A droplet is created, if nothing is in its way. -/
theorem createDroplet_wrote (env : Env) (w : World) (name : Text) {ips macs : List Text}
    (hlen : ips.length ≤ macs.length) (itf nodeIp network : Text) :
    ∃ w', createDroplet env name ips macs itf nodeIp network z w = (.ok (), w') ∧
      Wrote w w' [] (if env.kubeFails name = false ∧ ∀ o ∈ w.kube.objs, o.name ≠ name
        then [(name, dropletBody ips macs itf nodeIp network z)] else []) := by
  by_cases hc : env.kubeFails name = false ∧ ∀ o ∈ w.kube.objs, o.name ≠ name
  · obtain ⟨K, hK, -⟩ := create_of_fresh w.kube (dropletBody ips macs itf nodeIp network z) hc.2
    refine ⟨_, createDroplet_run hc.1 hK (zipAddrs_eq hlen), ?_⟩
    rw [if_pos hc]
    refine ⟨fun p _ => ?_, rfl⟩
    refine (pairs_select_add w.kube _ (objs_create hK)).trans ?_
    rw [List.filter_singleton, Bool.cond_eq_ite]
    exact congrArg (· ++ _) (map_overlay_nil _).symm
  · refine ⟨w, createDroplet_refused (or_iff_not_imp_left.2 fun hf => dif_pos ?_), ?_⟩
    · by_contra hno
      exact hc ⟨eq_false_of_ne_true hf, fun o ho hn => hno (hn ▸ List.mem_map_of_mem ho)⟩
    · rw [if_neg hc]
      exact .refl w

/-- The addition of the first node of a ZGC gives it all of the range. -/
theorem newNodeGws_first_wrote {ip : Text} (hip : zgcIp env b.ipControl = .ok ip)
    (hnil : w.kube.select (selectsTenant z) = []) {zgc : ZgcRow} {gws : List GwAddr}
    (hzgc : w.zgcs.find? (fun r => r.zgcId = z) = some zgc)
    (hgws : getGWsFromIpRange env.macPrivate zgc.ipStart zgc.ipEnd = .ok gws) :
    Wrote w (newNodeGws env z b w).2 []
      (if env.kubeFails (tenantName env b.name) = false ∧
          ∀ o ∈ w.kube.objs, o.name ≠ tenantName env b.name
        then [newDroplet env z b ⟨gws.map fun gw => gw.ip, gws.map fun gw => gw.mac, []⟩] else []) := by
  have hlist : listDroplets env z w = (.ok (env.order.run (w.kube.select (selectsTenant z))), w) := rfl
  have hlen : ¬ (env.order.run (w.kube.select (selectsTenant z))).length > 0 := by
    rw [(env.order.perm _).length_eq, hnil]
    exact Nat.lt_irrefl 0
  have hgl : (gws.map fun gw => gw.ip).length ≤ (gws.map fun gw => gw.mac).length := by
    rw [List.length_map, List.length_map]
  obtain ⟨w', hw', hwrote⟩ := createDroplet_wrote (z := z) env w (tenantName env b.name) hgl b.infTenant
    b.ipControl "tenant".toList
  rw [newNodeGws_post, bind_run, hlist]
  dsimp only
  rw [bind_run, ofExcept_run, hip]
  dsimp only
  rw [if_neg hlen, bind_run, getState_run]
  dsimp only
  rw [hzgc]
  dsimp only
  rw [bind_run, ofExcept_run, hgws]
  dsimp only
  rw [bind_run, hw']
  exact hwrote

/-- The addition of another node replaces the droplets of the plan, as far as it gets, and creates the new
one after the last of them. -/
theorem newNodeGws_others_wrote {ip : Text} (hip : zgcIp env b.ipControl = .ok ip)
    (hnil : w.kube.select (selectsTenant z) ≠ []) {p : Plan}
    (hplan : planAddition (getMacFromIp env.macPrivate)
      (env.order.run (w.kube.select (selectsTenant z))) = .ok (some p)) :
    Wrote w (newNodeGws env z b w).2 (writtenTo env (w.nodes.map fun r => r.ipControl) p.modified)
      (if Created env w b p then [newDroplet env z b p] else []) := by
  have hlist : listDroplets env z w = (.ok (env.order.run (w.kube.select (selectsTenant z))), w) := rfl
  have hall := env.order.perm (w.kube.select (selectsTenant z))
  generalize env.order.run (w.kube.select (selectsTenant z)) = all at hplan hall hlist
  obtain ⟨items, hp, -⟩ := planAddition_planned all _ hplan p rfl
  obtain ⟨hlen, -⟩ := planAddition_drawn all _ hplan p rfl
  have hv := hp.versions hall
  have hpos : all.length > 0 := by
    rw [hall.length_eq]
    exact List.length_pos_of_ne_nil hnil
  obtain ⟨r, w₁, h₁, hk₁, hi₁, hr⟩ := forEach_kube env (w := w) hv.nodup hv.current
  have hsub : (writtenTo env (w.nodes.map fun r => r.ipControl) p.modified).Sublist p.modified :=
    List.filter_sublist.trans (List.takeWhile_sublist _)
  have hwrote := (hv.sublist hsub).wrote hk₁ hi₁
  rw [newNodeGws_post, bind_run, hlist]
  dsimp only
  rw [bind_run, ofExcept_run, hip]
  dsimp only
  rw [if_pos hpos, bind_run, ofExcept_run, hplan]
  dsimp only
  rw [bind_run, h₁]
  cases r with
  | error e =>
    have hno : ¬ Created env w b p := fun hc => nomatch hr.2 hc.1
    rw [if_neg hno]
    exact hwrote
  | ok u =>
    have hnames : w₁.kube.objs.map Obj.name = w.kube.objs.map Obj.name := by
      rw [hk₁]
      exact w.kube.map_name_putAll _
    obtain ⟨w', hw', hwrote'⟩ := createDroplet_wrote (z := z) env w₁ (tenantName env b.name)
      hlen.ge b.infTenant b.ipControl "tenant".toList
    have hiff : Created env w b p ↔ env.kubeFails (tenantName env b.name) = false ∧
        ∀ o ∈ w₁.kube.objs, o.name ≠ tenantName env b.name :=
      ⟨fun hc => ⟨hc.2.1, forall_of_names (p := fun n => n ≠ _) hnames hc.2.2⟩,
        fun hc => ⟨hr.1 rfl, hc.1, forall_of_names (p := fun n => n ≠ _) hnames.symm hc.2⟩⟩
    dsimp only
    rw [bind_run, hw']
    dsimp only
    rw [bind_run, ofExcept_run, zipAddrs_eq hlen.ge, if_congr hiff rfl rfl]
    exact hwrote.trans hwrote'

/-- **An addition with a plan**, whatever is refused. -/
theorem newNodeGws_planned {p : Plan} (h : PlansTo env w z b p) :
    Wrote w (newNodeGws env z b w).2
      (writtenTo env (w.nodes.map fun r => r.ipControl) p.modified)
      (if Created env w b p then [newDroplet env z b p] else []) := by
  obtain ⟨⟨ip, hip⟩, hplan⟩ := h
  by_cases hnil : w.kube.select (selectsTenant z) = []
  · rw [if_pos hnil] at hplan
    obtain ⟨zgc, gws, hzgc, hgws, rfl⟩ := hplan
    have hiff : Created env w b ⟨gws.map fun gw => gw.ip, gws.map fun gw => gw.mac, []⟩ ↔
        env.kubeFails (tenantName env b.name) = false ∧
          ∀ o ∈ w.kube.objs, o.name ≠ tenantName env b.name :=
      ⟨fun hc => hc.2, fun hc => ⟨fun d hd => absurd hd List.not_mem_nil, hc⟩⟩
    rw [if_congr hiff rfl rfl]
    exact newNodeGws_first_wrote hip hnil hzgc hgws
  · rw [if_neg hnil] at hplan
    exact newNodeGws_others_wrote hip hnil hplan

/-! ## Where an address is after an addition -/

/-- What a plan does to the tenant droplets: it only takes addresses away from some of them, and what
it has not taken for the new droplet is where it was. -/
structure Takes (k : Kube) (p : Plan) : Prop where
  names : (p.modified.map fun d => d.name).Nodup
  original : ∀ d' ∈ p.modified, ∃ d ∈ k.select isTenant, d.name = d'.name ∧
    d'.body.spec.ip <+: d.body.spec.ip
  stays : ∀ a ∉ p.ips, ∀ d ∈ k.select isTenant, a ∈ d.body.spec.ip →
    (∀ e ∈ k.select isTenant, a ∈ e.body.spec.ip → e = d) →
      ∀ d' ∈ p.modified, d'.name = d.name → a ∈ d'.body.spec.ip

theorem PlansTo.takes {p : Plan} (h : PlansTo env w z b p) : Takes w.kube p := by
  obtain ⟨-, hplan⟩ := h
  have hall := env.order.perm (w.kube.select (selectsTenant z))
  generalize env.order.run (w.kube.select (selectsTenant z)) = all at hplan hall
  split_ifs at hplan with hnil
  · obtain ⟨zgc, gws, -, -, rfl⟩ := hplan
    exact ⟨List.nodup_nil, fun d' hd' => absurd hd' List.not_mem_nil,
      fun _ _ _ _ _ _ d' hd' => absurd hd' List.not_mem_nil⟩
  · obtain ⟨items, hp, -⟩ := planAddition_planned all _ hplan p rfl
    obtain ⟨-, hdrawn⟩ := planAddition_drawn all _ hplan p rfl
    have hten : ∀ d ∈ all, d ∈ w.kube.select isTenant := fun d hd => isTenant_of_mem (hall.mem_iff.1 hd)
    have hn : (all.map fun d => d.name).Nodup := (hall.map _).nodup_iff.2 (nodup_names_select _ z)
    refine ⟨hp.nodup hn, fun d' hd' => ?_, fun a ha d hd had honly d' hd' hdn => ?_⟩
    · obtain ⟨d, hd, hs, -, -, hpre, -⟩ := hdrawn d' hd'
      exact ⟨d, hten d hd, hs.name_eq.symm, hpre⟩
    · obtain ⟨d₀, hd₀, hs, -⟩ := hdrawn d' hd'
      obtain rfl := w.kube.eq_of_name_eq (List.mem_filter.1 (hten d₀ hd₀)).1 (List.mem_filter.1 hd).1
        (hs.name_eq.symm.trans hdn)
      exact (planAddition_taken hplan hn hd₀ had fun e he hae => honly e (hten e he) hae).1 ha d' hd' hdn

section Overlay

variable {k : Kube} {p : Plan} {l : List Item} {a : Text}

/-- A write that is made takes effect. -/
theorem Takes.mem_overlay (h : Takes k p) (hl : l.Sublist p.modified) {d : Item}
    (had : a ∈ d.body.spec.ip) : a ∈ (overlay (pairs l) (d.name, d.body)).2.spec.ip ↔
      ¬ ∃ d' ∈ l, d'.name = d.name ∧ a ∉ d'.body.spec.ip := by
  have hnames : ((pairs l).map Prod.fst).Nodup := by
    rw [map_fst_pairs]
    exact h.names.sublist (hl.map _)
  by_cases hw : ∃ d' ∈ l, d'.name = d.name
  · obtain ⟨d', hd', hdn⟩ := hw
    rw [overlay_of_mem (b := d'.body) hnames (List.mem_map.2 ⟨d', hd', Prod.ext hdn rfl⟩)]
    constructor
    · rintro ha ⟨e, he, hen, hno⟩
      obtain rfl := List.inj_on_of_nodup_map (map_fst_pairs l ▸ hnames) he hd' (hen.trans hdn.symm)
      exact hno ha
    · intro hno
      by_contra ha
      exact hno ⟨d', hd', hdn, ha⟩
  · rw [overlay_of_notMem]
    · exact ⟨fun _ ⟨d', hd', hdn, _⟩ => hw ⟨d', hd', hdn⟩, fun _ => had⟩
    · rw [map_fst_pairs]
      exact fun hc => hw (List.mem_map.1 hc)

/-- No droplet gains an address from the writes. -/
theorem Takes.overlay_prefix (h : Takes k p) (hl : l.Sublist p.modified) {d : Item}
    (hd : d ∈ k.select isTenant) :
    (overlay (pairs l) (d.name, d.body)).2.spec.ip <+: d.body.spec.ip := by
  by_cases hw : ∃ d' ∈ l, d'.name = d.name
  · obtain ⟨d', hd', hdn⟩ := hw
    have hnames : ((pairs l).map Prod.fst).Nodup := by
      rw [map_fst_pairs]
      exact h.names.sublist (hl.map _)
    obtain ⟨d₀, hd₀, hn₀, hpre⟩ := h.original d' (hl.subset hd')
    obtain rfl := k.eq_of_name_eq (List.mem_filter.1 hd₀).1 (List.mem_filter.1 hd).1 (hn₀.trans hdn)
    rw [overlay_of_mem (b := d'.body) hnames (List.mem_map.2 ⟨d', hd', Prod.ext hdn rfl⟩)]
    exact hpre
  · have hno : d.name ∉ (pairs l).map Prod.fst := by
      rw [map_fst_pairs]
      exact fun hc => hw (List.mem_map.1 hc)
    have hsame : overlay (pairs l) (d.name, d.body) = (d.name, d.body) := overlay_of_notMem hno
    exact hsame.symm ▸ List.prefix_rfl

end Overlay

/-- **Where an address is after an addition**: in its droplet if that is not replaced by a version
without it, and in the new droplet if the plan gives it to that and it is created. -/
theorem heldOnce_after {p : Plan} (h : PlansTo env w z b p) {a : Text} (ha : HeldOnce w.kube a)
    {d : Item} (hd : d ∈ w.kube.select isTenant) (had : a ∈ d.body.spec.ip) :
    HeldOnce (newNodeGws env z b w).2.kube a ↔
      (a ∈ p.ips → (Released env w p d a ↔ Created env w b p)) := by
  have ht := h.takes
  have hl : (writtenTo env (w.nodes.map fun r => r.ipControl) p.modified).Sublist p.modified :=
    List.filter_sublist.trans (List.takeWhile_sublist _)
  have hafter := (newNodeGws_planned h).select isTenant byLabels_isTenant
  generalize hws : writtenTo env (w.nodes.map fun r => r.ipControl) p.modified = ws at hl hafter
  have honly : ∀ e ∈ w.kube.select isTenant, a ∈ e.body.spec.ip → e = d := fun e he hae =>
    eq_of_countP_eq_one ha hd (decide_eq_true had) he (decide_eq_true hae)
  have hold : ((pairs (w.kube.select isTenant)).map (overlay (pairs ws))).countP
      (fun e => a ∈ e.2.spec.ip) = if Released env w p d a then 0 else 1 := by
    rw [pairs.eq_def (w.kube.select isTenant), List.map_map, List.countP_map]
    refine (countP_of_countP_eq_one ha hd (decide_eq_true had) fun y hy hc => decide_eq_true
      ((ht.overlay_prefix hl hy).subset (of_decide_eq_true hc))).trans ?_
    have hiff : decide (a ∈ (overlay (pairs ws) (d.name, d.body)).2.spec.ip) = true ↔
        ¬ Released env w p d a := by
      rw [decide_eq_true_iff, ht.mem_overlay hl had, Released, hws]
    exact (if_congr hiff rfl rfl).trans (ite_not ..)
  have hnew : ((if Created env w b p then [newDroplet env z b p] else []).filter fun e =>
      isTenant e.2).countP (fun e => a ∈ e.2.spec.ip) = if Created env w b p ∧ a ∈ p.ips then 1 else 0 := by
    by_cases hc : Created env w b p
    · have hten : ([newDroplet env z b p].filter fun e => isTenant e.2) = [newDroplet env z b p] := rfl
      rw [if_pos hc, hten, List.countP_singleton]
      exact if_congr (decide_eq_true_iff.trans (and_iff_right hc).symm) rfl rfl
    · rw [if_neg hc, if_neg fun h => hc h.1]
      rfl
  have hkept : a ∉ p.ips → ¬ Released env w p d a := by
    rintro hnot ⟨d', hd', hdn, hno⟩
    rw [hws] at hd'
    exact hno (ht.stays a hnot d hd had honly d' (hl.subset hd') hdn)
  rw [HeldOnce, holders_eq_pairs, hafter, List.countP_append, hold, hnew]
  exact one_place_iff hkept

end Addition

/-! ## Requests -/

/-- The state after a node has loaded the program. -/
def World.loaded (w : World) (ip : Text) : World :=
  { w with
    nodeIps := w.nodeIps.insert ip
    maps := fun n => if n = ip then loadTransitXdp (w.maps n) else w.maps n }

/-- The request adds the node to the ZGC, and the settings let the node load the program. -/
def NodeOp.Joins (w : World) (z : Text) (b : NodeBody) : NodeOp → Prop
  | .post _ b' => b' = b ∧ b.zgcId = z ∧
      ∃ zgc, w.activeZgc = some zgc ∧ ∃ n, PyScalar.toInt (some zgc.portIbo) = .ok n
  | .hazelcast _ b' => b' = b ∧
      ∃ zgc, w.activeZgc = some zgc ∧ zgc.zgcId = z ∧ ∃ n, PyScalar.toInt (some zgc.portIbo) = .ok n
  | .delete _ => False

theorem nodeLoadTransitXdp_run {w : World} (ip : Text) :
    (∃ zgc n, w.activeZgc = some zgc ∧ PyScalar.toInt (some zgc.portIbo) = .ok n ∧
      nodeLoadTransitXdp ip w = (.ok (), w.loaded ip)) ∨
    (¬ ∃ zgc n, w.activeZgc = some zgc ∧ PyScalar.toInt (some zgc.portIbo) = .ok n) ∧
      ∃ e w', nodeLoadTransitXdp ip w = (.error e, w') ∧ w'.calls = w.calls := by
  rw [nodeLoadTransitXdp, bind_run, modifyState_run]
  dsimp only
  rw [bind_run, getState_run]
  dsimp only
  cases hz : w.activeZgc with
  | none => exact .inr ⟨fun ⟨_, _, hc, _⟩ => (nomatch hc), _, _, rfl, rfl⟩
  | some zgc =>
    dsimp only
    rw [bind_run, ofExcept_run]
    cases hn : PyScalar.toInt (some zgc.portIbo) with
    | ok n =>
      refine .inl ⟨zgc, n, rfl, hn, ?_⟩
      rw [World.loaded, hz]
      rfl
    | error e =>
      refine .inr ⟨fun ⟨zgc', n, hzgc, hok⟩ => ?_, e, _, rfl, rfl⟩
      obtain rfl := Option.some.inj hzgc
      exact nomatch hn.symm.trans hok

/-- **An addition, up to the row of the node.** -/
theorem NodeOp.run_calls (env : Env) (w : World) {nodeId : Text} {b : NodeBody} {op : NodeOp}
    (hop : op = .post nodeId b ∨ op = .hazelcast nodeId b) :
    (∃ z, (∀ z', op.Joins w z' b ↔ z' = z) ∧
      (op.run env w).calls = (newNodeGws env z b (w.loaded b.ipControl)).2.calls) ∨
    (∀ z, ¬ op.Joins w z b) ∧ (op.run env w).calls = w.calls := by
  rcases hop with rfl | rfl
  · have hrun : NodeOp.run env (.post nodeId b) w = (allNodesPost env nodeId b w).2 := rfl
    rw [hrun, allNodesPost_post, bind_run]
    rcases nodeLoadTransitXdp_run (w := w) b.ipControl with ⟨zgc, n, hz, hn, h⟩ | ⟨hno, e, w', h, hk⟩
    · rw [h]
      exact .inl ⟨b.zgcId, fun z' => ⟨fun hj => hj.2.1.symm, fun he => ⟨rfl, he.symm, zgc, hz, n, hn⟩⟩,
        addNode_calls_eq⟩
    · rw [h]
      refine .inr ⟨?_, hk⟩
      rintro z ⟨-, -, zgc, hz, n, hn⟩
      exact hno ⟨zgc, n, hz, hn⟩
  · have hrun : NodeOp.run env (.hazelcast nodeId b) w = (setUpNodeFromHazelcast env nodeId b w).2 := rfl
    rw [hrun, setUpNodeFromHazelcast_post, bind_run, getState_run]
    dsimp only
    rcases nodeLoadTransitXdp_run (w := w) b.ipControl with ⟨zgc, n, hz, hn, h⟩ | ⟨hno, e, w', h, hk⟩
    · rw [hz]
      dsimp only
      rw [bind_run, h]
      refine .inl ⟨zgc.zgcId, fun z' => ⟨?_, fun he => ⟨rfl, zgc, hz, he.symm, n, hn⟩⟩, addNode_calls_eq⟩
      rintro ⟨-, zgc', hz', rfl, -⟩
      rw [Option.some.inj (hz.symm.trans hz')]
    · refine .inr ⟨?_, ?_⟩
      · rintro z ⟨-, zgc, hz, -, n, hn⟩
        exact hno ⟨zgc, n, hz, hn⟩
      · cases w.activeZgc with
        | none => rfl
        | some zgc =>
          dsimp only
          rw [bind_run, h]
          exact hk

/-- **An addition keeps the addresses exactly when its calls go together.** Whatever Kubernetes
refuses, each address that one tenant droplet lists is in one tenant droplet afterwards if and only
if, for each of them that the plan gives to the new droplet, the droplet that lists it is replaced by
a version without it exactly when the new droplet is created. -/
theorem addition_keeps_addresses_iff (env : Env) (w : World) (nodeId : Text) (b : NodeBody) (op : NodeOp)
    (hop : op = .post nodeId b ∨ op = .hazelcast nodeId b) :
    (∀ a, HeldOnce w.kube a → HeldOnce (op.run env w).kube a) ↔
      ∀ z p, op.Joins w z b → PlansTo env w z b p → ∀ a ∈ p.ips, HeldOnce w.kube a →
        ∀ d ∈ w.kube.select isTenant, a ∈ d.body.spec.ip →
          (Released env w p d a ↔ Created env w b p) := by
  rcases NodeOp.run_calls env w hop with ⟨z, hjoins, hcalls⟩ | ⟨hno, hcalls⟩
  · have hk : (op.run env w).kube = (newNodeGws env z b (w.loaded b.ipControl)).2.kube :=
      congrArg Prod.fst hcalls
    rw [hk]
    constructor
    · intro h z' p hz' hp a hap ha d hd had
      obtain rfl := (hjoins z').1 hz'
      exact (heldOnce_after (w := w.loaded b.ipControl) hp ha hd had).1 (h a ha) hap
    · intro h a ha
      by_cases hp : ∃ p, PlansTo env (w.loaded b.ipControl) z b p
      · obtain ⟨p, hp⟩ := hp
        obtain ⟨d, hd, had⟩ := List.countP_pos_iff.1 (Nat.lt_of_lt_of_eq Nat.one_pos ha.symm)
        refine (heldOnce_after hp ha hd (of_decide_eq_true had)).2 fun hap => ?_
        exact h z p ((hjoins z).2 rfl) hp a hap ha d hd (of_decide_eq_true had)
      · rw [newNodeGws_unplanned fun p h => hp ⟨p, h⟩]
        exact ha
  · have hk : (op.run env w).kube = w.kube := congrArg Prod.fst hcalls
    rw [hk]
    exact ⟨fun _ z p hz => absurd hz (hno z), fun _ a ha => ha⟩

/-! ## Samples -/

/-- Kubernetes refuses the writes of one droplet. -/
def refusing (name : String) : Env := { Env.default with kubeFails := fun n => n = name.toList }

/-- The replacement of the first droplet is refused while a second node joins. -/
theorem addition_keeps_addresses_iff_sample :
    let env := refusing "droplet-tenant-node-a"
    let b := fourNode "Node_B" "172.16.0.2"
    let w := runNodeOps .default (twoJoin.take 1) (.start fourZgc (.int 8300))
    (∀ a, HeldOnce w.kube a → HeldOnce ((NodeOp.post "2".toList b).run env w).kube a) ↔
      ∀ z p, (NodeOp.post "2".toList b).Joins w z b → PlansTo env w z b p → ∀ a ∈ p.ips,
        HeldOnce w.kube a → ∀ d ∈ w.kube.select isTenant, a ∈ d.body.spec.ip →
          (Released env w p d a ↔ Created env w b p) :=
  addition_keeps_addresses_iff _ _ _ _ _ (.inl rfl)

/-- **An address is in two droplets or in none** after a second node has joined: where the replacement
of the first droplet is refused, and where the creation of the second one is. -/
theorem refused_calls_lose_addresses :
    let w := runNodeOps .default (twoJoin.take 1) (.start fourZgc (.int 8300))
    let join := NodeOp.post "2".toList (fourNode "Node_B" "172.16.0.2")
    HeldOnce w.kube "10.0.0.4".toList ∧
    holders (join.run (refusing "droplet-tenant-node-a") w).kube "10.0.0.4".toList = 2 ∧
    holders (join.run (refusing "droplet-tenant-node-b") w).kube "10.0.0.4".toList = 0 := by
  refine ⟨?_, ?_, ?_⟩ <;> decide +kernel

end ArionDp
