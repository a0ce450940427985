import ArionDp.Manager.NodesSpec

/-!
# Droplets that share a pool

* `GatewayPool`: the droplets of a ZGC with a given pool of addresses;
* `Versions`: changed droplets of one ZGC, with **`Versions.select_other`**, the frame of the other
  ZGCs, and **`Planned.overlay_perm`**, the droplets after a plan is carried out.
-/

namespace ArionDp

open ApiServer

/-! ## Droplets with a pool -/

/-- **Droplets that share a pool**: together they hold every address once, each has one, and the MAC
addresses go with the addresses. -/
structure GatewayPool (getMac : Text → Except PyError Text) (pool : List Text) (items : List Item) :
    Prop where
  once : items ≠ [] → (poolIps items).Perm pool
  nonempty : ∀ d ∈ items, d.body.spec.ip ≠ []
  paired : ∀ d ∈ items, Paired getMac d

theorem poolIps_eq_pairs (l : List Item) : poolIps l = (pairs l).flatMap fun e => e.2.spec.ip := by
  rw [poolIps, pairs, List.flatMap_map]

section Pool

variable {getMac : Text → Except PyError Text} {pool : List Text} {l l' : List Item}

theorem exists_of_pairs_perm (hp : (pairs l).Perm (pairs l')) {d : Item} (hd : d ∈ l') :
    ∃ d' ∈ l, d'.name = d.name ∧ d'.body = d.body := by
  obtain ⟨d', hd', he⟩ := List.mem_map.1 (hp.mem_iff.2 (List.mem_map_of_mem hd))
  exact ⟨d', hd', (Prod.mk.inj he).1, (Prod.mk.inj he).2⟩

/-- Only names and bodies matter. -/
theorem GatewayPool.of_pairs (h : GatewayPool getMac pool l) (hp : (pairs l).Perm (pairs l')) :
    GatewayPool getMac pool l' where
  once hne := by
    have hne' : l ≠ [] := by
      rintro rfl
      exact hne (List.map_eq_nil_iff.1 hp.nil_eq.symm)
    rw [poolIps_eq_pairs]
    refine (hp.flatMap_right _).symm.trans ?_
    rw [← poolIps_eq_pairs]
    exact h.once hne'
  nonempty d hd := by
    obtain ⟨d', hd', -, hb⟩ := exists_of_pairs_perm hp hd
    exact hb ▸ h.nonempty d' hd'
  paired d hd := by
    obtain ⟨d', hd', -, hb⟩ := exists_of_pairs_perm hp hd
    have := h.paired d' hd'
    unfold Paired at this ⊢
    rwa [hb] at this

theorem GatewayPool.perm (h : GatewayPool getMac pool l) (hp : l.Perm l') :
    GatewayPool getMac pool l' := h.of_pairs (hp.map _)

theorem GatewayPool.tidy (h : GatewayPool getMac pool l) (hn : pool.Nodup)
    (hinj : ∀ a ∈ pool, ∀ b ∈ pool, getMac a = getMac b → a = b) : Tidy getMac l := by
  cases l with
  | nil => exact ⟨h.nonempty, h.paired, List.nodup_nil, fun a ha => absurd ha List.not_mem_nil⟩
  | cons d l =>
    have hp := h.once (List.cons_ne_nil d l)
    exact ⟨h.nonempty, h.paired, hp.nodup_iff.2 hn, fun a ha b hb =>
      hinj a (hp.mem_iff.1 ha) b (hp.mem_iff.1 hb)⟩

/-- Droplets with a new one. -/
theorem GatewayPool.concat {d : Item} (hpool : (poolIps l ++ d.body.spec.ip).Perm pool)
    (hl : ∀ e ∈ l, e.body.spec.ip ≠ [] ∧ Paired getMac e) (hne : d.body.spec.ip ≠ [])
    (hd : Paired getMac d) : GatewayPool getMac pool (l ++ [d]) := by
  have hall : ∀ e ∈ l ++ [d], e.body.spec.ip ≠ [] ∧ Paired getMac e := by
    intro e he
    rcases List.mem_append.1 he with he | he
    · exact hl e he
    · rw [List.mem_singleton.1 he]
      exact ⟨hne, hd⟩
  refine ⟨fun _ => ?_, fun e he => (hall e he).1, fun e he => (hall e he).2⟩
  rwa [poolIps, List.flatMap_append, List.flatMap_singleton]

end Pool

/-! ## Writing the droplets of one ZGC -/

theorem SameLabels.selects {d d' : Item} (h : SameLabels d d') (z : Text) :
    selectsTenant z d'.body = selectsTenant z d.body := by
  obtain ⟨_, _, rfl⟩ := h
  rfl

theorem mem_select {k : Kube} {z : Text} {d : Item} :
    d ∈ k.select (selectsTenant z) ↔ d ∈ k.objs ∧ selectsTenant z d.body = true := List.mem_filter

theorem nodup_names_select (k : Kube) (z : Text) :
    ((k.select (selectsTenant z)).map fun d => d.name).Nodup :=
  k.nodup.sublist (List.filter_sublist.map _)

/-- Versions of the droplets of a ZGC, each one at most once. -/
structure Versions (k : Kube) (z : Text) (l : List Item) : Prop where
  nodup : (l.map fun d => d.name).Nodup
  same : ∀ d' ∈ l, ∃ d ∈ k.select (selectsTenant z), SameLabels d d'

section Versions

variable {k : Kube} {z : Text} {l : List Item}

theorem Versions.sublist {l' : List Item} (h : Versions k z l) (hs : l'.Sublist l) : Versions k z l' :=
  ⟨h.nodup.sublist (hs.map _), fun d hd => h.same d (hs.subset hd)⟩

theorem Versions.current (h : Versions k z l) : ∀ d ∈ l, Current k d := by
  intro d' hd'
  obtain ⟨d, hd, _, _, rfl⟩ := h.same d' hd'
  exact ⟨d, (k.get?_eq_some_iff).2 ⟨(mem_select.1 hd).1, rfl⟩, rfl⟩

/-- Versions agree with the droplets in what the labels tell. -/
theorem Versions.agree (h : Versions k z l) {p : Droplet → Bool}
    (hp : ∀ d d' : Item, SameLabels d d' → p d'.body = p d.body) :
    ∀ e ∈ pairs l, ∀ o ∈ k.objs, o.name = e.1 → p o.body = p e.2 := by
  intro e he o ho hon
  obtain ⟨d', hd', rfl⟩ := List.mem_map.1 he
  obtain ⟨d, hd, hs⟩ := h.same d' hd'
  obtain rfl : o = d := k.eq_of_name_eq ho (mem_select.1 hd).1 (hon.trans hs.name_eq)
  exact (hp _ _ hs).symm

theorem Versions.selects (h : Versions k z l) (z' : Text) : ∀ e ∈ pairs l, ∀ o ∈ k.objs, o.name = e.1 →
    selectsTenant z' o.body = selectsTenant z' e.2 :=
  h.agree fun _ _ hs => hs.selects z'

theorem map_fst_pairs (l : List Item) : (pairs l).map Prod.fst = l.map fun d => d.name := by
  rw [pairs, List.map_map]
  rfl

theorem Versions.select_putAll (h : Versions k z l) (z' : Text) :
    pairs ((k.putAll (pairs l)).select (selectsTenant z')) =
      (pairs (k.select (selectsTenant z'))).map (overlay (pairs l)) :=
  pairs_select_putAll k _ (by rw [map_fst_pairs]; exact h.nodup) (h.selects z')

/-- The droplets of other ZGCs are not among the versions. -/
theorem Versions.overlay_other (h : Versions k z l) {z' : Text} (hz : z ≠ z') :
    (pairs (k.select (selectsTenant z'))).map (overlay (pairs l)) =
      pairs (k.select (selectsTenant z')) := by
  refine (List.map_congr_left fun e he => ?_).trans (List.map_id _)
  refine overlay_of_notMem fun hc => ?_
  rw [map_fst_pairs] at hc
  obtain ⟨d', hd', hn⟩ := List.mem_map.1 hc
  obtain ⟨o, ho, rfl⟩ := List.mem_map.1 he
  have hsel := h.selects z' (d'.name, d'.body) (List.mem_map_of_mem hd') o (mem_select.1 ho).1 hn.symm
  obtain ⟨d, hd, hs⟩ := h.same d' hd'
  have h1 := (mem_select.1 hd).2
  have h2 : selectsTenant z' d.body = true := by
    rw [← hs.selects z', ← hsel]
    exact (mem_select.1 ho).2
  exact hz ((of_decide_eq_true h1).1.symm.trans (of_decide_eq_true h2).1)

/-- **Frame**: the droplets of other ZGCs stay as they are. -/
theorem Versions.select_other (h : Versions k z l) {z' : Text} (hz : z ≠ z') :
    pairs ((k.putAll (pairs l)).select (selectsTenant z')) = pairs (k.select (selectsTenant z')) :=
  (h.select_putAll z').trans (h.overlay_other hz)

theorem Planned.versions {all items modified : List Item} (h : Planned all items modified)
    (hall : all.Perm (k.select (selectsTenant z))) : Versions k z modified where
  nodup := h.nodup ((hall.map _).nodup_iff.2 (nodup_names_select k z))
  same d' hd' := by
    obtain ⟨i, hi, rfl⟩ := List.getElem_of_mem (h.mem d' hd')
    have hi' : i < all.length := h.same.length_eq ▸ hi
    exact ⟨all[i], hall.mem_iff.1 (List.getElem_mem hi'), (List.forall₂_iff_get.1 h.same).2 i hi' hi⟩

/-- **The planned droplets are the listed ones with the changed ones laid over them.** -/
theorem Planned.overlay_perm {all items modified : List Item} (h : Planned all items modified)
    (hall : all.Perm (k.select (selectsTenant z))) :
    ((pairs (k.select (selectsTenant z))).map (overlay (pairs modified))).Perm (pairs items) := by
  have hp : (pairs all).Perm (pairs (k.select (selectsTenant z))) := hall.map _
  refine (hp.map _).symm.trans (List.Perm.of_eq (map_overlay ?_ ?_ (.inr ?_) ?_ ?_))
  · rw [map_fst_pairs]
    exact (hall.map _).nodup_iff.2 (nodup_names_select k z)
  · rw [map_fst_pairs, map_fst_pairs]
    exact map_name_eq h.same
  · rw [map_fst_pairs]
    exact (h.versions hall).nodup
  · intro e he
    obtain ⟨d, hd, rfl⟩ := List.mem_map.1 he
    exact List.mem_map_of_mem (h.mem d hd)
  · intro i e e' he he'
    obtain ⟨d, hd, rfl⟩ := Option.map_eq_some_iff.1 (List.getElem?_map.symm.trans he)
    obtain ⟨d', hd', rfl⟩ := Option.map_eq_some_iff.1 (List.getElem?_map.symm.trans he')
    rcases h.rest i d d' hd hd' with hm | rfl
    · exact .inl (List.mem_map_of_mem hm)
    · exact .inr rfl

theorem Planned.select_own {all items modified : List Item} (h : Planned all items modified)
    (hall : all.Perm (k.select (selectsTenant z))) :
    (pairs items).Perm (pairs ((k.putAll (pairs modified)).select (selectsTenant z))) := by
  rw [(h.versions hall).select_putAll z]
  exact (h.overlay_perm hall).symm

end Versions

end ArionDp
