import ArionDp.Manager.Pool
import Mathlib.Algebra.Order.BigOperators.Group.List

/-!
# The redistribution keeps the pool

Invariants of the two loops, and what the plans of a node addition and of a node removal do to
droplets in good order.

* `StealInv`: no address is lost or doubled, and every donor keeps one;
* **`planAddition_spec`**, **`planRemoval_spec`**: the changed droplets with the new one, or with the
  handed back addresses, hold the same pool, in good order;
* **`stealLoop_fuel`**: the loop never runs out of rounds.
-/

namespace ArionDp

variable {getMac : Text → Except PyError Text}

open Py

/-! ## Which droplets change -/

section Changes

variable {all : List Item}

/-- The loop of an addition moves addresses, whatever the MAC addresses are. -/
structure Moved (all : List Item) (st : Steal) : Prop where
  changed : Changed all st.items st.modified
  pool : (poolIps st.items ++ st.ips).Perm (poolIps all)

theorem Moved.start (all : List Item) : Moved all ⟨all, [], []⟩ :=
  ⟨.refl all, by rw [List.append_nil]⟩

theorem stealFrom_moved {st : Steal} (h : Moved all st) (i : ℕ) :
    Returns (stealFrom getMac st i) (Moved all) := by
  unfold stealFrom
  cases hd : st.items[i]? with
  | none => exact Returns.pure h
  | some d =>
    refine Returns.ite (fun hlen => ?_) fun _ => Returns.pure h
    refine (Returns.trivial _).bind fun _ _ => (Returns.trivial _).bind fun macs _ =>
      Returns.pure ⟨h.changed.set hd _ _, List.perm_iff_count.2 fun a => ?_⟩
    have hne : d.body.spec.ip ≠ [] := fun hc => by
      rw [hc] at hlen
      exact absurd hlen (by simp)
    -- split the list into what stays and the popped address
    obtain ⟨init, x, hx⟩ : ∃ init x, d.body.spec.ip = init ++ [x] :=
      ⟨_, _, (List.dropLast_append_getLast hne).symm⟩
    have h1 := count_poolIps_set a (d.withAddrs init macs) hd
    have h2 := List.perm_iff_count.1 h.pool a
    rw [hx, List.count_append] at h1
    rw [List.count_append] at h2
    change _ = _ + init.count a at h1
    dsimp only
    rw [hx, List.getLastD_concat, List.dropLast_concat, List.count_append, List.count_append]
    omega

theorem stealLoop_moved (ds : List ℕ) (need fuel : ℕ) {st : Steal} (h : Moved all st) :
    Returns (stealLoop getMac ds need fuel st) (Moved all) := by
  induction fuel generalizing st with
  | zero => exact Returns.pure h
  | succ fuel ih =>
    refine Returns.ite (fun _ => ?_) fun _ => Returns.pure h
    refine Returns.bind (Returns.foldlM (fun _ i h => stealFrom_moved h i) ds h) fun st' h' => ?_
    exact Returns.ite (fun _ => Returns.pure h') fun _ => ih h'

theorem giveTo_changed {st : HandBack} (h : Changed all st.items st.modified) (index : ℕ) (ip : Text) :
    Returns (giveTo getMac st index ip) fun st' => Changed all st'.items st'.modified := by
  unfold giveTo
  refine (Returns.trivial _).bind fun mac _ => Returns.ite (fun _ => Returns.error) fun _ => ?_
  dsimp only
  cases hd : st.items[index % st.items.length]? with
  | none => exact Returns.pure h
  | some d => exact Returns.pure (h.set hd _ _)

theorem handBack_changed (ips : List Text) (index : ℕ) {st : HandBack}
    (h : Changed all st.items st.modified) :
    Returns (handBack getMac index ips st) fun st' => Changed all st'.items st'.modified := by
  induction ips generalizing st index with
  | nil => exact Returns.pure h
  | cons ip ips ih => exact Returns.bind (giveTo_changed h index ip) fun _ h' => ih (index + 1) h'

end Changes

/-! ## Popping an address -/

/-- The MAC address of the last address is the last one, and removing it by value removes that one. -/
theorem dropMac_last {ips macs : List Text} {x : Text}
    (hp : (ips ++ [x]).map getMac = macs.map .ok) (hx : x ∉ ips)
    (hinj : ∀ y ∈ ips, getMac y = getMac x → y = x) :
    ∃ m ms, getMac x = .ok m ∧ dropMac m macs = .ok ms ∧ ips.map getMac = ms.map .ok := by
  rw [List.map_append, List.map_singleton] at hp
  obtain ⟨ms, l, rfl, hms, hl⟩ := List.map_eq_append_iff.1 hp.symm
  obtain ⟨m, rfl, hm⟩ := List.map_eq_singleton_iff.1 hl
  have hnot : m ∉ ms := by
    intro hc
    have hmem : (Except.ok m : Except PyError Text) ∈ ips.map getMac := by
      rw [← hms]
      exact List.mem_map_of_mem hc
    obtain ⟨y, hy, hym⟩ := List.mem_map.1 hmem
    exact hx (hinj y hy (hym.trans hm) ▸ hy)
  refine ⟨m, ms, hm.symm, ?_, hms.symm⟩
  rw [dropMac, if_pos (List.mem_append_right _ (List.mem_singleton_self m)),
    List.erase_append_right _ hnot, List.erase_cons_head, List.append_nil]

/-! ## The loop of an addition -/

/-- **Invariant of the loop.** -/
structure StealInv (getMac : Text → Except PyError Text) (all : List Item) (st : Steal) : Prop
    extends Moved all st where
  nonempty : ∀ d ∈ st.items, d.body.spec.ip ≠ []
  paired : ∀ d ∈ st.items, Paired getMac d

theorem StealInv.start {all : List Item} (h : Tidy getMac all) : StealInv getMac all ⟨all, [], []⟩ :=
  ⟨.start all, h.nonempty, h.paired⟩

section Steal

variable {all : List Item} (ht : Tidy getMac all) {st : Steal}

include ht

/-- Addresses of one droplet are different, and so are their MAC addresses. -/
theorem StealInv.distinct (h : StealInv getMac all st) {d : Item} (hd : d ∈ st.items) :
    d.body.spec.ip.Nodup ∧
      ∀ a ∈ d.body.spec.ip, ∀ b ∈ d.body.spec.ip, getMac a = getMac b → a = b := by
  have hsub : ∀ a ∈ d.body.spec.ip, a ∈ poolIps all := fun a ha =>
    h.pool.mem_iff.1 (List.mem_append_left _ (mem_poolIps.2 ⟨d, hd, ha⟩))
  have hn : (poolIps st.items ++ st.ips).Nodup := h.pool.nodup_iff.2 ht.nodup
  exact ⟨(List.nodup_flatMap.1 (List.nodup_append.1 hn).1).1 d hd,
    fun a ha b hb => ht.inj a (hsub a ha) b (hsub b hb)⟩

/-- Popping the last address of a droplet, and its MAC address with it. -/
theorem StealInv.pop (h : StealInv getMac all st) {d : Item} (hd : d ∈ st.items) :
    ∃ init x m ms, d.body.spec.ip = init ++ [x] ∧ getMac x = .ok m ∧ dropMac m d.body.spec.mac = .ok ms ∧
      init.map getMac = ms.map .ok := by
  obtain ⟨hnodup, hinj⟩ := h.distinct ht hd
  obtain ⟨init, x, hx⟩ : ∃ init x, d.body.spec.ip = init ++ [x] :=
    ⟨_, _, (List.dropLast_append_getLast (h.nonempty d hd)).symm⟩
  have hpaired := h.paired d hd
  unfold Paired at hpaired
  rw [hx] at hpaired hnodup hinj
  obtain ⟨hinit, -, hdis⟩ := List.nodup_append.1 hnodup
  have hxi : x ∉ init := fun hc => hdis x hc x (List.mem_singleton_self x) rfl
  obtain ⟨m, ms, hm, hdrop, hms⟩ := dropMac_last hpaired hxi fun y hy =>
    hinj y (List.mem_append_left _ hy) x (List.mem_append_right _ (List.mem_singleton_self x))
  exact ⟨init, x, m, ms, hx, hm, hdrop, hms⟩

/-- **One step of the loop** keeps the invariant, and takes an address where the donor has two. -/
theorem stealFrom_spec (h : StealInv getMac all st) (i : ℕ) :
    ∃ st', stealFrom getMac st i = .ok st' ∧ StealInv getMac all st' ∧
      st.ips.length ≤ st'.ips.length ∧
      (1 < ipCount st.items i → st.ips.length < st'.ips.length) := by
  unfold ipCount
  cases hd : st.items[i]? with
  | none => exact ⟨st, by rw [stealFrom, hd], h, le_rfl, fun hc => absurd hc (by simp)⟩
  | some d =>
    dsimp only
    by_cases hlen : d.body.spec.ip.length > 1
    swap
    · refine ⟨st, ?_, h, le_rfl, fun hc => absurd hc hlen⟩
      rw [stealFrom, hd]
      exact if_neg hlen
    obtain ⟨init, x, m, ms, hx, hm, hdrop, hms⟩ := h.pop ht (List.mem_of_getElem? hd)
    rw [hx] at hlen
    have hst : stealFrom getMac st i = .ok ⟨st.items.set i (d.withAddrs init ms), st.ips ++ [x],
        if i ∈ st.modified then st.modified else st.modified ++ [i]⟩ := by
      unfold stealFrom
      rw [hd]
      dsimp only
      rw [hx, if_pos hlen, List.getLastD_concat, List.dropLast_concat, hm]
      change (dropMac m d.body.spec.mac >>= _) = _
      rw [hdrop]
      rfl
    refine ⟨_, hst, ⟨stealFrom_moved h.toMoved i _ hst, ?_, ?_⟩, ?_, fun _ => ?_⟩
    · intro e he
      rcases List.mem_or_eq_of_mem_set he with he | rfl
      · exact h.nonempty e he
      · intro hc
        change init = [] at hc
        rw [hc] at hlen
        exact absurd hlen (by simp)
    · intro e he
      rcases List.mem_or_eq_of_mem_set he with he | rfl
      · exact h.paired e he
      · exact hms
    · simp
    · simp

theorem foldlM_stealFrom_spec (l : List ℕ) (h : StealInv getMac all st) :
    ∃ st', l.foldlM (stealFrom getMac) st = .ok st' ∧ StealInv getMac all st' ∧
      st.ips.length ≤ st'.ips.length ∧
      ∀ i, l.head? = some i → 1 < ipCount st.items i → st.ips.length < st'.ips.length := by
  induction l generalizing st with
  | nil => exact ⟨st, rfl, h, le_rfl, fun i hi => by simp at hi⟩
  | cons j l ih =>
    obtain ⟨st1, h1, hi1, hle1, hlt1⟩ := stealFrom_spec ht h j
    obtain ⟨st2, h2, hi2, hle2, -⟩ := ih hi1
    refine ⟨st2, ?_, hi2, hle1.trans hle2, fun i hi hc => ?_⟩
    · rw [List.foldlM_cons, h1]
      exact h2
    · obtain rfl : j = i := by simpa using hi
      exact (hlt1 hc).trans_le hle2

theorem stealLoop_spec (ds : List ℕ) (need fuel : ℕ) (h : StealInv getMac all st) :
    ∃ st', stealLoop getMac ds need fuel st = .ok st' ∧ StealInv getMac all st' ∧
      st.ips.length ≤ st'.ips.length ∧
      (st.ips.length < need → 0 < fuel →
        ∀ i, ds.head? = some i → 1 < ipCount st.items i → st.ips.length < st'.ips.length) := by
  induction fuel generalizing st with
  | zero => exact ⟨st, rfl, h, le_rfl, fun _ hc => absurd hc (Nat.lt_irrefl 0)⟩
  | succ fuel ih =>
    rw [stealLoop]
    by_cases hn : st.ips.length < need
    swap
    · rw [if_neg hn]
      exact ⟨st, rfl, h, le_rfl, fun hc => absurd hc hn⟩
    rw [if_pos hn]
    obtain ⟨st1, h1, hi1, hle1, hlt1⟩ := foldlM_stealFrom_spec ht ds h
    obtain ⟨st2, h2, hi2, hle2, -⟩ := ih hi1
    rw [h1]
    change ∃ st', (if st1.ips.length = st.ips.length then _ else _) = _ ∧ _
    by_cases heq : st1.ips.length = st.ips.length
    · rw [if_pos heq]
      exact ⟨st1, rfl, hi1, hle1, fun _ _ => hlt1⟩
    · rw [if_neg heq]
      exact ⟨st2, h2, hi2, hle1.trans hle2, fun _ _ i hi hc => (hlt1 i hi hc).trans_le hle2⟩

/-- **The loop never runs out of rounds**: more of them change nothing. -/
theorem stealLoop_fuel (ds : List ℕ) (need fuel : ℕ) (h : StealInv getMac all st)
    (hf : need ≤ fuel + st.ips.length) :
    stealLoop getMac ds need (fuel + 1) st = stealLoop getMac ds need fuel st := by
  induction fuel generalizing st with
  | zero =>
    rw [stealLoop.eq_2, if_neg (by omega)]
    rfl
  | succ fuel ih =>
    rw [stealLoop.eq_2, stealLoop.eq_2 getMac ds need st fuel]
    split_ifs with hn
    · obtain ⟨st1, h1, hi1, hle1, -⟩ := foldlM_stealFrom_spec ht ds h
      rw [h1]
      change (if st1.ips.length = st.ips.length then _ else _) =
        if st1.ips.length = st.ips.length then _ else _
      split_ifs with heq
      · rfl
      · exact ih hi1 (by omega)
    · rfl

end Steal

/-! ## The plan of an addition -/

theorem mapM_ok {α β ε : Type} {f : α → Except ε β} {l : List α} (h : ∀ a ∈ l, ∃ b, f a = .ok b) :
    ∃ bs, l.mapM f = .ok bs ∧ l.map f = bs.map .ok := by
  induction l with
  | nil => exact ⟨[], rfl, rfl⟩
  | cons a l ih =>
    obtain ⟨b, hb⟩ := h a (List.mem_cons_self ..)
    obtain ⟨bs, hm, hbs⟩ := ih fun a' ha' => h a' (List.mem_cons_of_mem _ ha')
    refine ⟨b :: bs, ?_, ?_⟩
    · rw [List.mapM_cons, hb, hm]
      rfl
    · rw [List.map_cons, List.map_cons, hb, hbs]

/-- The address of a droplet in good order has a MAC address. -/
theorem Tidy.getMac_ok {items : List Item} (h : Tidy getMac items) {a : Text}
    (ha : a ∈ poolIps items) : ∃ m, getMac a = .ok m := by
  obtain ⟨d, hd, had⟩ := mem_poolIps.1 ha
  have hp := h.paired d hd
  have hm : getMac a ∈ d.body.spec.mac.map Except.ok := hp ▸ List.mem_map_of_mem had
  obtain ⟨m, -, hm⟩ := List.mem_map.1 hm
  exact ⟨m, hm.symm⟩

/-- Where there are more addresses than droplets, the first donor has two. -/
theorem exists_donor {items : List Item} (ht : Tidy getMac items) (hn : 0 < newDropletGets items) :
    ∃ i, (donors items).head? = some i ∧ 1 < ipCount items i := by
  have hlen : ∀ d ∈ items, d.body.spec.mac.length = d.body.spec.ip.length := fun d hd =>
    (ht.paired d hd).length_eq
  -- if every droplet had one address, there would not be enough
  obtain ⟨d, hd, hd1⟩ : ∃ d ∈ items, 1 < d.body.spec.ip.length := by
    by_contra hone
    push Not at hone
    have hsum := List.sum_le_card_nsmul (items.map fun d => d.body.spec.ip.length) 1
      (List.forall_mem_map.2 hone)
    rw [List.length_map, Nat.nsmul_eq_mul, Nat.mul_one] at hsum
    have hz : newDropletGets items = 0 := Nat.div_eq_of_lt (by omega)
    omega
  obtain ⟨i, hi, rfl⟩ := List.getElem_of_mem hd
  have hmem : i ∈ donors items := by
    rwa [mem_donors_iff hlen hi, ipCount, List.getElem?_eq_getElem hi]
  cases hds : donors items with
  | nil =>
    rw [hds] at hmem
    exact absurd hmem List.not_mem_nil
  | cons j l =>
    have hj : j ∈ donors items := hds ▸ List.mem_cons_self ..
    have hlt := List.mem_range.1 (List.mem_of_mem_filter ((donors_perm items).mem_iff.1 hj))
    exact ⟨j, rfl, (mem_donors_iff hlen hlt).1 hj⟩

/-- The changed droplets, by position. -/
def pickItems (items : List Item) (modified : List ℕ) : List Item := modified.filterMap (items[·]?)

/-- **What a plan does**: `items` are the droplets after it, those in `modified` changed. -/
structure Planned (all items modified : List Item) : Prop where
  same : List.Forall₂ SameLabels all items
  mem : ∀ d ∈ modified, d ∈ items
  nodup : ((all.map fun d => d.name).Nodup) → (modified.map fun d => d.name).Nodup
  rest : ∀ (i : ℕ) d d', all[i]? = some d → items[i]? = some d' → d' ∈ modified ∨ d' = d

theorem SameLabels.name_eq {d d' : Item} (h : SameLabels d d') : d'.name = d.name := by
  obtain ⟨_, _, rfl⟩ := h
  rfl

theorem map_name_eq {all items : List Item} (h : List.Forall₂ SameLabels all items) :
    (items.map fun d => d.name) = all.map fun d => d.name := by
  induction h with
  | nil => rfl
  | cons hd _ ih => rw [List.map_cons, List.map_cons, hd.name_eq, ih]

theorem Changed.planned {all items : List Item} {modified : List ℕ} (h : Changed all items modified) :
    Planned all items (pickItems items modified) where
  same := h.same
  mem d hd := by
    obtain ⟨i, -, hi⟩ := List.mem_filterMap.1 hd
    exact List.mem_of_getElem? hi
  nodup hn := by
    have hn' : (items.map fun d => d.name).Nodup := (map_name_eq h.same).symm ▸ hn
    have heq : (pickItems items modified).map (fun d => d.name) =
        modified.filterMap fun i => (items[i]?).map fun d => d.name := by
      rw [pickItems, List.map_filterMap]
    rw [heq]
    refine List.Nodup.filterMap ?_ h.nodup
    intro i j n hi hj
    obtain ⟨d, hd, rfl⟩ := Option.map_eq_some_iff.1 hi
    obtain ⟨e, he, hde⟩ := Option.map_eq_some_iff.1 hj
    obtain ⟨hil, rfl⟩ := List.getElem?_eq_some_iff.1 hd
    obtain ⟨hjl, rfl⟩ := List.getElem?_eq_some_iff.1 he
    have hinj := List.nodup_iff_injective_get.1 hn'
    have := @hinj ⟨i, by simpa using hil⟩ ⟨j, by simpa using hjl⟩ (by simpa using hde.symm)
    simpa using this
  rest i d d' hd hd' := by
    by_cases hi : i ∈ modified
    · exact .inl (List.mem_filterMap.2 ⟨i, hi, hd'⟩)
    · have := h.rest i hi
      rw [hd, hd'] at this
      exact .inr (Option.some.inj this)

/-- A plan of an addition only moves addresses. -/
theorem planAddition_planned (all : List Item) :
    Returns (planAddition getMac all) fun o => ∀ p ∈ o, ∃ items, Planned all items p.modified ∧
      (poolIps items ++ p.ips).Perm (poolIps all) := by
  unfold planAddition
  refine Returns.ite (fun _ => ?_) fun _ => Returns.pure fun p hp => by simp at hp
  refine Returns.bind (stealLoop_moved _ _ _ (Moved.start all)) fun st hst => ?_
  refine (Returns.trivial _).bind fun macs _ => Returns.pure fun p hp => ?_
  obtain rfl := Option.mem_some_iff.1 hp
  exact ⟨_, hst.changed.planned, hst.pool⟩

theorem planRemoval_planned (ips : List Text) (all : List Item) :
    Returns (planRemoval getMac ips all) fun modified => ∃ items, Planned (ascending all) items modified :=
  Returns.bind (handBack_changed _ _ (Changed.refl (ascending all))) fun _ hst =>
    Returns.pure ⟨_, hst.planned⟩

/-! ## Which droplets give -/

theorem length_dropMac {mac : Text} {macs ms : List Text} (h : dropMac mac macs = .ok ms) :
    ms.length + 1 = macs.length := by
  unfold dropMac at h
  split_ifs at h with hm hn
  · obtain rfl := Except.ok.inj h
    rw [List.length_erase_of_mem hm, Nat.sub_add_cancel (List.length_pos_of_mem hm)]
  · obtain rfl := Except.ok.inj h
    rw [List.length_dropLast, Nat.sub_add_cancel (List.length_pos_of_ne_nil hn)]

/-- **Only donors give**, the last of their addresses, and a MAC address with each. -/
structure Drawn (ds : List ℕ) (all : List Item) (st : Steal) : Prop where
  modified : ∀ i ∈ st.modified, i ∈ ds
  initial : ∀ (i : ℕ) d d', all[i]? = some d → st.items[i]? = some d' →
    d'.body.spec.ip <+: d.body.spec.ip
  balanced : ∀ (i : ℕ) d d', all[i]? = some d → st.items[i]? = some d' →
    d'.body.spec.mac.length + d.body.spec.ip.length =
      d'.body.spec.ip.length + d.body.spec.mac.length

theorem Drawn.start (ds : List ℕ) (all : List Item) : Drawn ds all ⟨all, [], []⟩ where
  modified i hi := absurd hi List.not_mem_nil
  initial i d d' h h' := by
    obtain rfl := Option.some.inj (h.symm.trans h')
    exact List.prefix_rfl
  balanced i d d' h h' := by
    obtain rfl := Option.some.inj (h.symm.trans h')
    exact Nat.add_comm _ _

theorem stealFrom_drawn {ds : List ℕ} {all : List Item} {st : Steal} (h : Drawn ds all st) {i : ℕ}
    (hi : i ∈ ds) : Returns (stealFrom getMac st i) (Drawn ds all) := by
  unfold stealFrom
  cases hd : st.items[i]? with
  | none => exact Returns.pure h
  | some e =>
    refine Returns.ite (fun hlen => ?_) fun _ => Returns.pure h
    refine (Returns.trivial _).bind fun mac _ => ?_
    refine Returns.bind (P := fun ms => ms.length + 1 = e.body.spec.mac.length)
      (fun ms hms => length_dropMac hms) fun ms hms => Returns.pure ?_
    obtain ⟨hlt, -⟩ := List.getElem?_eq_some_iff.1 hd
    have hset : ∀ (j : ℕ) d', (st.items.set i (e.withAddrs e.body.spec.ip.dropLast ms))[j]? = some d' →
        (i = j ∧ d' = e.withAddrs e.body.spec.ip.dropLast ms) ∨ st.items[j]? = some d' := by
      intro j d' hj
      by_cases hij : i = j
      · subst hij
        rw [List.getElem?_set_self hlt] at hj
        exact .inl ⟨rfl, (Option.some.inj hj).symm⟩
      · rw [List.getElem?_set_ne hij] at hj
        exact .inr hj
    refine ⟨fun j hj => ?_, fun j d d' hj hj' => ?_, fun j d d' hj hj' => ?_⟩
    · dsimp only at hj
      split_ifs at hj with hm
      · exact h.modified j hj
      · rcases List.mem_append.1 hj with hj | hj
        · exact h.modified j hj
        · exact List.mem_singleton.1 hj ▸ hi
    · rcases hset j d' hj' with ⟨rfl, rfl⟩ | hj'
      · exact (List.dropLast_prefix _).trans (h.initial i d e hj hd)
      · exact h.initial j d d' hj hj'
    · rcases hset j d' hj' with ⟨rfl, rfl⟩ | hj'
      · have hb := h.balanced i d e hj hd
        change ms.length + _ = e.body.spec.ip.dropLast.length + _
        rw [List.length_dropLast]
        omega
      · exact h.balanced j d d' hj hj'

theorem foldlM_stealFrom_drawn {ds : List ℕ} {all : List Item} {l : List ℕ} (hl : l ⊆ ds) {st : Steal}
    (h : Drawn ds all st) : Returns (l.foldlM (stealFrom getMac) st) (Drawn ds all) := by
  induction l generalizing st with
  | nil => exact Returns.pure h
  | cons i l ih =>
    rw [List.foldlM_cons]
    exact Returns.bind (stealFrom_drawn h (hl (List.mem_cons_self ..))) fun st' h' =>
      ih (fun j hj => hl (List.mem_cons_of_mem _ hj)) h'

theorem stealLoop_drawn {ds : List ℕ} {all : List Item} (need fuel : ℕ) {st : Steal}
    (h : Drawn ds all st) : Returns (stealLoop getMac ds need fuel st) (Drawn ds all) := by
  induction fuel generalizing st with
  | zero => exact Returns.pure h
  | succ fuel ih =>
    refine Returns.ite (fun _ => ?_) fun _ => Returns.pure h
    refine Returns.bind (foldlM_stealFrom_drawn (List.Subset.refl _) h) fun st' h' => ?_
    exact Returns.ite (fun _ => Returns.pure h') fun _ => ih h'

theorem lt_of_mem_donors {items : List Item} {i : ℕ} {d : Item} (hi : i ∈ donors items)
    (hd : items[i]? = some d) : 1 < d.body.spec.ip.length ∧ 1 < d.body.spec.mac.length := by
  have hg := (List.mem_filter.1 ((donors_perm items).mem_iff.1 hi)).2
  rw [hd] at hg
  exact of_decide_eq_true hg

/-- **The droplets that a plan changes** had two addresses and two MAC addresses at least, and as many
of the ones as of the others are taken. -/
theorem planAddition_drawn (all : List Item) :
    Returns (planAddition getMac all) fun o => ∀ p ∈ o, p.macs.length = p.ips.length ∧
      ∀ d' ∈ p.modified, ∃ d ∈ all, SameLabels d d' ∧ 1 < d.body.spec.ip.length ∧
        1 < d.body.spec.mac.length ∧ d'.body.spec.ip <+: d.body.spec.ip ∧
        d'.body.spec.mac.length + d.body.spec.ip.length =
          d'.body.spec.ip.length + d.body.spec.mac.length := by
  unfold planAddition
  refine Returns.ite (fun _ => ?_) fun _ => Returns.pure fun p hp => by simp at hp
  refine Returns.bind (P := fun st => Moved all st ∧ Drawn (donors all) all st)
    (fun st hst => ⟨stealLoop_moved _ _ _ (.start all) st hst, stealLoop_drawn _ _ (.start _ all) st hst⟩)
    fun st hst => Returns.bind length_mapM fun macs hmacs => Returns.pure fun p hp => ?_
  obtain rfl := Option.mem_some_iff.1 hp
  refine ⟨hmacs, fun d' hd' => ?_⟩
  obtain ⟨i, hi, hid'⟩ := List.mem_filterMap.1 hd'
  obtain ⟨hlt', rfl⟩ := List.getElem?_eq_some_iff.1 hid'
  have hlt : i < all.length := hst.1.changed.same.length_eq ▸ hlt'
  have hid := List.getElem?_eq_getElem hlt
  obtain ⟨hip, hmac⟩ := lt_of_mem_donors (hst.2.modified i hi) hid
  exact ⟨all[i], List.getElem_mem hlt, (List.forall₂_iff_get.1 hst.1.changed.same).2 i hlt hlt', hip,
    hmac, hst.2.initial i _ _ hid hid', hst.2.balanced i _ _ hid hid'⟩

/-- Every droplet has a version in the plan. -/
theorem Planned.version {all items modified : List Item} (h : Planned all items modified) {d : Item}
    (hd : d ∈ all) : ∃ e ∈ items, SameLabels d e ∧ (e ∈ modified ∨ e = d) := by
  obtain ⟨i, hi, rfl⟩ := List.getElem_of_mem hd
  have hi' : i < items.length := h.same.length_eq ▸ hi
  exact ⟨items[i], List.getElem_mem hi', (List.forall₂_iff_get.1 h.same).2 i hi hi',
    h.rest i _ _ (List.getElem?_eq_getElem hi) (List.getElem?_eq_getElem hi')⟩

theorem Planned.original {all items modified : List Item} (h : Planned all items modified) {e : Item}
    (he : e ∈ items) : ∃ d ∈ all, SameLabels d e ∧ (e ∈ modified ∨ e = d) := by
  obtain ⟨i, hi, rfl⟩ := List.getElem_of_mem he
  have hi' : i < all.length := h.same.length_eq ▸ hi
  exact ⟨all[i], List.getElem_mem hi', (List.forall₂_iff_get.1 h.same).2 i hi' hi,
    h.rest i _ _ (List.getElem?_eq_getElem hi') (List.getElem?_eq_getElem hi)⟩

/-- An address that one droplet holds, counted in all of them. -/
theorem count_poolIps_of_mem {l : List Item} {d : Item} (hd : d ∈ l) (a : Text) :
    (poolIps l).count a = d.body.spec.ip.count a + (poolIps (l.erase d)).count a := by
  rw [(poolIps_perm (List.perm_cons_erase hd)).count_eq, poolIps, List.flatMap_cons,
    List.count_append]
  rfl

/-- **Where an address goes that one droplet has**: it stays there, or the droplet is changed. -/
theorem planAddition_taken {all : List Item} {p : Plan}
    (hplan : planAddition getMac all = .ok (some p)) (hn : (all.map fun d => d.name).Nodup) {d : Item}
    {a : Text} (hd : d ∈ all) (had : a ∈ d.body.spec.ip)
    (honly : ∀ e ∈ all, a ∈ e.body.spec.ip → e = d) :
    (a ∉ p.ips → ∀ d' ∈ p.modified, d'.name = d.name → a ∈ d'.body.spec.ip) ∧
      (a ∈ p.ips → ∃ d' ∈ p.modified, d'.name = d.name) := by
  obtain ⟨items, hp, hpool⟩ := planAddition_planned all _ hplan p rfl
  obtain ⟨-, hdrawn⟩ := planAddition_drawn all _ hplan p rfl
  have hnames : (items.map fun d => d.name).Nodup := (map_name_eq hp.same).symm ▸ hn
  have hcount := hpool.count_eq a
  rw [List.count_append] at hcount
  constructor
  · intro hnot d' hd' hd'n
    rw [List.count_eq_zero.2 hnot] at hcount
    have hmem : a ∈ poolIps items := by
      refine List.count_pos_iff.1 ?_
      have := List.count_pos_iff.2 (mem_poolIps.2 ⟨d, hd, had⟩)
      omega
    obtain ⟨e, he, hae⟩ := mem_poolIps.1 hmem
    have hed : e.name = d.name := by
      obtain ⟨d₀, hd₀, hsame, hmod | rfl⟩ := hp.original he
      · obtain ⟨d₁, hd₁, hsame₁, -, -, hpre, -⟩ := hdrawn e hmod
        rw [hsame₁.name_eq, honly d₁ hd₁ (hpre.subset hae)]
      · rw [honly _ hd₀ hae]
    obtain rfl := List.inj_on_of_nodup_map hnames he (hp.mem d' hd') (hed.trans hd'n.symm)
    exact hae
  · intro hin
    by_contra hno
    push Not at hno
    obtain ⟨e, he, hsame, hmod | rfl⟩ := hp.version hd
    · exact hno e hmod hsame.name_eq
    · -- the droplet has not changed, so it still has all copies of the address
      have hrest : (poolIps (all.erase e)).count a = 0 := by
        refine List.count_eq_zero.2 fun hc => ?_
        obtain ⟨e', he', hae'⟩ := mem_poolIps.1 hc
        obtain rfl := honly e' (List.mem_of_mem_erase he') hae'
        exact (List.Nodup.of_map _ hn).not_mem_erase he'
      have h1 := count_poolIps_of_mem hd a
      have h2 := count_poolIps_of_mem he a
      have h3 := List.count_pos_iff.2 hin
      omega

/-- **The plan of an addition keeps the pool.** -/
theorem planAddition_spec {all : List Item} (ht : Tidy getMac all) :
    planAddition getMac all = .ok none ∨
    ∃ p items, planAddition getMac all = .ok (some p) ∧ Planned all items p.modified ∧
      (poolIps items ++ p.ips).Perm (poolIps all) ∧ p.ips ≠ [] ∧
      (∀ d ∈ items, d.body.spec.ip ≠ [] ∧ Paired getMac d) ∧ p.ips.map getMac = p.macs.map .ok := by
  unfold planAddition
  by_cases hn : newDropletGets all > 0
  swap
  · rw [if_neg hn]
    exact .inl rfl
  rw [if_pos hn]
  right
  obtain ⟨st, hst, hinv, -, hlt⟩ := stealLoop_spec ht (donors all) (newDropletGets all)
    (newDropletGets all) (StealInv.start ht)
  obtain ⟨i, hi, hic⟩ := exists_donor ht hn
  have hpos := hlt hn hn i hi hic
  obtain ⟨ms, hms, hmac⟩ := mapM_ok (f := getMac) (l := st.ips) fun a ha =>
    ht.getMac_ok (hinv.pool.mem_iff.1 (List.mem_append_right _ ha))
  refine ⟨⟨st.ips, ms, pickItems st.items st.modified⟩, st.items, ?_, hinv.changed.planned, hinv.pool,
    ?_, fun d hd => ⟨hinv.nonempty d hd, hinv.paired d hd⟩, hmac⟩
  · rw [hst]
    change (st.ips.mapM getMac >>= _) = _
    rw [hms]
    rfl
  · intro hc
    change st.ips = [] at hc
    rw [hc] at hpos
    exact absurd hpos (Nat.lt_irrefl 0)

/-! ## The plan of a removal -/

/-- **Invariant of the hand-back.** -/
structure HandInv (getMac : Text → Except PyError Text) (all : List Item) (given : List Text)
    (st : HandBack) : Prop where
  changed : Changed all st.items st.modified
  pool : (poolIps st.items).Perm (poolIps all ++ given)
  nonempty : ∀ d ∈ st.items, d.body.spec.ip ≠ []
  paired : ∀ d ∈ st.items, Paired getMac d

section HandBack

variable {all : List Item} {given : List Text} {st : HandBack}

theorem HandInv.length_eq (h : HandInv getMac all given st) : st.items.length = all.length :=
  h.changed.same.length_eq.symm

theorem giveTo_eq {index : ℕ} {ip mac : Text} (hm : getMac ip = .ok mac) (hlen : st.items.length ≠ 0)
    {d : Item} (hd : st.items[index % st.items.length]? = some d) :
    giveTo getMac st index ip = .ok {
      items := st.items.set (index % st.items.length)
        (d.withAddrs (d.body.spec.ip ++ [ip]) (d.body.spec.mac ++ [mac]))
      modified := if index % st.items.length ∈ st.modified then st.modified
        else st.modified ++ [index % st.items.length] } := by
  rw [giveTo, hm]
  change (if st.items.length = 0 then _ else _) = _
  rw [if_neg hlen, hd]
  rfl

/-- **One address is handed back.** -/
theorem giveTo_spec (h : HandInv getMac all given st) (hne : all ≠ []) (index : ℕ) {ip mac : Text}
    (hm : getMac ip = .ok mac) :
    ∃ st', giveTo getMac st index ip = .ok st' ∧ HandInv getMac all (given ++ [ip]) st' := by
  have hlen : 0 < st.items.length := h.length_eq ▸ List.length_pos_of_ne_nil hne
  have hi : index % st.items.length < st.items.length := Nat.mod_lt _ hlen
  have hd : st.items[index % st.items.length]? = some st.items[index % st.items.length] :=
    List.getElem?_eq_getElem hi
  generalize st.items[index % st.items.length] = d at hd
  have hmem : d ∈ st.items := List.mem_of_getElem? hd
  refine ⟨⟨_, _⟩, ?_, ⟨h.changed.set hd (d.body.spec.ip ++ [ip]) (d.body.spec.mac ++ [mac]), ?_, ?_, ?_⟩⟩
  · exact giveTo_eq hm hlen.ne' hd
  · refine List.perm_iff_count.2 fun a => ?_
    have h1 := count_poolIps_set a (d.withAddrs (d.body.spec.ip ++ [ip]) (d.body.spec.mac ++ [mac])) hd
    have h2 := List.perm_iff_count.1 h.pool a
    change _ = _ + (d.body.spec.ip ++ [ip]).count a at h1
    dsimp only
    rw [List.count_append] at h1 h2
    rw [List.count_append, List.count_append]
    omega
  · intro e he
    rcases List.mem_or_eq_of_mem_set he with he | rfl
    · exact h.nonempty e he
    · exact List.append_ne_nil_of_right_ne_nil _ (by simp)
  · intro e he
    rcases List.mem_or_eq_of_mem_set he with he | rfl
    · exact h.paired e he
    · change (d.body.spec.ip ++ [ip]).map getMac = (d.body.spec.mac ++ [mac]).map Except.ok
      rw [List.map_append, List.map_append, List.map_singleton, List.map_singleton, hm]
      exact congrArg (· ++ _) (h.paired d hmem)

theorem handBack_spec (h : HandInv getMac all given st) (hne : all ≠ []) (ips : List Text)
    (hips : ∀ a ∈ ips, ∃ m, getMac a = .ok m) (index : ℕ) :
    ∃ st', handBack getMac index ips st = .ok st' ∧ HandInv getMac all (given ++ ips) st' := by
  induction ips generalizing given st index with
  | nil => exact ⟨st, rfl, by rwa [List.append_nil]⟩
  | cons ip ips ih =>
    obtain ⟨m, hm⟩ := hips ip (List.mem_cons_self ..)
    obtain ⟨st1, h1, hi1⟩ := giveTo_spec h hne index hm
    obtain ⟨st2, h2, hi2⟩ := ih hi1 (fun a ha => hips a (List.mem_cons_of_mem _ ha)) (index + 1)
    refine ⟨st2, ?_, ?_⟩
    · rw [handBack, h1]
      exact h2
    · rwa [List.append_assoc] at hi2

variable (getMac) in
/-- Nobody is left to take the addresses. -/
theorem handBack_nobody {ips : List Text} (hne : ips ≠ []) (index : ℕ) (modified : List ℕ) :
    ∃ e, handBack getMac index ips ⟨[], modified⟩ = .error e := by
  cases ips with
  | nil => exact absurd rfl hne
  | cons ip ips =>
    rw [handBack, giveTo]
    cases getMac ip with
    | error e => exact ⟨e, rfl⟩
    | ok m => exact ⟨_, rfl⟩

end HandBack

/-- **The plan of a removal keeps the pool.** -/
theorem planRemoval_spec {all : List Item} {ips : List Text} (hne : all ≠ [])
    (hnonempty : ∀ d ∈ all, d.body.spec.ip ≠ []) (hpaired : ∀ d ∈ all, Paired getMac d)
    (hips : ∀ a ∈ ips, ∃ m, getMac a = .ok m) :
    ∃ modified items, planRemoval getMac ips all = .ok modified ∧
      Planned (ascending all) items modified ∧ (poolIps items).Perm (poolIps all ++ ips) ∧
      ∀ d ∈ items, d.body.spec.ip ≠ [] ∧ Paired getMac d := by
  have hp : (ascending all).Perm all := ascending_perm all
  have hstart : HandInv getMac (ascending all) [] ⟨ascending all, []⟩ :=
    ⟨.refl _, by rw [List.append_nil], fun d hd => hnonempty d (hp.mem_iff.1 hd),
      fun d hd => hpaired d (hp.mem_iff.1 hd)⟩
  have hne' : ascending all ≠ [] := fun hc => hne (by rw [hc] at hp; exact hp.nil_eq.symm)
  obtain ⟨st, hst, hinv⟩ := handBack_spec hstart hne' ips hips 0
  refine ⟨pickItems st.items st.modified, st.items, ?_, hinv.changed.planned,
    hinv.pool.trans ((poolIps_perm hp).append_right _),
    fun d hd => ⟨hinv.nonempty d hd, hinv.paired d hd⟩⟩
  rw [planRemoval, hst]
  rfl

/-- Addresses are handed back only where there is somebody to take them. -/
theorem planRemoval_somebody {ips : List Text} {all modified : List Item} (hne : ips ≠ [])
    (h : planRemoval getMac ips all = .ok modified) : all ≠ [] := by
  rintro rfl
  obtain ⟨e, he⟩ := handBack_nobody getMac hne 0 []
  have hz : ascending [] = [] := rfl
  rw [planRemoval, hz, he] at h
  cases h

/-- **What a removal plans for a tidy pool**: the other droplets take the addresses of the one that goes. -/
theorem Tidy.removed {all modified : List Item} {d : Item} (ht : Tidy getMac all) (hd : d ∈ all)
    (hplan : planRemoval getMac d.body.spec.ip (all.erase d) = .ok modified) :
    ∃ items, Planned (ascending (all.erase d)) items modified ∧
      (poolIps items).Perm (poolIps (all.erase d) ++ d.body.spec.ip) ∧
      ∀ e ∈ items, e.body.spec.ip ≠ [] ∧ Paired getMac e := by
  have hmem : ∀ e ∈ all.erase d, e ∈ all := fun e he => List.mem_of_mem_erase he
  obtain ⟨modified', items, hplan', h⟩ := planRemoval_spec (planRemoval_somebody (ht.nonempty d hd) hplan)
    (fun e he => ht.nonempty e (hmem e he)) (fun e he => ht.paired e (hmem e he))
    fun a ha => ht.getMac_ok (mem_poolIps.2 ⟨d, hd, ha⟩)
  obtain rfl : modified' = modified := Except.ok.inj (hplan'.symm.trans hplan)
  exact ⟨items, h⟩

/-- Addresses are handed back if there is somebody to take them and each has a MAC address. -/
theorem handBack_ok {ips : List Text} (hips : ∀ a ∈ ips, ∃ m, getMac a = .ok m) (index : ℕ)
    {st : HandBack} (hne : st.items ≠ []) : ∃ st', handBack getMac index ips st = .ok st' := by
  induction ips generalizing index st with
  | nil => exact ⟨st, rfl⟩
  | cons ip ips ih =>
    obtain ⟨mac, hm⟩ := hips ip (List.mem_cons_self ..)
    have hlen : 0 < st.items.length := List.length_pos_of_ne_nil hne
    have hd := List.getElem?_eq_getElem (Nat.mod_lt index hlen)
    rw [handBack, giveTo_eq hm hlen.ne' hd]
    refine ih (fun a ha => hips a (List.mem_cons_of_mem _ ha)) (index + 1) fun hc => hne ?_
    exact (List.set_eq_nil_iff _ _).1 hc

/-- **Droplets only gain addresses.** -/
def Grown (all : List Item) (st : HandBack) : Prop :=
  ∀ (i : ℕ) d d', all[i]? = some d → st.items[i]? = some d' → d.body.spec.ip <+: d'.body.spec.ip

theorem giveTo_grown {all : List Item} {st : HandBack} (h : Grown all st) (index : ℕ) (ip : Text) :
    Returns (giveTo getMac st index ip) (Grown all) := by
  unfold giveTo
  refine (Returns.trivial _).bind fun mac _ => Returns.ite (fun _ => Returns.error) fun _ => ?_
  dsimp only
  cases hd : st.items[index % st.items.length]? with
  | none => exact Returns.pure h
  | some e =>
    obtain ⟨hlt, -⟩ := List.getElem?_eq_some_iff.1 hd
    refine Returns.pure fun i d d' hi hi' => ?_
    by_cases hij : index % st.items.length = i
    · subst hij
      dsimp only at hi'
      rw [List.getElem?_set_self hlt] at hi'
      obtain rfl := Option.some.inj hi'
      exact (h _ d e hi hd).trans (List.prefix_append _ _)
    · dsimp only at hi'
      rw [List.getElem?_set_ne hij] at hi'
      exact h i d d' hi hi'

theorem handBack_grown {all : List Item} (ips : List Text) (index : ℕ) {st : HandBack}
    (h : Grown all st) : Returns (handBack getMac index ips st) (Grown all) := by
  induction ips generalizing st index with
  | nil => exact Returns.pure h
  | cons ip ips ih => exact Returns.bind (giveTo_grown h index ip) fun _ h' => ih (index + 1) h'

/-- The droplets that a plan changes have their old addresses in front. -/
theorem planRemoval_grown (ips : List Text) (all : List Item) :
    Returns (planRemoval getMac ips all) fun modified => ∀ d' ∈ modified, ∃ d ∈ ascending all,
      SameLabels d d' ∧ d.body.spec.ip <+: d'.body.spec.ip := by
  have hstart : Grown (ascending all) ⟨ascending all, []⟩ := by
    intro i d d' hi hi'
    obtain rfl := Option.some.inj (hi.symm.trans hi')
    exact List.prefix_rfl
  refine Returns.bind (P := fun st => Changed (ascending all) st.items st.modified ∧
    Grown (ascending all) st) (fun st hst => ⟨handBack_changed _ _ (.refl _) st hst,
      handBack_grown _ _ hstart st hst⟩) fun st hst => Returns.pure fun d' hd' => ?_
  obtain ⟨i, -, hid'⟩ := List.mem_filterMap.1 hd'
  obtain ⟨hlt', rfl⟩ := List.getElem?_eq_some_iff.1 hid'
  have hlt : i < (ascending all).length := hst.1.same.length_eq ▸ hlt'
  exact ⟨(ascending all)[i], List.getElem_mem hlt,
    (List.forall₂_iff_get.1 hst.1.same).2 i hlt hlt',
    hst.2 i _ _ (List.getElem?_eq_getElem hlt) hid'⟩

theorem handBack_getMac {ips : List Text} {index : ℕ} {st st' : HandBack}
    (h : handBack getMac index ips st = .ok st') : ∀ a ∈ ips, ∃ m, getMac a = .ok m := by
  induction ips generalizing index st with
  | nil => exact fun a ha => absurd ha List.not_mem_nil
  | cons ip ips ih =>
    obtain ⟨st1, h1, h2⟩ := bind_eq_ok.1 h
    obtain ⟨m, hm, -⟩ := bind_eq_ok.1 h1
    intro a ha
    rcases List.mem_cons.1 ha with rfl | ha
    · exact ⟨m, hm⟩
    · exact ih h2 a ha

/-- **When a removal can be planned.** -/
theorem planRemoval_ok_iff {ips : List Text} {items : List Item} :
    (∃ modified, planRemoval getMac ips items = .ok modified) ↔
      (ips = [] ∨ items ≠ []) ∧ ∀ a ∈ ips, ∃ m, getMac a = .ok m := by
  constructor
  · rintro ⟨modified, h⟩
    refine ⟨or_iff_not_imp_left.2 fun hne hnil => ?_, ?_⟩
    · exact planRemoval_somebody hne h hnil
    · obtain ⟨st, hst, -⟩ := bind_eq_ok.1 h
      exact handBack_getMac hst
  · rintro ⟨hsome, hips⟩
    have hok : ∃ st, handBack getMac 0 ips ⟨ascending items, []⟩ = .ok st := by
      rcases hsome with rfl | hne
      · exact ⟨_, rfl⟩
      · refine handBack_ok hips 0 fun hc => hne ?_
        exact ((ascending_perm items).symm.trans (List.Perm.of_eq hc)).eq_nil
    obtain ⟨st, hst⟩ := hok
    refine ⟨pickItems st.items st.modified, ?_⟩
    rw [planRemoval, hst]
    rfl

end ArionDp
