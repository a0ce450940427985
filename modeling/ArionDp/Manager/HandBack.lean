import ArionDp.Lib.RoundRobin
import ArionDp.Manager.Requests

/-!
# The balance after a removal

The addresses of a removed droplet are dealt to the other droplets in turn, to those with fewer addresses
first.

* `Appended`, **`handBack_appended`**: what the loop appends to each droplet;
* `Gains`, `HandedOut`: the shares of the droplets;
* **`removal_balanced`**: the shares are even, and so are the droplets if they were before.
-/

namespace ArionDp

open ApiServer Py RoundRobin

/-- The numbers of addresses of droplets. -/
def ipCounts (l : List Item) : List ℕ := l.map fun d => d.body.spec.ip.length

theorem ipCounts_perm {l l' : List Item} (h : l.Perm l') : (ipCounts l).Perm (ipCounts l') := h.map _

theorem ipCounts_eq_pairs (l : List Item) : ipCounts l = (pairs l).map fun e => e.2.spec.ip.length := by
  rw [pairs, List.map_map]
  rfl

theorem length_ipCounts (l : List Item) : (ipCounts l).length = l.length := List.length_map _

section Loop

variable {getMac : Text → Except PyError Text}

/-! ## The loop -/

/-- Addresses are appended to a droplet, and their MAC addresses. -/
def Appended (getMac : Text → Except PyError Text) (d : Item) (ips : List Text) (d' : Item) : Prop :=
  ∃ macs, ips.map getMac = macs.map .ok ∧
    d' = d.withAddrs (d.body.spec.ip ++ ips) (d.body.spec.mac ++ macs)

theorem Appended.refl (d : Item) : Appended getMac d [] d := by
  refine ⟨[], rfl, ?_⟩
  rw [List.append_nil, List.append_nil]
  rfl

theorem Appended.cons {d d' : Item} {ip mac : Text} {ips : List Text} (hm : getMac ip = .ok mac)
    (h : Appended getMac (d.withAddrs (d.body.spec.ip ++ [ip]) (d.body.spec.mac ++ [mac])) ips d') :
    Appended getMac d (ip :: ips) d' := by
  obtain ⟨macs, hmacs, rfl⟩ := h
  refine ⟨mac :: macs, by rw [List.map_cons, List.map_cons, hm, hmacs], ?_⟩
  change d.withAddrs ((d.body.spec.ip ++ [ip]) ++ ips) ((d.body.spec.mac ++ [mac]) ++ macs) = _
  rw [List.append_assoc, List.append_assoc]
  rfl

/-- **The loop deals the addresses** to the droplets, which take turns. -/
theorem handBack_appended (ips : List Text) (index : ℕ) {st st' : HandBack}
    (h : handBack getMac index ips st = .ok st') : st'.items.length = st.items.length ∧
      ∀ (r : ℕ) d d', st.items[r]? = some d → st'.items[r]? = some d' →
        Appended getMac d (dealt st.items.length r index ips) d' := by
  induction ips generalizing index st with
  | nil =>
    obtain rfl := Except.ok.inj h
    refine ⟨rfl, fun r d d' hd hd' => ?_⟩
    obtain rfl := Option.some.inj (hd.symm.trans hd')
    exact .refl d
  | cons ip ips ih =>
    obtain ⟨st1, h1, h2⟩ := bind_eq_ok.1 h
    obtain ⟨mac, hm, hrest⟩ := bind_eq_ok.1 h1
    have hlen : st.items.length ≠ 0 := by
      intro hz
      rw [if_pos hz] at hrest
      cases hrest
    have hi := Nat.mod_lt index (Nat.pos_of_ne_zero hlen)
    have hgive := giveTo_eq hm hlen (List.getElem?_eq_getElem hi)
    obtain rfl := Except.ok.inj (hgive.symm.trans h1)
    obtain ⟨hlen', hrun⟩ := ih (index + 1) h2
    dsimp only at hlen' hrun
    rw [List.length_set] at hlen' hrun
    refine ⟨hlen', fun r d d' hd hd' => ?_⟩
    rw [dealt]
    by_cases hr : index % st.items.length = r
    · subst hr
      rw [if_pos rfl]
      obtain rfl := Option.some.inj ((List.getElem?_eq_getElem hi).symm.trans hd)
      exact .cons hm (hrun _ _ d' (List.getElem?_set_self hi) hd')
    · rw [if_neg hr]
      exact hrun r d d' ((List.getElem?_set_ne hr).trans hd) hd'

/-! ## Shares -/

/-- **A droplet gains addresses**, each with its MAC address at the same index. -/
structure Gains (getMac : Text → Except PyError Text) (d : Item) (ips : List Text) (d' : Item) : Prop where
  same : SameLabels d d'
  ip : d'.body.spec.ip = d.body.spec.ip ++ ips
  mac : d.body.spec.mac <+: d'.body.spec.mac
  length : d'.body.spec.mac.length = d'.body.spec.ip.length
  paired : ∀ (i : ℕ) ip mac, d.body.spec.ip.length ≤ i → d'.body.spec.ip[i]? = some ip →
    d'.body.spec.mac[i]? = some mac → getMac ip = .ok mac

theorem Appended.gains {d d' : Item} {ips : List Text} (h : Appended getMac d ips d')
    (hlen : d.body.spec.mac.length = d.body.spec.ip.length) : Gains getMac d ips d' := by
  obtain ⟨macs, hmacs, rfl⟩ := h
  have hl := congrArg List.length hmacs
  rw [List.length_map, List.length_map] at hl
  refine ⟨⟨_, _, rfl⟩, rfl, List.prefix_append _ _, ?_, fun i ip mac hi hip hmac => ?_⟩
  · change (d.body.spec.mac ++ macs).length = (d.body.spec.ip ++ ips).length
    rw [List.length_append, List.length_append, hlen, hl]
  · change (d.body.spec.ip ++ ips)[i]? = some ip at hip
    change (d.body.spec.mac ++ macs)[i]? = some mac at hmac
    rw [List.getElem?_append_right hi] at hip
    rw [List.getElem?_append_right (hlen.symm ▸ hi), hlen] at hmac
    have hat := congrArg (fun l => l[i - d.body.spec.ip.length]?) hmacs
    rw [List.getElem?_map, List.getElem?_map, hip, hmac] at hat
    exact Option.some.inj hat

/-- **The droplets after a removal**: they gain the lists `given`, which hold every address once, and as many
addresses as the others, rounded down or up. -/
structure HandedOut (getMac : Text → Except PyError Text) (ips : List Text) (before after : List Item)
    (given : List (List Text)) : Prop where
  lengths : given.length = before.length
  gains : List.Forall₂ (fun e d' => Gains getMac e.1 e.2 d') (before.zip given) after
  once : given.flatten.Perm ips
  shares : ∀ g ∈ given, g.length = ips.length / before.length ∨
    g.length = (ips.length + before.length - 1) / before.length

/-- The lists that the droplets gain. -/
def handedLists (n : ℕ) (ips : List Text) : List (List Text) :=
  (List.range n).map fun r => dealt n r 0 ips

theorem length_dealt_start {n r : ℕ} (hr : r < n) (ips : List Text) :
    (dealt n r 0 ips).length = turns n ips.length r := by
  have h := length_dealt hr 0 ips
  rwa [turns, Nat.zero_div, Nat.zero_mod, if_neg (Nat.not_lt_zero r), Nat.zero_add, Nat.zero_add] at h

theorem handBack_handedOut {ips : List Text} {before : List Item} (hne : before ≠ [])
    (hlen : ∀ d ∈ before, d.body.spec.mac.length = d.body.spec.ip.length) {st : HandBack}
    (h : handBack getMac 0 ips ⟨before, []⟩ = .ok st) :
    HandedOut getMac ips before st.items (handedLists before.length ips) := by
  obtain ⟨hl, hgot⟩ := handBack_appended ips 0 h
  dsimp only at hl hgot
  have hpos : 0 < before.length := List.length_pos_of_ne_nil hne
  have hgiven : (handedLists before.length ips).length = before.length := by
    rw [handedLists, List.length_map, List.length_range]
  refine ⟨hgiven, ?_, flatMap_dealt_perm hpos 0 ips, fun g hg => ?_⟩
  · refine List.forall₂_iff_get.2 ⟨?_, fun i hi hi' => ?_⟩
    · rw [List.length_zip, hgiven, hl, min_self]
    · have hib : i < before.length := hl ▸ hi'
      have hget : (before.zip (handedLists before.length ips)).get ⟨i, hi⟩ =
          (before[i], dealt before.length i 0 ips) := by
        simp [handedLists]
      rw [hget]
      exact (hgot i _ _ (List.getElem?_eq_getElem hib) (List.getElem?_eq_getElem hi')).gains
        (hlen _ (List.getElem_mem hib))
  · obtain ⟨r, hr, rfl⟩ := List.mem_map.1 hg
    rw [length_dealt_start (List.mem_range.1 hr)]
    exact turns_eq hpos r

/-- What the loop does to the numbers of addresses. -/
theorem ipCounts_handBack {ips : List Text} {before : List Item} {st : HandBack}
    (h : handBack getMac 0 ips ⟨before, []⟩ = .ok st) :
    ipCounts st.items = (ipCounts before).mapIdx fun r n => n + turns (ipCounts before).length ips.length r := by
  obtain ⟨hl, hgot⟩ := handBack_appended ips 0 h
  dsimp only at hl hgot
  refine List.ext_getElem ?_ fun i hi hi' => ?_
  · rw [List.length_mapIdx, length_ipCounts, length_ipCounts, hl]
  · have his : i < st.items.length := by rwa [length_ipCounts] at hi
    have hib : i < before.length := hl ▸ his
    obtain ⟨macs, -, heq⟩ :=
      hgot i _ _ (List.getElem?_eq_getElem hib) (List.getElem?_eq_getElem his)
    have hip := congrArg (fun d : Item => d.body.spec.ip.length) heq
    change st.items[i].body.spec.ip.length = (before[i].body.spec.ip ++ _).length at hip
    rw [List.length_append, length_dealt_start hib, ← length_ipCounts before] at hip
    rw [List.getElem_mapIdx]
    simpa only [ipCounts, List.getElem_map] using hip

theorem ascending_sorted (items : List Item) : (ipCounts (ascending items)).Pairwise (· ≤ ·) := by
  have h := List.pairwise_insertionSort
    (fun d e : Item => d.body.spec.ip.length ≤ e.body.spec.ip.length) items
  exact List.pairwise_map.2 h

/-- **The plan of a removal** hands the addresses out evenly. -/
theorem planRemoval_handedOut (ips : List Text) {items : List Item} (hne : items ≠ [])
    (hlen : ∀ d ∈ items, d.body.spec.mac.length = d.body.spec.ip.length) :
    Returns (planRemoval getMac ips items) fun modified => ∃ after given,
      Planned (ascending items) after modified ∧ HandedOut getMac ips (ascending items) after given ∧
        ∀ s, Within s (ipCounts items) → Within (max 1 s) (ipCounts after) := by
  intro modified h
  obtain ⟨st, hst, hmod⟩ := bind_eq_ok.1 h
  obtain rfl := Except.ok.inj hmod
  have hp := ascending_perm items
  have hne' : ascending items ≠ [] := fun hc => hne (hp.symm.trans (.of_eq hc)).eq_nil
  refine ⟨st.items, _, (handBack_changed ips 0 (.refl (ascending items)) st hst).planned,
    handBack_handedOut hne' (fun d hd => hlen d (hp.mem_iff.1 hd)) hst, fun s hs => ?_⟩
  rw [ipCounts_handBack hst]
  exact within_add_turns (ascending_sorted items) ips.length (hs.perm (ipCounts_perm hp).symm)

end Loop

/-- **A removal never worsens the balance.** Addresses are handed back exactly if they all have MAC addresses.
Then every remaining droplet gains its share of them, each address is handed out once, with its MAC address,
and the numbers of addresses differ by no more than before, or by one. -/
theorem removal_balanced (env : Env) (ips : List Text) (items : List Item) (hne : items ≠ [])
    (hlen : ∀ d ∈ items, d.body.spec.mac.length = d.body.spec.ip.length) :
    ((∃ modified, planRemoval (getMacFromIp env.macPrivate) ips items = .ok modified) ↔
      ∀ ip ∈ ips, ∃ mac, getMacFromIp env.macPrivate ip = .ok mac) ∧
    ∀ modified, planRemoval (getMacFromIp env.macPrivate) ips items = .ok modified →
      ∃ after given, Planned (ascending items) after modified ∧
        HandedOut (getMacFromIp env.macPrivate) ips (ascending items) after given ∧
        ∀ s, Within s (ipCounts items) → Within (max 1 s) (ipCounts after) := by
  exact ⟨planRemoval_ok_iff.trans (and_iff_right (.inr hne)), planRemoval_handedOut ips hne hlen⟩

/-- The addresses of a droplet that leaves. -/
def threeIps : List Text := ["10.0.0.5".toList, "10.0.0.6".toList, "10.0.0.7".toList]

/-- Three addresses for two droplets with two each. -/
theorem removal_balanced_sample :
    let items := (runNodeOps .default twoJoin (.start fourZgc (.int 8300))).kube.select
      (selectsTenant "z".toList)
    ∃ modified after given,
      planRemoval (getMacFromIp Env.default.macPrivate) threeIps items = .ok modified ∧
      HandedOut (getMacFromIp Env.default.macPrivate) threeIps (ascending items) after given ∧
      Within 1 (ipCounts after) := by
  intro items
  have hmacs : ∀ ip ∈ threeIps, (getMacFromIp Env.default.macPrivate ip).isOk = true := by decide +kernel
  obtain ⟨hiff, hplan⟩ :=
    removal_balanced .default threeIps items (by decide +kernel) (by decide +kernel)
  obtain ⟨modified, hmodified⟩ := hiff.2 fun ip hip => exists_ok_of_isOk (hmacs ip hip)
  obtain ⟨after, given, -, hgiven, hwithin⟩ := hplan modified hmodified
  exact ⟨modified, after, given, hmodified, hgiven, hwithin 0 (by decide +kernel)⟩

/-! ## Removals -/

section Removal

variable {env : Env} {w : World} {node : NodeRow} {d : Item}

/-- **What a removal leaves in Kubernetes**: the other droplets of the ZGC, after the addresses of the removed
one have been handed out to them. -/
theorem singleNodeDelete_handedOut (hk : ∀ name, env.kubeFails name = false)
    (hnode : w.nodes.find? (fun r => r.nodeId = node.nodeId) = some node)
    (hnames : ∀ o ∈ w.kube.objs, ∃ n, o.name = tenantName env n)
    (hd : d ∈ w.kube.select (selectsTenant node.zgcId)) (hdn : d.name = tenantName env node.name)
    (hothers : ∃ e ∈ w.kube.select (selectsTenant node.zgcId), e.name ≠ d.name)
    (hlen : ∀ e ∈ w.kube.select (selectsTenant node.zgcId),
      e.body.spec.mac.length = e.body.spec.ip.length)
    (hmacs : ∀ ip ∈ d.body.spec.ip, ∃ mac, getMacFromIp env.macPrivate ip = .ok mac) :
    ∃ before after given, before.Perm ((w.kube.select (selectsTenant node.zgcId)).erase d) ∧
      HandedOut (getMacFromIp env.macPrivate) d.body.spec.ip before after given ∧
      (∀ s, Within s (ipCounts before) → Within (max 1 s) (ipCounts after)) ∧
      (pairs after).Perm (pairs
        ((singleNodeDelete env node.nodeId w).2.kube.select (selectsTenant node.zgcId))) := by
  obtain ⟨all, hall, hrun⟩ := singleNodeDelete_run env hnode
  have hda := hall.mem_iff.2 hd
  have hne : all.erase d ≠ [] := fun hnil => by
    obtain ⟨e, he, hen⟩ := hothers
    exact hen ((erase_eq_nil_iff hall hda).1 hnil e he)
  have hlen' : ∀ e ∈ all.erase d, e.body.spec.mac.length = e.body.spec.ip.length := fun e he =>
    hlen e (hall.mem_iff.1 (List.mem_of_mem_erase he))
  obtain ⟨modified, hplan⟩ := planRemoval_ok_iff.2 ⟨.inr hne, hmacs⟩
  obtain ⟨after, given, hp, hgiven, hwithin⟩ := planRemoval_handedOut _ hne hlen' modified hplan
  obtain ⟨k₁, hk₁, hobjs⟩ := delete_of_mem w.kube ⟨d, (mem_select.1 hd).1, hdn⟩
  rw [← hdn] at hobjs
  have hasc := (ascending_perm (all.erase d)).trans (erase_perm_select hall hda hobjs)
  have hmodified : ∀ e ∈ modified, e.body.spec.ip.length ≤ e.body.spec.mac.length := fun e he => by
    obtain ⟨i, hi, rfl⟩ := List.getElem_of_mem (hp.mem e he)
    have hz : i < ((ascending (all.erase d)).zip given).length := hgiven.gains.length_eq ▸ hi
    exact ((List.forall₂_iff_get.1 hgiven.gains).2 i hz hi).length.ge
  obtain ⟨w', hend, hkube, -⟩ := carryOutRemoval_run (hk _) hk₁ (fun o ho => by
    rw [hobjs] at ho
    exact hnames o (List.mem_of_mem_filter ho)) (hp.versions hasc) hmodified
  refine ⟨ascending (all.erase d), after, given, (ascending_perm _).trans (hall.erase d), hgiven,
    fun s hs => hwithin s (hs.perm (ipCounts_perm (ascending_perm _))), ?_⟩
  rw [hrun, find?_name hall hda hdn]
  dsimp only
  rw [hplan]
  dsimp only
  rw [hend]
  dsimp only
  rw [hkube, List.filter_eq_self.2 fun e _ => decide_eq_true (hk e.name)]
  exact hp.select_own hasc

end Removal

end ArionDp
