import ArionDp.Manager.World
import Mathlib.Data.List.Sort

/-!
# Moving gateway addresses between droplets

The list surgery of `nodes.py`: the round-robin loop that takes addresses from the droplets for a
new one, and the round-robin that hands the addresses of a removed droplet back. The lists that
Python shares between `all_droplets_in_zgc`, the sorted donors and `modified_droplets` are one list
here, and the other two hold positions in it.
-/

namespace ArionDp

/-- The `spec.ip` lists of droplets, together. -/
def poolIps (l : List Item) : List Text := l.flatMap fun d => d.body.spec.ip

/-- A droplet with other addresses. -/
def Item.withAddrs (d : Item) (ip mac : List Text) : Item :=
  { d with body := { d.body with spec := { d.body.spec with ip := ip, mac := mac } } }

section Surgery

variable (getMac : Text → Except PyError Text)

/-! ## Taking addresses -/

/-- The state of the loop: the droplets, `ip_for_new_droplet`, and `modified_droplets` in insertion
order. -/
structure Steal where
  items : List Item
  ips : List Text
  modified : List ℕ

/-- `mac_list` without the MAC address of a popped address: removed by value, or else popped. -/
def dropMac (mac : Text) (macs : List Text) : Except PyError (List Text) :=
  if mac ∈ macs then .ok (macs.erase mac)
  else if macs = [] then .error .indexError
  else .ok macs.dropLast

/-- The body of the `for` loop over the donors. -/
def stealFrom (st : Steal) (i : ℕ) : Except PyError Steal :=
  match st.items[i]? with
  | none => .ok st
  | some d =>
    if d.body.spec.ip.length > 1 then do
      let popped := d.body.spec.ip.getLastD []
      let mac ← getMac popped
      let macs ← dropMac mac d.body.spec.mac
      pure {
        items := st.items.set i (d.withAddrs d.body.spec.ip.dropLast macs)
        ips := st.ips ++ [popped]
        modified := if i ∈ st.modified then st.modified else st.modified ++ [i] }
    else .ok st

/-- The `while` loop; it needs no more rounds than addresses are wanted. -/
def stealLoop (donors : List ℕ) (need : ℕ) : ℕ → Steal → Except PyError Steal
  | 0, st => .ok st
  | fuel + 1, st =>
    if st.ips.length < need then do
      let st' ← donors.foldlM (stealFrom getMac) st
      if st'.ips.length = st.ips.length then pure st' else stealLoop donors need fuel st'
    else .ok st

/-- The number of addresses of the droplet at a position. -/
def ipCount (items : List Item) (i : ℕ) : ℕ :=
  match items[i]? with
  | some d => d.body.spec.ip.length
  | none => 0

/-- `droplet_that_can_give_ip_mac` -/
def canGive (items : List Item) : List ℕ :=
  (List.range items.length).filter fun i =>
    match items[i]? with
    | some d => d.body.spec.ip.length > 1 ∧ d.body.spec.mac.length > 1
    | none => false

/-- `droplet_that_can_give_ip_mac`, sorted in descending order -/
def donors (items : List Item) : List ℕ :=
  (canGive items).insertionSort fun i j => ipCount items j ≤ ipCount items i

/-- What a node addition does with the droplets it has listed. -/
structure Plan where
  ips : List Text
  macs : List Text
  modified : List Item

/-- `number_of_ip_new_droplet_gets` -/
def newDropletGets (items : List Item) : ℕ :=
  (items.map fun d => d.body.spec.ip.length).sum / (items.length + 1)

/-- The redistribution for a new droplet; `none` when there are not enough addresses. -/
def planAddition (items : List Item) : Except PyError (Option Plan) :=
  if newDropletGets items > 0 then do
    let st ← stealLoop getMac (donors items) (newDropletGets items) (newDropletGets items)
      ⟨items, [], []⟩
    let macs ← st.ips.mapM getMac
    pure (some ⟨st.ips, macs, st.modified.filterMap (st.items[·]?)⟩)
  else pure none

/-! ## Handing addresses back -/

/-- The state of the loop: the remaining droplets, and `modified_droplets` in insertion order. -/
structure HandBack where
  items : List Item
  modified : List ℕ

/-- The body of the loop over the addresses of a removed droplet. -/
def giveTo (st : HandBack) (index : ℕ) (ip : Text) : Except PyError HandBack := do
  let mac ← getMac ip
  if st.items.length = 0 then throw .zeroDivisionError
  let i := index % st.items.length
  match st.items[i]? with
  | none => pure st
  | some d => pure {
      items := st.items.set i (d.withAddrs (d.body.spec.ip ++ [ip]) (d.body.spec.mac ++ [mac]))
      modified := if i ∈ st.modified then st.modified else st.modified ++ [i] }

/-- The loop, from position `index` of the list on. -/
def handBack : ℕ → List Text → HandBack → Except PyError HandBack
  | _, [], st => .ok st
  | index, ip :: ips, st => do
    let st' ← giveTo getMac st index ip
    handBack (index + 1) ips st'

/-- The remaining droplets, sorted in ascending order. -/
def ascending (items : List Item) : List Item :=
  items.insertionSort fun d e => d.body.spec.ip.length ≤ e.body.spec.ip.length

/-- The redistribution for a removed droplet: the droplets it changes. -/
def planRemoval (ips : List Text) (items : List Item) : Except PyError (List Item) := do
  let st ← handBack getMac 0 ips ⟨ascending items, []⟩
  pure (st.modified.filterMap (st.items[·]?))

end Surgery

theorem donors_perm (items : List Item) : (donors items).Perm (canGive items) :=
  List.perm_insertionSort _ _

theorem ascending_perm (items : List Item) : (ascending items).Perm items :=
  List.perm_insertionSort _ _

/-- The donors are the droplets with two addresses. -/
theorem mem_donors_iff {all : List Item} (hlen : ∀ d ∈ all, d.body.spec.mac.length = d.body.spec.ip.length)
    {i : ℕ} (hi : i < all.length) : i ∈ donors all ↔ 1 < ipCount all i := by
  rw [(donors_perm all).mem_iff, canGive, List.mem_filter, and_iff_right (List.mem_range.2 hi), ipCount,
    List.getElem?_eq_getElem hi]
  dsimp only
  rw [decide_eq_true_iff, hlen _ (List.getElem_mem hi), and_self]

/-! ## Counting addresses -/

/-- Changing one droplet, address by address. -/
theorem count_poolIps_set (a : Text) {items : List Item} {i : ℕ} {d : Item} (d' : Item)
    (h : items[i]? = some d) :
    (poolIps (items.set i d')).count a + d.body.spec.ip.count a =
      (poolIps items).count a + d'.body.spec.ip.count a := by
  induction items generalizing i with
  | nil => simp at h
  | cons e items ih =>
    unfold poolIps at ih ⊢
    cases i with
    | zero =>
      obtain rfl : e = d := by simpa using h
      rw [List.set_cons_zero, List.flatMap_cons, List.flatMap_cons, List.count_append,
        List.count_append]
      omega
    | succ i =>
      have := ih (by simpa using h)
      rw [List.set_cons_succ, List.flatMap_cons, List.flatMap_cons, List.count_append,
        List.count_append]
      omega

theorem poolIps_perm {l l' : List Item} (h : l.Perm l') : (poolIps l).Perm (poolIps l') :=
  h.flatMap_right _

theorem mem_poolIps {l : List Item} {a : Text} : a ∈ poolIps l ↔ ∃ d ∈ l, a ∈ d.body.spec.ip :=
  List.mem_flatMap

/-! ## Invariants of the surgery -/

/-- Another version of a droplet, with the same name, labels and resource version. -/
def SameLabels (d d' : Item) : Prop := ∃ ip mac, d' = d.withAddrs ip mac

theorem SameLabels.refl (d : Item) : SameLabels d d := ⟨_, _, rfl⟩

theorem SameLabels.withAddrs {d d' : Item} (h : SameLabels d d') (ip mac : List Text) :
    SameLabels d (d'.withAddrs ip mac) := by
  obtain ⟨_, _, rfl⟩ := h
  exact ⟨ip, mac, rfl⟩

/-- The MAC addresses of a droplet are those of its addresses, in order. -/
def Paired (getMac : Text → Except PyError Text) (d : Item) : Prop :=
  d.body.spec.ip.map getMac = d.body.spec.mac.map .ok

theorem Paired.length_eq {getMac : Text → Except PyError Text} {d : Item} (h : Paired getMac d) :
    d.body.spec.mac.length = d.body.spec.ip.length := by
  have := congrArg List.length h
  rwa [List.length_map, List.length_map, eq_comm] at this

/-- **Droplets in good order**: each has an address and its MAC addresses, none occurs twice, and
MAC addresses tell addresses apart. -/
structure Tidy (getMac : Text → Except PyError Text) (items : List Item) : Prop where
  nonempty : ∀ d ∈ items, d.body.spec.ip ≠ []
  paired : ∀ d ∈ items, Paired getMac d
  nodup : (poolIps items).Nodup
  inj : ∀ a ∈ poolIps items, ∀ b ∈ poolIps items, getMac a = getMac b → a = b

theorem Tidy.perm {getMac : Text → Except PyError Text} {l l' : List Item} (h : Tidy getMac l)
    (hp : l.Perm l') : Tidy getMac l' where
  nonempty d hd := h.nonempty d (hp.mem_iff.2 hd)
  paired d hd := h.paired d (hp.mem_iff.2 hd)
  nodup := (poolIps_perm hp).nodup_iff.1 h.nodup
  inj a ha b hb := h.inj a ((poolIps_perm hp).mem_iff.2 ha) b ((poolIps_perm hp).mem_iff.2 hb)

/-- **Changed droplets**: `items` has other versions of `all`, and where they differ the position is
in `modified`. -/
structure Changed (all items : List Item) (modified : List ℕ) : Prop where
  same : List.Forall₂ SameLabels all items
  nodup : modified.Nodup
  rest : ∀ i, i ∉ modified → items[i]? = all[i]?

theorem Changed.refl (all : List Item) : Changed all all [] :=
  ⟨List.forall₂_same.2 fun d _ => SameLabels.refl d, List.nodup_nil, fun _ _ => rfl⟩

/-- Change one more droplet. -/
theorem Changed.set {all items : List Item} {modified : List ℕ} (h : Changed all items modified)
    {i : ℕ} {d : Item} (hd : items[i]? = some d) (ip mac : List Text) :
    Changed all (items.set i (d.withAddrs ip mac))
      (if i ∈ modified then modified else modified ++ [i]) where
  same := by
    refine List.forall₂_iff_get.2 ⟨?_, fun j hj hj' => ?_⟩
    · rw [List.length_set, h.same.length_eq]
    · have hj'' : j < items.length := by simpa using hj'
      have hs := (List.forall₂_iff_get.1 h.same).2 j hj hj''
      simp only [List.get_eq_getElem] at hs ⊢
      rw [List.getElem_set]
      split_ifs with hij
      · subst hij
        obtain ⟨hlt, rfl⟩ := List.getElem?_eq_some_iff.1 hd
        exact hs.withAddrs ip mac
      · exact hs
  nodup := by
    split_ifs with hi
    · exact h.nodup
    · rw [List.nodup_append]
      refine ⟨h.nodup, List.nodup_singleton i, fun a ha b hb hab => hi ?_⟩
      rwa [← List.mem_singleton.1 hb, ← hab]
  rest := by
    intro j hj
    have hjm : j ∉ modified ∧ i ≠ j := by
      split_ifs at hj with hi
      · exact ⟨hj, fun hij => hj (hij ▸ hi)⟩
      · rw [List.mem_append, List.mem_singleton, not_or] at hj
        exact ⟨hj.1, Ne.symm hj.2⟩
    rw [List.getElem?_set_ne hjm.2]
    exact h.rest j hjm.1

end ArionDp
