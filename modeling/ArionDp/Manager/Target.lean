import ArionDp.Manager.Redistribute

/-!
# The loop of an addition reaches its target

* `WhileTakes`: the `while` loop as it is written, with no limit on its rounds and without its break;
* `exists_spare`: as long as the target is not reached, a donor has two addresses;
* **`stealLoop_reaches`**: from droplets in good order with more addresses than droplets, the loop ends on its
  condition.
-/

namespace ArionDp

open Py

section Target

variable (getMac : Text → Except PyError Text)

/-- **The `while` loop ends on its condition**: no round raises an exception, and none adds nothing. -/
inductive WhileTakes (ds : List ℕ) (need : ℕ) : Steal → Steal → Prop
  | done {st : Steal} (h : ¬ st.ips.length < need) : WhileTakes ds need st st
  | round {st st1 st2 : Steal} (h : st.ips.length < need) (taken : ds.foldlM (stealFrom getMac) st = .ok st1)
      (new : st1.ips.length ≠ st.ips.length) (rest : WhileTakes ds need st1 st2) : WhileTakes ds need st st2

variable {getMac} {all : List Item} {st : Steal}

/-- A droplet with one address keeps it. -/
theorem stealFrom_of_le {i : ℕ} (h : ¬ 1 < ipCount st.items i) : stealFrom getMac st i = .ok st := by
  unfold ipCount at h
  unfold stealFrom
  cases hd : st.items[i]? with
  | none => rfl
  | some d =>
    rw [hd] at h
    exact if_neg h

/-- **A round takes an address** if one of its donors has two. -/
theorem foldlM_stealFrom_grows (ht : Tidy getMac all) {l : List ℕ} {i : ℕ} (hi : i ∈ l)
    (h : StealInv getMac all st) (hc : 1 < ipCount st.items i) :
    Returns (l.foldlM (stealFrom getMac) st) fun st' => st.ips.length < st'.ips.length := by
  induction l with
  | nil => exact absurd hi List.not_mem_nil
  | cons j l ih =>
    rw [List.foldlM_cons]
    by_cases hj : 1 < ipCount st.items j
    · obtain ⟨st1, h1, hi1, -, hlt1⟩ := stealFrom_spec ht h j
      obtain ⟨st2, h2, -, hle2, -⟩ := foldlM_stealFrom_spec ht l hi1
      rw [h1]
      intro st' hst'
      obtain rfl := Except.ok.inj (h2.symm.trans hst')
      exact (hlt1 hj).trans_le hle2
    · -- nothing happens at `j`
      rw [stealFrom_of_le hj]
      have hne : i ≠ j := fun hij => hj (hij ▸ hc)
      exact ih (List.mem_of_ne_of_mem hne hi)

theorem length_poolIps (l : List Item) : (poolIps l).length = (l.map fun d => d.body.spec.ip.length).sum :=
  List.length_flatMap ..

/-- **There is something to take** until the target is reached: with one address each, the droplets would leave more
than that. -/
theorem exists_spare (ht : Tidy getMac all) (htotal : all.length + 1 ≤ (poolIps all).length)
    (h : StealInv getMac all st) (hd : Drawn (donors all) all st) (hlt : st.ips.length < newDropletGets all) :
    ∃ i ∈ donors all, 1 < ipCount st.items i := by
  have hlen := h.changed.same.length_eq
  have hpool := h.pool.length_eq
  rw [List.length_append, length_poolIps st.items] at hpool
  obtain ⟨d, hmem, hd1⟩ : ∃ d ∈ st.items, 1 < d.body.spec.ip.length := by
    by_contra hone
    push Not at hone
    have hsum := List.sum_le_card_nsmul (st.items.map fun d => d.body.spec.ip.length) 1
      (List.forall_mem_map.2 hone)
    rw [List.length_map, Nat.nsmul_eq_mul, Nat.mul_one, ← hlen] at hsum
    -- `T - N` addresses have been taken, and the target is `T / (N + 1)`
    have htarget : newDropletGets all ≤ (poolIps all).length - all.length := by
      rw [newDropletGets, ← length_poolIps]
      refine Nat.div_le_of_le_mul ?_
      obtain ⟨k, hk⟩ := Nat.exists_eq_add_of_le htotal
      rw [hk]
      have hsub : all.length + 1 + k - all.length = k + 1 := by omega
      rw [hsub]
      nlinarith
    omega
  obtain ⟨i, hi, rfl⟩ := List.getElem_of_mem hmem
  have hia : i < all.length := hlen ▸ hi
  have hst := List.getElem?_eq_getElem hi
  have hall := List.getElem?_eq_getElem hia
  have hle := (hd.initial i _ _ hall hst).length_le
  refine ⟨i, (mem_donors_iff (fun d hd => (ht.paired d hd).length_eq) hia).2 ?_, ?_⟩
  · rw [ipCount, hall]
    exact hd1.trans_le hle
  · rw [ipCount, hst]
    exact hd1

/-- **Every run of the loop ends on its condition**, by the number of addresses that are still wanted. -/
theorem stealLoop_whileTakes (ht : Tidy getMac all) (htotal : all.length + 1 ≤ (poolIps all).length) {fuel : ℕ}
    (h : StealInv getMac all st) (hd : Drawn (donors all) all st)
    (hf : newDropletGets all ≤ fuel + st.ips.length) :
    ∃ st', stealLoop getMac (donors all) (newDropletGets all) fuel st = .ok st' ∧
      WhileTakes getMac (donors all) (newDropletGets all) st st' ∧ StealInv getMac all st' := by
  induction fuel generalizing st with
  | zero => exact ⟨st, rfl, .done (by omega), h⟩
  | succ fuel ih =>
    rw [stealLoop]
    by_cases hn : st.ips.length < newDropletGets all
    swap
    · rw [if_neg hn]
      exact ⟨st, rfl, .done hn, h⟩
    obtain ⟨i, hi, hc⟩ := exists_spare ht htotal h hd hn
    obtain ⟨st1, h1, hi1, -⟩ := foldlM_stealFrom_spec ht (donors all) h
    have hgrow : st.ips.length < st1.ips.length := foldlM_stealFrom_grows ht hi h hc st1 h1
    have hd1 := foldlM_stealFrom_drawn (List.Subset.refl _) hd st1 h1
    obtain ⟨st2, h2, hw2, hi2⟩ := ih hi1 hd1 (by omega)
    refine ⟨st2, ?_, .round hn h1 hgrow.ne' hw2, hi2⟩
    rw [if_pos hn, h1]
    change (if st1.ips.length = st.ips.length then _ else _) = _
    rw [if_neg hgrow.ne', h2]

/-- What holds where the loop ends. -/
theorem WhileTakes.reached {ds : List ℕ} {need : ℕ} {st' : Steal} (h : WhileTakes getMac ds need st st') :
    need ≤ st'.ips.length := by
  induction h with
  | done h => exact Nat.not_lt.1 h
  | round _ _ _ _ ih => exact ih

/-- **The redistribution loop of a node addition reaches its target.** It ends on its condition, without an exception
and without the break, with the new droplet's share at least, and every droplet keeps an address and its MAC
addresses. -/
theorem stealLoop_reaches (ht : Tidy getMac all) (htotal : all.length + 1 ≤ (poolIps all).length) :
    ∃ st, stealLoop getMac (donors all) (newDropletGets all) (newDropletGets all) ⟨all, [], []⟩ = .ok st ∧
      WhileTakes getMac (donors all) (newDropletGets all) ⟨all, [], []⟩ st ∧
      (poolIps all).length / (all.length + 1) ≤ st.ips.length ∧
      st.items.length = all.length ∧ ∀ d ∈ st.items, d.body.spec.ip ≠ [] ∧ Paired getMac d := by
  obtain ⟨st, hst, hw, hinv⟩ :=
    stealLoop_whileTakes ht htotal (StealInv.start ht) (.start _ all) (Nat.le_add_right _ _)
  refine ⟨st, hst, hw, ?_, hinv.changed.same.length_eq.symm, fun d hd => ⟨hinv.nonempty d hd, hinv.paired d hd⟩⟩
  rw [length_poolIps]
  exact hw.reached

end Target

/-- One droplet with the addresses 10.0.0.1, 10.0.0.2 and 10.0.0.3. -/
def sampleDonor : List Item :=
  [⟨"d".toList, 1, ⟨"z".toList, "172.16.0.1".toList, "tenant".toList, {
    ip := ["10.0.0.1".toList, "10.0.0.2".toList, "10.0.0.3".toList]
    mac := ["92:83:0a:00:00:01".toList, "92:83:0a:00:00:02".toList, "92:83:0a:00:00:03".toList]
    status := "Provisioned".toList
    itf := "eth1".toList
    network := "tenant".toList
    zgcId := "z".toList }⟩⟩]

theorem sampleDonor_tidy : Tidy (getMacFromIp MacPrivate.default.val) sampleDonor where
  nonempty := by decide
  paired d hd := by
    obtain rfl := List.mem_singleton.1 hd
    unfold Paired
    decide +kernel
  nodup := by decide
  inj a ha b hb h := by
    have hips : ∀ c ∈ poolIps sampleDonor, ∃ n : ℕ, n < 2 ^ 32 ∧ c = ipText (n : ℤ) := by
      intro c hc
      rcases List.mem_cons.1 hc with rfl | hc
      · exact ⟨0x0a000001, by decide, by decide⟩
      rcases List.mem_cons.1 hc with rfl | hc
      · exact ⟨0x0a000002, by decide, by decide⟩
      obtain rfl := List.mem_singleton.1 hc
      exact ⟨0x0a000003, by decide, by decide⟩
    obtain ⟨m, hm, rfl⟩ := hips a ha
    obtain ⟨n, hn, rfl⟩ := hips b hb
    rw [getMacFromIp_inj MacPrivate.default hm hn h]

/-- The loop takes one of the three addresses. -/
theorem stealLoop_reaches_sample :
    ∃ st, stealLoop (getMacFromIp MacPrivate.default.val) (donors sampleDonor) (newDropletGets sampleDonor)
        (newDropletGets sampleDonor) ⟨sampleDonor, [], []⟩ = .ok st ∧
      WhileTakes (getMacFromIp MacPrivate.default.val) (donors sampleDonor) (newDropletGets sampleDonor)
        ⟨sampleDonor, [], []⟩ st ∧
      (poolIps sampleDonor).length / (sampleDonor.length + 1) ≤ st.ips.length ∧
      st.items.length = sampleDonor.length ∧
      ∀ d ∈ st.items, d.body.spec.ip ≠ [] ∧ Paired (getMacFromIp MacPrivate.default.val) d :=
  stealLoop_reaches sampleDonor_tidy (by decide)

end ArionDp
