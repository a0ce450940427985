import ArionDp.Manager.FailedCalls
import ArionDp.Manager.HandBack

/-!
# The balance after an addition

The loop over the donors asks only between rounds whether the new droplet has its share, so that it takes
more than that when the share is not a multiple of the number of donors.

* `roundsFor`, `afterRounds`, `StaysEven`, **`within_afterRounds_iff`**: the numbers of addresses;
* `stealLoop_counts`, **`planAddition_counts`**: the loop takes an address from every donor in each round;
* **`addition_balanced_iff`**: the additions after which the numbers still differ by at most one.
-/

namespace ArionDp

open ApiServer Py RoundRobin Inet

/-! ## Numbers -/

/-- The share of a new droplet. -/
def newShare (l : List ℕ) : ℕ := l.sum / (l.length + 1)

/-- The numbers after `k` rounds in which everybody with more than one gives one, with that of the new
droplet. -/
def afterRounds (k : ℕ) (l : List ℕ) : List ℕ :=
  (l.map fun c => if 1 < c then c - k else c) ++ [l.countP (1 < ·) * k]

/-- The donors reach the share in `k` rounds and not before, and can give as often. -/
structure RoundsFor (k : ℕ) (l : List ℕ) : Prop where
  enough : newShare l ≤ l.countP (1 < ·) * k
  before : l.countP (1 < ·) * (k - 1) < newShare l
  able : ∀ c ∈ l, 1 < c → k < c

/-- **When the rounds come out even**: the smallest number leaves no remainder, or the largest one, when it is
divided by the number of droplets with the new one; or the remainder one, and all are equal. Where the
smallest number is one, at most two have more. -/
def StaysEven (l : List ℕ) : Prop :=
  let m := l.min?.getD 0
  let larger := l.countP (m < ·)
  if m = 1 then larger ≤ 2
  else m % (l.length + 1) = 0 ∨ m % (l.length + 1) = l.length ∨ m % (l.length + 1) = 1 ∧ larger = 0

instance (l : List ℕ) : Decidable (StaysEven l) := by
  unfold StaysEven
  infer_instance

section Numbers

variable {n m r t k : ℕ}

theorem newShare_perm {l l' : List ℕ} (h : l.Perm l') : newShare l = newShare l' := by
  rw [newShare, newShare, h.sum_eq, h.length_eq]

theorem afterRounds_perm (k : ℕ) {l l' : List ℕ} (h : l.Perm l') :
    (afterRounds k l).Perm (afterRounds k l') := by
  rw [afterRounds, afterRounds, h.countP_eq]
  exact (h.map _).append_right _

theorem RoundsFor.perm {k : ℕ} {l l' : List ℕ} (h : RoundsFor k l) (hp : l.Perm l') : RoundsFor k l' where
  enough := by
    rw [← newShare_perm hp, ← hp.countP_eq]
    exact h.enough
  before := by
    rw [← newShare_perm hp, ← hp.countP_eq]
    exact h.before
  able c hc := h.able c (hp.mem_iff.2 hc)

/-- **The number of rounds**, for `n` donors of which `r` have `m + 1` addresses and the others `m`. -/
theorem rounds_eq (hr : r < n) (ht : t = (n * m + r) / (n + 1)) (hle : t ≤ n * k) (hlt : n * (k - 1) < t) :
    (m % (n + 1) = 0 ∨ m % (n + 1) = 1 ∧ r = 0) ∧ k = m / (n + 1) ∨
      ¬ (m % (n + 1) = 0 ∨ m % (n + 1) = 1 ∧ r = 0) ∧ k = m / (n + 1) + 1 := by
  have hm := Nat.div_add_mod m (n + 1)
  have hb := Nat.mod_lt m (Nat.add_one_pos n)
  generalize m / (n + 1) = q at hm ⊢
  generalize m % (n + 1) = b at hm hb ⊢
  have hsum : n * m + r = (n + 1) * (n * q) + (n * b + r) := by
    rw [← hm]
    ring
  rw [hsum, Nat.mul_add_div (Nat.add_one_pos n)] at ht
  have hu : (n * b + r) / (n + 1) < n := by
    rw [Nat.div_lt_iff_lt_mul (Nat.succ_pos n)]
    have hnb : n * b ≤ n * n := Nat.mul_le_mul_left n (by omega)
    rw [Nat.mul_succ]
    omega
  have hn : 0 < n := by omega
  rcases Nat.lt_or_ge (n * b + r) (n + 1) with hsmall | hlarge
  · left
    rw [Nat.div_eq_of_lt hsmall, Nat.add_zero] at ht
    have hqk : q ≤ k := Nat.le_of_mul_le_mul_left (ht ▸ hle) hn
    have hkq : k - 1 < q := Nat.lt_of_mul_lt_mul_left (ht ▸ hlt)
    refine ⟨?_, by omega⟩
    rcases Nat.lt_or_ge b 2 with hb2 | hb2
    · interval_cases b
      · exact .inl rfl
      · exact .inr ⟨rfl, by omega⟩
    · have := Nat.mul_le_mul_left n hb2
      omega
  · right
    have hpos : 0 < (n * b + r) / (n + 1) := Nat.div_pos hlarge (Nat.succ_pos n)
    have hqk : q < k := by
      refine Nat.lt_of_mul_lt_mul_left (a := n) ?_
      omega
    have hkq : k - 1 < q + 1 := by
      refine Nat.lt_of_mul_lt_mul_left (a := n) ?_
      rw [Nat.mul_succ]
      omega
    refine ⟨?_, by omega⟩
    rintro (rfl | ⟨rfl, rfl⟩)
    · omega
    · omega

/-- The donors can give as often as there are rounds. -/
theorem rounds_lt (hr : r < n) (hm : 2 ≤ m) (ht : t = (n * m + r) / (n + 1)) (hle : t ≤ n * k)
    (hlt : n * (k - 1) < t) : k < m := by
  have hdiv := Nat.div_add_mod m (n + 1)
  rw [Nat.succ_mul] at hdiv
  have hq : m / (n + 1) ≤ n * (m / (n + 1)) := Nat.le_mul_of_pos_left _ (by omega)
  rcases rounds_eq hr ht hle hlt with ⟨hb, rfl⟩ | ⟨hb, rfl⟩
  · rcases Nat.eq_zero_or_pos (m / (n + 1)) with hz | hpos
    · omega
    · omega
  · rcases Nat.eq_zero_or_pos (m / (n + 1)) with hz | hpos
    · omega
    · omega

/-- **The rounds come out even**, as far as the numbers go. -/
theorem rounds_even_iff (hr : r < n) (ht : t = (n * m + r) / (n + 1)) (hle : t ≤ n * k)
    (hlt : n * (k - 1) < t) :
    ((m - k ≤ n * k + 1 ∧ n * k ≤ m - k + 1) ∧
      (0 < r → m + 1 - k ≤ n * k + 1 ∧ n * k ≤ m + 1 - k + 1)) ↔
      (m % (n + 1) = 0 ∨ m % (n + 1) = n ∨ m % (n + 1) = 1 ∧ r = 0) := by
  have hdiv := Nat.div_add_mod m (n + 1)
  rw [Nat.succ_mul] at hdiv
  have hb := Nat.mod_lt m (Nat.add_one_pos n)
  rcases rounds_eq hr ht hle hlt with ⟨hcase, rfl⟩ | ⟨hcase, rfl⟩
  · omega
  · rw [Nat.mul_succ]
    omega

end Numbers

section Lists

variable {l : List ℕ} {k : ℕ}

theorem countP_lt_length_of_mem {m : ℕ} (hm : m ∈ l) : l.countP (m < ·) < l.length := by
  refine Nat.lt_of_le_of_ne List.countP_le_length fun hc => ?_
  have hall := List.countP_eq_length.1 hc m hm
  exact absurd (of_decide_eq_true hall) (Nat.lt_irrefl m)

/-- The share, where `m` is the smallest number. -/
theorem newShare_eq {m : ℕ} (hor : ∀ c ∈ l, c = m ∨ c = m + 1) :
    newShare l = (l.length * m + l.countP (m < ·)) / (l.length + 1) := by
  rw [newShare, sum_eq_of_eq_or hor]

/-- All have more than one. -/
theorem countP_one_lt {m : ℕ} (hm : 2 ≤ m) (hor : ∀ c ∈ l, c = m ∨ c = m + 1) :
    l.countP (1 < ·) = l.length := by
  refine List.countP_eq_length.2 fun c hc => decide_eq_true ?_
  have := hor c hc
  omega

/-- Where the smallest number is one, there is one round. -/
theorem rounds_eq_one (hor : ∀ c ∈ l, c = 1 ∨ c = 1 + 1) (henough : newShare l ≤ l.countP (1 < ·) * k)
    (hbefore : l.countP (1 < ·) * (k - 1) < newShare l) : k = 1 := by
  have hle : l.countP (1 < ·) ≤ l.length := List.countP_le_length
  rw [newShare_eq hor, Nat.mul_one] at henough hbefore
  have hpos : 0 < l.countP (1 < ·) := by
    refine Nat.pos_of_ne_zero fun hz => ?_
    rw [hz, Nat.add_zero, Nat.div_eq_of_lt (Nat.lt_succ_self _)] at hbefore
    omega
  have hone : (l.length + l.countP (1 < ·)) / (l.length + 1) = 1 :=
    (Nat.div_eq_iff (Nat.succ_pos _)).2 ⟨by omega, by omega⟩
  rw [hone] at henough hbefore
  have hk : k - 1 < 1 := by
    refine Nat.lt_of_mul_lt_mul_left (a := l.countP (1 < ·)) ?_
    omega
  have hk0 : k ≠ 0 := by
    rintro rfl
    omega
  omega

/-- **There is a number of rounds**, if the new droplet has a share. -/
theorem exists_roundsFor (hw : Within 1 l) (hpos : ∀ c ∈ l, 0 < c) (hshare : 0 < newShare l) :
    ∃ k, RoundsFor k l := by
  have hne : l ≠ [] := by
    rintro rfl
    exact absurd hshare (Nat.lt_irrefl 0)
  obtain ⟨m, hmem, -, hor⟩ := hw.eq_or hne
  have ht := newShare_eq hor
  have hm := hpos m hmem
  have hdonors : 0 < l.countP (1 < ·) := by
    rcases Nat.lt_or_ge m 2 with hm2 | hm2
    · obtain rfl : m = 1 := by omega
      refine Nat.pos_of_ne_zero fun hz => ?_
      rw [hz, Nat.mul_one, Nat.add_zero, Nat.div_eq_of_lt (Nat.lt_succ_self _)] at ht
      omega
    · rw [countP_one_lt hm2 hor]
      exact List.length_pos_of_ne_nil hne
  have hdiv := Nat.div_add_mod (newShare l - 1) (l.countP (1 < ·))
  have hmod := Nat.mod_lt (newShare l - 1) hdonors
  have henough : newShare l ≤ l.countP (1 < ·) * ((newShare l - 1) / l.countP (1 < ·) + 1) := by
    rw [Nat.mul_succ]
    omega
  have hbefore : l.countP (1 < ·) * ((newShare l - 1) / l.countP (1 < ·) + 1 - 1) < newShare l := by
    rw [Nat.add_sub_cancel]
    omega
  refine ⟨_, henough, hbefore, fun c hc hc1 => ?_⟩
  generalize (newShare l - 1) / l.countP (1 < ·) + 1 = k at henough hbefore
  rcases Nat.lt_or_ge m 2 with hm2 | hm2
  · obtain rfl : m = 1 := by omega
    rwa [rounds_eq_one hor henough hbefore]
  · rw [countP_one_lt hm2 hor] at henough hbefore
    have hkm := rounds_lt (countP_lt_length_of_mem hmem) hm2 ht henough hbefore
    have := hor c hc
    omega

/-- Where the smallest number is one, all have one after the round, and the new droplet one of each donor. -/
theorem within_afterRounds_one (hmem : 1 ∈ l) (hor : ∀ c ∈ l, c = 1 ∨ c = 1 + 1) :
    Within 1 (afterRounds 1 l) ↔ l.countP (1 < ·) ≤ 2 := by
  have hmap : (l.map fun c => if 1 < c then c - 1 else c) = l.map fun _ => 1 := by
    refine List.map_congr_left fun c hc => ?_
    rcases hor c hc with rfl | rfl <;> rfl
  rw [afterRounds, within_concat, hmap, Nat.mul_one]
  constructor
  · exact fun hx => (hx.2 1 (List.mem_map.2 ⟨1, hmem, rfl⟩)).2
  · refine fun hx => ⟨fun a ha b hb => ?_, fun a ha => ?_⟩
    · obtain ⟨_, -, rfl⟩ := List.mem_map.1 ha
      exact Nat.le_add_left 1 b
    · obtain ⟨_, -, rfl⟩ := List.mem_map.1 ha
      exact ⟨Nat.le_add_left 1 _, hx⟩

/-- Where all have more than one, everybody is a donor. -/
theorem within_afterRounds_more {m : ℕ} (hw : Within 1 l) (hmem : m ∈ l) (hor : ∀ c ∈ l, c = m ∨ c = m + 1)
    (hm : 2 ≤ m) (h : RoundsFor k l) : Within 1 (afterRounds k l) ↔
      m % (l.length + 1) = 0 ∨ m % (l.length + 1) = l.length ∨
        m % (l.length + 1) = 1 ∧ l.countP (m < ·) = 0 := by
  have hone := countP_one_lt hm hor
  have hmap : (l.map fun c => if 1 < c then c - k else c) = l.map fun c => c - k := by
    refine List.map_congr_left fun c hc => if_pos ?_
    have := hor c hc
    omega
  have henough := h.enough
  have hbefore := h.before
  rw [hone] at henough hbefore
  rw [afterRounds, within_concat, hmap, hone,
    ← rounds_even_iff (countP_lt_length_of_mem hmem) (newShare_eq hor) henough hbefore]
  constructor
  · refine fun hx => ⟨hx.2 _ (List.mem_map.2 ⟨m, hmem, rfl⟩), fun hpos => ?_⟩
    obtain ⟨c, hc, hmc⟩ := List.countP_pos_iff.1 hpos
    obtain rfl := (hor c hc).resolve_left (of_decide_eq_true hmc).ne'
    exact hx.2 _ (List.mem_map.2 ⟨m + 1, hc, rfl⟩)
  · refine fun hx => ⟨fun a ha b hb => ?_, fun a ha => ?_⟩
    · obtain ⟨c, hc, rfl⟩ := List.mem_map.1 ha
      obtain ⟨d, hd, rfl⟩ := List.mem_map.1 hb
      have := hw c hc d hd
      omega
    · obtain ⟨c, hc, rfl⟩ := List.mem_map.1 ha
      rcases hor c hc with rfl | rfl
      · exact hx.1
      · exact hx.2 (List.countP_pos_iff.2 ⟨_, hc, decide_eq_true (Nat.lt_succ_self _)⟩)

/-- **The numbers after the rounds.** -/
theorem within_afterRounds_iff (hw : Within 1 l) (hne : l ≠ []) (hpos : ∀ c ∈ l, 0 < c)
    (h : RoundsFor k l) : Within 1 (afterRounds k l) ↔ StaysEven l := by
  obtain ⟨m, hmem, hmin, hor⟩ := hw.eq_or hne
  have hm := hpos m hmem
  unfold StaysEven
  rw [hmin, Option.getD_some]
  dsimp only
  rcases Nat.lt_or_ge m 2 with hm2 | hm2
  · obtain rfl : m = 1 := by omega
    rw [if_pos rfl]
    obtain rfl := rounds_eq_one hor h.enough h.before
    exact within_afterRounds_one hmem hor
  · rw [if_neg (by omega)]
    exact within_afterRounds_more hw hmem hor hm2 h

end Lists

/-! ## The loop -/

section Loop

variable {getMac : Text → Except PyError Text} {st : Steal}

theorem ipCount_set {items : List Item} {i : ℕ} {d : Item} (hd : items[i]? = some d) (d' : Item) (j : ℕ) :
    ipCount (items.set i d') j = if i = j then d'.body.spec.ip.length else ipCount items j := by
  obtain ⟨hlt, -⟩ := List.getElem?_eq_some_iff.1 hd
  unfold ipCount
  by_cases hij : i = j
  · subst hij
    rw [List.getElem?_set_self hlt, if_pos rfl]
  · rw [List.getElem?_set_ne hij, if_neg hij]

/-- A donor with two addresses gives one. -/
theorem stealFrom_counts {i : ℕ} (hi : 1 < ipCount st.items i) :
    Returns (stealFrom getMac st i) fun st' => st'.items.length = st.items.length ∧
      (∀ j, ipCount st'.items j = if i = j then ipCount st.items j - 1 else ipCount st.items j) ∧
      st'.ips.length = st.ips.length + 1 := by
  unfold stealFrom
  cases hd : st.items[i]? with
  | none =>
    rw [ipCount, hd] at hi
    exact absurd hi (by decide)
  | some d =>
    have hcount : ipCount st.items i = d.body.spec.ip.length := by rw [ipCount, hd]
    rw [hcount] at hi
    dsimp only
    rw [if_pos hi]
    refine (Returns.trivial _).bind fun _ _ => (Returns.trivial _).bind fun _ _ => Returns.pure
      ⟨List.length_set, fun j => ?_, List.length_append⟩
    rw [ipCount_set hd]
    by_cases hij : i = j
    · subst hij
      rw [if_pos rfl, if_pos rfl, hcount]
      exact List.length_dropLast
    · rw [if_neg hij, if_neg hij]

/-- **A round** takes one address from every donor. -/
theorem round_counts {ds : List ℕ} (hn : ds.Nodup) (hgive : ∀ i ∈ ds, 1 < ipCount st.items i) :
    Returns (ds.foldlM (stealFrom getMac) st) fun st' => st'.items.length = st.items.length ∧
      (∀ j, ipCount st'.items j = if j ∈ ds then ipCount st.items j - 1 else ipCount st.items j) ∧
      st'.ips.length = st.ips.length + ds.length := by
  induction ds generalizing st with
  | nil => exact Returns.pure ⟨rfl, fun j => (if_neg List.not_mem_nil).symm, rfl⟩
  | cons i ds ih =>
    have hnd := List.nodup_cons.1 hn
    rw [List.foldlM_cons]
    refine Returns.bind (stealFrom_counts (hgive i (List.mem_cons_self ..))) fun st1 h1 => ?_
    obtain ⟨hlen1, hcount1, hips1⟩ := h1
    have hgive1 : ∀ j ∈ ds, 1 < ipCount st1.items j := fun j hj => by
      have hij : i ≠ j := fun hc => hnd.1 (hc ▸ hj)
      rw [hcount1, if_neg hij]
      exact hgive j (List.mem_cons_of_mem _ hj)
    intro st2 h2
    obtain ⟨hlen2, hcount2, hips2⟩ := ih hnd.2 hgive1 st2 h2
    refine ⟨hlen2.trans hlen1, fun j => ?_, ?_⟩
    · rw [hcount2, hcount1]
      by_cases hij : i = j
      · subst hij
        rw [if_neg hnd.1, if_pos rfl, if_pos (List.mem_cons_self ..)]
      · have hiff : j ∈ i :: ds ↔ j ∈ ds := by
          rw [List.mem_cons]
          exact or_iff_right (Ne.symm hij)
        rw [if_neg hij, if_congr hiff rfl rfl]
    · rw [hips2, hips1, List.length_cons]
      omega

/-- **The loop** takes `k` addresses from every donor, if it needs `k` rounds. -/
theorem stealLoop_counts {ds : List ℕ} (hn : ds.Nodup) {need fuel k : ℕ}
    (henough : need ≤ st.ips.length + ds.length * k)
    (hbefore : 0 < k → st.ips.length + ds.length * (k - 1) < need) (hfuel : k ≤ fuel)
    (hable : ∀ i ∈ ds, k < ipCount st.items i) :
    Returns (stealLoop getMac ds need fuel st) fun st' => st'.items.length = st.items.length ∧
      (∀ j, ipCount st'.items j = if j ∈ ds then ipCount st.items j - k else ipCount st.items j) ∧
      st'.ips.length = st.ips.length + ds.length * k := by
  induction k generalizing fuel st with
  | zero =>
    have hend : stealLoop getMac ds need fuel st = .ok st := by
      cases fuel with
      | zero => rfl
      | succ fuel => exact if_neg (by omega)
    rw [hend]
    exact Returns.pure ⟨rfl, fun j => (ite_self _).symm, rfl⟩
  | succ k ih =>
    obtain ⟨fuel, rfl⟩ : ∃ f, fuel = f + 1 := ⟨fuel - 1, by omega⟩
    have hb := hbefore (Nat.succ_pos k)
    rw [Nat.add_sub_cancel] at hb
    rw [Nat.mul_succ] at henough
    have hlt : st.ips.length < need := by omega
    have hds : 0 < ds.length := by omega
    rw [stealLoop, if_pos hlt]
    refine Returns.bind (round_counts hn fun i hi => by have := hable i hi; omega) fun st1 h1 => ?_
    obtain ⟨hlen1, hcount1, hips1⟩ := h1
    rw [if_neg (by omega)]
    have hable1 : ∀ i ∈ ds, k < ipCount st1.items i := fun i hi => by
      rw [hcount1, if_pos hi]
      have := hable i hi
      omega
    have hbefore1 : 0 < k → st1.ips.length + ds.length * (k - 1) < need := fun hk => by
      obtain ⟨k, rfl⟩ : ∃ k', k = k' + 1 := ⟨k - 1, by omega⟩
      rw [Nat.mul_succ] at hb
      rw [Nat.add_sub_cancel]
      omega
    intro st2 h2
    obtain ⟨hlen2, hcount2, hips2⟩ := ih (by omega) hbefore1 (by omega) hable1 st2 h2
    refine ⟨hlen2.trans hlen1, fun j => ?_, ?_⟩
    · rw [hcount2, hcount1]
      split_ifs
      · omega
      · rfl
    · rw [hips2, hips1, Nat.mul_succ]
      omega

/-- The numbers by position. -/
theorem ipCounts_eq_range (l : List Item) : ipCounts l = (List.range l.length).map (ipCount l) := by
  refine List.ext_getElem ?_ fun i hi hi' => ?_
  · rw [length_ipCounts, List.length_map, List.length_range]
  · have hil : i < l.length := by rwa [length_ipCounts] at hi
    rw [List.getElem_map, List.getElem_range, ipCount, List.getElem?_eq_getElem hil]
    exact List.getElem_map _

theorem nodup_donors (all : List Item) : (donors all).Nodup :=
  (donors_perm all).nodup_iff.2 (List.nodup_range.filter _)

theorem length_donors {all : List Item} (hlen : ∀ d ∈ all, d.body.spec.mac.length = d.body.spec.ip.length) :
    (donors all).length = (ipCounts all).countP (1 < ·) := by
  have hmem : ∀ i ∈ List.range all.length, (i ∈ canGive all ↔ 1 < ipCount all i) := fun i hi =>
    (donors_perm all).mem_iff.symm.trans (mem_donors_iff hlen (List.mem_range.1 hi))
  rw [(donors_perm all).length_eq, ipCounts_eq_range, List.countP_map, canGive, ← List.countP_eq_length_filter]
  refine List.countP_congr fun i hi => ?_
  have h := hmem i hi
  rw [canGive, List.mem_filter, and_iff_right hi] at h
  exact h.trans decide_eq_true_iff.symm

theorem newDropletGets_eq (all : List Item) : newDropletGets all = newShare (ipCounts all) := by
  rw [newShare, length_ipCounts]
  rfl

theorem planAddition_share {all : List Item} {p : Plan} (h : planAddition getMac all = .ok (some p)) :
    0 < newDropletGets all := by
  unfold planAddition at h
  split_ifs at h with hpos
  · exact hpos
  · cases h

/-- **The plan of an addition** brings the numbers through the rounds. -/
theorem planAddition_counts {all : List Item}
    (hlen : ∀ d ∈ all, d.body.spec.mac.length = d.body.spec.ip.length) {k : ℕ}
    (h : RoundsFor k (ipCounts all)) : Returns (planAddition getMac all) fun o => ∀ p ∈ o,
      ∃ items, Planned all items p.modified ∧ ipCounts items ++ [p.ips.length] = afterRounds k (ipCounts all) := by
  have hneed := newDropletGets_eq all
  have hbefore := h.before
  have henough := h.enough
  rw [← hneed, ← length_donors hlen] at hbefore henough
  have hlt : ∀ i ∈ donors all, i < all.length := fun i hi =>
    List.mem_range.1 (List.mem_of_mem_filter ((donors_perm all).mem_iff.1 hi))
  have hfuel : k ≤ newDropletGets all := by
    have hds : 0 < (donors all).length := Nat.pos_of_ne_zero fun hz => by
      rw [hz] at hbefore henough
      omega
    have := Nat.le_mul_of_pos_left (k - 1) hds
    omega
  have hable : ∀ i ∈ donors all, k < ipCount all i := fun i hi => by
    refine h.able _ ?_ ((mem_donors_iff hlen (hlt i hi)).1 hi)
    rw [ipCounts_eq_range]
    exact List.mem_map_of_mem (List.mem_range.2 (hlt i hi))
  unfold planAddition
  refine Returns.ite (fun _ => ?_) fun _ => Returns.pure fun p hp => absurd hp (Option.not_mem_none p)
  have hloop : Returns (stealLoop getMac (donors all) (newDropletGets all) (newDropletGets all) ⟨all, [], []⟩)
      _ := stealLoop_counts (nodup_donors all) (by simpa using henough) (fun _ => by simpa using hbefore)
        hfuel hable
  intro o ho p hp
  obtain ⟨st, hst, ho⟩ := bind_eq_ok.1 ho
  obtain ⟨macs, -, ho⟩ := bind_eq_ok.1 ho
  obtain rfl := Except.ok.inj ho
  obtain rfl := Option.mem_some_iff.1 hp
  obtain ⟨hlen', hcount, hips⟩ := hloop st hst
  refine ⟨st.items, (stealLoop_moved _ _ _ (.start all) st hst).changed.planned, ?_⟩
  have hmap : ipCounts st.items = (ipCounts all).map fun c => if 1 < c then c - k else c := by
    rw [ipCounts_eq_range, ipCounts_eq_range, hlen', List.map_map]
    refine List.map_congr_left fun i hi => ?_
    rw [hcount i]
    exact if_congr (mem_donors_iff hlen (List.mem_range.1 hi)) rfl rfl
  rw [afterRounds, hmap, ← length_donors hlen, hips]
  exact congrArg (fun n => _ ++ [n]) (Nat.zero_add _)

end Loop

/-! ## Additions -/

section Additions

variable {env : Env} {w : World} {z nodeId : Text} {b : NodeBody} {p : Plan}

/-- The new droplet of a ZGC is one of its tenant droplets, and of no other ZGC. -/
theorem selectsTenant_newDroplet (z' : Text) :
    selectsTenant z' (newDroplet env z b p).2 = true ↔ z = z' :=
  decide_eq_true_iff.trans (and_iff_left rfl)

/-- The first droplet of a ZGC. -/
theorem ipCounts_first (hp : PlansTo env w z b p) (hc : Created env w b p)
    (hnil : w.kube.select (selectsTenant z) = []) :
    ipCounts ((newNodeGws env z b w).2.kube.select (selectsTenant z)) = [p.ips.length] := by
  have hafter := (newNodeGws_planned hp).select (selectsTenant z) (byLabels_selectsTenant z)
  rw [ipCounts_eq_pairs, hafter, hnil, if_pos hc, List.filter_singleton,
    (selectsTenant_newDroplet z).2 rfl]
  rfl

/-- **The numbers after an addition** that nothing stops. -/
theorem ipCounts_addition (hp : PlansTo env w z b p) (hc : Created env w b p)
    (hk : ∀ d ∈ w.kube.select (selectsTenant z), env.kubeFails d.name = false) {items : List Item}
    (hplan : Planned (env.order.run (w.kube.select (selectsTenant z))) items p.modified) :
    (ipCounts ((newNodeGws env z b w).2.kube.select (selectsTenant z))).Perm
      (ipCounts items ++ [p.ips.length]) := by
  have hall := env.order.perm (w.kube.select (selectsTenant z))
  have hk' : ∀ d ∈ p.modified, env.kubeFails d.name = false := fun d' hd' => by
    obtain ⟨d, hd, hs⟩ := (hplan.versions hall).same d' hd'
    rw [hs.name_eq]
    exact hk d hd
  have hafter := (newNodeGws_planned hp).select (selectsTenant z) (byLabels_selectsTenant z)
  rw [writtenTo_eq_self hc.1 hk', if_pos hc, List.filter_singleton, (selectsTenant_newDroplet z).2 rfl] at hafter
  rw [ipCounts_eq_pairs, ipCounts_eq_pairs, hafter, List.map_append]
  exact ((hplan.overlay_perm hall).map _).append_right _

/-- **A droplet that was not there before** is the one of the plan. -/
theorem created_of_new {o : Item} (ho : o ∈ (newNodeGws env z b w).2.kube.objs) {z' : Text}
    (hz' : selectsTenant z' o.body = true) (hnew : ∀ o' ∈ w.kube.objs, o'.name ≠ o.name) :
    z = z' ∧ ∃ p, PlansTo env w z b p ∧ Created env w b p := by
  by_cases hex : ∃ p, PlansTo env w z b p
  · obtain ⟨p, hp⟩ := hex
    have hmem : (o.name, o.body) ∈ pairs ((newNodeGws env z b w).2.kube.select (selectsTenant z')) :=
      List.mem_map_of_mem (List.mem_filter.2 ⟨ho, hz'⟩)
    rw [(newNodeGws_planned hp).select _ (byLabels_selectsTenant z'), List.mem_append] at hmem
    rcases hmem with hold | hnewp
    · have hname : o.name ∈ (w.kube.select (selectsTenant z')).map fun d => d.name := by
        rw [← map_fst_pairs, ← map_fst_overlay]
        exact List.mem_map_of_mem hold
      obtain ⟨o', ho', hn⟩ := List.mem_map.1 hname
      exact absurd hn (hnew o' (mem_select.1 ho').1)
    · obtain ⟨hmem, hsel⟩ := List.mem_filter.1 hnewp
      by_cases hc : Created env w b p
      · rw [if_pos hc, List.mem_singleton] at hmem
        rw [hmem] at hsel
        exact ⟨(selectsTenant_newDroplet z').1 hsel, p, hp, hc⟩
      · rw [if_neg hc] at hmem
        exact absurd hmem List.not_mem_nil
  · rw [newNodeGws_unplanned fun p hp => hex ⟨p, hp⟩] at ho
    exact absurd rfl (hnew o ho)

/-- An addition that creates a droplet, and what it does to the numbers of its ZGC. -/
theorem newNodeGws_balanced_iff (hp : PlansTo env w z b p) (hc : Created env w b p)
    (hk : ∀ d ∈ w.kube.select (selectsTenant z), env.kubeFails d.name = false)
    (hone : ∀ d ∈ w.kube.select (selectsTenant z), d.body.spec.ip ≠ [])
    (hlen : ∀ d ∈ w.kube.select (selectsTenant z), d.body.spec.mac.length = d.body.spec.ip.length)
    (heven : Within 1 (ipCounts (w.kube.select (selectsTenant z)))) :
    Within 1 (ipCounts ((newNodeGws env z b w).2.kube.select (selectsTenant z))) ↔
      StaysEven (ipCounts (w.kube.select (selectsTenant z))) := by
  by_cases hnil : w.kube.select (selectsTenant z) = []
  · rw [ipCounts_first hp hc hnil, hnil]
    refine iff_of_true (fun a ha b hb => ?_) (by decide)
    rw [List.mem_singleton.1 ha, List.mem_singleton.1 hb]
    exact Nat.le_succ _
  · have hplan := hp.2
    rw [if_neg hnil] at hplan
    have hall := env.order.perm (w.kube.select (selectsTenant z))
    have hshare : 0 < newShare (ipCounts (w.kube.select (selectsTenant z))) := by
      rw [← newShare_perm (ipCounts_perm hall), ← newDropletGets_eq]
      exact planAddition_share hplan
    have hpos : ∀ c ∈ ipCounts (w.kube.select (selectsTenant z)), 0 < c := fun c hc => by
      obtain ⟨d, hd, rfl⟩ := List.mem_map.1 hc
      exact List.length_pos_of_ne_nil (hone d hd)
    obtain ⟨k, hk'⟩ := exists_roundsFor heven hpos hshare
    obtain ⟨items, hitems, hcounts⟩ := planAddition_counts (fun d hd => hlen d (hall.mem_iff.1 hd))
      (hk'.perm (ipCounts_perm hall).symm) _ hplan p rfl
    have hne : ipCounts (w.kube.select (selectsTenant z)) ≠ [] := mt List.map_eq_nil_iff.1 hnil
    rw [← within_afterRounds_iff heven hne hpos hk']
    have hperm := ipCounts_addition hp hc hk hitems
    rw [hcounts] at hperm
    exact within_perm_iff (hperm.trans (afterRounds_perm k (ipCounts_perm hall)))

end Additions

/-- **When an addition keeps the balance.** Where the droplets of a ZGC have their MAC addresses, an address
each, and numbers of addresses that differ by at most one, an addition that creates a droplet leaves numbers
that differ by at most one if and only if the rounds of the loop come out even. -/
theorem addition_balanced_iff (env : Env) (w : World) (nodeId : Text) (b : NodeBody) (op : NodeOp)
    (hop : op = .post nodeId b ∨ op = .hazelcast nodeId b) (z : Text)
    (hk : ∀ d ∈ w.kube.select (selectsTenant z), env.kubeFails d.name = false)
    (hone : ∀ d ∈ w.kube.select (selectsTenant z), d.body.spec.ip ≠ [])
    (hpaired : ∀ d ∈ w.kube.select (selectsTenant z), Paired (getMacFromIp env.macPrivate) d)
    (heven : Within 1 (ipCounts (w.kube.select (selectsTenant z))))
    (hnew : ∃ o ∈ (op.run env w).kube.select (selectsTenant z), ∀ o' ∈ w.kube.objs, o'.name ≠ o.name) :
    Within 1 (ipCounts ((op.run env w).kube.select (selectsTenant z))) ↔
      StaysEven (ipCounts (w.kube.select (selectsTenant z))) := by
  obtain ⟨o, ho, hnames⟩ := hnew
  rcases NodeOp.run_calls env w hop with ⟨z₀, -, hcalls⟩ | ⟨-, hcalls⟩
  · have hkube : (op.run env w).kube = (newNodeGws env z₀ b (w.loaded b.ipControl)).2.kube :=
      congrArg Prod.fst hcalls
    rw [hkube] at ho ⊢
    obtain ⟨rfl, p, hp, hc⟩ := created_of_new (w := w.loaded b.ipControl) (mem_select.1 ho).1
      (mem_select.1 ho).2 hnames
    exact newNodeGws_balanced_iff hp hc hk hone (fun d hd => (hpaired d hd).length_eq) heven
  · have hkube : (op.run env w).kube = w.kube := congrArg Prod.fst hcalls
    rw [hkube] at ho
    exact absurd rfl (hnames o (mem_select.1 ho).1)

instance decidablePaired (getMac : Text → Except PyError Text) (d : Item) : Decidable (Paired getMac d) :=
  inferInstanceAs (Decidable (_ = _))

/-- Nodes of a ZGC with nine addresses. -/
def nineJoin : List NodeOp := [.post "1".toList (fourNode "Node_A" "172.16.0.1"),
  .post "2".toList (fourNode "Node_B" "172.16.0.2")]

/-- The ZGC after some of them have joined. -/
def nineAfter (n : ℕ) : World := runNodeOps .default (nineJoin.take n)
  (.start ⟨"z".toList, dotted ![10, 0, 0, 1], dotted ![10, 0, 0, 9]⟩ (.int 8300))

/-- The second node gets four addresses, and the first one keeps five. -/
theorem addition_balanced_iff_sample :
    let w := nineAfter 1
    let op : NodeOp := .post "2".toList (fourNode "Node_B" "172.16.0.2")
    Within 1 (ipCounts ((op.run .default w).kube.select (selectsTenant "z".toList))) ↔
      StaysEven (ipCounts (w.kube.select (selectsTenant "z".toList))) :=
  addition_balanced_iff .default (nineAfter 1) "2".toList (fourNode "Node_B" "172.16.0.2") _ (.inl rfl)
    "z".toList (by decide +kernel) (by decide +kernel) (by decide +kernel) (by decide +kernel)
    (by decide +kernel)

/-- **The third node gets four of nine addresses**, and the others keep three and two. -/
theorem third_node_overloaded :
    let w := nineAfter 2
    let w' := NodeOp.run .default (.post "3".toList (fourNode "Node_C" "172.16.0.3")) w
    (∀ d ∈ w.kube.select (selectsTenant "z".toList),
      d.body.spec.ip ≠ [] ∧ Paired (getMacFromIp Env.default.macPrivate) d) ∧
    ipCounts (w.kube.select (selectsTenant "z".toList)) = [5, 4] ∧ Within 1 [5, 4] ∧
    (∃ o ∈ w'.kube.select (selectsTenant "z".toList), ∀ o' ∈ w.kube.objs, o'.name ≠ o.name) ∧
    ipCounts (w'.kube.select (selectsTenant "z".toList)) = [3, 2, 4] ∧ ¬ Within 1 [3, 2, 4] := by
  refine ⟨?_, ?_, ?_, ?_, ?_, ?_⟩ <;> decide +kernel

end ArionDp
