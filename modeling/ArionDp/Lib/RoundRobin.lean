import Mathlib.Data.List.Sort
import Mathlib.Data.Nat.ModEq

/-!
# Taking turns

Items are dealt one by one to `k` takers, who take turns.

* `turns`, `turns_succ`, `turns_eq`: how many turns a taker has had;
* `dealt`, `length_dealt`, **`flatMap_dealt_perm`**: what a taker gets, and that each item is dealt once;
* `Within`, **`within_add_turns`**: numbers that are close to each other stay so when the smaller ones have
  their turns first.
-/

namespace RoundRobin

/-! ## Turns -/

/-- The number of turns that taker `r` of `k` has had when `n` items have been dealt. -/
def turns (k n r : ℕ) : ℕ := n / k + if r < n % k then 1 else 0

theorem turns_succ {k r : ℕ} (hr : r < k) (n : ℕ) :
    turns k (n + 1) r = turns k n r + if r = n % k then 1 else 0 := by
  have hk : 0 < k := by omega
  have hlt := Nat.mod_lt n hk
  have hn := Nat.div_add_mod n k
  unfold turns
  by_cases hlast : n % k + 1 = k
  · obtain ⟨hd, hm⟩ := (Nat.div_mod_unique (a := n + 1) (c := 0) (d := n / k + 1) hk).2
      ⟨by rw [Nat.mul_add]; omega, hk⟩
    rw [hd, hm, if_neg (Nat.not_lt_zero r)]
    split_ifs <;> omega
  · obtain ⟨hd, hm⟩ := (Nat.div_mod_unique (a := n + 1) (c := n % k + 1) (d := n / k) hk).2
      ⟨by omega, by omega⟩
    rw [hd, hm]
    split_ifs <;> omega

theorem turns_of_le {k n r : ℕ} (hr : r < k) (hn : n ≤ k) : turns k n r = if r < n then 1 else 0 := by
  unfold turns
  rcases Nat.lt_or_eq_of_le hn with hlt | rfl
  · rw [Nat.div_eq_of_lt hlt, Nat.mod_eq_of_lt hlt, Nat.zero_add]
  · rw [Nat.div_self (by omega), Nat.mod_self, if_neg (Nat.not_lt_zero r), if_pos hr]

theorem turns_pos_of_le {k n : ℕ} (hk : 0 < k) (hn : k ≤ n) (r : ℕ) : 0 < turns k n r :=
  Nat.add_pos_left (Nat.div_pos hn hk) _

/-- A taker has had a turn once there have been more turns than takers before it. -/
theorem turns_pos_iff {k n r : ℕ} (hr : r < k) : 0 < turns k n r ↔ r < n := by
  rcases Nat.le_total n k with hn | hn
  · rw [turns_of_le hr hn]
    split_ifs <;> omega
  · exact iff_of_true (turns_pos_of_le (by omega) hn r) (by omega)

/-- With more turns than takers, the first taker has had two. -/
theorem two_le_turns {k n : ℕ} (hk : 0 < k) (hn : k < n) : 2 ≤ turns k n 0 := by
  have hdiv : 1 ≤ n / k := Nat.div_pos hn.le hk
  have hsum := Nat.div_add_mod n k
  unfold turns
  split_ifs with hmod
  · omega
  · have hne : n / k ≠ 1 := by
      intro hc
      rw [hc, Nat.mul_one] at hsum
      omega
    omega

/-- All takers have had the same number of turns, rounded down or up. -/
theorem turns_eq {k n : ℕ} (hk : 0 < k) (r : ℕ) :
    turns k n r = n / k ∨ turns k n r = (n + k - 1) / k := by
  have hsum := Nat.div_add_mod n k
  have hlt := Nat.mod_lt n hk
  unfold turns
  split_ifs with hmod
  · right
    refine ((Nat.div_mod_unique (c := n % k - 1) (d := n / k + 1) hk).2 ⟨?_, by omega⟩).1.symm
    rw [Nat.mul_add]
    omega
  · exact .inl rfl

/-- The first takers have had as many turns as the others, or one more. -/
theorem turns_mono (k n : ℕ) {r r' : ℕ} (h : r ≤ r') :
    turns k n r' ≤ turns k n r ∧ turns k n r ≤ turns k n r' + 1 := by
  unfold turns
  split_ifs <;> omega

/-! ## Dealing -/

section Dealing

variable {α : Type}

/-- What taker `r` of `k` gets of some items, which are dealt from number `index` on. -/
def dealt (k r : ℕ) : ℕ → List α → List α
  | _, [] => []
  | index, a :: l => if index % k = r then a :: dealt k r (index + 1) l else dealt k r (index + 1) l

theorem length_dealt {k r : ℕ} (hr : r < k) (index : ℕ) (l : List α) :
    turns k index r + (dealt k r index l).length = turns k (index + l.length) r := by
  induction l generalizing index with
  | nil => rfl
  | cons a l ih =>
    have hstep := ih (index + 1)
    rw [turns_succ hr] at hstep
    rw [dealt, List.length_cons, ← Nat.add_assoc, Nat.add_right_comm, ← hstep]
    by_cases h : index % k = r
    · rw [if_pos h, if_pos h.symm, List.length_cons]
      omega
    · rw [if_neg h, if_neg (Ne.symm h)]
      rfl

/-- One more item for one taker. -/
theorem flatMap_ite_perm {i : ℕ} {takers : List ℕ} (hn : takers.Nodup) (hi : i ∈ takers) (a : α)
    (f : ℕ → List α) :
    (takers.flatMap fun r => if i = r then a :: f r else f r).Perm (a :: takers.flatMap f) := by
  induction takers with
  | nil => exact absurd hi List.not_mem_nil
  | cons r takers ih =>
    have hnd := List.nodup_cons.1 hn
    rw [List.flatMap_cons, List.flatMap_cons]
    by_cases h : i = r
    · subst h
      have hrest : (takers.flatMap fun r => if i = r then a :: f r else f r) = takers.flatMap f := by
        refine List.flatMap_congr fun r hr => if_neg ?_
        rintro rfl
        exact hnd.1 hr
      rw [if_pos rfl, hrest]
      exact .refl _
    · rw [if_neg h]
      have hmem := (List.mem_cons.1 hi).resolve_left h
      exact ((ih hnd.2 hmem).append_left _).trans List.perm_middle

/-- **Each item is dealt exactly once.** -/
theorem flatMap_dealt_perm {k : ℕ} (hk : 0 < k) (index : ℕ) (l : List α) :
    ((List.range k).flatMap fun r => dealt k r index l).Perm l := by
  induction l generalizing index with
  | nil => exact .of_eq (List.flatMap_eq_nil_iff.2 fun _ _ => rfl)
  | cons a l ih =>
    have hmem : index % k ∈ List.range k := List.mem_range.2 (Nat.mod_lt _ hk)
    exact (flatMap_ite_perm List.nodup_range hmem a _).trans ((ih (index + 1)).cons a)

end Dealing

/-! ## Numbers close to each other -/

/-- Any two of the numbers differ by at most `s`. -/
def Within (s : ℕ) (l : List ℕ) : Prop := ∀ a ∈ l, ∀ b ∈ l, a ≤ b + s

instance (s : ℕ) (l : List ℕ) : Decidable (Within s l) :=
  inferInstanceAs (Decidable (∀ a ∈ l, ∀ b ∈ l, a ≤ b + s))

theorem Within.perm {s : ℕ} {l l' : List ℕ} (h : Within s l) (hp : l.Perm l') : Within s l' :=
  fun a ha b hb => h a (hp.mem_iff.2 ha) b (hp.mem_iff.2 hb)

theorem within_perm_iff {s : ℕ} {l l' : List ℕ} (hp : l.Perm l') : Within s l ↔ Within s l' :=
  ⟨fun h => h.perm hp, fun h => h.perm hp.symm⟩

theorem within_concat {s : ℕ} {l : List ℕ} {x : ℕ} :
    Within s (l ++ [x]) ↔ Within s l ∧ ∀ a ∈ l, a ≤ x + s ∧ x ≤ a + s := by
  constructor
  · intro h
    refine ⟨fun a ha b hb => ?_, fun a ha => ⟨?_, ?_⟩⟩
    · exact h a (List.mem_append_left _ ha) b (List.mem_append_left _ hb)
    · exact h a (List.mem_append_left _ ha) x (List.mem_append_right _ (List.mem_singleton_self x))
    · exact h x (List.mem_append_right _ (List.mem_singleton_self x)) a (List.mem_append_left _ ha)
  · rintro ⟨hl, hx⟩ a ha b hb
    rcases List.mem_append.1 ha with ha | ha <;> rcases List.mem_append.1 hb with hb | hb
    · exact hl a ha b hb
    · rw [List.mem_singleton.1 hb]
      exact (hx a ha).1
    · rw [List.mem_singleton.1 ha]
      exact (hx b hb).2
    · rw [List.mem_singleton.1 ha, List.mem_singleton.1 hb]
      exact Nat.le_add_right x s

/-- Numbers that differ by at most one are the smallest one and its successor. -/
theorem Within.eq_or {l : List ℕ} (h : Within 1 l) (hne : l ≠ []) :
    ∃ m ∈ l, l.min? = some m ∧ ∀ a ∈ l, a = m ∨ a = m + 1 := by
  obtain ⟨m, hm⟩ := Option.ne_none_iff_exists'.1 (mt List.min?_eq_none_iff.1 hne)
  obtain ⟨hmem, hle⟩ := List.min?_eq_some_iff.1 hm
  refine ⟨m, hmem, hm, fun a ha => ?_⟩
  have hlow := hle a ha
  have hhigh := h a ha m hmem
  omega

theorem sum_eq_of_eq_or {l : List ℕ} {m : ℕ} (h : ∀ a ∈ l, a = m ∨ a = m + 1) :
    l.sum = l.length * m + l.countP (m < ·) := by
  induction l with
  | nil => simp
  | cons a l ih =>
    have hl := ih fun b hb => h b (List.mem_cons_of_mem _ hb)
    rw [List.sum_cons, List.length_cons, List.countP_cons, hl, Nat.succ_mul]
    rcases h a (List.mem_cons_self ..) with rfl | rfl
    · rw [if_neg (by simp)]
      omega
    · rw [if_pos (by simp)]
      omega

/-- **Dealing to the smaller ones first** does not make the differences larger, but for the one that a single
item makes. -/
theorem within_add_turns {l : List ℕ} (hl : l.Pairwise (· ≤ ·)) (n : ℕ) {s : ℕ} (h : Within s l) :
    Within (max 1 s) (l.mapIdx fun r a => a + turns l.length n r) := by
  intro a ha b hb
  obtain ⟨i, hi, rfl⟩ := List.mem_mapIdx.1 ha
  obtain ⟨j, hj, rfl⟩ := List.mem_mapIdx.1 hb
  rcases Nat.le_total i j with hij | hij
  · have hle : l[i] ≤ l[j] := by
      rcases Nat.lt_or_eq_of_le hij with hlt | rfl
      · exact List.pairwise_iff_getElem.1 hl i j hi hj hlt
      · exact le_rfl
    have hturn := (turns_mono l.length n hij).2
    omega
  · have hs := h l[i] (List.getElem_mem hi) l[j] (List.getElem_mem hj)
    have hturn := (turns_mono l.length n hij).1
    omega

end RoundRobin
