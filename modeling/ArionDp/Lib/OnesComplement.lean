import Mathlib.Algebra.BigOperators.Group.Finset.Piecewise
import Mathlib.Data.Nat.ModEq
import Mathlib.Tactic.Ring

/-!
# Ones' complement sums

The ones' complement sum of 16-bit words is the sum with every carry added back at the low end. In
closed form it is the representative of the sum modulo `0xffff` in `1 .. 0xffff`, with `0` for the
empty sum.

* `endAround`: one round of adding the carries back; `residue`: the closed form;
* **`eq_residue`**: the closed form is determined by its range, its class modulo `0xffff` and
  whether it is zero;
* **`endAround_four`**: four rounds reach it from any 64-bit accumulator;
* `checksum`, **`checksum_valid`**: a list of words with its checksum added sums to `0xffff`;
* `add`, `sum`, **`sum_eq_residue`**: the words added one by one;
* **`sum_update`**: words that are replaced, so that a sum stays `0xffff` if and only if the old and the
  new ones are congruent, `residue_eq_max_iff`.
-/

namespace OnesComplement

/-- One folding round: add the bits above the low 16 to the low 16. -/
def endAround (n : ℕ) : ℕ := if n / 65536 ≠ 0 then n % 65536 + n / 65536 else n

/-- The ones' complement sum of words with plain sum `n`. -/
def residue (n : ℕ) : ℕ := if n = 0 then 0 else (n - 1) % 65535 + 1

theorem residue_le (n : ℕ) : residue n ≤ 65535 := by
  unfold residue
  split_ifs <;> omega

theorem residue_eq_zero_iff (n : ℕ) : residue n = 0 ↔ n = 0 := by
  by_cases h : n = 0
  · simp [residue, h]
  · rw [residue, if_neg h]
    omega

theorem residue_modEq (n : ℕ) : residue n % 65535 = n % 65535 := by
  unfold residue
  split_ifs with h
  · rw [h]
  · have : n = n - 1 + 1 := by omega
    omega

/-- **The closed form is the only value with these properties.** -/
theorem eq_residue {v n : ℕ} (hv : v ≤ 65535) (hm : v % 65535 = n % 65535)
    (h0 : v = 0 ↔ n = 0) : v = residue n := by
  have h1 := residue_le n
  have h2 := residue_modEq n
  have h3 := residue_eq_zero_iff n
  by_cases hn : n = 0
  · rw [h0.mpr hn, h3.mpr hn]
  · have hv0 : v ≠ 0 := fun h => hn (h0.mp h)
    have hr0 : residue n ≠ 0 := fun h => hn (h3.mp h)
    omega

theorem endAround_modEq (n : ℕ) : endAround n % 65535 = n % 65535 := by
  unfold endAround
  split_ifs <;> omega

theorem endAround_eq_zero_iff (n : ℕ) : endAround n = 0 ↔ n = 0 := by
  unfold endAround
  split_ifs <;> omega

/-- **Four rounds are enough for any 64-bit accumulator.** -/
theorem endAround_four {n : ℕ} (hn : n < 2 ^ 64) :
    endAround (endAround (endAround (endAround n))) = residue n := by
  refine eq_residue ?_ ?_ ?_
  · have h1 : endAround n ≤ 2 ^ 48 + 65534 := by unfold endAround; split_ifs <;> omega
    have h2 : endAround (endAround n) ≤ 2 ^ 32 + 65534 := by
      generalize endAround n = a at h1
      unfold endAround; split_ifs <;> omega
    have h3 : endAround (endAround (endAround n)) ≤ 131070 := by
      generalize endAround (endAround n) = a at h2
      unfold endAround; split_ifs <;> omega
    generalize endAround (endAround (endAround n)) = a at h3
    unfold endAround; split_ifs <;> omega
  · rw [endAround_modEq, endAround_modEq, endAround_modEq, endAround_modEq]
  · rw [endAround_eq_zero_iff, endAround_eq_zero_iff, endAround_eq_zero_iff, endAround_eq_zero_iff]

/-- The checksum of words with plain sum `n`: the complement of their ones' complement sum. -/
def checksum (n : ℕ) : ℕ := 65535 - residue n

theorem checksum_le (n : ℕ) : checksum n ≤ 65535 := Nat.sub_le _ _

/-- **Adding the checksum makes the ones' complement sum all ones.** -/
theorem checksum_valid (n : ℕ) : residue (n + checksum n) = 65535 := by
  have h1 := residue_le n
  have h2 := residue_modEq n
  have h3 := residue_eq_zero_iff n
  refine (eq_residue le_rfl ?_ ?_).symm
  · unfold checksum
    omega
  · unfold checksum
    constructor
    · intro h; omega
    · intro h
      have := h3.mpr (by omega)
      omega

/-- **The sums that are all ones.** -/
theorem residue_eq_max_iff {n : ℕ} : residue n = 65535 ↔ n ≠ 0 ∧ n ≡ 0 [MOD 65535] := by
  have h1 := residue_le n
  have h2 := residue_modEq n
  have h3 := residue_eq_zero_iff n
  unfold Nat.ModEq
  constructor
  · intro h
    exact ⟨fun hn => by omega, by omega⟩
  · rintro ⟨hn, hm⟩
    have hr : residue n ≠ 0 := fun h => hn (h3.1 h)
    omega

/-! ## Word by word -/

/-- Addition of words, with the carry added back at the low end. -/
def add (a b : ℕ) : ℕ := endAround (a + b)

/-- The ones' complement sum of words, one after the other. -/
def sum (l : List ℕ) : ℕ := l.foldl add 0

theorem add_residue (a : ℕ) {w : ℕ} (hw : w < 65536) : add (residue a) w = residue (a + w) := by
  have h1 := residue_le a
  have h2 := residue_modEq a
  have h3 := residue_eq_zero_iff a
  refine eq_residue ?_ ?_ ?_
  · unfold add endAround
    split_ifs <;> omega
  · rw [add, endAround_modEq]
    omega
  · rw [add, endAround_eq_zero_iff]
    omega

/-- **The sum in closed form.** -/
theorem sum_eq_residue {l : List ℕ} (h : ∀ w ∈ l, w < 65536) : sum l = residue l.sum := by
  suffices hfrom : ∀ a, l.foldl add (residue a) = residue (a + l.sum) by
    have h0 := hfrom 0
    rwa [Nat.zero_add] at h0
  induction l with
  | nil => exact fun a => rfl
  | cons w l ih =>
    intro a
    rw [List.foldl_cons, add_residue a (h w (List.mem_cons_self ..)),
      ih fun v hv => h v (List.mem_cons_of_mem _ hv), List.sum_cons, Nat.add_assoc]

/-! ## Replaced words -/

open Finset in
/-- **Words that are replaced**: the words with numbers in `l`, of which the ones from `n` on do not count. -/
theorem sum_update {f g : ℕ → ℕ} {l : List ℕ} (hl : l.Nodup) (n : ℕ) (hoff : ∀ k ∉ l, f k = g k)
    (hout : ∀ k ∈ l, n ≤ k → f k = 0 ∧ g k = 0) :
    ((List.range n).map f).sum + (l.map g).sum = ((List.range n).map g).sum + (l.map f).sum := by
  have hrange : ∀ h : ℕ → ℕ, ((List.range n).map h).sum = ∑ k ∈ range n, h k := fun h => rfl
  have hlist : ∀ h : ℕ → ℕ, (∀ k ∈ l, n ≤ k → h k = 0) →
      (l.map h).sum = ∑ k ∈ range n ∩ l.toFinset, h k := by
    intro h hz
    rw [← List.sum_toFinset h hl]
    refine (sum_subset inter_subset_right fun k hk hk' => hz k (List.mem_toFinset.1 hk) ?_).symm
    exact Nat.not_lt.1 fun hlt => hk' (mem_inter.2 ⟨mem_range.2 hlt, hk⟩)
  have hrest : ∑ k ∈ range n \ l.toFinset, f k = ∑ k ∈ range n \ l.toFinset, g k :=
    sum_congr rfl fun k hk => hoff k fun hkl => (mem_sdiff.1 hk).2 (List.mem_toFinset.2 hkl)
  rw [hlist f fun k hk hn => (hout k hk hn).1, hlist g fun k hk hn => (hout k hk hn).2, hrange, hrange,
    ← sum_inter_add_sum_sdiff (range n) l.toFinset f, ← sum_inter_add_sum_sdiff (range n) l.toFinset g,
    hrest]
  omega

end OnesComplement
