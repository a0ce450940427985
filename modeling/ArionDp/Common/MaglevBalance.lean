import ArionDp.Common.MaglevRuns
import ArionDp.Lib.RoundRobin
import Mathlib.Data.Finset.Sort

/-!
# The balance of a table

The elements take turns in their sorted order, so that they have equally many slots, but for the first
ones, which may have one more.

* `Turns`: the invariant of the filling, how many slots every element has so far;
* `placeElements_turns`, `populateRounds_turns`: a round, and all rounds;
* **`populate_balanced`**: the table of any names;
* `Spread`: a table over given names, all with the same share;
* **`table_spread_iff`**: the attribute `table`, which is that of the last `get_table`.
-/

namespace ArionDp

open Py RoundRobin

/-! ## Turns -/

/-- **The invariant of the filling**: so many slots are taken as elements have been placed, all of them by
elements, and every element has had its turns. -/
structure Turns (elements : List ElementName) (f : Filling) : Prop where
  taken : f.table.countP Slot.truthy = f.n
  entries : ∀ e, some e ∈ f.table → e ∈ elements
  count : ∀ (r : ℕ) e, elements[r]? = some e → f.table.count (some e) = turns elements.length f.n r

/-- What the inner loop finds is free. -/
theorem findSlot_free (table : List Slot) (cands : List ℕ) (j : ℕ) :
    Returns (findSlot table cands j) fun found => FreeSlot table found.2 := by
  induction cands generalizing j with
  | nil => exact Returns.error
  | cons cand rest ih =>
    rw [findSlot]
    cases hs : table[cand]? with
    | none => exact Returns.error
    | some s =>
      refine Returns.ite (fun _ => ih (j + 1)) fun hf => ?_
      exact Returns.pure ⟨s, hs, eq_false_of_ne_true hf⟩

/-- An element is placed on a free slot. -/
theorem placeElement_returns (perms : List (ElementName × List ℕ)) (e : ElementName) (i : ℕ)
    (f : Filling) : Returns (placeElement perms e i f) fun f' => ∃ c, FreeSlot f.table c ∧
      f'.table = f.table.set c (some e) ∧ f'.n = f.n + 1 := by
  refine Returns.bind (Returns.trivial _) fun perm _ => ?_
  cases f.nextInd[i]? with
  | none => exact Returns.error
  | some next =>
    refine Returns.bind (findSlot_free f.table (perm.drop next) next) fun found hfree => ?_
    exact Returns.pure ⟨found.2, hfree, rfl, rfl⟩

/-- A slot that is free has no element yet. -/
theorem count_set_free {table : List Slot} {c : ℕ} (h : FreeSlot table c) (e : ElementName)
    {e' : ElementName} (he' : e' ≠ []) :
    (table.set c (some e)).count (some e') = table.count (some e') + if e = e' then 1 else 0 := by
  obtain ⟨s, hs, hsf⟩ := h
  obtain ⟨hlt, rfl⟩ := List.getElem?_eq_some_iff.1 hs
  have hne : table[c] ≠ some e' := by
    intro hc
    rw [hc] at hsf
    exact he' (of_decide_eq_false hsf |> not_not.1)
  rw [List.count_set hlt]
  simp [hne]

section Fill

variable {p : ℕ} {elements : List ElementName} {f : Filling}

/-- **One turn.** -/
theorem Turns.place (h : Turns elements f) (hnd : elements.Nodup) (hne : ∀ e ∈ elements, e ≠ [])
    {e : ElementName} (he : elements[f.n % elements.length]? = some e) {c : ℕ} {f' : Filling}
    (hc : FreeSlot f.table c) (ht : f'.table = f.table.set c (some e)) (hn : f'.n = f.n + 1) :
    Turns elements f' := by
  obtain ⟨hlt, -⟩ := List.getElem?_eq_some_iff.1 he
  have hmem := List.mem_of_getElem? he
  refine ⟨?_, fun e' he' => ?_, fun r e' hr => ?_⟩
  · rw [ht, hn, countP_set_free hc (hne e hmem), h.taken]
  · rw [ht] at he'
    rcases List.mem_or_eq_of_mem_set he' with hold | hnew
    · exact h.entries e' hold
    · exact Option.some.inj hnew ▸ hmem
  · obtain ⟨hr', -⟩ := List.getElem?_eq_some_iff.1 hr
    have hiff : e = e' ↔ r = f.n % elements.length := by
      rw [← Option.some_inj, ← he, ← hr]
      exact eq_comm.trans (List.getElem?_inj hr' hnd)
    rw [ht, hn, count_set_free hc e (hne e' (List.mem_of_getElem? hr)), h.count r e' hr, turns_succ hr']
    simp only [hiff]

variable {perms : List (ElementName × List ℕ)} (hnd : elements.Nodup) (hne : ∀ e ∈ elements, e ≠ [])

include hnd hne

/-- **A round** from element number `done.length` on, which is the one whose turn it is. -/
theorem placeElements_turns (done todo : List ElementName) (hsplit : done ++ todo = elements)
    (h : Turns elements f) (hturn : todo ≠ [] → f.n % elements.length = done.length) :
    Returns (placeElements p perms todo done.length f) fun r => Turns elements r.1 ∧
      if r.2 then r.1.n = p else todo ≠ [] → r.1.n % elements.length = 0 := by
  induction todo generalizing done f with
  | nil => exact Returns.pure ⟨h, fun hc => absurd rfl hc⟩
  | cons e todo ih =>
    have hturn := hturn (List.cons_ne_nil e todo)
    have he : elements[f.n % elements.length]? = some e := by
      rw [hturn, ← hsplit, List.getElem?_append_right (Nat.le_refl _), Nat.sub_self]
      rfl
    refine Returns.bind (placeElement_returns perms e done.length f) fun f₁ hf₁ => ?_
    obtain ⟨c, hc, ht, hn⟩ := hf₁
    have h₁ := h.place hnd hne he hc ht hn
    have hlen : elements.length = done.length + (todo.length + 1) := by
      rw [← hsplit, List.length_append, List.length_cons]
    have hmod := Nat.div_add_mod f.n elements.length
    refine Returns.ite (fun hfull => Returns.pure ⟨h₁, hfull⟩) fun hfull => ?_
    cases todo with
    | nil =>
      refine Returns.pure ⟨h₁, fun _ => ?_⟩
      rw [hn]
      refine ((Nat.div_mod_unique (c := 0) (d := f.n / elements.length + 1) (by omega)).2 ⟨?_, ?_⟩).2
      · rw [Nat.mul_add]
        simp only [List.length_nil] at hlen
        omega
      · omega
    | cons e' todo =>
      rw [List.length_cons] at hlen
      have hnext : f₁.n % elements.length = (done ++ [e]).length := by
        rw [hn, List.length_append, List.length_singleton]
        exact ((Nat.div_mod_unique (d := f.n / elements.length) (by omega)).2 ⟨by omega, by omega⟩).2
      have hrest := ih (done ++ [e]) (by rw [List.append_assoc]; exact hsplit) h₁ fun _ => hnext
      rw [List.length_append, List.length_singleton] at hrest
      intro r hr
      obtain ⟨hr₁, hr₂⟩ := hrest r hr
      refine ⟨hr₁, ?_⟩
      split_ifs at hr₂ ⊢
      · exact hr₂
      · exact fun _ => hr₂ (List.cons_ne_nil e' todo)

/-- **All rounds.** -/
theorem populateRounds_turns (hnil : elements ≠ []) (rounds : ℕ) (h : Turns elements f)
    (hturn : f.n % elements.length = 0) :
    Returns (populateRounds p perms elements rounds f) fun table =>
      ∃ f', Turns elements f' ∧ f'.table = table ∧ f'.n = p := by
  induction rounds generalizing f with
  | zero => exact Returns.error
  | succ rounds ih =>
    refine Returns.bind (placeElements_turns hnd hne [] elements rfl h fun _ => hturn) fun r hr => ?_
    obtain ⟨hr₁, hr₂⟩ := hr
    refine Returns.ite (fun hfull => Returns.pure ⟨r.1, hr₁, rfl, ?_⟩) fun hfull => ih hr₁ ?_
    · rwa [if_pos hfull] at hr₂
    · rw [if_neg hfull] at hr₂
      exact hr₂ hnil

end Fill

/-! ## Whole tables -/

section Populate

variable {p : ℕ} {perms : List (ElementName × List ℕ)}

/-- The elements of a table, in the order of their turns. -/
def sortedKeys (perms : List (ElementName × List ℕ)) : List ElementName :=
  (perms.map Prod.fst).insertionSort (· ≤ ·)

theorem length_sortedKeys : (sortedKeys perms).length = perms.length := by
  rw [sortedKeys, List.length_insertionSort, List.length_map]

theorem nodup_sortedKeys (h : (perms.map Prod.fst).Nodup) : (sortedKeys perms).Nodup :=
  (List.perm_insertionSort _ _).nodup_iff.2 h

theorem mem_sortedKeys {e : ElementName} : e ∈ sortedKeys perms ↔ e ∈ perms.map Prod.fst :=
  List.mem_insertionSort _

/-- **A filled table is balanced.** -/
theorem populate_turns (h : HasPermutations p perms) (hnd : (perms.map Prod.fst).Nodup)
    (hnil : perms ≠ []) : Returns (populate p perms) fun table =>
      ∃ f, Turns (sortedKeys perms) f ∧ f.table = table ∧ f.n = p := by
  have hne : ∀ e ∈ sortedKeys perms, e ≠ [] := by
    intro e he
    obtain ⟨d, hd, rfl⟩ := List.mem_map.1 (mem_sortedKeys.1 he)
    exact (h d hd).2
  have hkeys : sortedKeys perms ≠ [] := by
    intro hc
    rw [← List.length_eq_zero_iff, length_sortedKeys, List.length_eq_zero_iff] at hc
    exact hnil hc
  refine populateRounds_turns (nodup_sortedKeys hnd) hne hkeys p ⟨?_, fun e he => ?_, fun r e hr => ?_⟩
    (Nat.zero_mod _)
  · refine List.countP_eq_zero.2 fun s hs => ?_
    rw [List.eq_of_mem_replicate hs]
    exact Bool.false_ne_true
  · exact nomatch List.eq_of_mem_replicate he
  · have hnone : List.count (some e) (List.replicate p (none : Slot)) = 0 :=
      List.count_eq_zero.2 fun hc => nomatch List.eq_of_mem_replicate hc
    refine hnone.trans ?_
    simp [turns]

/-- The permutations of a list of names, as `add` computes them. -/
def permutationsOf (p : ℕ) (names : List ElementName) :
    Except MaglevError (List (ElementName × List ℕ)) :=
  names.mapM fun e => (computePermutations p e).map fun perm => (e, perm)

theorem permutationsOf_eq (hp : 2 ≤ p) {names : List ElementName} (hascii : ∀ e ∈ names, AsciiName e) :
    permutationsOf p names = .ok (names.map fun e => (e, permutation p e)) := by
  unfold permutationsOf
  induction names with
  | nil => rfl
  | cons e names ih =>
    rw [List.mapM_cons, computePermutations_eq hp (hascii e (List.mem_cons_self ..)).2,
      ih fun e he => hascii e (List.mem_cons_of_mem _ he)]
    rfl

theorem Turns.truthy {elements : List ElementName} {f : Filling} (h : Turns elements f)
    (hfull : f.n = f.table.length) : ∀ s ∈ f.table, s.truthy = true :=
  List.countP_eq_length.1 (h.taken.trans hfull)

end Populate

/-- **The population is total, complete and balanced.** For a prime number of slots and any names in
ASCII, in any order, the permutations are computed and the filling ends, without an index out of range.
Every slot has one of the names, and the name number `r` in sorted order has the `r`-th share of the
slots. -/
theorem populate_balanced {M : ℕ} (hM : M.Prime) {names : List ElementName} (hnd : names.Nodup)
    (hne : names ≠ []) (hascii : ∀ e ∈ names, AsciiName e) :
    ∃ perms table, permutationsOf M names = .ok perms ∧ populate M perms = .ok table ∧
      table.length = M ∧ (∀ s ∈ table, ∃ e ∈ names, s = some e ∧ e ≠ []) ∧
      ∀ (r : ℕ) e, (names.insertionSort (· ≤ ·))[r]? = some e →
        table.count (some e) = M / names.length + if r < M % names.length then 1 else 0 := by
  have hkeys : (names.map fun e => (e, permutation M e)).map Prod.fst = names := by
    rw [List.map_map]
    exact List.map_id _
  have hperms : HasPermutations M (names.map fun e => (e, permutation M e)) := by
    intro d hd
    obtain ⟨e, he, rfl⟩ := List.mem_map.1 hd
    exact ⟨rfl, (hascii e he).1⟩
  have hnil : (names.map fun e => (e, permutation M e)) ≠ [] := mt List.map_eq_nil_iff.1 hne
  obtain ⟨table, hpop, hlen⟩ := populate_ok hM hperms hnil
  obtain ⟨f, hf, rfl, hn⟩ := populate_turns hperms (hkeys.symm ▸ hnd) hnil table hpop
  refine ⟨_, f.table, permutationsOf_eq hM.two_le hascii, hpop, hlen, fun s hs => ?_, fun r e hr => ?_⟩
  · have hall := hf.truthy (hn.trans hlen.symm)
    cases s with
    | none => exact absurd (hall none hs) Bool.false_ne_true
    | some e =>
      have he := mem_sortedKeys.1 (hf.entries e hs)
      rw [hkeys] at he
      exact ⟨e, he, rfl, (hascii e he).1⟩
  · have hr' : (sortedKeys (names.map fun e => (e, permutation M e)))[r]? = some e := by
      rw [sortedKeys, hkeys]
      exact hr
    rw [hf.count r e hr', length_sortedKeys, List.length_map, hn, turns]

/-- Three names on seven slots, as a test of the source has them: the first in sorted order has three. -/
theorem populate_balanced_sample :
    ∃ perms table, permutationsOf 7 ["chain2".toList, "chain0".toList, "chain1".toList] = .ok perms ∧
      populate 7 perms = .ok table ∧ table.length = 7 ∧
      (∀ s ∈ table, ∃ e ∈ ["chain2".toList, "chain0".toList, "chain1".toList], s = some e ∧ e ≠ []) ∧
      ∀ (r : ℕ) e, (["chain2".toList, "chain0".toList, "chain1".toList].insertionSort
          (· ≤ ·))[r]? = some e →
        table.count (some e) = 7 / 3 + if r < 7 % 3 then 1 else 0 :=
  populate_balanced (by decide) (by decide) (by decide) (by decide +kernel)

/-! ## Tables over given names -/

/-- **A table over names**: full, with nothing but the names, all with the same share of the slots,
rounded down or up. -/
structure Spread (M : ℕ) (names : List ElementName) (table : List Slot) : Prop where
  length : table.length = M
  entries : ∀ s ∈ table, ∃ e ∈ names, s = some e
  shares : ∀ e ∈ names, table.count (some e) = M / names.length ∨
    table.count (some e) = (M + names.length - 1) / names.length

section Spread

variable {M : ℕ} {perms : List (ElementName × List ℕ)} {f : Filling}

/-- The elements that have a slot. -/
def placed (M : ℕ) (perms : List (ElementName × List ℕ)) : List ElementName := (sortedKeys perms).take M

theorem length_placed : (placed M perms).length = min M perms.length := by
  rw [placed, List.length_take, length_sortedKeys]

theorem Turns.mem_iff (h : Turns (sortedKeys perms) f) (hn : f.n = M) {e : ElementName} :
    some e ∈ f.table ↔ e ∈ placed M perms := by
  rw [← List.count_pos_iff, placed, List.mem_take_iff_getElem]
  constructor
  · intro hpos
    obtain ⟨r, hr, rfl⟩ := List.mem_iff_getElem.1 (h.entries e (List.count_pos_iff.1 hpos))
    rw [h.count r _ (List.getElem?_eq_getElem hr), hn, turns_pos_iff hr] at hpos
    exact ⟨r, by omega, rfl⟩
  · rintro ⟨r, hr, rfl⟩
    have hr' : r < (sortedKeys perms).length := by omega
    rw [h.count r _ (List.getElem?_eq_getElem hr'), hn, turns_pos_iff hr']
    omega

/-- What a name has of the slots. -/
theorem Turns.count_eq (h : Turns (sortedKeys perms) f) (hn : f.n = M) {e : ElementName}
    (he : e ∈ sortedKeys perms) : ∃ r < perms.length, (sortedKeys perms)[r]? = some e ∧
      f.table.count (some e) = turns perms.length M r := by
  obtain ⟨r, hr, rfl⟩ := List.mem_iff_getElem.1 he
  refine ⟨r, length_sortedKeys ▸ hr, List.getElem?_eq_getElem hr, ?_⟩
  rw [h.count r _ (List.getElem?_eq_getElem hr), hn, length_sortedKeys]

/-- If no element has two slots, there are no fewer elements than slots. -/
theorem Turns.le_length (h : Turns (sortedKeys perms) f) (hn : f.n = M) (hlen : f.table.length = M)
    (hsome : ∀ s ∈ f.table, ∃ e, s = some e)
    (hone : ∀ e ∈ placed M perms, f.table.count (some e) ≤ 1) : M ≤ perms.length := by
  by_contra hk
  have hne : f.table ≠ [] := by
    intro hc
    rw [hc, List.length_nil] at hlen
    omega
  obtain ⟨s, hs⟩ := List.exists_mem_of_ne_nil _ hne
  obtain ⟨e, rfl⟩ := hsome s hs
  have hk0 : 0 < (sortedKeys perms).length := List.length_pos_of_mem (h.entries e hs)
  have htwo := h.count 0 _ (List.getElem?_eq_getElem hk0)
  rw [hn, length_sortedKeys] at htwo
  rw [length_sortedKeys] at hk0
  have hpos := two_le_turns hk0 (Nat.not_le.1 hk)
  have hmem : (sortedKeys perms)[0] ∈ placed M perms :=
    (h.mem_iff hn).1 (List.count_pos_iff.1 (by omega))
  have := hone _ hmem
  omega

/-- The larger share of few slots. -/
theorem ceil_div_of_lt {M N : ℕ} (hM : 0 < M) (hlt : M < N) : (M + N - 1) / N = 1 :=
  ((Nat.div_mod_unique (c := M - 1) (d := 1) (by omega)).2 ⟨by omega, by omega⟩).1

variable {names : List ElementName} (h : Turns (sortedKeys perms) f) (hn : f.n = M)
  (hlen : f.table.length = M) (hM : 0 < M) (hnd : (perms.map Prod.fst).Nodup) (hnames : names.Nodup)
  (hnil : names ≠ [])

include h hn hlen hM hnd hnames hnil

theorem Turns.of_spread (hs : Spread M names f.table) :
    (∀ e ∈ placed M perms, e ∈ names) ∧ (placed M perms).length = min M names.length := by
  have hN : 0 < names.length := List.length_pos_iff.2 hnil
  have hsub : ∀ e ∈ placed M perms, e ∈ names := by
    intro e he
    obtain ⟨e', he', heq⟩ := hs.entries _ ((h.mem_iff hn).2 he)
    rwa [Option.some.inj heq]
  refine ⟨hsub, ?_⟩
  have hpnd : (placed M perms).Nodup := (nodup_sortedKeys hnd).sublist (List.take_sublist _ _)
  rcases Nat.lt_or_ge M names.length with hlt | hge
  · have hle : M ≤ perms.length := by
      refine h.le_length hn hlen (fun s hsm => (hs.entries s hsm).imp fun _ he => he.2) fun e he => ?_
      rcases hs.shares e (hsub e he) with hc | hc
      · rw [hc, Nat.div_eq_of_lt hlt]
        omega
      · rw [hc, ceil_div_of_lt hM hlt]
    rw [length_placed]
    omega
  · have hsup : ∀ e ∈ names, e ∈ placed M perms := by
      intro e he
      have hdown : 0 < M / names.length := Nat.div_pos hge hN
      refine (h.mem_iff hn).1 (List.count_pos_iff.1 ?_)
      rcases hs.shares e he with hc | hc
      · omega
      · have hle : M / names.length ≤ (M + names.length - 1) / names.length :=
          Nat.div_le_div_right (by omega)
        omega
    have hperm : (placed M perms).Perm names :=
      (List.perm_ext_iff_of_nodup hpnd hnames).2 fun e => ⟨hsub e, hsup e⟩
    rw [hperm.length_eq]
    omega

omit hnames in
theorem Turns.spread (hsub : ∀ e ∈ placed M perms, e ∈ names)
    (hcard : (placed M perms).length = min M names.length) : Spread M names f.table := by
  have hN : 0 < names.length := List.length_pos_iff.2 hnil
  refine ⟨hlen, fun s hs => ?_, fun e he => ?_⟩
  · have htrue := h.truthy (hn.trans hlen.symm) s hs
    cases s with
    | none => exact absurd htrue Bool.false_ne_true
    | some e => exact ⟨e, hsub e ((h.mem_iff hn).1 hs), rfl⟩
  · have hmin : (placed M perms).length = min M perms.length := length_placed
    rcases Nat.lt_or_ge M names.length with hlt | hge
    · have hdown : M / names.length = 0 := Nat.div_eq_of_lt hlt
      rw [hdown, ceil_div_of_lt hM hlt]
      by_cases hkey : e ∈ sortedKeys perms
      · obtain ⟨r, hr, -, hc⟩ := h.count_eq hn hkey
        rw [hc, turns_of_le hr (by omega)]
        split_ifs
        · exact .inr rfl
        · exact .inl rfl
      · exact .inl (List.count_eq_zero.2 fun hc => hkey (h.entries e hc))
    · have hpnd : (placed M perms).Nodup := (nodup_sortedKeys hnd).sublist (List.take_sublist _ _)
      have hperm : (placed M perms).Perm names :=
        (List.subperm_of_subset hpnd hsub).perm_of_length_le (by omega)
      have hplaced : e ∈ placed M perms := hperm.mem_iff.2 he
      obtain ⟨r, hr, hget, hc⟩ := h.count_eq hn (List.mem_of_mem_take hplaced)
      rw [hc]
      rcases Nat.lt_or_ge M perms.length with hlt' | hge'
      · -- more elements than slots: as many names as slots, and each has one
        have hpos : 0 < turns perms.length M r := by
          rw [← hc]
          exact List.count_pos_iff.2 ((h.mem_iff hn).2 hplaced)
        rw [turns_pos_iff hr] at hpos
        have hM' : names.length = M := by omega
        rw [turns_of_le hr hlt'.le, if_pos hpos, hM', Nat.div_self hM]
        exact .inl rfl
      · have hk : perms.length = names.length := by omega
        rw [hk]
        exact turns_eq hN r

/-- **When a table is one over given names**: the elements that have a slot are among the names, and are
all of them if there are enough slots. -/
theorem Turns.spread_iff : Spread M names f.table ↔ (∀ e ∈ placed M perms, e ∈ names) ∧
    (placed M perms).length = min M names.length :=
  ⟨h.of_spread hn hlen hM hnd hnames hnil, fun hc => h.spread hn hlen hM hnd hnil hc.1 hc.2⟩

end Spread

/-! ## The attribute `table` -/

/-- A call on the set, and on the elements that it had when `get_table` was last called. -/
def MaglevOp.shown (op : MaglevOp) (t : MaglevSpec × Finset ElementName) :
    MaglevSpec × Finset ElementName :=
  (op.spec t.1, if op = .getTable then t.1.elements else t.2)

/-- The elements that the table had when `get_table` was last called. -/
def shownAfter (ops : List MaglevOp) : Finset ElementName :=
  (ops.foldl (fun t op => op.shown t) (⟨∅, false⟩, ∅)).2

/-- **The attribute**: empty, or the table of the elements of the last `get_table`. -/
structure LastShown (p : ℕ) (s : MaglevTable) (t : MaglevSpec × Finset ElementName) : Prop where
  represents : Represents p s t.1
  table : t.2 = ∅ ∧ s.table = [] ∨ ∃ perms, HasPermutations p perms ∧ (perms.map Prod.fst).Nodup ∧
    perms ≠ [] ∧ (∀ e, e ∈ perms.map Prod.fst ↔ e ∈ t.2) ∧ populate p perms = .ok s.table

section LastShown

variable {p : ℕ} {s : MaglevTable} {t : MaglevSpec × Finset ElementName}

/-- The other calls leave the attribute alone. -/
theorem run_table {op : MaglevOp} (hop : op ≠ .getTable) : (op.run s).table = s.table := by
  cases op with
  | getTable => exact absurd rfl hop
  | add e =>
    rw [MaglevOp.run, MaglevTable.add, bind_run, getState_run]
    dsimp only
    split_ifs
    · rfl
    · rw [bind_run, ofExcept_run]
      cases computePermutations s.tableSize e with
      | error _ => rfl
      | ok _ => rfl
  | remove e =>
    rw [MaglevOp.run, MaglevTable.remove, bind_run, getState_run]
    dsimp only
    split_ifs
    · rfl
    · rfl

theorem LastShown.run (h : LastShown p s t) (hp : p.Prime) {op : MaglevOp} (hop : op.Permitted t.1) :
    LastShown p (op.run s) (op.shown t) := by
  have hr := h.represents.run hp hop
  refine ⟨hr, ?_⟩
  by_cases hget : op = .getTable
  · subst hget
    rcases hr.current rfl with ⟨hempty, htable⟩ | ⟨hperms, hpop⟩
    · exact .inl ⟨hempty, htable⟩
    · exact .inr ⟨_, hr.perms, hr.nodup, hperms, hr.elements, hpop⟩
  · rw [run_table hget, MaglevOp.shown, if_neg hget]
    exact h.table

theorem run_lastShown (hp : p.Prime) {ops : List MaglevOp} (h : LastShown p s t)
    (hops : Runs.EachStep specStep MaglevOp.Permitted ops t.1) :
    LastShown p (runMaglevOps ops s) (ops.foldl (fun t op => op.shown t) t) := by
  induction ops generalizing s t with
  | nil => exact h
  | cons op ops ih => exact ih (h.run hp hops.1) (hops.2 _ rfl)

theorem sortedKeys_eq {perms : List (ElementName × List ℕ)} {S : Finset ElementName}
    (hnd : (perms.map Prod.fst).Nodup) (hS : ∀ e, e ∈ perms.map Prod.fst ↔ e ∈ S) :
    sortedKeys perms = S.sort (· ≤ ·) := by
  have hperm : (sortedKeys perms).Perm (S.sort (· ≤ ·)) :=
    (List.perm_ext_iff_of_nodup (nodup_sortedKeys hnd) (S.sort_nodup _)).2 fun e => by
      rw [mem_sortedKeys, hS, Finset.mem_sort]
  exact hperm.eq_of_pairwise' (List.pairwise_insertionSort _ _) (S.pairwise_sort _)

/-- **When the attribute is a table over given names**: if and only if the elements of the last
`get_table` that have a slot there are names, and as many as can have one. -/
theorem table_spread_iff {M : ℕ} (hM : M.Prime) {ops : List MaglevOp} (hops : PermittedCalls ops)
    {names : List ElementName} (hnames : names.Nodup) (hnil : names ≠ []) :
    Spread M names (runMaglevOps ops (.new M)).table ↔
      (∀ e ∈ ((shownAfter ops).sort (· ≤ ·)).take M, e ∈ names) ∧
      (((shownAfter ops).sort (· ≤ ·)).take M).length = min M names.length := by
  have hnew : LastShown M (.new M) (⟨∅, false⟩, ∅) := ⟨.new M, .inl ⟨rfl, rfl⟩⟩
  rcases (run_lastShown hM hnew hops).table with ⟨hempty, htable⟩ | ⟨perms, hperms, hnd, hne, hS, hpop⟩
  · have hN : 0 < names.length := List.length_pos_iff.2 hnil
    rw [shownAfter, hempty, htable, Finset.sort_empty, List.take_nil]
    refine iff_of_false (fun hs => hM.ne_zero hs.length.symm) fun hc => ?_
    have := hM.pos
    have := hc.2
    rw [List.length_nil] at this
    omega
  · obtain ⟨table, hpop', hlen⟩ := populate_ok hM hperms hne
    obtain ⟨f, hf, htable, hn⟩ := populate_turns hperms hnd hne _ hpop
    rw [← htable, shownAfter, ← sortedKeys_eq hnd hS]
    refine hf.spread_iff hn ?_ hM.pos hnd hnames hnil
    rw [htable]
    exact Except.ok.inj (hpop.symm.trans hpop') ▸ hlen

end LastShown

end ArionDp
