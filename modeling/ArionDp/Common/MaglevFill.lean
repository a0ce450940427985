import ArionDp.Common.MaglevTable
import Mathlib.Data.Nat.ModEq
import Mathlib.Data.Nat.Prime.Basic
import Mathlib.Data.List.Count

/-!
# The filling ends

With a prime number of slots, every element has a permutation of the slots, so that it finds a free
one as long as there is one.

* `permutation`: the permutation of an element, with **`permutation_perm`**;
* `FillInv`: the places that an element has been through are taken;
* **`populate_ok`**: a table with elements is filled, whatever the order of the elements.
-/

namespace ArionDp

open Py

/-! ## Permutations -/

/-- The permutation of an element. -/
def permutation (p : ℕ) (element : ElementName) : List ℕ :=
  (List.range p).map fun i => (Zlib.crc32 (element.map Char.toNat) % p +
    i * (Zlib.adler32 (element.map Char.toNat) % (p - 1) + 1)) % p

theorem mapM_ok_map {ε α β : Type} (f : α → β) (l : List α) :
    l.mapM (fun a => (Except.ok (f a) : Except ε β)) = .ok (l.map f) := by
  induction l with
  | nil => rfl
  | cons a l ih =>
    rw [List.mapM_cons, ih]
    rfl

/-- Names in ASCII have a permutation. -/
theorem computePermutations_eq {p : ℕ} (hp : 2 ≤ p) {element : ElementName}
    (h : ∀ c ∈ element, c.toNat < 128) :
    computePermutations p element = .ok (permutation p element) := by
  rw [permutation, ← mapM_ok_map (ε := MaglevError)]
  unfold computePermutations
  refine congrArg (fun f => (List.range p).mapM f) (funext fun i => ?_)
  rw [encodeAscii, if_pos (List.all_eq_true.2 fun c hc => decide_eq_true (h c hc))]
  change (if p - 1 = 0 then _ else _) = _
  rw [if_neg (by omega)]
  rfl

/-- **Steps of a fixed length** below a prime go through all residues. -/
theorem perm_range_of_prime {p offset skip : ℕ} (hp : p.Prime) (h0 : 0 < skip) (hlt : skip < p) :
    ((List.range p).map fun i => (offset + i * skip) % p).Perm (List.range p) := by
  have hinj : ∀ i < p, ∀ j < p, (offset + i * skip) % p = (offset + j * skip) % p → i = j := by
    intro i hi j hj h
    have hco : Nat.Coprime p skip := Nat.coprime_of_lt_prime h0.ne' hlt hp
    have hmul : i * skip ≡ j * skip [MOD p] := Nat.ModEq.add_left_cancel' offset h
    have hij : i ≡ j [MOD p] := Nat.ModEq.cancel_right_of_coprime hco hmul
    rwa [Nat.ModEq, Nat.mod_eq_of_lt hi, Nat.mod_eq_of_lt hj] at hij
  have hnodup : ((List.range p).map fun i => (offset + i * skip) % p).Nodup :=
    List.nodup_range.map_on fun i hi j hj h => hinj i (List.mem_range.1 hi) j (List.mem_range.1 hj) h
  have hsub : ((List.range p).map fun i => (offset + i * skip) % p) ⊆ List.range p := by
    intro c hc
    obtain ⟨i, -, rfl⟩ := List.mem_map.1 hc
    exact List.mem_range.2 (Nat.mod_lt _ hp.pos)
  exact (List.subperm_of_subset hnodup hsub).perm_of_length_le (by simp)

theorem permutation_perm {p : ℕ} (hp : p.Prime) (element : ElementName) :
    (permutation p element).Perm (List.range p) := by
  have h2 := hp.two_le
  have hmod : Zlib.adler32 (element.map Char.toNat) % (p - 1) < p - 1 := Nat.mod_lt _ (by omega)
  exact perm_range_of_prime hp (Nat.succ_pos _) (by omega)

/-! ## Finding a free slot -/

/-- A slot of the table that is free. -/
def FreeSlot (table : List Slot) (c : ℕ) : Prop := ∃ s, table[c]? = some s ∧ s.truthy = false

/-- A slot of the table that is taken. -/
def TakenSlot (table : List Slot) (c : ℕ) : Prop := ∃ s, table[c]? = some s ∧ s.truthy = true

theorem findSlot_ok {table : List Slot} {cands : List ℕ} (hlt : ∀ c ∈ cands, c < table.length)
    (hfree : ∃ c ∈ cands, FreeSlot table c) (j : ℕ) :
    ∃ k c, findSlot table cands j = .ok (j + k, c) ∧ cands[k]? = some c ∧ FreeSlot table c ∧
      ∀ c' ∈ cands.take k, TakenSlot table c' := by
  induction cands generalizing j with
  | nil =>
    obtain ⟨c, hc, -⟩ := hfree
    exact absurd hc List.not_mem_nil
  | cons cand rest ih =>
    have hcand := hlt cand (List.mem_cons_self ..)
    have hget := List.getElem?_eq_getElem hcand
    cases hs : table[cand].truthy with
    | false =>
      refine ⟨0, cand, ?_, rfl, ⟨_, hget, hs⟩, fun c' hc' => absurd hc' List.not_mem_nil⟩
      rw [findSlot, hget]
      dsimp only
      rw [hs, if_neg Bool.false_ne_true]
      rfl
    | true =>
      have hrest : ∃ c ∈ rest, FreeSlot table c := by
        obtain ⟨c, hc, s, hcs, hsf⟩ := hfree
        rcases List.mem_cons.1 hc with rfl | hc
        · obtain rfl := Option.some.inj (hget.symm.trans hcs)
          rw [hs] at hsf
          cases hsf
        · exact ⟨c, hc, s, hcs, hsf⟩
      obtain ⟨k, c, hk, hck, hcf, htake⟩ :=
        ih (fun c hc => hlt c (List.mem_cons_of_mem _ hc)) hrest (j + 1)
      refine ⟨k + 1, c, ?_, hck, hcf, fun c' hc' => ?_⟩
      · rw [findSlot, hget]
        dsimp only
        rw [hs, if_pos rfl, hk, Nat.add_assoc, Nat.add_comm 1]
      · rcases List.mem_cons.1 hc' with rfl | hc'
        · exact ⟨_, hget, hs⟩
        · exact htake c' hc'

/-- A table that is not full has a free slot. -/
theorem exists_freeSlot {table : List Slot} (h : table.countP Slot.truthy < table.length) :
    ∃ c < table.length, FreeSlot table c := by
  obtain ⟨s, hs, hsf⟩ := List.countP_lt_length_iff.1 h
  obtain ⟨c, hc, rfl⟩ := List.getElem_of_mem hs
  exact ⟨c, hc, _, List.getElem?_eq_getElem hc, hsf⟩

/-! ## Placing elements -/

/-- **The invariant of the filling**: `n` slots are taken, and so are the first ones of every element's
permutation, as far as it has come. -/
structure FillInv (p : ℕ) (perm : ElementName → List ℕ) (elements : List ElementName) (f : Filling) :
    Prop where
  length : f.table.length = p
  count : f.table.countP Slot.truthy = f.n
  inds : f.nextInd.length = elements.length
  tried : ∀ (i : ℕ) e next, elements[i]? = some e → f.nextInd[i]? = some next →
    ∀ c ∈ (perm e).take next, TakenSlot f.table c

section Place

variable {p : ℕ} {perm : ElementName → List ℕ} {elements : List ElementName} {f : Filling}

theorem TakenSlot.set {table : List Slot} {c : ℕ} (h : TakenSlot table c) (c' : ℕ) {e : ElementName}
    (he : e ≠ []) : TakenSlot (table.set c' (some e)) c := by
  obtain ⟨s, hs, hst⟩ := h
  obtain ⟨hlt, -⟩ := List.getElem?_eq_some_iff.1 hs
  by_cases hc : c' = c
  · subst hc
    exact ⟨some e, List.getElem?_set_self hlt, decide_eq_true he⟩
  · exact ⟨s, (List.getElem?_set_ne hc).trans hs, hst⟩

theorem countP_set_free {table : List Slot} {c : ℕ} (h : FreeSlot table c) {e : ElementName}
    (he : e ≠ []) :
    (table.set c (some e)).countP Slot.truthy = table.countP Slot.truthy + 1 := by
  obtain ⟨s, hs, hsf⟩ := h
  obtain ⟨hlt, rfl⟩ := List.getElem?_eq_some_iff.1 hs
  have ht : Slot.truthy (some e) = true := decide_eq_true he
  rw [List.countP_set hlt, hsf, ht]
  rfl

/-- The candidates that are left to an element contain a free slot. -/
theorem FillInv.free_candidate (h : FillInv p perm elements f) (hn : f.n < p) {i next : ℕ} {e : ElementName}
    (hi : elements[i]? = some e) (hnext : f.nextInd[i]? = some next) (hperm : (perm e).Perm (List.range p)) :
    ∃ c ∈ (perm e).drop next, FreeSlot f.table c := by
  obtain ⟨c, hc, hcf⟩ := exists_freeSlot (h.count.trans_lt (hn.trans_eq h.length.symm))
  have hmem : c ∈ (perm e).take next ++ (perm e).drop next := by
    rw [List.take_append_drop]
    exact hperm.mem_iff.2 (List.mem_range.2 (h.length ▸ hc))
  rcases List.mem_append.1 hmem with ht | hd
  · obtain ⟨s, hs, hst⟩ := h.tried i e next hi hnext c ht
    obtain ⟨s', hs', hsf⟩ := hcf
    obtain rfl := Option.some.inj (hs.symm.trans hs')
    rw [hst] at hsf
    cases hsf
  · exact ⟨c, hd, hcf⟩

/-- **The invariant after an element has taken a slot**: the candidates before it are taken. -/
theorem FillInv.place (h : FillInv p perm elements f) {i next k c : ℕ} {e : ElementName}
    (hi : elements[i]? = some e) (hnext : f.nextInd[i]? = some next) (he : e ≠ [])
    (hck : ((perm e).drop next)[k]? = some c) (hcf : FreeSlot f.table c)
    (htaken : ∀ c' ∈ ((perm e).drop next).take k, TakenSlot f.table c') :
    FillInv p perm elements ⟨f.nextInd.set i (next + k + 1), f.table.set c (some e), f.n + 1⟩ := by
  refine ⟨?_, ?_, ?_, ?_⟩
  · rw [List.length_set, h.length]
  · rw [countP_set_free hcf he, h.count]
  · rw [List.length_set, h.inds]
  · intro i' e' next' hi' hnext' c' hc'
    by_cases hii : i = i'
    · subst hii
      obtain ⟨hlt, -⟩ := List.getElem?_eq_some_iff.1 hnext
      obtain rfl := Option.some.inj (hi.symm.trans hi')
      rw [List.getElem?_set_self hlt] at hnext'
      obtain rfl := Option.some.inj hnext'
      rw [Nat.add_assoc, List.take_add, List.mem_append] at hc'
      rcases hc' with hc' | hc'
      · exact (h.tried i e next hi hnext c' hc').set c he
      · rw [List.take_add_one, hck, List.mem_append] at hc'
        rcases hc' with hc' | hc'
        · exact (htaken c' hc').set c he
        · obtain rfl := List.mem_singleton.1 hc'
          obtain ⟨s, hs, -⟩ := hcf
          obtain ⟨hlt', -⟩ := List.getElem?_eq_some_iff.1 hs
          exact ⟨some e, List.getElem?_set_self hlt', decide_eq_true he⟩
    · rw [List.getElem?_set_ne hii] at hnext'
      exact (h.tried i' e' next' hi' hnext' c' hc').set c he

/-- **An element finds a free slot.** -/
theorem placeElement_ok {perms : List (ElementName × List ℕ)} (h : FillInv p perm elements f)
    (hn : f.n < p) {i : ℕ} {e : ElementName} (hi : elements[i]? = some e) (he : e ≠ [])
    (hperm : (perm e).Perm (List.range p)) (hlook : permutationOf perms e = .ok (perm e)) :
    ∃ f', placeElement perms e i f = .ok f' ∧ FillInv p perm elements f' ∧ f'.n = f.n + 1 := by
  obtain ⟨hlt, -⟩ := List.getElem?_eq_some_iff.1 hi
  obtain ⟨next, hnext⟩ : ∃ next, f.nextInd[i]? = some next :=
    ⟨_, List.getElem?_eq_getElem (h.inds ▸ hlt)⟩
  have hcands : ∀ c ∈ (perm e).drop next, c < f.table.length := fun c hc => by
    rw [h.length]
    exact List.mem_range.1 (hperm.mem_iff.1 (List.mem_of_mem_drop hc))
  obtain ⟨k, c, hfind, hck, hcf, htaken⟩ := findSlot_ok hcands (h.free_candidate hn hi hnext hperm) next
  refine ⟨_, ?_, h.place hi hnext he hck hcf htaken, rfl⟩
  rw [placeElement, hlook, hnext]
  change (findSlot f.table ((perm e).drop next) next >>= _) = _
  rw [hfind]
  rfl

/-- **A round** places every element, or as many as there are free slots. -/
theorem placeElements_ok {perms : List (ElementName × List ℕ)}
    (hels : ∀ e ∈ elements, e ≠ [] ∧ (perm e).Perm (List.range p) ∧ permutationOf perms e = .ok (perm e))
    (done todo : List ElementName) (hsplit : done ++ todo = elements) (h : FillInv p perm elements f)
    (hn : f.n < p) : ∃ f' full, placeElements p perms todo done.length f = .ok (f', full) ∧
      FillInv p perm elements f' ∧
      if full then f'.n = p else f'.n = f.n + todo.length ∧ f'.n < p := by
  induction todo generalizing done f with
  | nil => exact ⟨f, false, rfl, h, rfl, hn⟩
  | cons e todo ih =>
    have hi : elements[done.length]? = some e := by
      rw [← hsplit, List.getElem?_append_right (Nat.le_refl _), Nat.sub_self]
      rfl
    have hmem : e ∈ elements := hsplit ▸ List.mem_append_right _ (List.mem_cons_self ..)
    obtain ⟨he, hperm, hlook⟩ := hels e hmem
    obtain ⟨f₁, hf₁, h₁, hn₁⟩ := placeElement_ok h hn hi he hperm hlook
    by_cases hfull : f₁.n = p
    · refine ⟨f₁, true, ?_, h₁, hfull⟩
      rw [placeElements, hf₁]
      exact if_pos hfull
    · have hlt : f₁.n < p := by omega
      obtain ⟨f₂, full, hf₂, h₂, hn₂⟩ := ih (done ++ [e])
        (by rw [List.append_assoc]; exact hsplit) h₁ hlt
      refine ⟨f₂, full, ?_, h₂, ?_⟩
      · rw [List.length_append] at hf₂
        rw [placeElements, hf₁]
        exact (if_neg hfull).trans hf₂
      · cases full with
        | true => exact hn₂
        | false =>
          obtain ⟨hn₂, hlt₂⟩ := hn₂
          refine ⟨?_, hlt₂⟩
          rw [hn₂, hn₁, List.length_cons, Nat.add_assoc, Nat.add_comm 1]

/-- **The rounds end** with a table of the right size. -/
theorem populateRounds_ok {perms : List (ElementName × List ℕ)}
    (hels : ∀ e ∈ elements, e ≠ [] ∧ (perm e).Perm (List.range p) ∧ permutationOf perms e = .ok (perm e))
    (hne : elements ≠ []) (rounds : ℕ) (h : FillInv p perm elements f) (hn : f.n < p)
    (hr : p ≤ f.n + rounds) :
    ∃ table, populateRounds p perms elements rounds f = .ok table ∧ table.length = p := by
  induction rounds generalizing f with
  | zero => omega
  | succ rounds ih =>
    obtain ⟨f', full, hf', h', hn'⟩ := placeElements_ok hels [] elements rfl h hn
    change placeElements p perms elements 0 f = _ at hf'
    cases full with
    | true =>
      refine ⟨f'.table, ?_, h'.length⟩
      rw [populateRounds, hf']
      rfl
    | false =>
      obtain ⟨hn', hlt⟩ := hn'
      have hpos : 0 < elements.length := List.length_pos_iff.2 hne
      obtain ⟨table, ht, hlen⟩ := ih h' hlt (by omega)
      refine ⟨table, ?_, hlen⟩
      rw [populateRounds, hf']
      exact ht

end Place

/-! ## Whole tables -/

section Populate

variable {p : ℕ} {perms : List (ElementName × List ℕ)}

/-- Every element of a table has its permutation. -/
def HasPermutations (p : ℕ) (perms : List (ElementName × List ℕ)) : Prop :=
  ∀ e ∈ perms, e.2 = permutation p e.1 ∧ e.1 ≠ []

theorem permutationOf_eq (h : HasPermutations p perms) {e : ElementName}
    (he : e ∈ perms.map Prod.fst) : permutationOf perms e = .ok (permutation p e) := by
  unfold permutationOf
  cases hf : perms.find? fun d => d.1 = e with
  | none =>
    obtain ⟨d, hd, rfl⟩ := List.mem_map.1 he
    exact absurd (decide_eq_true rfl) (List.find?_eq_none.1 hf d hd)
  | some d =>
    have hd := List.find?_some hf
    obtain rfl : d.1 = e := of_decide_eq_true hd
    exact congrArg Except.ok (h d (List.mem_of_find?_eq_some hf)).1

/-- **A table with elements is filled.** -/
theorem populate_ok (hp : p.Prime) (h : HasPermutations p perms) (hne : perms ≠ []) :
    ∃ table, populate p perms = .ok table ∧ table.length = p := by
  have hmem : ∀ e, e ∈ (perms.map Prod.fst).insertionSort (· ≤ ·) ↔ e ∈ perms.map Prod.fst :=
    fun e => List.mem_insertionSort _
  have hlen : ((perms.map Prod.fst).insertionSort (· ≤ ·)).length = perms.length := by
    rw [List.length_insertionSort, List.length_map]
  have hels : ∀ e ∈ (perms.map Prod.fst).insertionSort (· ≤ ·),
      e ≠ [] ∧ (permutation p e).Perm (List.range p) ∧ permutationOf perms e = .ok (permutation p e) := by
    intro e he
    rw [hmem] at he
    obtain ⟨d, hd, rfl⟩ := List.mem_map.1 he
    exact ⟨(h d hd).2, permutation_perm hp d.1, permutationOf_eq h he⟩
  refine populateRounds_ok hels ?_ p ⟨?_, ?_, ?_, ?_⟩ hp.pos (by simp)
  · intro hc
    rw [hc, List.length_nil] at hlen
    exact hne (List.length_eq_zero_iff.1 hlen.symm)
  · exact List.length_replicate
  · exact List.countP_eq_zero.2 fun s hs => by rw [List.eq_of_mem_replicate hs]; exact Bool.false_ne_true
  · rw [List.length_replicate, hlen]
  · intro i e next _ hnext c hc
    rw [List.getElem?_replicate] at hnext
    split_ifs at hnext
    obtain rfl := Option.some.inj hnext
    exact absurd hc List.not_mem_nil

/-- Rounds only look the elements up. -/
theorem placeElements_congr {perms' : List (ElementName × List ℕ)} {elements : List ElementName}
    (h : ∀ e ∈ elements, permutationOf perms e = permutationOf perms' e) (i : ℕ) (f : Filling) :
    placeElements p perms elements i f = placeElements p perms' elements i f := by
  induction elements generalizing i f with
  | nil => rfl
  | cons e elements ih =>
    have ih' := fun i f => ih (fun e he => h e (List.mem_cons_of_mem _ he)) i f
    simp only [placeElements, placeElement, h e (List.mem_cons_self ..), ih']

theorem populateRounds_congr {perms' : List (ElementName × List ℕ)} {elements : List ElementName}
    (h : ∀ e ∈ elements, permutationOf perms e = permutationOf perms' e) (rounds : ℕ) (f : Filling) :
    populateRounds p perms elements rounds f = populateRounds p perms' elements rounds f := by
  induction rounds generalizing f with
  | zero => rfl
  | succ rounds ih => simp only [populateRounds, placeElements_congr h, ih]

/-- **The table depends on the elements alone**, not on the order in which they came. -/
theorem populate_congr {perms' : List (ElementName × List ℕ)} (h : HasPermutations p perms)
    (h' : HasPermutations p perms') (hperm : (perms.map Prod.fst).Perm (perms'.map Prod.fst)) :
    populate p perms = populate p perms' := by
  have hsort : (perms.map Prod.fst).insertionSort (· ≤ ·) =
      (perms'.map Prod.fst).insertionSort (· ≤ ·) :=
    ((List.perm_insertionSort _ _).trans (hperm.trans (List.perm_insertionSort _ _).symm)).eq_of_pairwise'
      (List.pairwise_insertionSort _ _) (List.pairwise_insertionSort _ _)
  have hlen : perms.length = perms'.length := by
    rw [← List.length_map (f := Prod.fst), hperm.length_eq, List.length_map]
  unfold populate
  rw [hsort, hlen]
  refine populateRounds_congr (fun e he => ?_) _ _
  rw [List.mem_insertionSort] at he
  rw [permutationOf_eq h (hperm.mem_iff.2 he), permutationOf_eq h' he]

end Populate

end ArionDp
