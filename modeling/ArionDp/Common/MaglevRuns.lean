import ArionDp.Common.MaglevFill
import ArionDp.Lib.Runs
import Mathlib.Data.Finset.Basic

/-!
# Sequences of calls

The table is a set of elements to its callers: what `get_table` returns depends on the set alone, not
on how it came about.

* `MaglevSpec`, `MaglevOp.spec`: the set of elements, and whether it has changed since the last
  `get_table`;
* `Represents`, **`run_represents`**: the table carries out what is said of the set;
* `replacedMap`, `replacedElements_eq`: tables of one size can be compared;
* **`maglev_table_eq`**: equal sets have equal tables.
-/

namespace ArionDp

open Py

/-! ## Sets of elements -/

/-- **The purpose of the table**: a set, and whether it has changed since it was last asked for. -/
structure MaglevSpec where
  elements : Finset ElementName
  changed : Bool

/-- A call, seen as one on the set: adding what is there and removing what is not there is rejected. -/
def MaglevOp.spec : MaglevOp → MaglevSpec → MaglevSpec
  | .add e, a => if e ∈ a.elements then a else ⟨insert e a.elements, true⟩
  | .remove e, a => if e ∈ a.elements then ⟨a.elements.erase e, true⟩ else a
  | .getTable, a => ⟨a.elements, false⟩

/-- A name is in ASCII and not empty. -/
def AsciiName (e : ElementName) : Prop := e ≠ [] ∧ ∀ c ∈ e, c.toNat < 128

instance (e : ElementName) : Decidable (AsciiName e) :=
  decidable_of_iff (e ≠ [] ∧ e.all (fun c => c.toNat < 128) = true)
    (and_congr_right' (by simp [List.all_eq_true]))

/-- A call is permitted: names are in ASCII, and a changed set that is asked for has an element. -/
def MaglevOp.Permitted : MaglevOp → MaglevSpec → Prop
  | .add e, _ => AsciiName e
  | .remove e, _ => AsciiName e
  | .getTable, a => a.changed = true → a.elements ≠ ∅

instance : ∀ (op : MaglevOp) (a : MaglevSpec), Decidable (op.Permitted a)
  | .add e, _ => inferInstanceAs (Decidable (AsciiName e))
  | .remove e, _ => inferInstanceAs (Decidable (AsciiName e))
  | .getTable, a => inferInstanceAs (Decidable (a.changed = true → a.elements ≠ ∅))

/-- Calls on the set as steps. -/
def specStep (op : MaglevOp) (a : MaglevSpec) : Option MaglevSpec := some (op.spec a)

/-- Every call of a sequence is permitted, from the empty set on. -/
def PermittedCalls (ops : List MaglevOp) : Prop :=
  Runs.EachStep specStep MaglevOp.Permitted ops ⟨∅, false⟩

instance (ops : List MaglevOp) : Decidable (PermittedCalls ops) :=
  inferInstanceAs (Decidable (Runs.EachStep specStep MaglevOp.Permitted ops ⟨∅, false⟩))

/-- The set, and whether it has changed, after a sequence of calls. -/
def specAfter (ops : List MaglevOp) (a : MaglevSpec) : MaglevSpec :=
  ops.foldl (fun a op => op.spec a) a

/-- The set after a sequence of calls. -/
def elementsAfter (ops : List MaglevOp) : Finset ElementName := (specAfter ops ⟨∅, false⟩).elements

/-! ## The table and the set -/

/-- **A table stands for a set**: it has the elements with their permutations, and a table that is not
marked as altered has been filled from them. -/
structure Represents (p : ℕ) (s : MaglevTable) (a : MaglevSpec) : Prop where
  size : s.tableSize = p
  perms : HasPermutations p s.permutationsTable
  nodup : (s.permutationsTable.map Prod.fst).Nodup
  elements : ∀ e, e ∈ s.permutationsTable.map Prod.fst ↔ e ∈ a.elements
  altered : s.altered = a.changed
  length : s.table = [] ∨ s.table.length = p
  current : a.changed = false → a.elements = ∅ ∧ s.table = [] ∨
    s.permutationsTable ≠ [] ∧ populate p s.permutationsTable = .ok s.table

theorem Represents.new (p : ℕ) : Represents p (.new p) ⟨∅, false⟩ where
  size := rfl
  perms _ h := absurd h List.not_mem_nil
  nodup := List.nodup_nil
  elements _ := ⟨fun h => absurd h List.not_mem_nil, fun h => absurd h (Finset.notMem_empty _)⟩
  altered := rfl
  length := .inl rfl
  current _ := .inl ⟨rfl, rfl⟩

section Calls

variable {p : ℕ} {s : MaglevTable} {a : MaglevSpec}

theorem Represents.exists_iff (h : Represents p s a) (e : ElementName) :
    (∃ d ∈ s.permutationsTable, d.1 = e) ↔ e ∈ a.elements := by
  rw [← h.elements e, List.mem_map]

theorem Represents.add (h : Represents p s a) (hp : p.Prime) {e : ElementName}
    (he : (MaglevOp.add e).Permitted a) :
    Represents p ((MaglevOp.add e).run s) ((MaglevOp.add e).spec a) := by
  by_cases hmem : e ∈ a.elements
  · have hrun : MaglevTable.add e s = (.error .elementAlreadyExist, s) := by
      rw [MaglevTable.add, bind_run, getState_run]
      dsimp only
      rw [if_pos ((h.exists_iff e).2 hmem), raise_run]
    rw [MaglevOp.run, hrun, MaglevOp.spec, if_pos hmem]
    exact h
  · have hrun : MaglevTable.add e s = (.ok (), { s with
        permutationsTable := s.permutationsTable ++ [(e, permutation p e)], altered := true }) := by
      have hperm : computePermutations s.tableSize e = .ok (permutation p e) := by
        rw [h.size]
        exact computePermutations_eq hp.two_le he.2
      rw [MaglevTable.add, bind_run, getState_run]
      dsimp only
      rw [if_neg (mt (h.exists_iff e).1 hmem), bind_run, hperm, ofExcept_run]
      rfl
    have hkeys : (s.permutationsTable ++ [(e, permutation p e)]).map Prod.fst =
        s.permutationsTable.map Prod.fst ++ [e] := List.map_append
    rw [MaglevOp.run, hrun, MaglevOp.spec, if_neg hmem]
    refine ⟨h.size, fun d hd => ?_, ?_, fun e' => ?_, rfl, h.length, fun hc => nomatch hc⟩
    · rcases List.mem_append.1 hd with hd | hd
      · exact h.perms d hd
      · obtain rfl := List.mem_singleton.1 hd
        exact ⟨rfl, he.1⟩
    · rw [hkeys, ← List.concat_eq_append]
      exact h.nodup.concat (mt (h.elements e).1 hmem)
    · rw [hkeys, List.mem_append, h.elements, List.mem_singleton, Finset.mem_insert, or_comm]

theorem Represents.remove (h : Represents p s a) (e : ElementName) :
    Represents p ((MaglevOp.remove e).run s) ((MaglevOp.remove e).spec a) := by
  by_cases hmem : e ∈ a.elements
  · have hrun : MaglevTable.remove e s = (.ok (), { s with
        permutationsTable := s.permutationsTable.filter fun d => d.1 ≠ e, altered := true }) := by
      rw [MaglevTable.remove, bind_run, getState_run]
      dsimp only
      rw [if_pos ((h.exists_iff e).2 hmem), modifyState_run]
    rw [MaglevOp.run, hrun, MaglevOp.spec, if_pos hmem]
    refine ⟨h.size, fun d hd => h.perms d (List.mem_filter.1 hd).1,
      h.nodup.sublist (List.filter_sublist.map _), fun e' => ?_, rfl, h.length, fun hc => nomatch hc⟩
    rw [Finset.mem_erase, ← h.elements e']
    constructor
    · intro he'
      obtain ⟨d, hd, rfl⟩ := List.mem_map.1 he'
      exact ⟨of_decide_eq_true (List.mem_filter.1 hd).2, List.mem_map_of_mem (List.mem_filter.1 hd).1⟩
    · rintro ⟨hne, he'⟩
      obtain ⟨d, hd, rfl⟩ := List.mem_map.1 he'
      exact List.mem_map_of_mem (List.mem_filter.2 ⟨hd, decide_eq_true hne⟩)
  · have hrun : MaglevTable.remove e s = (.error .elementNotFound, s) := by
      rw [MaglevTable.remove, bind_run, getState_run]
      dsimp only
      rw [if_neg (mt (h.exists_iff e).1 hmem), raise_run]
    rw [MaglevOp.run, hrun, MaglevOp.spec, if_neg hmem]
    exact h

/-- The map that the first loop of `_generate_prev_elements_map` builds. -/
def replacedMap (prevTable table : List Slot) : List (Slot × List Slot) :=
  (prevTable.zip table).foldl (fun m e => recordReplaced m e.1 e.2) []

/-- The loop over the indices is one over the slots. -/
theorem replacedElements_eq {prevTable table : List Slot} {n : ℕ} (hlen : prevTable.length = n)
    (hlen' : table.length = n) : replacedElements prevTable table n = .ok (replacedMap prevTable table) := by
  have hzip : (prevTable.zip table).length = n := by rw [List.length_zip, hlen, hlen', Nat.min_self]
  suffices hto : ∀ k ≤ n, replacedElements prevTable table k =
      .ok (((prevTable.zip table).take k).foldl (fun m e => recordReplaced m e.1 e.2) []) by
    have hall := hto n le_rfl
    rwa [List.take_of_length_le hzip.le] at hall
  intro k hk
  induction k with
  | zero => rfl
  | succ k ih =>
    have hget : (prevTable.zip table)[k]? = some (prevTable[k], table[k]) := by
      rw [List.getElem?_eq_getElem (by omega), List.getElem_zip]
    have hstep : replacedElements prevTable table (k + 1) =
        replacedElements prevTable table k >>= fun m => .ok (recordReplaced m prevTable[k] table[k]) := by
      simp only [replacedElements, List.range_succ, List.foldlM_append, List.foldlM_cons, List.foldlM_nil,
        bind_pure, List.getElem?_eq_getElem (show k < prevTable.length by omega),
        List.getElem?_eq_getElem (show k < table.length by omega)]
    rw [hstep, ih (by omega), List.take_add_one, hget, List.foldl_append]
    rfl

/-- A changed table is filled again, and compared with the old one if there is one. -/
theorem refresh_run {table : List Slot} (hpop : populate s.tableSize s.permutationsTable = .ok table) :
    MaglevTable.refresh s = (if s.table = [] then pure () else generatePrevElementsMap)
      { s with prevTable := s.table, table := table } := by
  rw [MaglevTable.refresh, bind_run, getState_run]
  dsimp only
  rw [bind_run, modifyState_run]
  dsimp only
  rw [bind_run, ofExcept_run, hpop]
  rfl

/-- A table that cannot be filled. -/
theorem getTable_run_error {err : MaglevError} (halt : s.altered = true)
    (hpop : populate s.tableSize s.permutationsTable = .error err) :
    MaglevTable.getTable s = (.error err, { s with prevTable := s.table }) := by
  have hrefresh : MaglevTable.refresh s = (.error err, { s with prevTable := s.table }) := by
    rw [MaglevTable.refresh, bind_run, getState_run]
    dsimp only
    rw [bind_run, modifyState_run]
    dsimp only
    rw [bind_run, ofExcept_run, hpop]
  rw [MaglevTable.getTable, bind_run, getState_run]
  dsimp only
  rw [bind_run, if_pos halt, hrefresh]

theorem generatePrevElementsMap_run {m : List (Slot × List Slot)} (hnil : s.prevTable ≠ [])
    (hm : replacedElements s.prevTable s.table s.tableSize = .ok m) :
    generatePrevElementsMap s = (.ok (), { s with
      prevElementsMap := m.filter fun e => e.2 ≠ []
      elementsReplaced := (m.map fun e => e.2.length).sum
      elementsReplacing := (m.filter fun e => e.2 ≠ []).length }) := by
  rw [generatePrevElementsMap, bind_run, getState_run]
  dsimp only
  rw [if_neg hnil, bind_run, ofExcept_run, hm]
  rfl

/-- **A changed table is filled again.** -/
theorem refresh_ok {table : List Slot} (hpop : populate s.tableSize s.permutationsTable = .ok table)
    (hlen : table.length = s.tableSize) (hold : s.table = [] ∨ s.table.length = s.tableSize) :
    ∃ m n k, MaglevTable.refresh s = (.ok (), { s with
      prevTable := s.table, table := table, prevElementsMap := m, elementsReplaced := n
      elementsReplacing := k }) := by
  rw [refresh_run hpop]
  by_cases hnil : s.table = []
  · refine ⟨s.prevElementsMap, s.elementsReplaced, s.elementsReplacing, ?_⟩
    rw [if_pos hnil]
    rfl
  · rw [if_neg hnil]
    exact ⟨_, _, _, generatePrevElementsMap_run (s := { s with prevTable := s.table, table := table }) hnil
      (replacedElements_eq (hold.resolve_left hnil) hlen)⟩

/-- The elements of a set that is not empty have permutations. -/
theorem Represents.perms_ne_nil (h : Represents p s a) (hne : a.elements ≠ ∅) :
    s.permutationsTable ≠ [] := by
  intro hnil
  obtain ⟨e, he⟩ := Finset.nonempty_iff_ne_empty.2 hne
  rw [← h.elements, hnil] at he
  exact absurd he List.not_mem_nil

/-- `get_table` after the table has been refreshed, or without that. -/
theorem getTable_run {t : MaglevTable} (h : (if s.altered then MaglevTable.refresh else pure ()) s = (.ok (), t)) :
    MaglevTable.getTable s = if t.table = [] then (.error .tableIsEmpty, t)
      else (.ok t.table, { t with altered := false }) := by
  rw [MaglevTable.getTable, bind_run, getState_run]
  dsimp only
  rw [bind_run, h]
  dsimp only
  rw [bind_run, getState_run]
  dsimp only
  split_ifs <;> rfl

theorem getTable_run_unaltered (halt : s.altered = false) : MaglevTable.getTable s =
    if s.table = [] then (.error .tableIsEmpty, s) else (.ok s.table, { s with altered := false }) :=
  getTable_run (by rw [halt]; rfl)

/-- A set without changes keeps its table. -/
theorem Represents.getTable_unchanged (h : Represents p s a) (hp : p.Prime) (hc : a.changed = false) :
    Represents p (MaglevTable.getTable s).2 ⟨a.elements, false⟩ ∧ (a.elements ≠ ∅ →
      (MaglevTable.getTable s).1 = populate p s.permutationsTable) := by
  have halt : s.altered = false := h.altered.trans hc
  have hs : Represents p { s with altered := false } ⟨a.elements, false⟩ :=
    ⟨h.size, h.perms, h.nodup, h.elements, rfl, h.length, fun _ => h.current hc⟩
  have hsame : { s with altered := false } = s := by rw [← halt]
  rw [getTable_run_unaltered halt]
  by_cases hnil : s.table = []
  · rw [if_pos hnil]
    refine ⟨hsame ▸ hs, fun hne => ?_⟩
    rcases h.current hc with hempty | ⟨hperms, hpop⟩
    · exact absurd hempty.1 hne
    · obtain ⟨t, ht, hlen⟩ := populate_ok hp h.perms hperms
      rw [hpop, hnil] at ht
      rw [← Except.ok.inj ht] at hlen
      exact absurd hlen.symm hp.ne_zero
  · rw [if_neg hnil]
    refine ⟨hs, fun hne => ?_⟩
    rcases h.current hc with hempty | ⟨-, hpop⟩
    · exact absurd hempty.1 hne
    · exact hpop.symm

/-- **What `get_table` returns**, and what it leaves. -/
theorem Represents.getTable (h : Represents p s a) (hp : p.Prime) (ha : MaglevOp.getTable.Permitted a) :
    Represents p (MaglevTable.getTable s).2 ⟨a.elements, false⟩ ∧ (a.elements ≠ ∅ →
      (MaglevTable.getTable s).1 = populate p s.permutationsTable) := by
  cases hc : a.changed with
  | false => exact h.getTable_unchanged hp hc
  | true =>
    have hperms := h.perms_ne_nil (ha hc)
    obtain ⟨table, hpop, hlen⟩ := populate_ok hp h.perms hperms
    obtain ⟨m, n, k, hrefresh⟩ := refresh_ok (h.size.symm ▸ hpop) (hlen.trans h.size.symm)
      (h.size.symm ▸ h.length)
    have hne : table ≠ [] := by
      rintro rfl
      exact hp.ne_zero hlen.symm
    rw [getTable_run ((congrFun (if_pos (h.altered.trans hc)) s).trans hrefresh), if_neg hne]
    exact ⟨⟨h.size, h.perms, h.nodup, h.elements, rfl, .inr hlen, fun _ => .inr ⟨hperms, hpop⟩⟩,
      fun _ => hpop.symm⟩

/-- **Every call on the table is one on the set.** -/
theorem Represents.run (h : Represents p s a) (hp : p.Prime) {op : MaglevOp} (hop : op.Permitted a) :
    Represents p (op.run s) (op.spec a) := by
  cases op with
  | add e => exact h.add hp hop
  | remove e => exact h.remove e
  | getTable => exact (h.getTable hp hop).1

/-- The table stands for the set after any sequence of calls. -/
theorem run_represents (hp : p.Prime) {ops : List MaglevOp} (h : Represents p s a)
    (hops : Runs.EachStep specStep MaglevOp.Permitted ops a) :
    Represents p (runMaglevOps ops s) (specAfter ops a) := by
  induction ops generalizing s a with
  | nil => exact h
  | cons op ops ih => exact ih (h.run hp hops.1) (hops.2 _ rfl)

end Calls

/-! ## Equal sets, equal tables -/

/-- Tables that stand for one set have the same elements, perhaps in another order. -/
theorem Represents.keys_perm {p : ℕ} {s s' : MaglevTable} {a a' : MaglevSpec} (h : Represents p s a)
    (h' : Represents p s' a') (hset : a.elements = a'.elements) :
    (s.permutationsTable.map Prod.fst).Perm (s'.permutationsTable.map Prod.fst) :=
  (List.perm_ext_iff_of_nodup h.nodup h'.nodup).2 fun e => by
    rw [h.elements, h'.elements, hset]

/-- The elements of the set have names in ASCII. -/
theorem asciiName_of_mem {ops : List MaglevOp} {a : MaglevSpec}
    (hops : Runs.EachStep specStep MaglevOp.Permitted ops a) (ha : ∀ e ∈ a.elements, AsciiName e) :
    ∀ e ∈ (specAfter ops a).elements, AsciiName e := by
  induction ops generalizing a with
  | nil => exact ha
  | cons op ops ih =>
    refine ih (a := op.spec a) (hops.2 _ rfl) fun e he => ?_
    cases op with
    | getTable => exact ha e he
    | add e' =>
      have hmem : e ∈ insert e' a.elements := by
        rw [MaglevOp.spec] at he
        split_ifs at he
        · exact Finset.mem_insert_of_mem he
        · exact he
      rcases Finset.mem_insert.1 hmem with rfl | hmem
      · exact hops.1
      · exact ha e hmem
    | remove e' =>
      rw [MaglevOp.spec] at he
      split_ifs at he
      · exact ha e (Finset.mem_of_mem_erase he)
      · exact ha e he

/-- Elements that are added one by one. -/
theorem add_all {l : List ElementName} (hl : ∀ e ∈ l, AsciiName e) (a : MaglevSpec) :
    Runs.EachStep specStep MaglevOp.Permitted (l.map .add) a ∧
      ∀ e, e ∈ (specAfter (l.map .add) a).elements ↔ e ∈ l ∨ e ∈ a.elements := by
  induction l generalizing a with
  | nil => exact ⟨trivial, fun e => (or_iff_right List.not_mem_nil).symm⟩
  | cons e' l ih =>
    obtain ⟨hsteps, hmem⟩ := ih (fun e he => hl e (List.mem_cons_of_mem _ he)) ((MaglevOp.add e').spec a)
    have hspec : ∀ e, e ∈ ((MaglevOp.add e').spec a).elements ↔ e = e' ∨ e ∈ a.elements := by
      intro e
      rw [MaglevOp.spec]
      split_ifs with h
      · exact ⟨.inr, fun he => he.elim (fun he => he ▸ h) id⟩
      · exact Finset.mem_insert
    refine ⟨⟨hl e' (List.mem_cons_self ..), fun t ht => Option.some.inj ht ▸ hsteps⟩, fun e => ?_⟩
    refine (hmem e).trans ?_
    rw [hspec, List.mem_cons, ← or_assoc, or_comm (a := e ∈ l)]

/-- **The table depends on the set alone**: runs that end with one set, rejected calls included, are
given one table, which is that of a new table with these elements, in any order. -/
theorem maglev_table_eq {p : ℕ} (hp : p.Prime) {ops₁ ops₂ : List MaglevOp} (h₁ : PermittedCalls ops₁)
    (h₂ : PermittedCalls ops₂) (hset : elementsAfter ops₁ = elementsAfter ops₂)
    (hne : elementsAfter ops₁ ≠ ∅) :
    ∃ table : List Slot, table.length = p ∧
      (MaglevTable.getTable (runMaglevOps ops₁ (.new p))).1 = .ok table ∧
      (MaglevTable.getTable (runMaglevOps ops₂ (.new p))).1 = .ok table ∧
      ∀ l : List ElementName, l.Nodup → (∀ e, e ∈ l ↔ e ∈ elementsAfter ops₁) →
        (MaglevTable.getTable (runMaglevOps (l.map .add) (.new p))).1 = .ok table := by
  have hr := run_represents hp (.new p) h₁
  obtain ⟨table, hpop, hlen⟩ := populate_ok hp hr.perms (hr.perms_ne_nil hne)
  have hsame : ∀ ops, PermittedCalls ops → elementsAfter ops₁ = elementsAfter ops →
      (MaglevTable.getTable (runMaglevOps ops (.new p))).1 = .ok table := by
    intro ops hops heq
    have hr' := run_represents hp (.new p) hops
    have hne' : elementsAfter ops ≠ ∅ := heq ▸ hne
    rw [(hr'.getTable hp fun _ => hne').2 hne', ← hpop]
    exact (populate_congr hr.perms hr'.perms (hr.keys_perm hr' heq)).symm
  refine ⟨table, hlen, hsame ops₁ h₁ rfl, hsame ops₂ h₂ hset, fun l _ hl => ?_⟩
  have hascii : ∀ e ∈ l, AsciiName e := fun e he =>
    asciiName_of_mem h₁ (fun e he => absurd he (Finset.notMem_empty e)) e ((hl e).1 he)
  obtain ⟨hsteps, hmem⟩ := add_all hascii ⟨∅, false⟩
  refine hsame _ hsteps (Finset.ext fun e => ?_)
  exact ((hmem e).trans ((or_iff_left (Finset.notMem_empty e)).trans (hl e))).symm

/-- Two histories of one set, the first of which has rejected calls and a table in between. -/
theorem maglev_table_eq_sample : ∃ table : List Slot, table.length = 7 ∧
    (MaglevTable.getTable (runMaglevOps [.getTable, .add ['a'], .add ['b'], .getTable, .add ['a'],
      .remove ['b'], .remove ['c'], .add ['d']] (.new 7))).1 = .ok table ∧
    (MaglevTable.getTable (runMaglevOps [.add ['d'], .add ['a']] (.new 7))).1 = .ok table ∧
    ∀ l : List ElementName, l.Nodup → (∀ e, e ∈ l ↔ e ∈ elementsAfter [.getTable, .add ['a'],
      .add ['b'], .getTable, .add ['a'], .remove ['b'], .remove ['c'], .add ['d']]) →
      (MaglevTable.getTable (runMaglevOps (l.map .add) (.new 7))).1 = .ok table :=
  maglev_table_eq (by decide) (by decide +kernel) (by decide +kernel) (by decide +kernel)
    (by decide +kernel)

end ArionDp
