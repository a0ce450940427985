import ArionDp.Common.MaglevBalance

/-!
# Calls that return

* `populateRounds_nil`: the filling without elements, which goes on for any number of rounds;
* `GetTableEnds`, `Represents.ends_iff_permitted`: one call of `get_table`;
* **`getTable_ends_iff`**: the sequences of calls in which every one returns or raises as it should.
-/

namespace ArionDp

open Py

/-! ## The loop without elements -/

/-- **Without elements the filling never ends**, over any number of rounds. -/
theorem populateRounds_nil (tableSize : ℕ) (perms : List (ElementName × List ℕ)) (rounds : ℕ) (f : Filling) :
    populateRounds tableSize perms [] rounds f = .error .noReturn := by
  induction rounds with
  | zero => rfl
  | succ rounds ih => exact ih

theorem populate_nil (tableSize : ℕ) : populate tableSize [] = .error .noReturn :=
  populateRounds_nil ..

/-! ## One call -/

/-- **What is wanted of `get_table`**: a full table of elements if there are any, and an exception if not. -/
def GetTableEnds (p : ℕ) (elements : Finset ElementName) (r : Except MaglevError (List Slot)) : Prop :=
  if elements = ∅ then r = .error .tableIsEmpty
  else ∃ table : List Slot, r = .ok table ∧ table.length = p ∧ ∀ s ∈ table, ∃ e ∈ elements, s = some e

section Call

variable {p : ℕ} {s : MaglevTable} {a : MaglevSpec}

theorem Represents.perms_eq_nil (h : Represents p s a) (hempty : a.elements = ∅) : s.permutationsTable = [] := by
  refine List.eq_nil_iff_forall_not_mem.2 fun d hd => ?_
  have he := (h.elements d.1).1 (List.mem_map_of_mem hd)
  rw [hempty] at he
  exact Finset.notMem_empty _ he

/-- A set that is asked for without an element. -/
theorem Represents.getTable_noReturn (h : Represents p s a) (hc : a.changed = true) (hempty : a.elements = ∅) :
    (MaglevTable.getTable s).1 = .error .noReturn := by
  have hpop : populate s.tableSize s.permutationsTable = .error .noReturn := by
    rw [h.perms_eq_nil hempty, populate_nil]
  rw [getTable_run_error (h.altered.trans hc) hpop]

/-- A set that has no element, and has not changed. -/
theorem Represents.getTable_empty (h : Represents p s a) (hc : a.changed = false) (hempty : a.elements = ∅) :
    (MaglevTable.getTable s).1 = .error .tableIsEmpty := by
  have htable : s.table = [] := by
    rcases h.current hc with ⟨-, htable⟩ | ⟨hperms, -⟩
    · exact htable
    · exact absurd (h.perms_eq_nil hempty) hperms
  rw [getTable_run_unaltered (h.altered.trans hc), if_pos htable]

/-- A set with elements. -/
theorem Represents.getTable_full (h : Represents p s a) (hp : p.Prime) (hne : a.elements ≠ ∅) :
    ∃ table : List Slot, (MaglevTable.getTable s).1 = .ok table ∧ table.length = p ∧
      ∀ slot ∈ table, ∃ e ∈ a.elements, slot = some e := by
  have hperms := h.perms_ne_nil hne
  obtain ⟨table, hpop, hlen⟩ := populate_ok hp h.perms hperms
  obtain ⟨f, hf, rfl, hn⟩ := populate_turns h.perms h.nodup hperms table hpop
  refine ⟨f.table, ((h.getTable hp fun _ => hne).2 hne).trans hpop, hlen, fun slot hs => ?_⟩
  have htrue := hf.truthy (hn.trans hlen.symm) slot hs
  cases slot with
  | none => exact absurd htrue Bool.false_ne_true
  | some e => exact ⟨e, (h.elements e).1 (mem_sortedKeys.1 (hf.entries e hs)), rfl⟩

/-- **One call** ends as it should if and only if it is permitted. -/
theorem Represents.ends_iff_permitted (h : Represents p s a) (hp : p.Prime) :
    GetTableEnds p a.elements (MaglevTable.getTable s).1 ↔ MaglevOp.getTable.Permitted a := by
  unfold GetTableEnds
  split_ifs with hempty
  · cases hc : a.changed with
    | false =>
      exact iff_of_true (h.getTable_empty hc hempty) fun hc' => nomatch hc.symm.trans hc'
    | true =>
      refine iff_of_false (fun hr => ?_) fun hperm => hperm hc hempty
      exact nomatch (h.getTable_noReturn hc hempty).symm.trans hr
  · exact iff_of_true (h.getTable_full hp hempty) fun _ => hempty

end Call

/-! ## Sequences of calls -/

/-- The name in a call is in ASCII and not empty. -/
def MaglevOp.Named : MaglevOp → Prop
  | .add e => AsciiName e
  | .remove e => AsciiName e
  | .getTable => True

instance : ∀ op : MaglevOp, Decidable op.Named
  | .add e => inferInstanceAs (Decidable (AsciiName e))
  | .remove e => inferInstanceAs (Decidable (AsciiName e))
  | .getTable => isTrue trivial

theorem MaglevOp.Named.permitted {op : MaglevOp} (h : op.Named) (hop : op ≠ .getTable) (a : MaglevSpec) :
    op.Permitted a := by
  cases op with
  | getTable => exact absurd rfl hop
  | add e => exact h
  | remove e => exact h

/-- The statement from any table that stands for a set. -/
theorem getTable_ends_from {p : ℕ} (hp : p.Prime) {ops : List MaglevOp} (hnames : ∀ op ∈ ops, op.Named)
    {s : MaglevTable} {a : MaglevSpec} (h : Represents p s a) :
    (∀ n, ops[n]? = some .getTable → GetTableEnds p (specAfter (ops.take n) a).elements
      (MaglevTable.getTable (runMaglevOps (ops.take n) s)).1) ↔
      Runs.EachStep specStep MaglevOp.Permitted ops a := by
  induction ops generalizing s a with
  | nil => exact iff_of_true (fun n hn => nomatch hn) trivial
  | cons op ops ih =>
    have hrest : op.Permitted a → ((∀ n, ops[n]? = some .getTable →
        GetTableEnds p (specAfter (ops.take n) (op.spec a)).elements
          (MaglevTable.getTable (runMaglevOps (ops.take n) (op.run s))).1) ↔
        Runs.EachStep specStep MaglevOp.Permitted ops (op.spec a)) := fun hop =>
      ih (fun op' hop' => hnames op' (List.mem_cons_of_mem _ hop')) (h.run hp hop)
    constructor
    · intro hends
      have hop : op.Permitted a := by
        by_cases hget : op = .getTable
        · subst hget
          exact (h.ends_iff_permitted hp).1 (hends 0 rfl)
        · exact (hnames op (List.mem_cons_self ..)).permitted hget a
      refine ⟨hop, fun t ht => ?_⟩
      rw [← Option.some.inj ht]
      exact (hrest hop).1 fun n hn => hends (n + 1) hn
    · rintro ⟨hop, hops⟩ n hn
      cases n with
      | zero =>
        obtain rfl : op = .getTable := Option.some.inj hn
        exact (h.ends_iff_permitted hp).2 hop
      | succ n => exact (hrest hop).2 (hops _ rfl) n hn

/-- **Every call of `get_table` ends** with a full table of elements, or with an exception if there are none, if and
only if none of them finds a set that has been changed, since the last one, to an empty set. -/
theorem getTable_ends_iff {p : ℕ} (hp : p.Prime) {ops : List MaglevOp} (hnames : ∀ op ∈ ops, op.Named) :
    (∀ n, ops[n]? = some .getTable →
      GetTableEnds p (elementsAfter (ops.take n)) (MaglevTable.getTable (runMaglevOps (ops.take n) (.new p))).1) ↔
      PermittedCalls ops :=
  getTable_ends_from hp hnames (.new p)

/-- Calls that all end, the first with an exception. -/
theorem getTable_ends_iff_sample :
    let ops := [MaglevOp.getTable, .add ['a'], .getTable, .add ['b'], .remove ['a'], .getTable]
    (∀ n, ops[n]? = some .getTable →
      GetTableEnds 7 (elementsAfter (ops.take n)) (MaglevTable.getTable (runMaglevOps (ops.take n) (.new 7))).1) ↔
      PermittedCalls ops :=
  getTable_ends_iff (by decide) (by decide)

/-- **A call that never returns**: the last element has been removed. -/
theorem removed_all_noReturn :
    let ops := [MaglevOp.add ['a'], .getTable, .remove ['a']]
    (MaglevTable.getTable (runMaglevOps ops (.new 7))).1 = .error .noReturn ∧
      (∀ rounds f, populateRounds 7 (runMaglevOps ops (.new 7)).permutationsTable [] rounds f =
        .error .noReturn) ∧
      ¬ GetTableEnds 7 (elementsAfter ops) (MaglevTable.getTable (runMaglevOps ops (.new 7))).1 := by
  intro ops
  have hr : (MaglevTable.getTable (runMaglevOps ops (.new 7))).1 = .error .noReturn := by decide +kernel
  have hempty : elementsAfter ops = ∅ := by decide
  refine ⟨hr, fun rounds f => populateRounds_nil .., fun h => ?_⟩
  rw [hr, hempty, GetTableEnds, if_pos rfl] at h
  exact nomatch h

end ArionDp
