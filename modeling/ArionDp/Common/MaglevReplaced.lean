import ArionDp.Common.MaglevBalance
import Mathlib.Data.Finset.Card

/-!
# What was replaced

`get_prev_elements_map` compares the table that was returned last with the new one.

* `ListsReplaced`, `ListsReplaced.record`, **`listsReplaced_replacedMap`**: the map that the comparison builds,
  slot by slot;
* `ReplacementMap`, `replacementMap_of_listed`: the map and the counts that are kept;
* `Seen`, **`Follows.run`**: what a caller has seen after any calls, and what the table remembers of it;
* **`prev_elements_map_exact`**: the map after a call of `get_table`.
-/

namespace ArionDp

open Py

/-! ## The comparison -/

/-- **What the map lists of the slots `l`**: every new element once, with the other ones that it has replaced,
each of them once. -/
structure ListsReplaced (l : List (Slot × Slot)) (m : List (Slot × List Slot)) : Prop where
  keys : (m.map Prod.fst).Nodup
  once : ∀ e ∈ m, e.2.Nodup
  mem : ∀ e ∈ m, ∀ prev, prev ∈ e.2 ↔ prev ≠ e.1 ∧ (prev, e.1) ∈ l
  all : ∀ prev curr, (prev, curr) ∈ l → curr ∈ m.map Prod.fst

theorem listsReplaced_nil : ListsReplaced [] [] where
  keys := List.nodup_nil
  once _ he := absurd he List.not_mem_nil
  mem _ he := absurd he List.not_mem_nil
  all _ _ h := absurd h List.not_mem_nil

section Record

variable {l : List (Slot × Slot)} {m : List (Slot × List Slot)}

/-- An element that is not recorded yet is recorded with an empty list. -/
theorem ListsReplaced.initialized (h : ListsReplaced l m) (curr : Slot) (hnew : curr ∉ m.map Prod.fst) :
    ListsReplaced l (m ++ [(curr, [])]) := by
  have hkeys : (m ++ [(curr, ([] : List Slot))]).map Prod.fst = m.map Prod.fst ++ [curr] := List.map_append
  refine ⟨?_, fun e he => ?_, fun e he prev => ?_, fun prev c hc => ?_⟩
  · rw [hkeys, ← List.concat_eq_append]
    exact h.keys.concat hnew
  · rcases List.mem_append.1 he with he | he
    · exact h.once e he
    · obtain rfl := List.mem_singleton.1 he
      exact List.nodup_nil
  · rcases List.mem_append.1 he with he | he
    · exact h.mem e he prev
    · obtain rfl := List.mem_singleton.1 he
      exact iff_of_false List.not_mem_nil fun hc => hnew (h.all prev curr hc.2)
  · rw [hkeys]
    exact List.mem_append_left _ (h.all prev c hc)

/-- **One slot**, whose new element is recorded. -/
theorem ListsReplaced.record (h : ListsReplaced l m) (prev curr : Slot) (hcurr : curr ∈ m.map Prod.fst) :
    ListsReplaced (l ++ [(prev, curr)]) (m.map fun e =>
      if e.1 = curr ∧ curr ≠ prev ∧ prev ∉ e.2 then (e.1, e.2 ++ [prev]) else e) := by
  have hkeys : ∀ m : List (Slot × List Slot), (m.map fun e =>
      if e.1 = curr ∧ curr ≠ prev ∧ prev ∉ e.2 then (e.1, e.2 ++ [prev]) else e).map Prod.fst =
      m.map Prod.fst := by
    intro m
    rw [List.map_map]
    refine List.map_congr_left fun e _ => ?_
    dsimp only [Function.comp_apply]
    split_ifs <;> rfl
  refine ⟨(hkeys m).symm ▸ h.keys, fun e' he' => ?_, fun e' he' p => ?_, fun p c hc => ?_⟩
  · obtain ⟨e, he, rfl⟩ := List.mem_map.1 he'
    split_ifs with hif
    · exact List.concat_eq_append ▸ (h.once e he).concat hif.2.2
    · exact h.once e he
  · obtain ⟨e, he, rfl⟩ := List.mem_map.1 he'
    have hmem := h.mem e he p
    simp only [List.mem_append, List.mem_singleton, Prod.mk.injEq]
    split_ifs with hif
    · obtain ⟨rfl, hne, -⟩ := hif
      simp only [List.mem_append, List.mem_singleton, hmem, and_true]
      constructor
      · rintro (⟨hp, hl⟩ | rfl)
        · exact ⟨hp, .inl hl⟩
        · exact ⟨hne.symm, .inr rfl⟩
      · rintro ⟨hp, hl | rfl⟩
        · exact .inl ⟨hp, hl⟩
        · exact .inr rfl
    · rw [hmem]
      refine and_congr_right fun hp => ⟨.inl, fun hl => hl.elim id ?_⟩
      -- the pair of this slot changes nothing: its element has been recorded before
      rintro ⟨rfl, rfl⟩
      by_contra hl
      exact hif ⟨rfl, hp.symm, fun hc => hl (hmem.1 hc).2⟩
  · rw [hkeys]
    rcases List.mem_append.1 hc with hc | hc
    · exact h.all p c hc
    · obtain ⟨-, rfl⟩ := Prod.mk.inj (List.mem_singleton.1 hc)
      exact hcurr

/-- **One slot.** -/
theorem ListsReplaced.recordReplaced (h : ListsReplaced l m) (prev curr : Slot) :
    ListsReplaced (l ++ [(prev, curr)]) (recordReplaced m prev curr) := by
  have hiff : (∃ e ∈ m, e.1 = curr) ↔ curr ∈ m.map Prod.fst := List.mem_map.symm
  unfold ArionDp.recordReplaced
  by_cases hex : ∃ e ∈ m, e.1 = curr
  · simp only [if_pos hex]
    exact h.record prev curr (hiff.1 hex)
  · simp only [if_neg hex]
    refine (h.initialized curr (mt hiff.2 hex)).record prev curr ?_
    rw [List.map_append]
    exact List.mem_append_right _ (List.mem_singleton_self curr)

end Record

/-- **All slots.** -/
theorem listsReplaced_replacedMap (prevTable table : List Slot) :
    ListsReplaced (prevTable.zip table) (replacedMap prevTable table) := by
  suffices hfrom : ∀ (todo done : List (Slot × Slot)) (m : List (Slot × List Slot)), ListsReplaced done m →
      ListsReplaced (done ++ todo) (todo.foldl (fun m e => recordReplaced m e.1 e.2) m) from
    hfrom _ [] [] listsReplaced_nil
  intro todo
  induction todo with
  | nil => exact fun done m h => (List.append_nil done).symm ▸ h
  | cons e todo ih =>
    intro done m h
    rw [List.append_cons]
    exact ih _ _ (h.recordReplaced e.1 e.2)

/-! ## The map that is kept -/

/-- **The replacement map between two tables**, with its counts. -/
structure ReplacementMap (prev table : List Slot) (s : MaglevTable) : Prop where
  keys : (s.prevElementsMap.map Prod.fst).Nodup
  mem : ∀ c p, (∃ l, (c, l) ∈ s.prevElementsMap ∧ p ∈ l) ↔
    p ≠ c ∧ ∃ i : ℕ, prev[i]? = some p ∧ table[i]? = some c
  once : ∀ e ∈ s.prevElementsMap, e.2.Nodup
  nonempty : ∀ e ∈ s.prevElementsMap, e.2 ≠ []
  replaced : s.elementsReplaced = ((prev.zip table).filter fun e => e.1 ≠ e.2).toFinset.card
  replacing : s.elementsReplacing = s.prevElementsMap.length

/-- The pairs that a map records. -/
def recordedPairs (m : List (Slot × List Slot)) : List (Slot × Slot) :=
  m.flatMap fun e => e.2.map fun prev => (prev, e.1)

section Kept

variable {l : List (Slot × Slot)} {m : List (Slot × List Slot)}

theorem mem_recordedPairs {prev curr : Slot} :
    (prev, curr) ∈ recordedPairs m ↔ ∃ l, (curr, l) ∈ m ∧ prev ∈ l := by
  simp only [recordedPairs, List.mem_flatMap, List.mem_map, Prod.mk.injEq]
  constructor
  · rintro ⟨e, he, p, hp, rfl, rfl⟩
    exact ⟨e.2, he, hp⟩
  · rintro ⟨l, hl, hp⟩
    exact ⟨(curr, l), hl, prev, hp, rfl, rfl⟩

/-- Every pair is recorded once. -/
theorem ListsReplaced.nodup_pairs (h : ListsReplaced l m) : (recordedPairs m).Nodup := by
  refine List.nodup_flatMap.2 ⟨fun e he => (h.once e he).map fun p p' hp => (Prod.mk.inj hp).1, ?_⟩
  refine (List.pairwise_map.1 h.keys).imp fun {e e'} hne => ?_
  rintro ⟨p, c⟩ hp hp'
  obtain ⟨_, -, heq⟩ := List.mem_map.1 hp
  obtain ⟨_, -, heq'⟩ := List.mem_map.1 hp'
  exact hne ((Prod.mk.inj heq).2.trans (Prod.mk.inj heq').2.symm)

/-- What is recorded: the pairs of different elements. -/
theorem ListsReplaced.mem_pairs (h : ListsReplaced l m) (prev curr : Slot) :
    (prev, curr) ∈ recordedPairs m ↔ prev ≠ curr ∧ (prev, curr) ∈ l := by
  rw [mem_recordedPairs]
  constructor
  · rintro ⟨c, hc, hp⟩
    exact (h.mem _ hc prev).1 hp
  · rintro ⟨hne, hl⟩
    obtain ⟨e, he, rfl⟩ := List.mem_map.1 (h.all prev curr hl)
    exact ⟨e.2, he, (h.mem e he prev).2 ⟨hne, hl⟩⟩

/-- The number of pairs. -/
theorem ListsReplaced.sum_length (h : ListsReplaced l m) :
    (m.map fun e => e.2.length).sum = (l.filter fun e => e.1 ≠ e.2).toFinset.card := by
  have hlen : (recordedPairs m).length = (m.map fun e => e.2.length).sum := by
    rw [recordedPairs, List.length_flatMap]
    simp only [List.length_map]
  have hset : (recordedPairs m).toFinset = (l.filter fun e => e.1 ≠ e.2).toFinset := by
    ext ⟨prev, curr⟩
    simp only [List.mem_toFinset, h.mem_pairs, List.mem_filter, decide_eq_true_eq, and_comm]
  rw [← hlen, ← hset, List.toFinset_card_of_nodup h.nodup_pairs]

end Kept

theorem mem_zip_iff {prev table : List Slot} {p c : Slot} :
    (p, c) ∈ prev.zip table ↔ ∃ i : ℕ, prev[i]? = some p ∧ table[i]? = some c := by
  rw [List.mem_iff_getElem?]
  exact exists_congr fun i => List.getElem?_zip_eq_some

/-- **A table that is filled again**, and compared with the one that it replaces. -/
theorem refresh_replaced {s : MaglevTable} {table : List Slot}
    (hpop : populate s.tableSize s.permutationsTable = .ok table) (hlen : table.length = s.tableSize)
    (hold : s.table = [] ∨ s.table.length = s.tableSize) :
    ∃ t, MaglevTable.refresh s = (.ok (), t) ∧ t.tableSize = s.tableSize ∧ t.table = table ∧
      (s.table ≠ [] → ReplacementMap s.table table t) := by
  by_cases hnil : s.table = []
  · exact ⟨_, (refresh_run hpop).trans (congrFun (if_pos hnil) _), rfl, rfl, fun h => absurd hnil h⟩
  have hrec := listsReplaced_replacedMap s.table table
  refine ⟨_, (refresh_run hpop).trans ((congrFun (if_neg hnil) _).trans (generatePrevElementsMap_run hnil
    (replacedElements_eq (hold.resolve_left hnil) hlen))), rfl, rfl, fun _ => ?_⟩
  have hsub : ∀ e, e ∈ (replacedMap s.table table).filter (fun e => e.2 ≠ []) ↔
      e ∈ replacedMap s.table table ∧ e.2 ≠ [] := fun e =>
    List.mem_filter.trans (and_congr_right fun _ => decide_eq_true_iff)
  refine ⟨hrec.keys.sublist (List.filter_sublist.map _), fun c p => ?_, fun e he => hrec.once e ((hsub e).1 he).1,
    fun e he => ((hsub e).1 he).2, hrec.sum_length, rfl⟩
  rw [← mem_zip_iff, ← hrec.mem_pairs, mem_recordedPairs]
  refine exists_congr fun l => and_congr_left fun hp => ?_
  exact (hsub (c, l)).trans (and_iff_left (List.ne_nil_of_mem hp))

/-! ## What a caller has seen -/

/-- **What the caller of a table has seen**: the table that was returned last, and whether an element has been added
or removed since. -/
structure Seen where
  returned : Option (List Slot)
  changed : Bool
  deriving DecidableEq

/-- A call, as its caller sees it: one that raises an exception changes nothing. -/
def MaglevOp.seen (op : MaglevOp) (s : MaglevTable) (v : Seen) : Seen :=
  match op with
  | .add e => match (MaglevTable.add e s).1 with
    | .ok _ => { v with changed := true }
    | .error _ => v
  | .remove e => match (MaglevTable.remove e s).1 with
    | .ok _ => { v with changed := true }
    | .error _ => v
  | .getTable => match (MaglevTable.getTable s).1 with
    | .ok table => ⟨some table, false⟩
    | .error _ => v

/-- What the caller has seen after a sequence of calls. -/
def seenAfter : List MaglevOp → MaglevTable → Seen → Seen
  | [], _, v => v
  | op :: ops, s, v => seenAfter ops (op.run s) (op.seen s v)

/-- **The table remembers what its caller has seen.** -/
structure Remembers (p : ℕ) (s : MaglevTable) (v : Seen) : Prop where
  size : s.tableSize = p
  first : v.returned = none → s.table = []
  last : ∀ t, v.returned = some t → s.table = t ∧ t.length = p
  altered : v.changed = true → s.altered = true

theorem Remembers.new (p : ℕ) : Remembers p (.new p) ⟨none, false⟩ where
  size := rfl
  first _ := rfl
  last _ h := nomatch h
  altered h := nomatch h

/-! ## Runs -/

section Length

variable (p : ℕ) (perms : List (ElementName × List ℕ))

theorem placeElements_length (elements : List ElementName) (i : ℕ) (f : Filling) :
    Returns (placeElements p perms elements i f) fun r => r.1.table.length = f.table.length := by
  induction elements generalizing i f with
  | nil => exact Returns.pure rfl
  | cons e elements ih =>
    refine Returns.bind (placeElement_returns perms e i f) fun f₁ hf₁ => ?_
    obtain ⟨c, -, ht, -⟩ := hf₁
    have hlen : f₁.table.length = f.table.length := by rw [ht, List.length_set]
    refine Returns.ite (fun _ => Returns.pure hlen) fun _ r hr => ?_
    exact (ih (i + 1) f₁ r hr).trans hlen

theorem populateRounds_length (elements : List ElementName) (rounds : ℕ) (f : Filling) :
    Returns (populateRounds p perms elements rounds f) fun table => table.length = f.table.length := by
  induction rounds generalizing f with
  | zero => exact Returns.error
  | succ rounds ih =>
    refine Returns.bind (placeElements_length p perms elements 0 f) fun r hr => ?_
    refine Returns.ite (fun _ => Returns.pure hr) fun _ table ht => ?_
    exact (ih r.1 table ht).trans hr

/-- A table that has been filled has the right size, whatever the elements are. -/
theorem populate_length : Returns (populate p perms) fun table => table.length = p := fun table ht =>
  (populateRounds_length p perms _ p _ table ht).trans (List.length_replicate ..)

end Length

section Run

variable {p : ℕ} {s : MaglevTable} {v : Seen}

theorem Remembers.table_cases (h : Remembers p s v) : s.table = [] ∨ s.table.length = p := by
  cases hv : v.returned with
  | none => exact .inl (h.first hv)
  | some t =>
    obtain ⟨rfl, hlen⟩ := h.last t hv
    exact .inr hlen

/-- **A changed table**: the call fails and leaves what it shows alone, or it fills the table and compares. -/
theorem Remembers.getTable_altered (h : Remembers p s v) (hp : p ≠ 0) (halt : s.altered = true) :
    (∃ err t, MaglevTable.getTable s = (.error err, t) ∧ t.tableSize = s.tableSize ∧ t.table = s.table ∧
        t.altered = true) ∨
      ∃ table t, MaglevTable.getTable s = (.ok table, t) ∧ t.tableSize = p ∧ t.table = table ∧
        table.length = p ∧ (s.table ≠ [] → ReplacementMap s.table table t) := by
  cases hpop : populate s.tableSize s.permutationsTable with
  | error err =>
    exact .inl ⟨err, _, getTable_run_error halt hpop, rfl, rfl, halt⟩
  | ok table =>
    have hlen : table.length = s.tableSize := populate_length _ _ table hpop
    have hne : table ≠ [] := by
      rintro rfl
      exact hp (h.size.symm.trans hlen.symm)
    obtain ⟨t, hrefresh, hsize, htable, hmap⟩ := refresh_replaced hpop hlen (h.size.symm ▸ h.table_cases)
    have hrun : MaglevTable.getTable s = (.ok t.table, { t with altered := false }) := by
      rw [getTable_run ((congrFun (if_pos halt) s).trans hrefresh), if_neg (htable ▸ hne)]
    refine .inr ⟨table, { t with altered := false }, htable ▸ hrun, hsize.trans h.size, htable,
      hlen.trans h.size, fun hold => ?_⟩
    obtain ⟨hkeys, hmem, honce, hnonempty, hreplaced, hreplacing⟩ := hmap hold
    exact ⟨hkeys, hmem, honce, hnonempty, hreplaced, hreplacing⟩

/-- An unchanged table is returned as it is. -/
theorem Remembers.getTable_unaltered (h : Remembers p s v) (halt : s.altered = false) :
    Remembers p (MaglevOp.getTable.run s) (MaglevOp.getTable.seen s v) := by
  have hrun := getTable_run_unaltered halt
  rw [MaglevOp.run, MaglevOp.seen]
  by_cases hnil : s.table = []
  · rw [hrun, if_pos hnil]
    exact h
  · rw [hrun, if_neg hnil]
    refine ⟨h.size, fun hc => absurd hc (Option.some_ne_none _), fun t ht => ?_, fun hc => absurd hc Bool.false_ne_true⟩
    obtain rfl := Option.some.inj ht
    exact ⟨rfl, h.table_cases.resolve_left hnil⟩

/-- A call that adds or removes: it fails and leaves all as it is, or it marks the table as altered. -/
theorem Remembers.of_change (h : Remembers p s v) {r : Except MaglevError Unit × MaglevTable}
    (hr : (∃ err, r = (.error err, s)) ∨
      ∃ t, r = (.ok (), t) ∧ t.tableSize = s.tableSize ∧ t.table = s.table ∧ t.altered = true) :
    Remembers p r.2 (match r.1 with
      | .ok _ => { v with changed := true }
      | .error _ => v) := by
  rcases hr with ⟨err, rfl⟩ | ⟨t, rfl, hsize, htable, halt⟩
  · exact h
  · exact ⟨hsize.trans h.size, fun hv => htable.trans (h.first hv), fun u hu => htable ▸ h.last u hu, fun _ => halt⟩

/-- **Every call.** -/
theorem Remembers.run (h : Remembers p s v) (hp : p ≠ 0) (op : MaglevOp) :
    Remembers p (op.run s) (op.seen s v) := by
  cases op with
  | add e =>
    refine h.of_change ?_
    rw [MaglevTable.add, bind_run, getState_run]
    dsimp only
    split_ifs
    · exact .inl ⟨_, rfl⟩
    · rw [bind_run, ofExcept_run]
      cases computePermutations s.tableSize e with
      | error err => exact .inl ⟨err, rfl⟩
      | ok perm => exact .inr ⟨_, rfl, rfl, rfl, rfl⟩
  | remove e =>
    refine h.of_change ?_
    rw [MaglevTable.remove, bind_run, getState_run]
    dsimp only
    split_ifs
    · exact .inr ⟨_, rfl, rfl, rfl, rfl⟩
    · exact .inl ⟨_, rfl⟩
  | getTable =>
    cases halt : s.altered with
    | false => exact h.getTable_unaltered halt
    | true =>
      rw [MaglevOp.run, MaglevOp.seen]
      rcases h.getTable_altered hp halt with ⟨err, t, hrun, hsize, htable, halt'⟩ |
        ⟨table, t, hrun, hsize, htable, hlen, -⟩
      · rw [hrun]
        exact ⟨hsize.trans h.size, fun hv => htable.trans (h.first hv), fun u hu => htable ▸ h.last u hu,
          fun _ => halt'⟩
      · rw [hrun]
        refine ⟨hsize, fun hc => absurd hc (Option.some_ne_none _), fun u hu => ?_,
          fun hc => absurd hc Bool.false_ne_true⟩
        obtain rfl := Option.some.inj hu
        exact ⟨htable, hlen⟩

/-- **Any calls.** -/
theorem Remembers.runs (h : Remembers p s v) (hp : p ≠ 0) (ops : List MaglevOp) :
    Remembers p (runMaglevOps ops s) (seenAfter ops s v) := by
  induction ops generalizing s v with
  | nil => exact h
  | cons op ops ih => exact ih (h.run hp op)

end Run

/-- **The replacement map is exact.** After any calls, a call of `get_table` that follows a change and is not the
first to return a table leaves the map from the table that was returned last to the new one: the list of an element
has just the other elements that had one of its slots, each of them once, and the counts are the numbers of such
pairs and of elements. -/
theorem prev_elements_map_exact {p : ℕ} (hp : p.Prime) (ops : List MaglevOp) {prev table : List Slot}
    (hseen : seenAfter ops (.new p) ⟨none, false⟩ = ⟨some prev, true⟩)
    (hget : (MaglevTable.getTable (runMaglevOps ops (.new p))).1 = .ok table) :
    ReplacementMap prev table (MaglevTable.getTable (runMaglevOps ops (.new p))).2 := by
  have h := (Remembers.new p).runs hp.ne_zero ops
  rw [hseen] at h
  obtain ⟨hprev, hlen⟩ := h.last prev rfl
  have hnil : (runMaglevOps ops (.new p)).table ≠ [] := by
    rw [hprev]
    rintro rfl
    exact hp.ne_zero hlen.symm
  rcases h.getTable_altered hp.ne_zero (h.altered rfl) with ⟨err, t, hrun, -⟩ | ⟨table', t, hrun, -, -, -, hmap⟩
  · rw [hrun] at hget
    exact nomatch hget
  · rw [hrun] at hget ⊢
    obtain rfl := Except.ok.inj hget
    exact hprev ▸ hmap hnil

/-- The calls of a test of the source: three chains, of which the last one is removed. -/
theorem prev_elements_map_exact_sample :
    let slot := fun (name : String) => (some name.toList : Slot)
    ReplacementMap (["chain0", "chain0", "chain0", "chain1", "chain1", "chain2", "chain2"].map slot)
      (["chain1", "chain0", "chain0", "chain1", "chain1", "chain0", "chain0"].map slot)
      (MaglevTable.getTable (runMaglevOps [.add "chain0".toList, .add "chain1".toList, .add "chain2".toList,
        .getTable, .remove "chain2".toList] (.new 7))).2 :=
  prev_elements_map_exact (by decide) _ (by decide +kernel) (by decide +kernel)

end ArionDp
