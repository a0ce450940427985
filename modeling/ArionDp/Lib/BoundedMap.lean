import Mathlib.Data.Finmap

/-!
# Maps with room for so many keys

A finite map that refuses a new key once it is full, and what a list of updates does to it.

* `update`, `delete`, `lookup`, and their lemmas;
* `puts`, **`puts_apply`**: a list of updates on the function that a map stands for, where the last one counts;
* `updates`, **`updates_spec`**: updates up to the first one that is refused;
* **`updates_updates`**: the same updates once more change nothing, and end in the same way;
* `FitsIn`, **`updates_fst_eq_true`**: when updates are all made;
* `ArrayMap`: an array, as a map with a value under each of its indices.
-/

/-- A finite map with at most `n` keys. -/
structure BoundedMap (κ ν : Type) [DecidableEq κ] (n : ℕ) where
  entries : Finmap fun _ : κ => ν
  room : entries.keys.card ≤ n

namespace BoundedMap

variable {κ ν : Type} [DecidableEq κ] {n : ℕ}

/-- The map without keys. -/
def empty : BoundedMap κ ν n := ⟨∅, by rw [Finmap.keys_empty]; exact Nat.zero_le n⟩

/-- The value under a key. -/
def lookup (m : BoundedMap κ ν n) (k : κ) : Option ν := m.entries.lookup k

/-- There is room for a key: it is in use, or another one still fits. -/
def HasRoom (m : BoundedMap κ ν n) (k : κ) : Prop := k ∈ m.entries ∨ m.entries.keys.card < n

instance (m : BoundedMap κ ν n) (k : κ) : Decidable (m.HasRoom k) := inferInstanceAs (Decidable (_ ∨ _))

theorem keys_insert (s : Finmap fun _ : κ => ν) (k : κ) (v : ν) : (s.insert k v).keys = insert k s.keys := by
  ext a
  rw [Finmap.mem_keys, Finmap.mem_insert, Finset.mem_insert, Finmap.mem_keys]

theorem card_insert_le {m : BoundedMap κ ν n} {k : κ} (h : m.HasRoom k) (v : ν) :
    (m.entries.insert k v).keys.card ≤ n := by
  rw [keys_insert]
  rcases h with h | h
  · rw [Finset.insert_eq_of_mem (Finmap.mem_keys.2 h)]
    exact m.room
  · exact (Finset.card_insert_le _ _).trans h

/-- A new value under a key, if there is room for it. -/
def update (m : BoundedMap κ ν n) (k : κ) (v : ν) : Option (BoundedMap κ ν n) :=
  if h : m.HasRoom k then some ⟨m.entries.insert k v, card_insert_le h v⟩ else none

/-- A key is taken out, if it is in use. -/
def delete (m : BoundedMap κ ν n) (k : κ) : Option (BoundedMap κ ν n) :=
  if k ∈ m.entries then some ⟨m.entries.erase k, by
    rw [Finmap.keys_erase]
    exact (Finset.card_erase_le).trans m.room⟩
  else none

@[ext] theorem ext {m m' : BoundedMap κ ν n} (h : ∀ k, m.lookup k = m'.lookup k) : m = m' := by
  obtain ⟨s, hs⟩ := m
  obtain ⟨t, ht⟩ := m'
  obtain rfl : s = t := Finmap.ext_lookup h
  rfl

@[simp] theorem lookup_empty (k : κ) : (empty : BoundedMap κ ν n).lookup k = none := Finmap.lookup_empty k

theorem isSome_lookup {m : BoundedMap κ ν n} {k : κ} : (m.lookup k).isSome ↔ k ∈ m.entries := Finmap.lookup_isSome

theorem update_eq_none {m : BoundedMap κ ν n} {k : κ} {v : ν} : m.update k v = none ↔ ¬ m.HasRoom k := by
  rw [update]
  split_ifs with h <;> simp [h]

theorem lookup_update {m m' : BoundedMap κ ν n} {k : κ} {v : ν} (h : m.update k v = some m') :
    m'.lookup = Function.update m.lookup k (some v) := by
  rw [update] at h
  split_ifs at h
  obtain rfl := Option.some.inj h
  exact Function.eq_update_iff.2 ⟨Finmap.lookup_insert _, fun _ ha => Finmap.lookup_insert_of_ne _ ha⟩

theorem delete_eq_none {m : BoundedMap κ ν n} {k : κ} : m.delete k = none ↔ m.lookup k = none := by
  rw [delete, lookup, Finmap.lookup_eq_none]
  split_ifs with h <;> simp [h]

theorem lookup_delete {m m' : BoundedMap κ ν n} {k : κ} (h : m.delete k = some m') :
    m'.lookup = Function.update m.lookup k none := by
  rw [delete] at h
  split_ifs at h
  obtain rfl := Option.some.inj h
  exact Function.eq_update_iff.2 ⟨Finmap.lookup_erase k _, fun _ ha => Finmap.lookup_erase_ne ha⟩

/-- What was deleted is not there. -/
theorem delete_delete {m m' : BoundedMap κ ν n} {k : κ} (h : m.delete k = some m') : m'.delete k = none := by
  rw [delete_eq_none, lookup_delete h, Function.update_self]

/-! ## Updates on functions -/

/-- The last update of each key counts. -/
def puts (f : κ → Option ν) (l : List (κ × ν)) : κ → Option ν :=
  l.foldl (fun f p => Function.update f p.1 (some p.2)) f

/-- The last value of a key. -/
def lastOf (l : List (κ × ν)) (k : κ) : Option ν := ((l.filter fun p => p.1 = k).getLast?).map Prod.snd

theorem puts_cons (f : κ → Option ν) (p : κ × ν) (l : List (κ × ν)) :
    puts f (p :: l) = puts (Function.update f p.1 (some p.2)) l := rfl

theorem puts_append (f : κ → Option ν) (l l' : List (κ × ν)) : puts f (l ++ l') = puts (puts f l) l' :=
  List.foldl_append

/-- **The last value of a key**, or the one before. -/
theorem puts_apply (f : κ → Option ν) (l : List (κ × ν)) (k : κ) : puts f l k = (lastOf l k).or (f k) := by
  induction l generalizing f with
  | nil => rfl
  | cons p l ih =>
    rw [puts_cons, ih, Function.update_apply, lastOf, lastOf, List.filter_cons]
    by_cases hp : p.1 = k
    · rw [if_pos hp.symm, if_pos (decide_eq_true hp), List.getLast?_cons]
      cases (l.filter fun p => p.1 = k).getLast? <;> rfl
    · rw [if_neg (Ne.symm hp), if_neg (by simpa using hp)]

theorem lastOf_map {ν' : Type} (g : ν → ν') (l : List (κ × ν)) (k : κ) :
    lastOf (l.map fun p => (p.1, g p.2)) k = (lastOf l k).map g := by
  rw [lastOf, lastOf, List.filter_map, List.getLast?_map, Option.map_map, Option.map_map]
  rfl

theorem puts_puts (f : κ → Option ν) (l : List (κ × ν)) : puts (puts f l) l = puts f l := by
  funext k
  rw [puts_apply, puts_apply]
  cases lastOf l k <;> rfl

/-- A key of the list is in use. -/
theorem isSome_puts (f : κ → Option ν) {l : List (κ × ν)} {p : κ × ν} (hp : p ∈ l) : (puts f l p.1).isSome := by
  have hne : (l.filter fun q => q.1 = p.1) ≠ [] := List.ne_nil_of_mem (List.mem_filter.2 ⟨hp, decide_eq_true rfl⟩)
  rw [puts_apply, lastOf, List.getLast?_eq_getLast_of_ne_nil hne]
  rfl

/-! ## Lists of updates -/

/-- Update key after key, up to the first one for which there is no room; whether there was none. -/
def updates (m : BoundedMap κ ν n) : List (κ × ν) → Bool × BoundedMap κ ν n
  | [] => (true, m)
  | p :: l => match m.update p.1 p.2 with
    | none => (false, m)
    | some m' => m'.updates l

/-- **What updates do**: those in front of the first one that is refused, which finds the map full without its key. -/
theorem updates_spec (m : BoundedMap κ ν n) (l : List (κ × ν)) :
    ((m.updates l).1 = true ∧ (m.updates l).2.lookup = puts m.lookup l) ∨
    ∃ done p rest, l = done ++ p :: rest ∧ (m.updates l).1 = false ∧ (m.updates l).2.lookup = puts m.lookup done ∧
      ¬ (m.updates l).2.HasRoom p.1 := by
  induction l generalizing m with
  | nil => exact .inl ⟨rfl, rfl⟩
  | cons p l ih =>
    rw [updates]
    cases h : m.update p.1 p.2 with
    | none => exact .inr ⟨[], p, l, rfl, rfl, rfl, update_eq_none.1 h⟩
    | some m' =>
      simp only [puts_cons, ← lookup_update h]
      obtain hall | ⟨done, q, rest, rfl, hres, hlook, hfull⟩ := ih m'
      · exact .inl hall
      · exact .inr ⟨p :: done, q, rest, rfl, hres, by rw [hlook, puts_cons, lookup_update h], hfull⟩

/-- Updates of keys in use are not refused. -/
theorem updates_of_mem {m : BoundedMap κ ν n} {l : List (κ × ν)} (h : ∀ p ∈ l, (m.lookup p.1).isSome)
    (l' : List (κ × ν)) :
    ∃ m' : BoundedMap κ ν n, m'.lookup = puts m.lookup l ∧ m.updates (l ++ l') = m'.updates l' := by
  induction l generalizing m with
  | nil => exact ⟨m, rfl, rfl⟩
  | cons p l ih =>
    have hroom : m.HasRoom p.1 := .inl (isSome_lookup.1 (h p List.mem_cons_self))
    obtain ⟨m₁, h₁⟩ : ∃ m₁, m.update p.1 p.2 = some m₁ := ⟨_, dif_pos hroom⟩
    have hlook := lookup_update h₁
    obtain ⟨m', hm', hrun⟩ := ih (m := m₁) fun q hq => by
      rw [hlook, Function.update_apply]
      split_ifs
      · rfl
      · exact h q (List.mem_cons_of_mem p hq)
    exact ⟨m', by rw [hm', hlook, puts_cons], by rw [List.cons_append, updates, h₁]; exact hrun⟩

/-- **The same updates once more** change nothing, and end in the same way. -/
theorem updates_updates (m : BoundedMap κ ν n) (l : List (κ × ν)) : (m.updates l).2.updates l = m.updates l := by
  obtain ⟨htrue, hlook⟩ | ⟨done, p, rest, hl, hfalse, hlook, hfull⟩ := updates_spec m l
  · obtain ⟨m', hm', hrun⟩ := updates_of_mem (m := (m.updates l).2) (l := l)
      (fun p hp => by rw [hlook]; exact isSome_puts _ hp) []
    have hsame : m' = (m.updates l).2 := ext fun k => by rw [hm', hlook, puts_puts]
    rw [List.append_nil] at hrun
    rw [hrun, updates, hsame, ← htrue]
  · obtain ⟨m', hm', hrun⟩ := updates_of_mem (m := (m.updates l).2) (l := done)
      (fun p hp => by rw [hlook]; exact isSome_puts _ hp) (p :: rest)
    have hsame : m' = (m.updates l).2 := ext fun k => by rw [hm', hlook, puts_puts]
    rw [← hl] at hrun
    rw [hrun, hsame, updates, update_eq_none.2 hfull, ← hfalse]

/-! ## Keys that fit -/

/-- No more than `n` keys are in use. -/
def FitsIn (n : ℕ) (f : κ → Option ν) : Prop := ∃ K : Finset κ, K.card ≤ n ∧ ∀ k, (f k).isSome → k ∈ K

theorem fitsIn_lookup (m : BoundedMap κ ν n) : FitsIn n m.lookup :=
  ⟨m.entries.keys, m.room, fun _ h => Finmap.mem_keys.2 (isSome_lookup.1 h)⟩

theorem isSome_puts_of_isSome {f : κ → Option ν} {k : κ} (h : (f k).isSome) (l : List (κ × ν)) :
    (puts f l k).isSome := by
  rw [puts_apply]
  cases lastOf l k with
  | none => exact h
  | some v => rfl

/-- **Updates are all made when what they leave fits.** -/
theorem updates_fst_eq_true {m : BoundedMap κ ν n} {l : List (κ × ν)} :
    (m.updates l).1 = true ↔ FitsIn n (puts m.lookup l) := by
  obtain ⟨htrue, hlook⟩ | ⟨done, p, rest, hl, hfalse, hlook, hfull⟩ := updates_spec m l
  · exact ⟨fun _ => hlook ▸ fitsIn_lookup _, fun _ => htrue⟩
  · refine ⟨fun htrue => absurd (htrue.symm.trans hfalse) Bool.noConfusion, ?_⟩
    rintro ⟨K, hcard, hK⟩
    -- the keys of the full map and the one that was refused are too many
    have hsub : (m.updates l).2.entries.keys ⊆ K := by
      intro k hk
      refine hK k ?_
      rw [hl, puts_append, ← hlook]
      exact isSome_puts_of_isSome (isSome_lookup.2 (Finmap.mem_keys.1 hk)) _
    have hp : p.1 ∈ K := hK p.1 (isSome_puts m.lookup (hl ▸ List.mem_append_right done List.mem_cons_self))
    rw [HasRoom, not_or, not_lt] at hfull
    have hins : (insert p.1 (m.updates l).2.entries.keys).card ≤ K.card :=
      Finset.card_le_card (Finset.insert_subset hp hsub)
    rw [Finset.card_insert_of_notMem fun h => hfull.1 (Finmap.mem_keys.1 h)] at hins
    omega

theorem FitsIn.of_puts {f : κ → Option ν} {l : List (κ × ν)} (h : FitsIn n (puts f l)) : FitsIn n f := by
  obtain ⟨K, hcard, hK⟩ := h
  exact ⟨K, hcard, fun k hk => hK k (isSome_puts_of_isSome hk l)⟩

/-- Updates take room for their keys at most. -/
theorem FitsIn.puts {f : κ → Option ν} (h : FitsIn n f) (l : List (κ × ν)) : FitsIn (n + l.length) (puts f l) := by
  obtain ⟨K, hcard, hK⟩ := h
  refine ⟨K ∪ (l.map Prod.fst).toFinset, ?_, fun k hk => ?_⟩
  · refine (Finset.card_union_le _ _).trans (Nat.add_le_add hcard ?_)
    exact (List.toFinset_card_le _).trans_eq (List.length_map _)
  · rw [puts_apply] at hk
    rw [Finset.mem_union, List.mem_toFinset]
    by_cases hmem : k ∈ l.map Prod.fst
    · exact .inr hmem
    · refine .inl (hK k ?_)
      have hnone : l.filter (fun p => p.1 = k) = [] :=
        List.filter_eq_nil_iff.2 fun p hp heq => hmem (of_decide_eq_true heq ▸ List.mem_map_of_mem hp)
      rwa [lastOf, hnone, List.getLast?_nil, Option.map_none, Option.none_or] at hk

omit [DecidableEq κ] in
theorem FitsIn.mono {f : κ → Option ν} {n' : ℕ} (h : FitsIn n f) (hn : n ≤ n') : FitsIn n' f := by
  obtain ⟨K, hcard, hK⟩ := h
  exact ⟨K, hcard.trans hn, hK⟩

omit [DecidableEq κ] in
theorem fitsIn_none : FitsIn 0 fun _ : κ => (none : Option ν) := ⟨∅, le_rfl, nofun⟩

end BoundedMap

/-! ## Arrays -/

/-- An array with `n` values, as a map from its indices. -/
structure ArrayMap (ν : Type) (n : ℕ) where
  values : Fin n → ν

namespace ArrayMap

variable {ν : Type} {n : ℕ} {m m' : ArrayMap ν n} {i : ℕ} {v : ν}

/-- The value under an index. -/
def lookup (m : ArrayMap ν n) (i : ℕ) : Option ν := if h : i < n then some (m.values ⟨i, h⟩) else none

/-- A new value under an index of the array. -/
def update (m : ArrayMap ν n) (i : ℕ) (v : ν) : Option (ArrayMap ν n) :=
  if h : i < n then some ⟨Function.update m.values ⟨i, h⟩ v⟩ else none

theorem lookup_of_lt (m : ArrayMap ν n) (h : i < n) : m.lookup i = some (m.values ⟨i, h⟩) := dif_pos h

theorem update_eq_none : m.update i v = none ↔ n ≤ i := by
  by_cases h : i < n
  · rw [update, dif_pos h]
    exact iff_of_false (Option.some_ne_none _) (not_le.2 h)
  · rw [update, dif_neg h]
    exact iff_of_true rfl (not_lt.1 h)

theorem lookup_update (h : m.update i v = some m') : m'.lookup = Function.update m.lookup i (some v) := by
  rw [update] at h
  split_ifs at h with hi
  obtain rfl := Option.some.inj h
  funext j
  rw [Function.update_apply]
  by_cases hj : j = i
  · subst hj
    rw [if_pos rfl]
    exact (lookup_of_lt _ hi).trans (congrArg some (Function.update_self ..))
  · rw [if_neg hj, lookup, lookup]
    by_cases hjn : j < n
    · have hne : (⟨j, hjn⟩ : Fin n) ≠ ⟨i, hi⟩ := fun heq => hj (congrArg Fin.val heq)
      rw [dif_pos hjn, dif_pos hjn]
      exact congrArg some (Function.update_of_ne hne ..)
    · rw [dif_neg hjn, dif_neg hjn]

end ArrayMap
