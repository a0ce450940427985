import Mathlib.Data.List.Perm.Basic
import Mathlib.Data.List.Induction
import Mathlib.Data.List.Nodup

/-!
# Object stores with resource versions

Named objects, each with a version that every write renews. A writer that passes the version it has
read succeeds only if nobody has written the object since.

* `Store`, its reads `get?` and `select`, and its writes `create`, `replace` and `delete`, which
  fail with `none`;
* `overlay`: named bodies laid over others, the effect of a series of writes;
* `pairs_select_put`, `pairs_select_add`, `pairs_select_drop`: the objects selected by their bodies
  after a write;
* **`map_overlay`**: writing back the changed members of a list turns it into the changed list.
-/

namespace ApiServer

variable {κ β : Type} [DecidableEq κ]

/-- A stored object. -/
structure Obj (κ β : Type) where
  name : κ
  resourceVersion : ℕ
  body : β
  deriving DecidableEq

/-- **A store**: one object for a name, and no version from the future. -/
structure Store (κ β : Type) where
  objs : List (Obj κ β)
  next : ℕ
  nodup : (objs.map Obj.name).Nodup
  fresh : ∀ o ∈ objs, o.resourceVersion < next

/-- The empty store. -/
def Store.empty : Store κ β := ⟨[], 0, List.nodup_nil, fun _ h => absurd h List.not_mem_nil⟩

/-! ## Reads -/

namespace Store

/-- The object with a name. -/
def get? (s : Store κ β) (n : κ) : Option (Obj κ β) := s.objs.find? fun o => o.name = n

/-- The objects whose bodies satisfy `p`. -/
def select (s : Store κ β) (p : β → Bool) : List (Obj κ β) := s.objs.filter fun o => p o.body

omit [DecidableEq κ] in
theorem eq_of_name_eq (s : Store κ β) {o o' : Obj κ β} (h : o ∈ s.objs) (h' : o' ∈ s.objs)
    (hn : o.name = o'.name) : o = o' :=
  List.inj_on_of_nodup_map s.nodup h h' hn

theorem get?_eq_some_iff (s : Store κ β) {n : κ} {o : Obj κ β} :
    s.get? n = some o ↔ o ∈ s.objs ∧ o.name = n := by
  constructor
  · intro h
    exact ⟨List.mem_of_find?_eq_some h, by simpa using List.find?_some h⟩
  · rintro ⟨ho, rfl⟩
    have hs : (s.get? o.name).isSome := List.find?_isSome.2 ⟨o, ho, by simp⟩
    obtain ⟨o', ho'⟩ := Option.isSome_iff_exists.1 hs
    have hn : o'.name = o.name := by simpa using List.find?_some ho'
    rw [ho', s.eq_of_name_eq (List.mem_of_find?_eq_some ho') ho hn]

/-! ## Writes -/

theorem map_name_update (l : List (Obj κ β)) (n : κ) (v : ℕ) (b : β) :
    (l.map fun o => if o.name = n then ⟨n, v, b⟩ else o).map Obj.name = l.map Obj.name := by
  rw [List.map_map]
  refine List.map_congr_left fun o _ => ?_
  rw [Function.comp_apply]
  split_ifs with ho
  · exact ho.symm
  · rfl

/-- Write the body of an object, with a new version. -/
def put (s : Store κ β) (n : κ) (b : β) : Store κ β where
  objs := s.objs.map fun o => if o.name = n then ⟨n, s.next, b⟩ else o
  next := s.next + 1
  nodup := by
    rw [map_name_update]
    exact s.nodup
  fresh := by
    intro o ho
    obtain ⟨o', ho', rfl⟩ := List.mem_map.1 ho
    split_ifs
    · exact Nat.lt_succ_self _
    · exact Nat.lt_succ_of_lt (s.fresh o' ho')

/-- Replace the body of the object with version `v`. -/
def replace (s : Store κ β) (n : κ) (v : ℕ) (b : β) : Option (Store κ β) :=
  match s.get? n with
  | some o => if o.resourceVersion = v then some (s.put n b) else none
  | none => none

/-- Create an object. -/
def create (s : Store κ β) (n : κ) (b : β) : Option (Store κ β) :=
  if h : n ∈ s.objs.map Obj.name then none
  else some {
    objs := s.objs ++ [⟨n, s.next, b⟩]
    next := s.next + 1
    nodup := by
      rw [List.map_append, List.nodup_append]
      refine ⟨s.nodup, List.nodup_singleton _, fun m hm m' hm' hmm => h ?_⟩
      rw [List.map_singleton, List.mem_singleton] at hm'
      rwa [← show m = n from hmm.trans hm']
    fresh := by
      intro o ho
      rcases List.mem_append.1 ho with ho | ho
      · exact Nat.lt_succ_of_lt (s.fresh o ho)
      · rw [List.mem_singleton.1 ho]
        exact Nat.lt_succ_self _ }

/-- Delete an object. -/
def delete (s : Store κ β) (n : κ) : Option (Store κ β) :=
  if n ∈ s.objs.map Obj.name then some {
    objs := s.objs.filter fun o => o.name ≠ n
    next := s.next
    nodup := s.nodup.sublist (List.filter_sublist.map _)
    fresh := fun o ho => s.fresh o (List.mem_of_mem_filter ho) }
  else none

theorem mem_put (s : Store κ β) {n : κ} {b : β} {o : Obj κ β} :
    o ∈ (s.put n b).objs ↔
      (o ∈ s.objs ∧ o.name ≠ n) ∨ (o = ⟨n, s.next, b⟩ ∧ ∃ o' ∈ s.objs, o'.name = n) := by
  constructor
  · intro h
    obtain ⟨o', ho', rfl⟩ := List.mem_map.1 h
    split_ifs with hn
    · exact .inr ⟨rfl, o', ho', hn⟩
    · exact .inl ⟨ho', hn⟩
  · rintro (⟨ho, hn⟩ | ⟨rfl, o', ho', hn⟩)
    · exact List.mem_map.2 ⟨o, ho, if_neg hn⟩
    · exact List.mem_map.2 ⟨o', ho', if_pos hn⟩

/-- A write leaves every other object alone. -/
theorem get?_put_of_ne (s : Store κ β) {n m : κ} (b : β) (h : m ≠ n) :
    (s.put n b).get? m = s.get? m := by
  refine Option.ext fun o => ?_
  rw [get?_eq_some_iff, get?_eq_some_iff, mem_put]
  constructor
  · rintro ⟨⟨ho, -⟩ | ⟨rfl, -⟩, rfl⟩
    · exact ⟨ho, rfl⟩
    · exact absurd rfl h
  · rintro ⟨ho, rfl⟩
    exact ⟨.inl ⟨ho, h⟩, rfl⟩

theorem replace_of_get? (s : Store κ β) {n : κ} {o : Obj κ β} (b : β) (h : s.get? n = some o) :
    s.replace n o.resourceVersion b = some (s.put n b) := by
  rw [replace, h]
  exact if_pos rfl

end Store

/-! ## Bodies laid over others -/

/-- The name and the body of each object. -/
def pairs (l : List (Obj κ β)) : List (κ × β) := l.map fun o => (o.name, o.body)

/-- The body that `ws` has for a name, if it has one. -/
def overlay (ws : List (κ × β)) (e : κ × β) : κ × β :=
  (e.1, ((ws.find? fun d => d.1 = e.1).map Prod.snd).getD e.2)

theorem overlay_nil (e : κ × β) : overlay [] e = e := rfl

theorem overlay_of_notMem {ws : List (κ × β)} {e : κ × β} (h : e.1 ∉ ws.map Prod.fst) :
    overlay ws e = e := by
  have hf : (ws.find? fun d => d.1 = e.1) = none := by
    refine List.find?_eq_none.2 fun d hd => ?_
    rw [decide_eq_true_eq]
    exact fun hc => h (hc ▸ List.mem_map_of_mem hd)
  rw [overlay, hf]
  rfl

theorem overlay_of_mem {ws : List (κ × β)} {e : κ × β} {b : β} (hn : (ws.map Prod.fst).Nodup)
    (h : (e.1, b) ∈ ws) : overlay ws e = (e.1, b) := by
  have hs : (ws.find? fun d => d.1 = e.1).isSome := List.find?_isSome.2 ⟨_, h, by simp⟩
  obtain ⟨d, hd⟩ := Option.isSome_iff_exists.1 hs
  have hd1 : d.1 = e.1 := by simpa using List.find?_some hd
  have heq : d = (e.1, b) :=
    List.inj_on_of_nodup_map hn (List.mem_of_find?_eq_some hd) h hd1
  rw [overlay, hd, heq]
  rfl

/-- One more write. -/
theorem overlay_append {ws : List (κ × β)} {n : κ} (b : β) (h : n ∉ ws.map Prod.fst)
    (e : κ × β) : overlay [(n, b)] (overlay ws e) = overlay (ws ++ [(n, b)]) e := by
  by_cases he : e.1 = n
  · have hws : e.1 ∉ ws.map Prod.fst := he ▸ h
    have hf : (ws.find? fun d => d.1 = e.1) = none := by
      refine List.find?_eq_none.2 fun d hd => ?_
      rw [decide_eq_true_eq]
      exact fun hc => hws (hc ▸ List.mem_map_of_mem hd)
    rw [overlay_of_notMem hws, overlay, overlay, List.find?_append, hf, Option.none_or]
  · have hs : e.1 ∉ [(n, b)].map Prod.fst := by simpa using he
    rw [overlay_of_notMem (e := overlay ws e) hs, overlay, overlay, List.find?_append]
    have hnone : ([(n, b)].find? fun d => d.1 = e.1) = none := by
      simpa using Ne.symm he
    rw [hnone, Option.or_none]

/-- The writes to come, after one of them. -/
theorem overlay_cons {ws : List (κ × β)} {n : κ} (b : β) (h : n ∉ ws.map Prod.fst) (e : κ × β) :
    overlay ws (overlay [(n, b)] e) = overlay ((n, b) :: ws) e := by
  by_cases he : e.1 = n
  · have hws : (overlay [(n, b)] e).1 ∉ ws.map Prod.fst := fun hc => h (he ▸ hc)
    have hb : overlay [(n, b)] e = (e.1, b) := by
      simp [overlay, he]
    have hb' : overlay ((n, b) :: ws) e = (e.1, b) := by
      simp [overlay, he]
    rw [overlay_of_notMem hws, hb, hb']
  · have hs : e.1 ∉ [(n, b)].map Prod.fst := by simpa using he
    rw [overlay_of_notMem hs, overlay, overlay, List.find?_cons_of_neg (by simpa using Ne.symm he)]

theorem map_fst_overlay (ws l : List (κ × β)) :
    (l.map (overlay ws)).map Prod.fst = l.map Prod.fst := by
  rw [List.map_map]
  rfl

/-- **Writing back the changed members of a list turns it into the changed list.** -/
theorem map_overlay {l l' ws : List (κ × β)} (hn : (l.map Prod.fst).Nodup)
    (hnames : l'.map Prod.fst = l.map Prod.fst) (hws : ws.Sublist l' ∨ (ws.map Prod.fst).Nodup)
    (hmem : ∀ d ∈ ws, d ∈ l')
    (hrest : ∀ (i : ℕ) e e', l[i]? = some e → l'[i]? = some e' → e' ∈ ws ∨ e' = e) :
    l.map (overlay ws) = l' := by
  have hn' : (l'.map Prod.fst).Nodup := hnames ▸ hn
  have hno : (ws.map Prod.fst).Nodup := by
    rcases hws with h | h
    · exact hn'.sublist (h.map _)
    · exact h
  have hlen : l.length = l'.length := by
    have h := congrArg List.length hnames
    rwa [List.length_map, List.length_map, eq_comm] at h
  refine List.ext_getElem (by simpa using hlen) fun i h1 h2 => ?_
  have h1' : i < l.length := by simpa using h1
  have hname : l'[i].1 = l[i].1 := by
    have h := congrArg (·[i]?) hnames
    simpa [h1', h2] using h
  rw [List.getElem_map]
  by_cases hi : l[i].1 ∈ ws.map Prod.fst
  · obtain ⟨d, hd, hdn⟩ := List.mem_map.1 hi
    have hdl : d = l'[i] :=
      List.inj_on_of_nodup_map hn' (hmem d hd) (List.getElem_mem h2) (hdn.trans hname.symm)
    rw [overlay_of_mem (b := l'[i].2) hno (by rw [← hname, ← hdl]; exact hd), ← hname]
  · rw [overlay_of_notMem hi]
    rcases hrest i _ _ (List.getElem?_eq_getElem h1') (List.getElem?_eq_getElem h2) with h | h
    · exact absurd (hname ▸ List.mem_map_of_mem h) hi
    · exact h.symm

/-! ## Selections after a write -/

section Select

variable (s : Store κ β) (p : β → Bool)

theorem pairs_select_put {n : κ} {b : β} (h : ∀ o ∈ s.objs, o.name = n → p o.body = p b) :
    pairs ((s.put n b).select p) = (pairs (s.select p)).map (overlay [(n, b)]) := by
  unfold pairs Store.select Store.put
  rw [List.filter_map, List.map_map, List.map_map]
  have hf : s.objs.filter ((fun o : Obj κ β => p o.body) ∘
      fun o => if o.name = n then ⟨n, s.next, b⟩ else o) = s.objs.filter fun o => p o.body := by
    refine List.filter_congr fun o ho => ?_
    rw [Function.comp_apply]
    split_ifs with hn
    · exact (h o ho hn).symm
    · rfl
  rw [hf]
  refine List.map_congr_left fun o _ => ?_
  rw [Function.comp_apply, Function.comp_apply]
  split_ifs with hn
  · subst hn
    simp [overlay]
  · rw [overlay_of_notMem (by simpa using hn)]

theorem create_of_fresh {n : κ} (b : β) (h : ∀ o ∈ s.objs, o.name ≠ n) :
    ∃ t, s.create n b = some t ∧ t.objs = s.objs ++ [⟨n, s.next, b⟩] := by
  have hn : n ∉ s.objs.map Obj.name := by
    rintro hc
    obtain ⟨o, ho, hon⟩ := List.mem_map.1 hc
    exact h o ho hon
  rw [Store.create, dif_neg hn]
  exact ⟨_, rfl, rfl⟩

theorem objs_create {s t : Store κ β} {n : κ} {b : β} (h : s.create n b = some t) :
    t.objs = s.objs ++ [⟨n, s.next, b⟩] := by
  unfold Store.create at h
  split_ifs at h
  exact Option.some.inj h ▸ rfl

omit [DecidableEq κ] in
theorem pairs_select_add {t : Store κ β} {n : κ} {b : β} {v : ℕ} (h : t.objs = s.objs ++ [⟨n, v, b⟩]) :
    pairs (t.select p) = pairs (s.select p) ++ if p b then [(n, b)] else [] := by
  unfold pairs Store.select
  rw [h, List.filter_append, List.map_append, List.filter_singleton]
  congr 1
  cases hp : p b with
  | false => rfl
  | true => rfl

theorem delete_of_mem {n : κ} (h : ∃ o ∈ s.objs, o.name = n) :
    ∃ t, s.delete n = some t ∧ t.objs = s.objs.filter fun o => o.name ≠ n := by
  obtain ⟨o, ho, hon⟩ := h
  rw [Store.delete, if_pos (hon ▸ List.mem_map_of_mem ho)]
  exact ⟨_, rfl, rfl⟩

theorem mem_delete {t : Store κ β} {n : κ} (h : s.delete n = some t) {o : Obj κ β} :
    o ∈ t.objs ↔ o ∈ s.objs ∧ o.name ≠ n := by
  unfold Store.delete at h
  split_ifs at h
  obtain rfl := Option.some.inj h
  rw [List.mem_filter, decide_eq_true_eq]

theorem delete_of_notMem {n : κ} (h : ∀ o ∈ s.objs, o.name ≠ n) : s.delete n = none := by
  rw [Store.delete, if_neg]
  rintro hc
  obtain ⟨o, ho, hon⟩ := List.mem_map.1 hc
  exact h o ho hon

theorem pairs_select_drop {t : Store κ β} {n : κ} (h : t.objs = s.objs.filter fun o => o.name ≠ n) :
    pairs (t.select p) = (pairs (s.select p)).filter fun e => e.1 ≠ n := by
  unfold pairs Store.select
  rw [h, List.filter_comm, List.filter_map]
  rfl

end Select

/-! ## A series of writes -/

/-- Write bodies one after the other. -/
def Store.putAll (s : Store κ β) (ws : List (κ × β)) : Store κ β :=
  ws.foldl (fun s e => s.put e.1 e.2) s

section PutAll

variable (s : Store κ β)

theorem Store.putAll_concat (ws : List (κ × β)) (n : κ) (b : β) :
    s.putAll (ws ++ [(n, b)]) = (s.putAll ws).put n b := by
  rw [putAll, List.foldl_append]
  rfl

theorem Store.get?_putAll_of_notMem {ws : List (κ × β)} {n : κ} (h : n ∉ ws.map Prod.fst) :
    (s.putAll ws).get? n = s.get? n := by
  induction ws using List.reverseRecOn with
  | nil => rfl
  | append_singleton ws e ih =>
    rw [List.map_append, List.mem_append, not_or] at h
    rw [putAll_concat, get?_put_of_ne _ _ (by simpa using h.2), ih h.1]

theorem Store.map_name_putAll (ws : List (κ × β)) :
    (s.putAll ws).objs.map Obj.name = s.objs.map Obj.name := by
  induction ws using List.reverseRecOn with
  | nil => rfl
  | append_singleton ws e ih =>
    rw [putAll_concat, put]
    exact (map_name_update ..).trans ih

/-- **The selected objects after a series of writes.** -/
theorem pairs_select_putAll (p : β → Bool) {ws : List (κ × β)} (hn : (ws.map Prod.fst).Nodup)
    (h : ∀ e ∈ ws, ∀ o ∈ s.objs, o.name = e.1 → p o.body = p e.2) :
    pairs ((s.putAll ws).select p) = (pairs (s.select p)).map (overlay ws) := by
  induction ws using List.reverseRecOn with
  | nil => exact (List.map_id _).symm
  | append_singleton ws e ih =>
    obtain ⟨n, b⟩ := e
    rw [List.map_append, List.nodup_append] at hn
    have hnot : n ∉ ws.map Prod.fst := fun hc => hn.2.2 n hc n (by simp) rfl
    have hsame : ∀ o ∈ (s.putAll ws).objs, o.name = n → p o.body = p b := by
      intro o ho hon
      have hget := s.get?_putAll_of_notMem hnot
      rw [((s.putAll ws).get?_eq_some_iff).2 ⟨ho, hon⟩] at hget
      exact h (n, b) (by simp) o ((s.get?_eq_some_iff).1 hget.symm).1 hon
    rw [Store.putAll_concat, pairs_select_put _ p hsame,
      ih hn.1 fun e he => h e (List.mem_append_left _ he), List.map_map]
    exact List.map_congr_left fun e _ => overlay_append b hnot e

end PutAll

end ApiServer
