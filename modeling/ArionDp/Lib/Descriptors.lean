import Mathlib.Data.Int.Notation
import Mathlib.Data.List.Basic
import Mathlib.Order.Nat
import Mathlib.Tactic.Common

/-!
# Descriptor tables

A process has numbers for what it has open. Objects own the descriptors of their parts and close them
when they are closed themselves, by number; a number that is not in use may be handed out again.

* `Table`, with `openObject`, `give`, `closeObject`, `openNumber` and `close`;
* `Table.Sound`: the numbers of an open object are descriptors of its parts; each operation on the
  objects keeps it;
* `Table.Has`: an object is open and has a descriptor; **`Table.Sound.right`**: what is passed for
  one is right;
* `Table.Later`: what no operation takes from an object that stays open.
-/

namespace Descriptors

/-- What a number stands for, and the object that closes it. -/
structure Entry (κ : Type) where
  refers : κ
  owner : Option ℕ

/-- Open descriptors, and the open objects with the descriptors of their parts. -/
structure Table (κ : Type) where
  fds : ℕ → Option (Entry κ)
  objects : ℕ → Option (List (κ × ℕ))
  next : ℕ

/-- A descriptor in a call: what it is meant for, and what it stands for. -/
structure Use (κ : Type) where
  names : κ
  found : Option κ
  deriving DecidableEq

/-- The descriptor is open and stands for what it is meant for. -/
def Use.Right {κ : Type} (u : Use κ) : Prop := u.found = some u.names

instance {κ : Type} [DecidableEq κ] (u : Use κ) : Decidable u.Right :=
  inferInstanceAs (Decidable (u.found = some u.names))

namespace Table

variable {κ : Type} (T : Table κ)

/-- The entry of a number, where a negative one has none. -/
def entry : ℤ → Option (Entry κ)
  | .ofNat n => T.fds n
  | .negSucc _ => none

/-- A number is passed for something. -/
def pass (fd : ℤ) (k : κ) : Use κ := ⟨k, (T.entry fd).map fun e => e.refers⟩

/-- A new object, `T.next`, which has no descriptors yet. -/
def openObject : Table κ :=
  { T with objects := fun o => if o = T.next then some [] else T.objects o, next := T.next + 1 }

/-- A number for a part of an object, unless it is in use. -/
def give (o : ℕ) (k refers : κ) (n : ℕ) : Option (Table κ) :=
  match T.fds n, T.objects o with
  | none, some l => some { T with
      fds := fun m => if m = n then some ⟨refers, some o⟩ else T.fds m
      objects := fun o' => if o' = o then some ((k, n) :: l) else T.objects o' }
  | _, _ => none

/-- An object is closed, with its numbers. -/
def closeObject (o : ℕ) : Table κ :=
  match T.objects o with
  | none => T
  | some l => { T with
      fds := fun m => if m ∈ l.map Prod.snd then none else T.fds m
      objects := fun o' => if o' = o then none else T.objects o' }

/-- A number that no object owns, unless it is in use. -/
def openNumber (k : κ) (n : ℕ) : Option (Table κ) :=
  match T.fds n with
  | none => some { T with fds := fun m => if m = n then some ⟨k, none⟩ else T.fds m }
  | some _ => none

/-- A number is closed, whatever it stands for. -/
def close : ℤ → Table κ
  | .ofNat n => { T with fds := fun m => if m = n then none else T.fds m }
  | .negSucc _ => T

/-- The number of a part of an object, or -1. -/
def partFd [DecidableEq κ] (o : ℕ) (k : κ) : ℤ :=
  match ((T.objects o).getD []).find? fun p => p.1 = k with
  | some p => p.2
  | none => -1

/-- **The numbers of open objects are descriptors of their parts.** -/
structure Sound : Prop where
  own : ∀ o l, T.objects o = some l → ∀ p ∈ l, T.fds p.2 = some ⟨p.1, some o⟩
  fresh : ∀ o, T.next ≤ o → T.objects o = none

/-- An object is open and has at least these descriptors. -/
def Has (o : ℕ) (ps : List (κ × ℕ)) : Prop := ∃ l, T.objects o = some l ∧ ps ⊆ l

/-- Objects that are still open have at least the descriptors that they had. -/
structure Later (T T' : Table κ) : Prop where
  next : T.next ≤ T'.next
  subset : ∀ o l', o < T.next → T'.objects o = some l' → ∃ l, T.objects o = some l ∧ l ⊆ l'

variable {T} {T' : Table κ} {o o' n : ℕ} {k k' : κ} {ps : List (κ × ℕ)}

/-! ## Objects that stay open -/

theorem Has.subset {qs : List (κ × ℕ)} (h : T.Has o ps) (hs : qs ⊆ ps) : T.Has o qs := by
  obtain ⟨l, hl, hp⟩ := h
  exact ⟨l, hl, List.Subset.trans hs hp⟩

theorem Has.lt (h : T.Has o ps) (hT : T.Sound) : o < T.next := by
  obtain ⟨l, hl, -⟩ := h
  by_contra hle
  rw [hT.fresh o (Nat.le_of_not_lt hle)] at hl
  cases hl

theorem Has.openObject (h : T.Has o ps) (ho : o < T.next) : T.openObject.Has o ps := by
  obtain ⟨l, hl, hp⟩ := h
  exact ⟨l, (if_neg ho.ne).trans hl, hp⟩

theorem has_openObject (T : Table κ) : T.openObject.Has T.next [] := ⟨[], if_pos rfl, List.nil_subset _⟩

/-- What is given is there, and nothing has gone. -/
theorem give_eq_some (hg : T.give o k k' n = some T') : T.fds n = none ∧ ∃ l, T.objects o = some l ∧
    T' = { T with
      fds := fun m => if m = n then some ⟨k', some o⟩ else T.fds m
      objects := fun o' => if o' = o then some ((k, n) :: l) else T.objects o' } := by
  unfold give at hg
  split at hg
  · rename_i hn hl
    exact ⟨hn, _, hl, (Option.some.inj hg).symm⟩
  · cases hg

theorem Has.give (h : T.Has o' ps) (hg : T.give o k k' n = some T') : T'.Has o' ps := by
  obtain ⟨l', hl', hp⟩ := h
  obtain ⟨-, l, hl, rfl⟩ := give_eq_some hg
  by_cases ho : o' = o
  · subst ho
    obtain rfl := Option.some.inj (hl.symm.trans hl')
    exact ⟨_, if_pos rfl, fun p hp' => List.mem_cons_of_mem _ (hp hp')⟩
  · exact ⟨l', (if_neg ho).trans hl', hp⟩

theorem has_give (hg : T.give o k k' n = some T') : T'.Has o [(k, n)] := by
  obtain ⟨-, l, hl, rfl⟩ := give_eq_some hg
  exact ⟨_, if_pos rfl, fun p hp => List.mem_singleton.1 hp ▸ List.mem_cons_self ..⟩

theorem Has.closeObject (h : T.Has o ps) (ho : o ≠ o') : (T.closeObject o').Has o ps := by
  obtain ⟨l, hl, hp⟩ := h
  unfold Table.closeObject
  cases T.objects o' with
  | none => exact ⟨l, hl, hp⟩
  | some l' => exact ⟨l, (if_neg ho).trans hl, hp⟩

/-- A number is closed that has just been opened. -/
theorem close_openNumber (h : T.openNumber k n = some T') : T'.close n = T := by
  unfold openNumber at h
  split at h
  · rename_i hn
    obtain rfl := Option.some.inj h
    have hfds : (fun m => if m = n then none else if m = n then some ⟨k, none⟩ else T.fds m) = T.fds := by
      funext m
      by_cases hm : m = n
      · rw [if_pos hm, hm, hn]
      · rw [if_neg hm, if_neg hm]
    exact congrArg (fun f => Table.mk f T.objects T.next) hfds
  · cases h

/-- A number that has just been opened is right. -/
theorem right_openNumber (h : T.openNumber k n = some T') : (T'.pass n k).Right := by
  unfold openNumber at h
  split at h
  · obtain rfl := Option.some.inj h
    change (Option.map _ (if n = n then _ else _)) = _
    rw [if_pos rfl]
    rfl
  · cases h

/-! ## Later tables -/

theorem later_openObject (T : Table κ) : T.Later T.openObject where
  next := Nat.le_succ _
  subset _ _ ho hl := ⟨_, (if_neg ho.ne).symm.trans hl, List.Subset.refl _⟩

theorem later_give (hg : T.give o k k' n = some T') : T.Later T' := by
  obtain ⟨-, l, hl, rfl⟩ := give_eq_some hg
  refine ⟨Nat.le_refl _, fun o' l' _ hl' => ?_⟩
  change (if o' = o then some ((k, n) :: l) else T.objects o') = some l' at hl'
  split_ifs at hl' with ho
  · subst ho
    obtain rfl := Option.some.inj hl'
    exact ⟨l, hl, List.subset_cons_self ..⟩
  · exact ⟨l', hl', List.Subset.refl _⟩

theorem later_closeObject (T : Table κ) (o : ℕ) : T.Later (T.closeObject o) := by
  unfold Table.closeObject
  cases T.objects o with
  | none => exact ⟨Nat.le_refl _, fun _ l' _ hl' => ⟨l', hl', List.Subset.refl _⟩⟩
  | some l =>
    refine ⟨Nat.le_refl _, fun o' l' _ hl' => ?_⟩
    change (if o' = o then none else T.objects o') = some l' at hl'
    split_ifs at hl'
    exact ⟨l', hl', List.Subset.refl _⟩

/-! ## Numbers of parts -/

theorem partFd_eq [DecidableEq κ] (h : T.partFd o k = n) : T.Has o [(k, n)] := by
  unfold partFd at h
  cases ho : T.objects o with
  | none =>
    rw [ho] at h
    cases h
  | some l =>
    rw [ho, Option.getD_some] at h
    split at h
    · rename_i p hp
      have hk : p.1 = k := by simpa using List.find?_some hp
      have hn : p.2 = n := Int.ofNat.inj h
      refine ⟨l, ho, fun q hq => ?_⟩
      rw [List.mem_singleton.1 hq, ← hk, ← hn]
      exact List.mem_of_find?_eq_some hp
    · cases h

theorem Has.partFd [DecidableEq κ] (h : T.Has o ps) (hk : ∃ n, (k, n) ∈ ps) :
    ∃ n : ℕ, T.partFd o k = n := by
  obtain ⟨l, hl, hp⟩ := h
  obtain ⟨n, hn⟩ := hk
  unfold Table.partFd
  rw [hl, Option.getD_some]
  split
  · exact ⟨_, rfl⟩
  · rename_i hnone
    exact absurd (decide_eq_true rfl) (List.find?_eq_none.1 hnone _ (hp hn))

/-! ## Sound tables -/

theorem Sound.openObject (h : T.Sound) : T.openObject.Sound := by
  refine ⟨fun o l hl => ?_, fun o ho => ?_⟩
  · change (if o = T.next then some [] else T.objects o) = some l at hl
    split_ifs at hl with ho
    · obtain rfl := Option.some.inj hl
      exact fun p hp => absurd hp List.not_mem_nil
    · exact h.own o l hl
  · exact (if_neg (Nat.ne_of_gt ho)).trans (h.fresh o (Nat.le_of_succ_le ho))

theorem Sound.give (h : T.Sound) (hg : T.give o k k n = some T') : T'.Sound := by
  have hlt : o < T.next := by
    obtain ⟨-, l, hl, -⟩ := give_eq_some hg
    exact Has.lt ⟨l, hl, List.nil_subset _⟩ h
  obtain ⟨hn, l, hl, rfl⟩ := give_eq_some hg
  -- the numbers of the other parts are not the new one
  have hold : ∀ o' l', T.objects o' = some l' → ∀ p ∈ l',
      (if p.2 = n then some ⟨k, some o⟩ else T.fds p.2) = some ⟨p.1, some o'⟩ := by
    intro o' l' hl' p hp
    have hfd := h.own o' l' hl' p hp
    rw [if_neg, hfd]
    intro hpn
    rw [hpn, hn] at hfd
    cases hfd
  refine ⟨fun o' l' hl' p hp => ?_, fun o' ho' => ?_⟩
  · change (if o' = o then some ((k, n) :: l) else T.objects o') = some l' at hl'
    split_ifs at hl' with ho
    · subst ho
      obtain rfl := Option.some.inj hl'
      rcases List.mem_cons.1 hp with rfl | hp
      · exact if_pos rfl
      · exact hold o' l hl p hp
    · exact hold o' l' hl' p hp
  · exact (if_neg (hlt.trans_le ho').ne').trans (h.fresh o' ho')

theorem Sound.closeObject (h : T.Sound) (o : ℕ) : (T.closeObject o).Sound := by
  unfold Table.closeObject
  cases hl : T.objects o with
  | none => exact h
  | some l =>
    refine ⟨fun o' l' hl' p hp => ?_, fun o' ho' => ?_⟩
    · change (if o' = o then none else T.objects o') = some l' at hl'
      split_ifs at hl' with ho
      have hfd := h.own o' l' hl' p hp
      refine (if_neg fun hmem => ?_).trans hfd
      obtain ⟨q, hq, hqp⟩ := List.mem_map.1 hmem
      have hq' := h.own o l hl q hq
      rw [hqp, hfd] at hq'
      exact ho (Option.some.inj (congrArg Entry.owner (Option.some.inj hq')))
    · change (if o' = o then none else T.objects o') = none
      split_ifs
      · rfl
      · exact h.fresh o' ho'

/-- **A descriptor of an open object is right.** -/
theorem Sound.right (h : T.Sound) (hn : T.Has o [(k, n)]) : (T.pass n k).Right := by
  obtain ⟨l, hl, hp⟩ := hn
  have hfd := h.own o l hl (k, n) (hp (List.mem_cons_self ..))
  change (T.fds n).map _ = some k
  rw [hfd]
  rfl

end Table

end Descriptors
