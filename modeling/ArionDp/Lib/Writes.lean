import Mathlib.Tactic.Common

/-!
# Computations that write to buffers

A computation that may fail, with the places it writes to in order; a failure keeps the writes made before it.

* `Emit`, its monad, `emit`, `lift`, and `forIdx`, a loop over a list with a running index;
* **`result_bind`**, **`result_forIdx`**: the result does not depend on the writes;
* `Within`, **`within_bind`**, **`within_forIdx`**: exactly when every write is at a good place, one rule for each
  construct.
-/

/-- A computation with writes `ω` and failures `ε`. -/
structure Emit (ω ε α : Type) where
  result : Except ε α
  writes : List ω

namespace Emit

variable {ω ε α β : Type}

/-- Run `c`, then `f` on its result. -/
def bind (c : Emit ω ε α) (f : α → Emit ω ε β) : Emit ω ε β :=
  match c.result with
  | .ok a => ⟨(f a).result, c.writes ++ (f a).writes⟩
  | .error e => ⟨.error e, c.writes⟩

instance : Monad (Emit ω ε) where
  pure a := ⟨.ok a, []⟩
  bind := bind

/-- Write to `w`. -/
def emit (w : ω) : Emit ω ε Unit := ⟨.ok (), [w]⟩

/-- A computation that writes nothing. -/
def lift (x : Except ε α) : Emit ω ε α := ⟨x, []⟩

/-- `for a in as: f(i, a)`, with `i` counting up. -/
def forIdx (f : ℕ → α → Emit ω ε β) : ℕ → List α → Emit ω ε (List β)
  | _, [] => pure []
  | i, a :: as => do
    let b ← f i a
    let bs ← forIdx f (i + 1) as
    pure (b :: bs)

/-! ## Results -/

@[simp] theorem result_pure (a : α) : (pure a : Emit ω ε α).result = .ok a := rfl

@[simp] theorem result_emit (w : ω) : (emit w : Emit ω ε Unit).result = .ok () := rfl

@[simp] theorem result_lift (x : Except ε α) : (lift x : Emit ω ε α).result = x := rfl

/-- **Forgetting the writes**, step by step. -/
theorem result_bind (c : Emit ω ε α) (f : α → Emit ω ε β) :
    (c >>= f).result = c.result >>= fun a => (f a).result := by
  obtain ⟨r, ws⟩ := c
  cases r with
  | error e => rfl
  | ok a => rfl

theorem result_forIdx {f : ℕ → α → Emit ω ε β} {g : α → Except ε β} (h : ∀ i a, (f i a).result = g a) (i : ℕ)
    (as : List α) : (forIdx f i as).result = as.mapM g := by
  induction as generalizing i with
  | nil => rfl
  | cons a as ih =>
    rw [forIdx, result_bind, h, List.mapM_cons]
    refine congrArg (g a >>= ·) (funext fun b => ?_)
    rw [result_bind, ih]
    rfl

/-! ## Where a computation writes -/

/-- Every write is at a good place. -/
def Within (P : ω → Prop) (c : Emit ω ε α) : Prop := ∀ w ∈ c.writes, P w

variable {P : ω → Prop}

@[simp] theorem within_pure (a : α) : Within P (pure a : Emit ω ε α) :=
  fun _ hw => absurd hw List.not_mem_nil

@[simp] theorem within_lift (x : Except ε α) : Within P (lift x : Emit ω ε α) :=
  fun _ hw => absurd hw List.not_mem_nil

@[simp] theorem within_emit (w : ω) : Within P (emit w : Emit ω ε Unit) ↔ P w := by
  simp [Within, emit]

/-- **One step after the other.** -/
theorem within_bind {c : Emit ω ε α} {f : α → Emit ω ε β} :
    Within P (c >>= f) ↔ Within P c ∧ ∀ a, c.result = .ok a → Within P (f a) := by
  obtain ⟨r, ws⟩ := c
  cases r with
  | error e => exact ⟨fun h => ⟨h, fun a ha => by cases ha⟩, fun h => h.1⟩
  | ok a =>
    have hsplit : Within P ((⟨.ok a, ws⟩ : Emit ω ε α) >>= f) ↔ ∀ w ∈ ws ++ (f a).writes, P w := Iff.rfl
    rw [hsplit, List.forall_mem_append]
    refine and_congr_right fun _ => ⟨fun h b hb => ?_, fun h => h a rfl⟩
    obtain rfl := Except.ok.inj hb
    exact h

/-- **A loop** writes to good places if each round does that is reached. -/
theorem within_forIdx {f : ℕ → α → Emit ω ε β} {g : α → Except ε β} (h : ∀ i a, (f i a).result = g a) {i : ℕ}
    {as : List α} : Within P (forIdx f i as) ↔
      ∀ k a, as[k]? = some a → (∀ b ∈ as.take k, ∃ r, g b = .ok r) → Within P (f (i + k) a) := by
  induction as generalizing i with
  | nil => exact ⟨fun _ k a ha => by simp at ha, fun _ => within_pure _⟩
  | cons a as ih =>
    rw [forIdx, within_bind, h]
    have hrest : ∀ b, Within P (do let bs ← forIdx f (i + 1) as; pure (b :: bs)) ↔
        Within P (forIdx f (i + 1) as) := fun b => by
      rw [within_bind, and_iff_left fun _ _ => within_pure _]
    simp only [hrest, ih]
    constructor
    · rintro ⟨hfirst, hothers⟩ k c hc hdone
      cases k with
      | zero =>
        obtain rfl : a = c := by simpa using hc
        exact hfirst
      | succ k =>
        obtain ⟨r, hr⟩ := hdone a (by simp)
        have hk := hothers r hr k c (by simpa using hc) fun b hb => hdone b (by simp [hb])
        rwa [Nat.add_assoc, Nat.add_comm 1] at hk
    · intro hall
      refine ⟨hall 0 a (by simp) (by simp), fun r hr k c hc hdone => ?_⟩
      have hk := hall (k + 1) c (by simpa using hc) fun b hb => by
        rcases List.mem_cons.1 (by simpa using hb) with rfl | hb
        · exact ⟨r, hr⟩
        · exact hdone b hb
      rwa [Nat.add_assoc, Nat.add_comm 1]

end Emit
