import Mathlib.Data.List.Basic
import Mathlib.Tactic.Common

/-!
# Requests that are served more than once

A server answers one request after the other. A client that misses an answer sends its request again, so that the
server may get a request several times before the next one.

* `serve`: the answers to requests, and the state after them;
* `serveCopies`: the same, for requests with a number of further copies;
* `Idempotent`, **`serveCopies_eq`**: copies change neither the state nor the first answers.
-/

namespace Redelivery

variable {ρ σ α : Type} (step : ρ → σ → α × σ)

/-- The answers to requests, and the state after them. -/
def serve : List ρ → σ → List α × σ
  | [], s => ([], s)
  | r :: rs, s =>
    let rest := serve rs (step r s).2
    ((step r s).1 :: rest.1, rest.2)

/-- For each request the first answer, and the answers to its further copies. -/
def serveCopies : List (ρ × ℕ) → σ → List (α × List α) × σ
  | [], s => ([], s)
  | (r, n) :: l, s =>
    let others := serve step (List.replicate n r) (step r s).2
    let rest := serveCopies l others.2
    (((step r s).1, others.1) :: rest.1, rest.2)

/-- A request that has been served changes nothing when it is served again. -/
def Idempotent : Prop := ∀ r s, (step r (step r s).2).2 = (step r s).2

/-- The answer to a request that has been served already. -/
def again (r : ρ) (s : σ) : α := (step r (step r s).2).1

/-- The answers to requests and to their copies, if the copies change nothing. -/
def answers : List (ρ × ℕ) → σ → List (α × List α)
  | [], _ => []
  | (r, n) :: l, s => ((step r s).1, List.replicate n (again step r s)) :: answers l (step r s).2

variable {step}

@[simp] theorem serve_nil (s : σ) : serve step [] s = ([], s) := rfl

@[simp] theorem serve_cons (r : ρ) (rs : List ρ) (s : σ) :
    serve step (r :: rs) s = ((step r s).1 :: (serve step rs (step r s).2).1, (serve step rs (step r s).2).2) := rfl

theorem serve_replicate (h : Idempotent step) (r : ρ) (n : ℕ) (s : σ) :
    serve step (List.replicate n r) (step r s).2 = (List.replicate n (again step r s), (step r s).2) := by
  induction n with
  | zero => rfl
  | succ n ih =>
    rw [List.replicate_succ, serve, h, ih]
    rfl

/-- **Copies change neither the state nor the first answers.** -/
theorem serveCopies_eq (h : Idempotent step) (l : List (ρ × ℕ)) (s : σ) :
    serveCopies step l s = (answers step l s, (serve step (l.map Prod.fst) s).2) := by
  induction l generalizing s with
  | nil => rfl
  | cons p l ih =>
    obtain ⟨r, n⟩ := p
    rw [serveCopies, serve_replicate h]
    simp only [ih, answers, List.map_cons, serve]

theorem map_fst_answers (l : List (ρ × ℕ)) (s : σ) :
    (answers step l s).map Prod.fst = (serve step (l.map Prod.fst) s).1 := by
  induction l generalizing s with
  | nil => rfl
  | cons p l ih =>
    obtain ⟨r, n⟩ := p
    simp only [answers, List.map_cons, serve, ih]

/-- What holds of the answers to one request in any state holds of the answers in a run. -/
theorem forall_mem_answers {P : ρ × ℕ → α × List α → Prop} {l : List (ρ × ℕ)}
    (h : ∀ p ∈ l, ∀ s, P p ((step p.1 s).1, List.replicate p.2 (again step p.1 s))) (s : σ) :
    List.Forall₂ P l (answers step l s) := by
  induction l generalizing s with
  | nil => exact .nil
  | cons p l ih =>
    exact .cons (h p List.mem_cons_self s) (ih (fun q hq => h q (List.mem_cons_of_mem p hq)) _)

end Redelivery
