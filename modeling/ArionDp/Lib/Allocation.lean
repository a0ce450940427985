import Mathlib.Data.Set.Insert
import Mathlib.Tactic.Common

/-!
# Resources and their holders

A relation says who holds which resource, and a set is kept apart from it.

* `Exact`: no resource has two holders, and the set has exactly those that have one;
* **`Exact.assign`**, `Exact.release`: what has to be done to the set with each change of a holder.
-/

namespace Allocation

variable {ν δ : Type}

/-- **Exact allocation**: no resource has two holders, and the allocated ones are those that have one. -/
structure Exact (holds : ν → δ → Prop) (allocated : Set δ) : Prop where
  once : ∀ n n' d, holds n d → holds n' d → n = n'
  allocated : ∀ d, d ∈ allocated ↔ ∃ n, holds n d

section Exact

variable {holds holds' : ν → δ → Prop} {A A' : Set δ} {n : ν} {d : δ}

theorem Exact.congr (h : Exact holds A) (hh : ∀ n d, holds' n d ↔ holds n d) (hA : A' = A) :
    Exact holds' A' where
  once n n' d hn hn' := h.once n n' d ((hh n d).1 hn) ((hh n' d).1 hn')
  allocated d := by
    rw [hA, h.allocated d]
    exact exists_congr fun n => (hh n d).symm

theorem exact_empty (h : ∀ n d, ¬ holds n d) : Exact holds ∅ where
  once n _ d hn := absurd hn (h n d)
  allocated d := ⟨fun hd => absurd hd (Set.notMem_empty d), fun ⟨n, hn⟩ => absurd hn (h n d)⟩

/-- **A resource that is not allocated is assigned**, and allocated with that. -/
theorem Exact.assign (h : Exact holds A) (hd : d ∉ A) :
    Exact (fun m e => holds m e ∨ m = n ∧ e = d) (insert d A) where
  once m m' e := by
    have hfree : ∀ m, ¬ holds m d := fun m hm => hd ((h.allocated d).2 ⟨m, hm⟩)
    rintro (hm | ⟨rfl, rfl⟩) (hm' | ⟨rfl, he⟩)
    · exact h.once m m' e hm hm'
    · exact absurd (he ▸ hm) (hfree m)
    · exact absurd hm' (hfree m')
    · rfl
  allocated e := by
    rw [Set.mem_insert_iff, h.allocated e]
    constructor
    · rintro (rfl | ⟨m, hm⟩)
      · exact ⟨n, .inr ⟨rfl, rfl⟩⟩
      · exact ⟨m, .inl hm⟩
    · rintro ⟨m, hm | ⟨-, rfl⟩⟩
      · exact .inr ⟨m, hm⟩
      · exact .inl rfl

/-- **A holder goes**, and what it has held is not allocated any more. -/
theorem Exact.release (h : Exact holds A) (n : ν) :
    Exact (fun m e => holds m e ∧ m ≠ n) { e ∈ A | ¬ holds n e } where
  once m m' e hm hm' := h.once m m' e hm.1 hm'.1
  allocated e := by
    constructor
    · rintro ⟨he, hn⟩
      obtain ⟨m, hm⟩ := (h.allocated e).1 he
      exact ⟨m, hm, fun hmn => hn (hmn ▸ hm)⟩
    · rintro ⟨m, hm, hmn⟩
      exact ⟨(h.allocated e).2 ⟨m, hm⟩, fun hn => hmn (h.once m n e hm hn)⟩

end Exact

end Allocation
