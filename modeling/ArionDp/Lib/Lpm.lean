import ArionDp.Lib.Bytes

/-!
# Longest-prefix-match tries

The content of an LPM trie is a partial map from bit strings (the stored prefixes) to values. A
lookup with prefix length `n` returns the value of the longest stored prefix of the key that has at
most `n` bits; a stored prefix longer than `n` is never compared.

* `bits`: the data bits of a byte string, the most significant bit of each byte first;
* **`lookup_isSome_iff`**: a lookup hits iff some rule of at most `n` bits covers the key;
* **`lookup_eq_some_iff`**: the rule it returns is the longest one;
* `agree`, **`covers_iff_of_agree`**: rules that cannot tell two keys apart, and those that can;
* `lookup_congr`: a lookup reads the stored prefixes of its key and nothing else.
-/

namespace Lpm

open Wire

/-- The bits of a byte, the most significant one first. -/
def bitsOf (b : U8) : List Bool :=
  [b.getLsbD 7, b.getLsbD 6, b.getLsbD 5, b.getLsbD 4, b.getLsbD 3, b.getLsbD 2, b.getLsbD 1,
    b.getLsbD 0]

/-- The data bits of a byte string. -/
def bits (p : Bytes) : List Bool := p.flatMap bitsOf

@[simp] theorem bits_nil : bits [] = [] := rfl

@[simp] theorem bits_append (p q : Bytes) : bits (p ++ q) = bits p ++ bits q :=
  List.flatMap_append

@[simp] theorem length_bits (p : Bytes) : (bits p).length = 8 * p.length := by
  induction p with
  | nil => rfl
  | cons b p ih =>
    rw [bits, List.flatMap_cons, List.length_append]
    change 8 + (bits p).length = _
    rw [ih, List.length_cons]
    omega

variable {V : Type}

/-- The content of a trie: the value stored for each prefix. -/
abbrev Trie (V : Type) := List Bool → Option V

/-- **Longest-prefix lookup** of `key` among the prefixes of at most `n` bits. -/
def lookup (t : Trie V) (key : List Bool) : ℕ → Option V
  | 0 => t (key.take 0)
  | n + 1 => match t (key.take (n + 1)) with
    | some v => some v
    | none => lookup t key n

/-- Some stored prefix of at most `n` bits is a prefix of the key. -/
def Covers (t : Trie V) (n : ℕ) (key : List Bool) : Prop :=
  ∃ b : List Bool, b.length ≤ n ∧ b <+: key ∧ (t b).isSome

variable {t t' : Trie V} {key key' : List Bool} {n m : ℕ}

theorem Covers.mono (h : Covers t n key) (hnm : n ≤ m) : Covers t m key := by
  obtain ⟨b, hb, hp, hs⟩ := h
  exact ⟨b, hb.trans hnm, hp, hs⟩

/-- Short rules cannot tell keys with the same leading bits apart. -/
theorem Covers.of_take_eq (h : Covers t n key) (e : key.take n = key'.take n) :
    Covers t n key' := by
  obtain ⟨b, hb, hp, hs⟩ := h
  refine ⟨b, hb, ?_, hs⟩
  have h1 : b <+: key'.take n := e ▸ List.prefix_take_iff.mpr ⟨hp, hb⟩
  exact h1.trans (List.take_prefix _ _)

theorem lookup_isSome_iff_take :
    (lookup t key n).isSome ↔ ∃ q ≤ n, (t (key.take q)).isSome := by
  induction n with
  | zero =>
    constructor
    · intro h
      exact ⟨0, le_rfl, h⟩
    · rintro ⟨q, hq, hs⟩
      obtain rfl := Nat.le_zero.mp hq
      exact hs
  | succ n ih =>
    unfold lookup
    cases h : t (key.take (n + 1)) with
    | some v => exact ⟨fun _ => ⟨n + 1, le_rfl, by rw [h]; rfl⟩, fun _ => rfl⟩
    | none =>
      constructor
      · intro hs
        obtain ⟨q, hq, hs⟩ := ih.mp hs
        exact ⟨q, by omega, hs⟩
      · rintro ⟨q, hq, hs⟩
        refine ih.mpr ⟨q, ?_, hs⟩
        by_contra hc
        have : q = n + 1 := by omega
        subst this
        rw [h] at hs
        exact absurd hs (by simp)

/-- **A lookup hits iff some rule of at most `n` bits covers the key.** -/
theorem lookup_isSome_iff : (lookup t key n).isSome ↔ Covers t n key := by
  rw [lookup_isSome_iff_take]
  constructor
  · rintro ⟨q, hq, hs⟩
    exact ⟨key.take q, (List.length_take_le _ _).trans hq, List.take_prefix _ _, hs⟩
  · rintro ⟨b, hb, hp, hs⟩
    refine ⟨b.length, hb, ?_⟩
    rwa [← List.prefix_iff_eq_take.mp hp]

/-! ## Rules that tell keys apart -/

/-- The number of leading bits in which two keys agree. -/
def agree : List Bool → List Bool → ℕ
  | a :: key, b :: key' => if a = b then agree key key' + 1 else 0
  | _, _ => 0

theorem take_agree (key key' : List Bool) : key.take (agree key key') = key'.take (agree key key') := by
  induction key generalizing key' with
  | nil => simp [agree]
  | cons a key ih =>
    cases key' with
    | nil => simp [agree]
    | cons b key' =>
      unfold agree
      split_ifs with h
      · rw [List.take_succ_cons, List.take_succ_cons, ih, h]
      · rfl

@[simp] theorem agree_self (key : List Bool) : agree key key = key.length := by
  induction key with
  | nil => rfl
  | cons a key ih => rw [agree, if_pos rfl, ih, List.length_cons]

@[simp] theorem agree_append (p key key' : List Bool) :
    agree (p ++ key) (p ++ key') = p.length + agree key key' := by
  induction p with
  | nil => exact (Nat.zero_add _).symm
  | cons a p ih =>
    rw [List.cons_append, List.cons_append, agree, if_pos rfl, ih, List.length_cons]
    omega

/-- Some stored prefix of more than `m` and at most `n` bits is a prefix of the key. -/
def CoversBetween (t : Trie V) (m n : ℕ) (key : List Bool) : Prop :=
  ∃ b : List Bool, m < b.length ∧ b.length ≤ n ∧ b <+: key ∧ (t b).isSome

/-- Short rules and long ones. -/
theorem covers_iff_or (h : m ≤ n) : Covers t n key ↔ Covers t m key ∨ CoversBetween t m n key := by
  constructor
  · rintro ⟨b, hb, hp, hs⟩
    rcases Nat.lt_or_ge m b.length with hm | hm
    · exact .inr ⟨b, hm, hb, hp, hs⟩
    · exact .inl ⟨b, hm, hp, hs⟩
  · rintro (hc | ⟨b, -, hb, hp, hs⟩)
    · exact hc.mono h
    · exact ⟨b, hb, hp, hs⟩

/-- **Rules that end where two keys agree** cover both or neither of them. -/
theorem covers_iff_of_agree (h : n ≤ agree key key') : Covers t n key ↔ Covers t n key' := by
  have htake : key.take n = key'.take n := by
    have := congrArg (List.take n) (take_agree key key')
    rwa [List.take_take, List.take_take, Nat.min_eq_left h] at this
  exact ⟨fun hc => hc.of_take_eq htake, fun hc => hc.of_take_eq htake.symm⟩

/-- **The rule a lookup returns is the longest one that covers the key.** -/
theorem lookup_eq_some_iff {v : V} :
    lookup t key n = some v ↔
      ∃ q ≤ n, t (key.take q) = some v ∧ ∀ r, q < r → r ≤ n → t (key.take r) = none := by
  induction n with
  | zero =>
    constructor
    · intro h
      exact ⟨0, le_rfl, h, fun r h1 h2 => by omega⟩
    · rintro ⟨q, hq, hs, -⟩
      obtain rfl := Nat.le_zero.mp hq
      exact hs
  | succ n ih =>
    unfold lookup
    cases h : t (key.take (n + 1)) with
    | some u =>
      constructor
      · intro e
        exact ⟨n + 1, le_rfl, by rw [h]; exact e, fun r h1 h2 => by omega⟩
      · rintro ⟨q, hq, hs, hmax⟩
        by_cases hqn : q = n + 1
        · subst hqn
          exact h.symm.trans hs
        · exact absurd (hmax (n + 1) (by omega) le_rfl) (by rw [h]; simp)
    | none =>
      simp only [ih]
      constructor
      · rintro ⟨q, hq, hs, hmax⟩
        refine ⟨q, by omega, hs, fun r h1 h2 => ?_⟩
        by_cases hr : r = n + 1
        · rw [hr, h]
        · exact hmax r h1 (by omega)
      · rintro ⟨q, hq, hs, hmax⟩
        have hqn : q ≠ n + 1 := fun e => by
          rw [e, h] at hs
          exact absurd hs (by simp)
        exact ⟨q, by omega, hs, fun r h1 h2 => hmax r h1 (by omega)⟩

/-- **A lookup depends on the stored prefixes of its key only.** -/
theorem lookup_congr (h : ∀ q, t (key.take q) = t' (key.take q)) :
    lookup t key n = lookup t' key n := by
  induction n with
  | zero => exact h 0
  | succ n ih => unfold lookup; rw [h, ih]

end Lpm
