import ArionDp.Lib.Octets
import ArionDp.Lib.PyText

/-!
# Dotted quads

The canonical text of an IPv4 address, and `inet_pton`, which reads one character at a time: exactly
four decimal octets, none above 255 and none with a leading zero.

* `dotted`; **`pton_dotted`**: it reads back.
-/

namespace Inet

open PyText Wire

/-- **The canonical dotted quad** of four octets. -/
def dotted (o : Fin 4 → U8) : List Char :=
  pyJoin '.' ((List.ofFn o).map fun b => pyStr (b.toNat : ℤ))

/-! ## The scanner -/

/-- A decimal digit after the octet read so far, `none` before its first digit. -/
def digitStep : Option ℕ → ℕ → Option ℕ
  | none, d => some d
  | some v, d => if v = 0 ∨ v * 10 + d > 255 then none else some (v * 10 + d)

/-- The scanner: complete octets, the octet being read, and the text to come. -/
def scan : List ℕ → Option ℕ → List Char → Option (List ℕ)
  | done, some v, [] => if done.length = 3 then some (done ++ [v]) else none
  | _, none, [] => none
  | done, cur, c :: cs =>
    match digitValue 10 c with
    | some d => match digitStep cur d with
      | some v => if done.length = 4 then none else scan done (some v) cs
      | none => none
    | none => match cur with
      | some v => if c = '.' ∧ done.length < 3 then scan (done ++ [v]) none cs else none
      | none => none

/-- `inet_pton(AF_INET, …)`: the octets in written order. -/
def pton (s : List Char) : Option (List ℕ) := scan [] none s

/-- The octet that digits denote, behind one read so far. -/
def digits : Option ℕ → List Char → Option ℕ
  | cur, [] => cur
  | cur, c :: cs => match digitValue 10 c with
    | some d => match digitStep cur d with
      | some v => digits (some v) cs
      | none => none
    | none => none

theorem digits_str_octet : ∀ n : ℕ, n < 256 → digits none (pyStr (n : ℤ)) = some n := by
  decide +kernel

theorem scan_cons (done : List ℕ) (cur : Option ℕ) (c : Char) (cs : List Char) :
    scan done cur (c :: cs) = match digitValue 10 c with
      | some d => match digitStep cur d with
        | some v => if done.length = 4 then none else scan done (some v) cs
        | none => none
      | none => match cur with
        | some v => if c = '.' ∧ done.length < 3 then scan (done ++ [v]) none cs else none
        | none => none := by
  cases cur <;> rfl

/-- Scanning digits. -/
theorem scan_digits {done : List ℕ} (hd : done.length < 4) {v : ℕ} (cs rest : List Char)
    (cur : Option ℕ) (h : digits cur cs = some v) :
    scan done cur (cs ++ rest) = scan done (some v) rest := by
  induction cs generalizing cur with
  | nil =>
    rw [digits] at h
    rw [h, List.nil_append]
  | cons c cs ih =>
    rw [digits] at h
    rw [List.cons_append, scan_cons]
    split at h
    next d _ =>
      split at h
      next w _ =>
        rw [if_neg (by omega)]
        exact ih _ h
      next => exact absurd h (by simp)
    next => exact absurd h (by simp)

theorem scan_dot {done : List ℕ} (hd : done.length < 3) (v : ℕ) (cs : List Char) :
    scan done (some v) ('.' :: cs) = scan (done ++ [v]) none cs := by
  rw [scan_cons]
  exact if_pos ⟨rfl, hd⟩

/-- **Four octets read back.** -/
theorem pton_dotted (o : Fin 4 → U8) :
    pton (dotted o) = some ((List.ofFn o).map fun b => b.toNat) := by
  have hj : dotted o = pyStr ((o 0).toNat : ℤ) ++ ('.' :: (pyStr ((o 1).toNat : ℤ) ++
      ('.' :: (pyStr ((o 2).toNat : ℤ) ++ ('.' :: (pyStr ((o 3).toNat : ℤ) ++ [])))))) := by
    simp [dotted, pyJoin, List.intercalate]
  rw [hj, pton, scan_digits (by simp) _ _ _ (digits_str_octet _ (o 0).isLt), scan_dot (by simp),
    scan_digits (by simp) _ _ _ (digits_str_octet _ (o 1).isLt), scan_dot (by simp),
    scan_digits (by simp) _ _ _ (digits_str_octet _ (o 2).isLt), scan_dot (by simp),
    scan_digits (by simp) _ _ _ (digits_str_octet _ (o 3).isLt), scan]
  simp

end Inet
