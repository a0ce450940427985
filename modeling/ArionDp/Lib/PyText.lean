import Mathlib.Data.Int.Bitwise
import Mathlib.Tactic.IntervalCases

/-!
# Python texts and integers

`str.split`, `str.join`, `int`, `str` and the hexadecimal format, on lists of characters, with the
bit operations of Python's unbounded integers.

* `pyInt`: the integer that a text denotes, `none` for a `ValueError`;
* `pyInt_str_octet`, **`IsHexOctet.pyInt`**: octets read back, in decimal and in hexadecimal;
* `pyHex`, **`pyHex_eq_hexFixed`**: `'{:0wx}'.format`, in closed form where the number fits;
* `pyPairs`: consecutive characters in pairs;
* `pyChunks`, **`pyChunks_flatten`**: slices of a list, one after the other.
-/

namespace PyText

/-! ## Bit operations -/

/-- `a << n` -/
def pyShl (a : ℤ) (n : ℕ) : ℤ := a * 2 ^ n

/-- `a >> n` -/
def pyShr (a : ℤ) (n : ℕ) : ℤ := a / 2 ^ n

/-- `a | b` -/
def pyOr (a b : ℤ) : ℤ := Int.lor a b

/-- `a & b` -/
def pyAnd (a b : ℤ) : ℤ := Int.land a b

theorem pyOr_natCast (a b : ℕ) : pyOr a b = ((a ||| b : ℕ) : ℤ) := rfl

theorem pyAnd_natCast (a b : ℕ) : pyAnd a b = ((a &&& b : ℕ) : ℤ) := rfl

/-- Shifting an octet in. -/
theorem pyOr_pyShl (a b : ℕ) (hb : b < 256) : pyOr (pyShl a 8) b = ((a * 256 + b : ℕ) : ℤ) := by
  have h : pyShl a 8 = ((a <<< 8 : ℕ) : ℤ) := by
    rw [pyShl, Nat.shiftLeft_eq]
    push_cast
    rfl
  rw [h, pyOr_natCast, ← Nat.shiftLeft_add_eq_or_of_lt (by omega), Nat.shiftLeft_eq]

/-- Reading an octet. -/
theorem pyAnd_pyShr (a n : ℕ) : pyAnd (pyShr a n) 255 = ((a / 2 ^ n % 256 : ℕ) : ℤ) := by
  have h : pyShr a n = ((a / 2 ^ n : ℕ) : ℤ) := by
    rw [pyShr]
    push_cast
    rfl
  rw [h, show (255 : ℤ) = ((255 : ℕ) : ℤ) from rfl, pyAnd_natCast]
  exact congrArg _ (Nat.and_two_pow_sub_one_eq_mod _ 8)

/-! ## Splitting and joining -/

/-- `s.split(sep)` for a single character -/
def pySplit (sep : Char) (s : List Char) : List (List Char) := s.splitOn sep

/-- `sep.join(parts)` for a single character -/
def pyJoin (sep : Char) (parts : List (List Char)) : List Char := [sep].intercalate parts

/-- **Splitting what was joined.** -/
theorem pySplit_pyJoin {sep : Char} {parts : List (List Char)} (h : ∀ l ∈ parts, sep ∉ l)
    (hne : parts ≠ []) : pySplit sep (pyJoin sep parts) = parts :=
  List.splitOn_intercalate _ h hne

/-! ## Reading integers -/

/-- The value of a digit in a base of at most 16. -/
def digitValue (base : ℕ) (c : Char) : Option ℕ :=
  let v := if '0' ≤ c ∧ c ≤ '9' then some (c.toNat - 48)
    else if 'a' ≤ c ∧ c ≤ 'f' then some (c.toNat - 87)
    else if 'A' ≤ c ∧ c ≤ 'F' then some (c.toNat - 55)
    else none
  v.filter (· < base)

/-- Digits with single underscores between them; the flag says that the last character was a
digit. -/
def pyDigits (base : ℕ) : ℕ → Bool → List Char → Option ℕ
  | acc, d, [] => if d then some acc else none
  | acc, d, c :: cs =>
    if c = '_' then (if d then pyDigits base acc false cs else none)
    else match digitValue base c with
      | some v => pyDigits base (acc * base + v) true cs
      | none => none

/-- The white space that `int` skips, but for the rarer code points. -/
def pySpace (c : Char) : Bool := c.toNat ∈ [9, 10, 11, 12, 13, 28, 29, 30, 31, 32, 133, 160]

/-- `s.strip()` -/
def pyStrip (s : List Char) : List Char :=
  ((s.dropWhile pySpace).reverse.dropWhile pySpace).reverse

/-- The digits of an integer, behind its sign; base 16 allows the prefix `0x`. -/
def pyUnsigned (base : ℕ) : List Char → Option ℕ
  | '0' :: 'x' :: '_' :: cs => if base = 16 then pyDigits base 0 false cs else none
  | '0' :: 'X' :: '_' :: cs => if base = 16 then pyDigits base 0 false cs else none
  | '0' :: 'x' :: cs => if base = 16 then pyDigits base 0 false cs else none
  | '0' :: 'X' :: cs => if base = 16 then pyDigits base 0 false cs else none
  | cs => pyDigits base 0 false cs

/-- `int(s, base)`, for ASCII digits. -/
def pyInt (base : ℕ) (s : List Char) : Option ℤ :=
  match pyStrip s with
  | '-' :: cs => (pyUnsigned base cs).map fun n => -n
  | '+' :: cs => (pyUnsigned base cs).map fun n => n
  | cs => (pyUnsigned base cs).map fun n => n

/-! ## Writing integers -/

/-- `str(n)` -/
def pyStr : ℤ → List Char
  | .ofNat n => Nat.toDigits 10 n
  | .negSucc n => '-' :: Nat.toDigits 10 (n + 1)

/-- Zeros on the left up to a width. -/
def padZero (w : ℕ) (s : List Char) : List Char := List.replicate (w - s.length) '0' ++ s

/-- `'{:0wx}'.format(n)` -/
def pyHex (w : ℕ) : ℤ → List Char
  | .ofNat n => padZero w (Nat.toDigits 16 n)
  | .negSucc n => '-' :: padZero (w - 1) (Nat.toDigits 16 (n + 1))

/-- `zip(*[iter(s)]*2)` -/
def pyPairs : List Char → List (Char × Char)
  | a :: b :: cs => (a, b) :: pyPairs cs
  | _ => []

/-! ## Octets -/

/-- The text of an octet. -/
theorem pyInt_str_octet : ∀ n : ℕ, n < 256 → pyInt 10 (pyStr (n : ℤ)) = some (n : ℤ) := by
  decide +kernel

theorem dot_not_mem_str_octet : ∀ n : ℕ, n < 256 → '.' ∉ pyStr (n : ℤ) := by
  decide +kernel

/-- The `w` low hexadecimal digits of a number. -/
def hexFixed : ℕ → ℕ → List Char
  | 0, _ => []
  | w + 1, n => hexFixed w (n / 16) ++ [Nat.digitChar (n % 16)]

theorem padZero_append_singleton {w : ℕ} {s : List Char} (c : Char) (h : s.length ≤ w) :
    padZero (w + 1) (s ++ [c]) = padZero w s ++ [c] := by
  rw [padZero, padZero, List.length_append, List.length_singleton, List.append_assoc]
  congr 2
  omega

/-- **A number that fits is written with exactly `w` digits.** -/
theorem padZero_toDigits {w n : ℕ} (hw : 0 < w) (h : n < 16 ^ w) :
    (Nat.toDigits 16 n).length ≤ w ∧ padZero w (Nat.toDigits 16 n) = hexFixed w n := by
  induction w generalizing n with
  | zero => exact absurd hw (Nat.lt_irrefl 0)
  | succ w ih =>
    by_cases hn : n < 16
    · rw [Nat.toDigits_of_lt_base hn, hexFixed, Nat.div_eq_of_lt hn, Nat.mod_eq_of_lt hn]
      refine ⟨by simp, ?_⟩
      have hz : hexFixed w 0 = List.replicate w '0' := by
        clear ih h hw
        induction w with
        | zero => rfl
        | succ w ih => rw [hexFixed, Nat.zero_div, ih, List.replicate_succ']; rfl
      rw [padZero, hz, List.length_singleton, Nat.add_sub_cancel]
    · have hw' : 0 < w := by
        rcases Nat.eq_zero_or_pos w with rfl | hpos
        · exact absurd h (by omega)
        · exact hpos
      have hdiv : n / 16 < 16 ^ w := by
        rw [Nat.pow_succ] at h
        omega
      obtain ⟨hl, hp⟩ := ih hw' hdiv
      rw [Nat.toDigits_of_base_le (by omega) (by omega), hexFixed]
      refine ⟨by simpa using hl, ?_⟩
      rw [padZero_append_singleton _ hl, hp]

theorem pyHex_eq_hexFixed {w n : ℕ} (hw : 0 < w) (h : n < 16 ^ w) :
    pyHex w (n : ℤ) = hexFixed w n := (padZero_toDigits hw h).2

/-- The hexadecimal digits, in either case. -/
def hexDigits : List Char :=
  ['0', '1', '2', '3', '4', '5', '6', '7', '8', '9', 'a', 'b', 'c', 'd', 'e', 'f',
    'A', 'B', 'C', 'D', 'E', 'F']

/-- Two hexadecimal digits with the values of the halves of `v`. -/
def IsHexOctet (v : ℕ) (s : List Char) : Prop :=
  ∃ c ∈ hexDigits, ∃ d ∈ hexDigits, s = [c, d] ∧
    digitValue 16 c = some (v / 16) ∧ digitValue 16 d = some (v % 16)

instance (v : ℕ) (s : List Char) : Decidable (IsHexOctet v s) :=
  have : DecidablePred fun c => ∃ d ∈ hexDigits, s = [c, d] ∧
      digitValue 16 c = some (v / 16) ∧ digitValue 16 d = some (v % 16) :=
    fun _ => List.decidableBEx _ _
  List.decidableBEx _ _

theorem pyInt_hexDigits : ∀ c ∈ hexDigits, ∀ d ∈ hexDigits, pyInt 16 [c, d] =
    (digitValue 16 c).bind fun a => (digitValue 16 d).map fun b => ((a * 16 + b : ℕ) : ℤ) := by
  have h : (hexDigits.all fun c => hexDigits.all fun d => decide (pyInt 16 [c, d] =
      (digitValue 16 c).bind fun a => (digitValue 16 d).map fun b => ((a * 16 + b : ℕ) : ℤ))) =
      true := by
    decide +kernel
  exact fun c hc d hd => of_decide_eq_true (List.all_eq_true.1 (List.all_eq_true.1 h c hc) d hd)

/-- **The two digits of an octet read back**, in either case. -/
theorem IsHexOctet.pyInt {v : ℕ} {s : List Char} (h : IsHexOctet v s) :
    pyInt 16 s = some (v : ℤ) := by
  obtain ⟨c, hc, d, hd, rfl, hcv, hdv⟩ := h
  rw [pyInt_hexDigits c hc d hd, hcv, hdv, Option.bind_some, Option.map_some, Nat.div_add_mod' v 16]

theorem colon_not_mem_hexDigits : ':' ∉ hexDigits := by
  decide

theorem IsHexOctet.colon_not_mem {v : ℕ} {s : List Char} (h : IsHexOctet v s) : ':' ∉ s := by
  obtain ⟨c, hc, d, hd, rfl, -, -⟩ := h
  simp only [List.mem_cons, List.not_mem_nil, or_false, not_or]
  refine ⟨?_, ?_⟩
  · rintro rfl
    exact colon_not_mem_hexDigits hc
  · rintro rfl
    exact colon_not_mem_hexDigits hd

theorem digitChar_hexDigits : ∀ a : ℕ, a < 16 →
    Nat.digitChar a ∈ hexDigits ∧ digitValue 16 (Nat.digitChar a) = some a := by
  decide

/-- The digits that are written for an octet. -/
theorem isHexOctet_digitChar {v : ℕ} (hv : v < 256) :
    IsHexOctet v [Nat.digitChar (v / 16), Nat.digitChar (v % 16)] := by
  obtain ⟨h1, h2⟩ := digitChar_hexDigits (v / 16) (by omega)
  obtain ⟨h3, h4⟩ := digitChar_hexDigits (v % 16) (by omega)
  exact ⟨_, h1, _, h3, rfl, h2, h4⟩

/-! ## Slices -/

section Slices

variable {α : Type}

/-- `[l[i:i + n] for i in range(0, len(l), n)]` -/
def pyChunks (n : ℕ) (l : List α) : List (List α) :=
  (List.range ((l.length + n - 1) / n)).map fun i => (l.drop (i * n)).take n

theorem length_le_of_mem_pyChunks {n : ℕ} {l c : List α} (h : c ∈ pyChunks n l) : c.length ≤ n := by
  obtain ⟨i, -, rfl⟩ := List.mem_map.1 h
  exact List.length_take_le n _

theorem flatten_slices (n k : ℕ) (l : List α) :
    ((List.range k).map fun i => (l.drop (i * n)).take n).flatten = l.take (k * n) := by
  induction k with
  | zero => rw [Nat.zero_mul, List.take_zero, List.range_zero, List.map_nil, List.flatten_nil]
  | succ k ih =>
    rw [List.range_succ, List.map_append, List.flatten_append, ih, List.map_singleton,
      List.flatten_singleton, Nat.succ_mul, List.take_add]

/-- **The slices make up the list.** -/
theorem pyChunks_flatten {n : ℕ} (hn : 0 < n) (l : List α) : (pyChunks n l).flatten = l := by
  rw [pyChunks, flatten_slices]
  refine List.take_of_length_le ?_
  have h := Nat.div_add_mod (l.length + n - 1) n
  have hlt := Nat.mod_lt (l.length + n - 1) hn
  rw [Nat.mul_comm] at h
  omega

end Slices

end PyText
