import ArionDp.Lib.Bytes
import Mathlib.Data.Int.Log
import Mathlib.Data.List.TakeWhile
import Mathlib.Data.Rat.Floor
import Mathlib.Tactic.FieldSimp
import Mathlib.Tactic.Linarith
import Mathlib.Tactic.NormNum
import Mathlib.Tactic.Positivity

/-!
# Decimal texts and doubles

`strtod` on decimal texts: the sign, the digits around a point, the exponent, and the double next to
the number they denote.

* `Double.round`, **`round_intCast`**, **`round_finite`**: the double next to a rational; integers below `2 ^ 53` are
  doubles, and the larger ones are finite for long;
* `strtod`, **`strtod_consumed`**: what is read is a part of the text, and not an empty one;
* **`strtod_digits`**: the digits of an integer denote the double next to it.
-/

namespace Strtod

open Wire

/-! ## Doubles -/

/-- A double that is a number or an infinity. The two zeros are one. -/
inductive Double
  | fin (q : ℚ)
  | inf (negative : Bool)
  deriving DecidableEq

/-- The nearest integer; of two, the even one. -/
def roundEven (q : ℚ) : ℤ :=
  if q - ⌊q⌋ < 1 / 2 then ⌊q⌋
  else if 1 / 2 < q - ⌊q⌋ then ⌊q⌋ + 1
  else if ⌊q⌋ % 2 = 0 then ⌊q⌋ else ⌊q⌋ + 1

/-- The distance of the doubles around a number: 53 bits of its binade, and subnormal below `2 ^ (-1022)`. -/
def ulp (q : ℚ) : ℚ := 2 ^ (max (Int.log 2 |q|) (-1022) - 52)

/-- The double next to a number, the even one of two; from `2 ^ 1024` on it is infinite. -/
def Double.round (q : ℚ) : Double :=
  if 2 ^ 1024 ≤ |roundEven (q / ulp q) * ulp q| then .inf (decide (q < 0))
  else .fin (roundEven (q / ulp q) * ulp q)

theorem roundEven_intCast (n : ℤ) : roundEven n = n := by
  rw [roundEven, Int.floor_intCast, sub_self, if_pos (by norm_num)]

/-- The binade of an integer below `2 ^ 53`. -/
theorem log_abs_intCast {n : ℤ} (hn : n ≠ 0) (h : |n| < 2 ^ 53) :
    0 ≤ Int.log 2 |(n : ℚ)| ∧ Int.log 2 |(n : ℚ)| ≤ 52 := by
  have hpos : (0 : ℚ) < |(n : ℚ)| := abs_pos.2 (Int.cast_ne_zero.2 hn)
  constructor
  · have hone : (1 : ℚ) ≤ |(n : ℚ)| := by exact_mod_cast Int.one_le_abs hn
    exact (Int.zpow_le_iff_le_log (by norm_num) hpos).1 (by simpa using hone)
  · have hlt : |(n : ℚ)| < (2 : ℕ) ^ (53 : ℤ) := by exact_mod_cast h
    have := (Int.lt_zpow_iff_log_lt (by norm_num) hpos).1 hlt
    omega

/-- Such an integer is a multiple of the distance of the doubles around it. -/
theorem div_ulp_intCast {n : ℤ} (h : |n| < 2 ^ 53) : ∃ m : ℤ, (n : ℚ) / ulp n = m := by
  rcases eq_or_ne n 0 with rfl | hn
  · exact ⟨0, by simp⟩
  · obtain ⟨hlow, hhigh⟩ := log_abs_intCast hn h
    obtain ⟨k, hk⟩ := Int.eq_ofNat_of_zero_le (sub_nonneg.2 hhigh)
    refine ⟨n * 2 ^ k, ?_⟩
    rw [ulp, max_eq_left (by omega), show Int.log 2 |(n : ℚ)| - 52 = -(k : ℤ) by omega, zpow_neg,
      zpow_natCast, div_inv_eq_mul]
    push_cast
    rfl

/-- **An integer below `2 ^ 53` is a double.** -/
theorem round_intCast {n : ℤ} (h : |n| < 2 ^ 53) : Double.round n = .fin n := by
  obtain ⟨m, hm⟩ := div_ulp_intCast h
  have hulp : ulp (n : ℚ) ≠ 0 := (zpow_pos (by norm_num) _).ne'
  have hsame : (roundEven ((n : ℚ) / ulp n) : ℚ) * ulp n = n := by
    rw [hm, roundEven_intCast, ← hm, div_mul_cancel₀ _ hulp]
  have hlt : |(n : ℚ)| < 2 ^ 1024 :=
    calc |(n : ℚ)| < 2 ^ 53 := by exact_mod_cast h
      _ ≤ 2 ^ 1024 := pow_le_pow_right₀ (by norm_num) (by norm_num)
  rw [Double.round, hsame, if_neg (not_le.2 hlt)]

theorem roundEven_error (q : ℚ) : |(roundEven q : ℚ) - q| ≤ 1 / 2 := by
  have hlow := Int.floor_le q
  have hhigh := Int.lt_floor_add_one q
  rw [roundEven, abs_le]
  split_ifs
  · exact ⟨by linarith, by linarith⟩
  · push_cast
    exact ⟨by linarith, by linarith⟩
  · exact ⟨by linarith, by linarith⟩
  · push_cast
    exact ⟨by linarith, by linarith⟩

/-- **Integers below `2 ^ 1023` are finite.** -/
theorem round_finite {n : ℤ} (h : |n| < 2 ^ 1023) : ∃ q, Double.round n = .fin q := by
  rcases eq_or_ne n 0 with rfl | hn
  · exact ⟨0, round_intCast (by norm_num)⟩
  have hpos : (0 : ℚ) < |(n : ℚ)| := abs_pos.2 (Int.cast_ne_zero.2 hn)
  have hone : (1 : ℚ) ≤ |(n : ℚ)| := by exact_mod_cast Int.one_le_abs hn
  have hlog : 0 ≤ Int.log 2 |(n : ℚ)| := (Int.zpow_le_iff_le_log (by norm_num) hpos).1 (by simpa using hone)
  have hulp : 0 < ulp (n : ℚ) := zpow_pos (by norm_num) _
  have hle : ulp (n : ℚ) ≤ |(n : ℚ)| :=
    calc ulp (n : ℚ) ≤ 2 ^ Int.log 2 |(n : ℚ)| := zpow_le_zpow_right₀ (by norm_num) (by omega)
      _ ≤ |(n : ℚ)| := Int.zpow_log_le_self (by norm_num) hpos
  have herror : |roundEven ((n : ℚ) / ulp n) * ulp n - n| ≤ 1 / 2 * ulp (n : ℚ) :=
    calc |roundEven ((n : ℚ) / ulp n) * ulp n - n|
        = |(roundEven ((n : ℚ) / ulp n) : ℚ) - n / ulp n| * ulp n := by
          rw [← abs_of_pos hulp, ← abs_mul, abs_of_pos hulp, sub_mul, div_mul_cancel₀ _ hulp.ne']
      _ ≤ 1 / 2 * ulp (n : ℚ) := mul_le_mul_of_nonneg_right (roundEven_error _) hulp.le
  have hlt : |(n : ℚ)| < 2 ^ 1023 := by
    rw [← Int.cast_abs]
    exact (Int.cast_lt.2 h).trans_eq (by rw [Int.cast_pow, Int.cast_ofNat])
  have htriangle := abs_add_le (roundEven ((n : ℚ) / ulp n) * ulp n - n) (n : ℚ)
  rw [sub_add_cancel] at htriangle
  refine ⟨_, if_neg (not_le.2 ?_)⟩
  calc |roundEven ((n : ℚ) / ulp n) * ulp n| ≤ 1 / 2 * ulp (n : ℚ) + |(n : ℚ)| := htriangle.trans (by gcongr)
    _ ≤ 2 * |(n : ℚ)| := by linarith
    _ < 2 * 2 ^ 1023 := by gcongr
    _ = 2 ^ 1024 := (pow_succ' 2 1023).symm

/-! ## Texts -/

/-- `isdigit` -/
def isDigit (b : U8) : Bool := 48#8 ≤ b && b ≤ 57#8

/-- The number that digits denote. -/
def digitsValue (ds : Bytes) : ℕ := ds.foldl (fun n d => n * 10 + (d.toNat - 48)) 0

/-- Whether there is a minus sign, and the bytes of the sign. -/
def sign : Bytes → Bool × ℕ
  | b :: _ => if b = 45#8 then (true, 1) else if b = 43#8 then (false, 1) else (false, 0)
  | [] => (false, 0)

/-- A number with the sign. -/
def signed (negative : Bool) (n : ℤ) : ℤ := if negative then -n else n

/-- The exponent at the end of a number, and its bytes. There is none without digits. -/
def exponent : Bytes → ℤ × ℕ
  | e :: s =>
    let ds := (s.drop (sign s).2).takeWhile isDigit
    if (e = 101#8 ∨ e = 69#8) ∧ ds ≠ [] then
      (signed (sign s).1 (digitsValue ds), 1 + (sign s).2 + ds.length)
    else (0, 0)
  | [] => (0, 0)

/-- The digits behind a point, and their bytes with it. -/
def fraction : Bytes → Bytes × ℕ
  | b :: s => if b = 46#8 then (s.takeWhile isDigit, 1 + (s.takeWhile isDigit).length) else ([], 0)
  | [] => ([], 0)

/-- `strtod` of a decimal text without white space in front: the double, and the bytes it is read from.
There is none without digits. -/
def strtod (s : Bytes) : Option (Double × ℕ) :=
  let whole := (s.drop (sign s).2).takeWhile isDigit
  let n := (sign s).2 + whole.length
  let frac := fraction (s.drop n)
  let exp := exponent (s.drop (n + frac.2))
  if whole ++ frac.1 = [] then none
  else some (Double.round (signed (sign s).1 (digitsValue (whole ++ frac.1)) * 10 ^ (exp.1 - frac.1.length)),
    n + frac.2 + exp.2)

theorem sign_le (s : Bytes) : (sign s).2 ≤ s.length := by
  cases s with
  | nil => exact le_refl 0
  | cons b s =>
    rw [sign, List.length_cons]
    split_ifs <;> omega

theorem takeWhile_length_le (s : Bytes) (n : ℕ) :
    ((s.drop n).takeWhile isDigit).length ≤ s.length - n :=
  (List.takeWhile_prefix _).length_le.trans_eq List.length_drop

theorem exponent_le (s : Bytes) : (exponent s).2 ≤ s.length := by
  cases s with
  | nil => exact le_refl 0
  | cons e s =>
    have hsign := sign_le s
    have hdigits := takeWhile_length_le s (sign s).2
    simp only [exponent, List.length_cons]
    split_ifs
    · change 1 + (sign s).2 + _ ≤ _
      omega
    · exact Nat.zero_le _

theorem fraction_le (s : Bytes) : (fraction s).1.length ≤ (fraction s).2 ∧ (fraction s).2 ≤ s.length := by
  cases s with
  | nil => exact ⟨le_refl 0, le_refl 0⟩
  | cons b s =>
    have hdigits := (List.takeWhile_prefix (l := s) (p := isDigit)).length_le
    rw [fraction, List.length_cons]
    split_ifs
    · change (s.takeWhile isDigit).length ≤ 1 + _ ∧ 1 + (s.takeWhile isDigit).length ≤ _
      omega
    · exact ⟨le_refl 0, Nat.zero_le _⟩

/-- **What is read** is a part of the text, and not empty. -/
theorem strtod_consumed {s : Bytes} {d : Double} {n : ℕ} (h : strtod s = some (d, n)) :
    0 < n ∧ n ≤ s.length := by
  set whole := (s.drop (sign s).2).takeWhile isDigit with hw
  set k := (sign s).2 + whole.length with hk
  have hsign := sign_le s
  have hwhole : whole.length ≤ s.length - (sign s).2 := takeWhile_length_le s (sign s).2
  have hfrac := fraction_le (s.drop k)
  have hexp := exponent_le (s.drop (k + (fraction (s.drop k)).2))
  rw [List.length_drop] at hfrac hexp
  unfold strtod at h
  obtain ⟨hne, heq⟩ := Option.ite_none_left_eq_some.1 h
  obtain ⟨-, rfl⟩ := Prod.mk.inj (Option.some.inj heq)
  have hdigits : 0 < whole.length + (fraction (s.drop k)).1.length := by
    rw [← List.length_append]
    exact List.length_pos_iff.2 hne
  change 0 < k + (fraction (s.drop k)).2 + (exponent (s.drop (k + (fraction (s.drop k)).2))).2 ∧
    k + (fraction (s.drop k)).2 + (exponent (s.drop (k + (fraction (s.drop k)).2))).2 ≤ s.length
  omega

/-- Behind a sign there are only digits. -/
theorem strtod_of_sign {s ds : Bytes} {negative : Bool} {n : ℕ} (hsign : sign s = (negative, n)) (hs : s.drop n = ds)
    (hds : ∀ d ∈ ds, isDigit d = true) (hne : ds ≠ []) :
    strtod s = some (Double.round (signed negative (digitsValue ds)), n + ds.length) := by
  have hall : ds.takeWhile isDigit = ds := List.takeWhile_eq_self_iff.2 hds
  have hend : s.drop (n + ds.length) = [] := by rw [← List.drop_drop, hs, List.drop_length]
  simp only [strtod, hsign, hs, hall, hend, fraction, exponent, List.append_nil, if_neg hne, Nat.add_zero,
    List.length_nil, Nat.cast_zero, sub_zero, zpow_zero, mul_one]

/-- **The digits of an integer** denote the double next to it. -/
theorem strtod_digits {ds : Bytes} (hds : ∀ d ∈ ds, isDigit d = true) (hne : ds ≠ []) :
    strtod ds = some (Double.round (digitsValue ds : ℤ), ds.length) ∧
      strtod (45#8 :: ds) = some (Double.round (-(digitsValue ds : ℤ) : ℤ), ds.length + 1) := by
  have hsign : sign ds = (false, 0) := by
    obtain ⟨d, l, rfl⟩ := List.exists_cons_of_ne_nil hne
    have hd := hds d List.mem_cons_self
    rw [sign, if_neg (by rintro rfl; exact absurd hd (by decide)),
      if_neg (by rintro rfl; exact absurd hd (by decide))]
  constructor
  · rw [strtod_of_sign hsign rfl hds hne, List.drop_zero, Nat.zero_add]
    rfl
  · rw [strtod_of_sign (s := 45#8 :: ds) rfl rfl hds hne, Nat.add_comm]
    rfl

end Strtod
