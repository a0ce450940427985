import ArionDp.Lib.Octets
import ArionDp.Lib.PyText

/-!
# Scanning hexadecimal bytes in C

The directives of `sscanf` that read bytes in hexadecimal: `%hhx`, literal characters and `%*c`.

* `sscanf`: the bytes that are stored, up to the first directive that does not match;
* **`hhx_octet`**: an octet of two digits reads back; `sscanf_hhx`, `sscanf_lit`: one directive.
-/

namespace Scanf

open PyText Wire

/-- A directive of a format. -/
inductive Directive
  /-- `%hhx` -/
  | hhx
  /-- a character that is not white space -/
  | lit (c : Char)
  /-- `%*c` -/
  | skip

/-- `isspace`, in the C locale -/
def isspace (c : Char) : Bool := c.toNat ∈ [9, 10, 11, 12, 13, 32]

/-- `isxdigit`, in the C locale -/
def isxdigit (c : Char) : Bool := (digitValue 16 c).isSome

/-- The sign of a number, and what follows it. -/
def sign : List Char → Bool × List Char
  | '-' :: s => (true, s)
  | '+' :: s => (false, s)
  | s => (false, s)

/-- What follows the prefix `0x`, if there is one. -/
def afterPrefix : List Char → List Char
  | '0' :: 'x' :: s => s
  | '0' :: 'X' :: s => s
  | s => s

/-- `strtoul(…, 16)` of digits with their sign -/
def strtoul (negative : Bool) (digits : List Char) : ℤ :=
  let n : ℕ := (digits.filterMap (digitValue 16)).foldl (fun a d => a * 16 + d) 0
  if n ≥ 2 ^ 64 then 2 ^ 64 - 1 else if negative then -n else n

/-- `%hhx`: the byte, and what follows it. -/
def hhx (s : List Char) : Option (U8 × List Char) :=
  let (negative, s) := sign (s.dropWhile isspace)
  let s := afterPrefix s
  if s.takeWhile isxdigit = [] then none
  else some (BitVec.ofInt 8 (strtoul negative (s.takeWhile isxdigit)), s.dropWhile isxdigit)

/-- `sscanf`: the bytes it stores. -/
def sscanf : List Directive → List Char → List U8
  | [], _ => []
  | .hhx :: fmt, s => match hhx s with
    | some (b, s) => b :: sscanf fmt s
    | none => []
  | .lit c :: fmt, s => match s with
    | d :: s => if d = c then sscanf fmt s else []
    | [] => []
  | .skip :: fmt, s => match s with
    | _ :: s => sscanf fmt s
    | [] => []

/-! ## Octets -/

theorem hexDigits_scan : ∀ c ∈ hexDigits, isspace c = false ∧ isxdigit c = true ∧ c ≠ '-' ∧ c ≠ '+' ∧
    c ≠ 'x' ∧ c ≠ 'X' := by
  have h : (hexDigits.all fun c => decide (isspace c = false ∧ isxdigit c = true ∧ c ≠ '-' ∧ c ≠ '+' ∧
      c ≠ 'x' ∧ c ≠ 'X')) = true := by
    decide +kernel
  exact fun c hc => of_decide_eq_true (List.all_eq_true.1 h c hc)

theorem sign_of_ne {c : Char} (h1 : c ≠ '-') (h2 : c ≠ '+') (s : List Char) :
    sign (c :: s) = (false, c :: s) := by
  unfold sign
  split <;> simp_all

theorem afterPrefix_of_ne {c d : Char} (h1 : d ≠ 'x') (h2 : d ≠ 'X') (s : List Char) :
    afterPrefix (c :: d :: s) = c :: d :: s := by
  unfold afterPrefix
  split <;> simp_all

/-- **An octet of two digits reads back**, if no digit follows. -/
theorem hhx_octet {b : U8} {g : List Char} (h : IsHexOctet b.toNat g) {s : List Char}
    (hs : s.takeWhile isxdigit = []) : hhx (g ++ s) = some (b, s) := by
  obtain ⟨c, hc, d, hd, rfl, hcv, hdv⟩ := h
  obtain ⟨hc1, hc2, hc3, hc4, -, -⟩ := hexDigits_scan c hc
  obtain ⟨-, hd2, -, -, hd5, hd6⟩ := hexDigits_scan d hd
  have htake : (c :: d :: s).takeWhile isxdigit = [c, d] := by
    rw [List.takeWhile_cons_of_pos hc2, List.takeWhile_cons_of_pos hd2, hs]
  have hdrop : (c :: d :: s).dropWhile isxdigit = s := by
    have happ := List.takeWhile_append_dropWhile (p := isxdigit) (l := c :: d :: s)
    rw [htake] at happ
    exact List.append_cancel_left (happ : [c, d] ++ _ = [c, d] ++ s)
  have hval : strtoul false [c, d] = (b.toNat : ℤ) := by
    have hlt := b.isLt
    have hn : (0 * 16 + b.toNat / 16) * 16 + b.toNat % 16 = b.toNat := by omega
    simp only [strtoul, List.filterMap_cons, hcv, hdv, List.filterMap_nil, List.foldl_cons,
      List.foldl_nil, hn]
    rw [if_neg (by omega)]
    rfl
  have hnp : List.dropWhile isspace ([c, d] ++ s) = c :: d :: s :=
    List.dropWhile_cons_of_neg (by rw [hc1]; exact Bool.false_ne_true)
  rw [hhx, hnp, sign_of_ne hc3 hc4]
  dsimp only
  rw [afterPrefix_of_ne hd5 hd6, htake, hdrop, hval, if_neg (List.cons_ne_nil _ _)]
  simp

theorem sscanf_hhx {b : U8} {g : List Char} (h : IsHexOctet b.toNat g) {s : List Char}
    (hs : s.takeWhile isxdigit = []) (fmt : List Directive) :
    sscanf (.hhx :: fmt) (g ++ s) = b :: sscanf fmt s := by
  rw [sscanf, hhx_octet h hs]

theorem sscanf_lit (c : Char) (s : List Char) (fmt : List Directive) :
    sscanf (.lit c :: fmt) (c :: s) = sscanf fmt s := if_pos rfl

end Scanf
