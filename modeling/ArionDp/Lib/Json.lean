import Mathlib.Data.Rat.Floor
import Mathlib.Tactic.Common

/-!
# JSON trees and their accessors in C

A tree carries integers where it is written and rationals where it is read; `Json.map` takes one to
the other, number by number. The accessors are those of `cJSON`: a field is the first one whose
name agrees up to the case of ASCII letters, and a number is read by truncation.

* `getObjectItem`, `getObjectItem_map`: a field, before and after transport;
* `cUInt`, **`cUInt_natCast`**: the cast of a number to an unsigned word.
-/

/-- A JSON tree with numbers in `ν`. -/
inductive Json (ν : Type) where
  | null
  | bool (b : Bool)
  | num (n : ν)
  | str (s : List Char)
  | arr (items : List (Json ν))
  | obj (fields : List (List Char × Json ν))

namespace Json

variable {ν μ : Type}

mutual

/-- Change the numbers of a tree. -/
def map (f : ν → μ) : Json ν → Json μ
  | .null => .null
  | .bool b => .bool b
  | .num n => .num (f n)
  | .str s => .str s
  | .arr items => .arr (mapItems f items)
  | .obj fields => .obj (mapFields f fields)

/-- Change the numbers of the items of an array. -/
def mapItems (f : ν → μ) : List (Json ν) → List (Json μ)
  | [] => []
  | j :: js => map f j :: mapItems f js

/-- Change the numbers of the fields of an object. -/
def mapFields (f : ν → μ) : List (List Char × Json ν) → List (List Char × Json μ)
  | [] => []
  | (k, j) :: fs => (k, map f j) :: mapFields f fs

end

theorem mapItems_eq (f : ν → μ) (js : List (Json ν)) : mapItems f js = js.map (map f) := by
  induction js with
  | nil => rfl
  | cons j js ih => rw [mapItems, ih, List.map_cons]

/-- `tolower`, in the C locale -/
def tolower (c : Char) : Char := c.toLower

/-- `case_insensitive_strcmp(…) == 0` -/
def sameName (a b : List Char) : Bool := a.map tolower == b.map tolower

/-- The first field with a name. -/
def findField (key : List Char) : List (List Char × Json ν) → Option (Json ν)
  | [] => none
  | (k, j) :: fs => if sameName key k then some j else findField key fs

/-- `cJSON_GetObjectItem`; the items of an array have no names -/
def getObjectItem (key : List Char) : Json ν → Option (Json ν)
  | .obj fields => findField key fields
  | _ => none

theorem findField_map (f : ν → μ) (key : List Char) (fs : List (List Char × Json ν)) :
    findField key (mapFields f fs) = (findField key fs).map (map f) := by
  induction fs with
  | nil => rfl
  | cons p fs ih =>
    rw [mapFields, findField, findField, ih]
    split_ifs <;> rfl

/-- **Transport keeps the fields of an object.** -/
theorem getObjectItem_map (f : ν → μ) (key : List Char) (j : Json ν) :
    getObjectItem key (map f j) = (getObjectItem key j).map (map f) := by
  cases j with
  | obj fields =>
    rw [map]
    exact findField_map f key fields
  | _ => rfl

/-- The cast of a double to an unsigned word of `w` bits, by truncation. C defines it where the
truncated value fits; elsewhere it wraps here. -/
def cUInt (w : ℕ) (d : ℚ) : BitVec w := BitVec.ofInt w (if 0 ≤ d then ⌊d⌋ else ⌈d⌉)

theorem cUInt_natCast (w n : ℕ) : cUInt w (n : ℚ) = BitVec.ofNat w n := by
  rw [cUInt, if_pos (by positivity), Int.floor_natCast]
  exact BitVec.ofInt_natCast w n

end Json
