import ArionDp.Lib.Py
import ArionDp.Lib.Zlib
import Mathlib.Algebra.GroupWithZero.Nat
import Mathlib.Data.Char
import Mathlib.Data.List.Lex
import Mathlib.Data.List.Sort

/-!
# Maglev lookup tables

`maglev_table.py`: a table that maps every slot to an element, filled from one permutation of the
slots for each element.

* `MaglevTable.add`, `MaglevTable.remove`, `MaglevTable.getTable`: the operations, with their
  exceptions;
* `populate`: the filling; its outer loop never ends for a table without elements;
* `MaglevOp`, `runMaglevOps`: sequences of calls.
-/

namespace ArionDp

open Py

/-- The name of an element. -/
abbrev ElementName := List Char

/-- The exceptions of `MaglevTable`; `noReturn` stands for a call that never returns. -/
inductive MaglevError
  | elementAlreadyExist | elementNotFound | tableIsEmpty | previousTableIsEmpty
  | indexError | keyError | zeroDivisionError | unicodeEncodeError | noReturn
  deriving DecidableEq

/-- A slot: `None` or an element. -/
abbrev Slot := Option ElementName

/-- Whether a slot counts as true: `None` and the empty name do not. -/
def Slot.truthy : Slot → Bool
  | none => false
  | some e => e ≠ []

/-- `MaglevTable` -/
structure MaglevTable where
  tableSize : ℕ
  permutationsTable : List (ElementName × List ℕ)
  table : List Slot
  prevTable : List Slot
  prevElementsMap : List (Slot × List Slot)
  elementsReplaced : ℕ
  elementsReplacing : ℕ
  altered : Bool

/-- `MaglevTable(table_size)` -/
def MaglevTable.new (tableSize : ℕ) : MaglevTable := ⟨tableSize, [], [], [], [], 0, 0, false⟩

/-- A method of the table. -/
abbrev Maglev := Prog MaglevError MaglevTable

/-! ## Permutations -/

/-- `element.encode("ascii")` -/
def encodeAscii (element : ElementName) : Except MaglevError (List ℕ) :=
  if element.all fun c => c.toNat < 128 then .ok (element.map Char.toNat) else .error .unicodeEncodeError

/-- `_compute_permutations` -/
def computePermutations (tableSize : ℕ) (element : ElementName) : Except MaglevError (List ℕ) :=
  (List.range tableSize).mapM fun i => do
    let bytes ← encodeAscii element
    let offset := Zlib.crc32 bytes % tableSize
    if tableSize - 1 = 0 then .error .zeroDivisionError
    else
      let skip := Zlib.adler32 bytes % (tableSize - 1) + 1
      pure ((offset + i * skip) % tableSize)

/-! ## Filling the table -/

/-- The variables of `_populate_table`. -/
structure Filling where
  nextInd : List ℕ
  table : List Slot
  n : ℕ

/-- The inner loop: from the candidates that are left, the first one that is free, and its place. -/
def findSlot (table : List Slot) : List ℕ → ℕ → Except MaglevError (ℕ × ℕ)
  | [], _ => .error .indexError
  | cand :: rest, j => match table[cand]? with
    | none => .error .indexError
    | some slot => if slot.truthy then findSlot table rest (j + 1) else .ok (j, cand)

/-- `self.permutations_table[element]` -/
def permutationOf (perms : List (ElementName × List ℕ)) (element : ElementName) :
    Except MaglevError (List ℕ) :=
  match perms.find? fun e => e.1 = element with
  | some e => .ok e.2
  | none => .error .keyError

section Populate

variable (tableSize : ℕ) (perms : List (ElementName × List ℕ))

/-- One round of the `for` loop, for the element number `i`. -/
def placeElement (element : ElementName) (i : ℕ) (f : Filling) : Except MaglevError Filling := do
  let perm ← permutationOf perms element
  match f.nextInd[i]? with
  | none => .error .indexError
  | some next =>
    let found ← findSlot f.table (perm.drop next) next
    pure ⟨f.nextInd.set i (found.1 + 1), f.table.set found.2 (some element), f.n + 1⟩

/-- The `for` loop; the flag says that the table is full. -/
def placeElements : List ElementName → ℕ → Filling → Except MaglevError (Filling × Bool)
  | [], _, f => .ok (f, false)
  | element :: elements, i, f => do
    let f ← placeElement perms element i f
    if f.n = tableSize then pure (f, true) else placeElements elements (i + 1) f

/-- The `while` loop, over so many rounds. -/
def populateRounds (elements : List ElementName) : ℕ → Filling → Except MaglevError (List Slot)
  | 0, _ => .error .noReturn
  | rounds + 1, f => do
    let (f, full) ← placeElements tableSize perms elements 0 f
    if full then pure f.table else populateRounds elements rounds f

/-- `_populate_table`; a round places an element if there is one, so that rounds beyond the size
never come -/
def populate : Except MaglevError (List Slot) :=
  let elements := (perms.map Prod.fst).insertionSort (· ≤ ·)
  populateRounds tableSize perms elements tableSize
    ⟨List.replicate perms.length 0, List.replicate tableSize none, 0⟩

end Populate

/-! ## What was replaced -/

/-- One round of the first loop of `_generate_prev_elements_map`. -/
def recordReplaced (prevElementsMap : List (Slot × List Slot)) (prev curr : Slot) :
    List (Slot × List Slot) :=
  let initialized := if ∃ e ∈ prevElementsMap, e.1 = curr then prevElementsMap
    else prevElementsMap ++ [(curr, [])]
  initialized.map fun e =>
    if e.1 = curr ∧ curr ≠ prev ∧ prev ∉ e.2 then (e.1, e.2 ++ [prev]) else e

/-- The first loop of `_generate_prev_elements_map`. -/
def replacedElements (prevTable table : List Slot) (tableSize : ℕ) :
    Except MaglevError (List (Slot × List Slot)) :=
  (List.range tableSize).foldlM (fun m i => match prevTable[i]?, table[i]? with
    | some prev, some curr => .ok (recordReplaced m prev curr)
    | _, _ => .error .indexError) []

/-- `_generate_prev_elements_map` -/
def generatePrevElementsMap : Maglev Unit := do
  let s ← getState
  if s.prevTable = [] then raise .previousTableIsEmpty
  else do
    let replaced ← ofExcept (replacedElements s.prevTable s.table s.tableSize)
    let nonempty := replaced.filter fun e => e.2 ≠ []
    modifyState fun s => { s with
      prevElementsMap := nonempty
      elementsReplaced := (replaced.map fun e => e.2.length).sum
      elementsReplacing := nonempty.length }

/-! ## Operations -/

namespace MaglevTable

/-- What `get_table` does for an altered table. -/
def refresh : Maglev Unit := do
  let s ← getState
  modifyState fun s => { s with prevTable := s.table }
  let table ← ofExcept (populate s.tableSize s.permutationsTable)
  modifyState fun s => { s with table := table }
  if s.table = [] then pure () else generatePrevElementsMap

/-- `get_table` -/
def getTable : Maglev (List Slot) := do
  let s ← getState
  (if s.altered then refresh else pure ())
  let s ← getState
  if s.table = [] then raise .tableIsEmpty
  else do
    modifyState fun s => { s with altered := false }
    pure s.table

/-- `add` -/
def add (element : ElementName) : Maglev Unit := do
  let s ← getState
  if ∃ e ∈ s.permutationsTable, e.1 = element then raise .elementAlreadyExist
  else do
    let permutation ← ofExcept (computePermutations s.tableSize element)
    modifyState fun s => { s with
      permutationsTable := s.permutationsTable ++ [(element, permutation)], altered := true }

/-- `remove` -/
def remove (element : ElementName) : Maglev Unit := do
  let s ← getState
  if ∃ e ∈ s.permutationsTable, e.1 = element then
    modifyState fun s => { s with
      permutationsTable := s.permutationsTable.filter fun e => e.1 ≠ element, altered := true }
  else raise .elementNotFound

end MaglevTable

/-- A call. -/
inductive MaglevOp
  | add (element : ElementName)
  | remove (element : ElementName)
  | getTable
  deriving DecidableEq

/-- The table after a call, whether it returns or raises. -/
def MaglevOp.run : MaglevOp → MaglevTable → MaglevTable
  | .add element, s => (MaglevTable.add element s).2
  | .remove element, s => (MaglevTable.remove element s).2
  | .getTable, s => (MaglevTable.getTable s).2

/-- The table after a sequence of calls. -/
def runMaglevOps (ops : List MaglevOp) (s : MaglevTable) : MaglevTable :=
  ops.foldl (fun s op => op.run s) s

/-- The table of a test of the source. -/
example : (MaglevTable.getTable (runMaglevOps [.add "chain0".toList, .add "chain1".toList,
      .add "chain2".toList, .getTable, .remove "chain2".toList] (.new 7))).1 =
    .ok (["chain1", "chain0", "chain0", "chain1", "chain1", "chain0", "chain0"].map
      fun s => some s.toList) := by
  decide +kernel

end ArionDp
