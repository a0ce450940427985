import ArionDp.Common.MaglevBalance
import ArionDp.Operator.Tasks

/-!
# The lookup table of a DFT

`dft_create` creates the chains of a DFT and adds each to its Maglev table. The DFT is given the attribute
`table` of it instead of what `get_table` returns, so that the chains just added are not in it.

* `Dft`, `Chain`: the objects, `DftCreation`: the state of the workflow function;
* `createNChains`, `dftCreate`: as the operator runs them;
* `dftCreate_table`: the DFT has the table of the last `get_table`;
* **`dft_table_iff`**: when that is a table over its chains, and `default_dft_without_table`.
-/

namespace ArionDp

open ApiServer Py PyText

/-! ## Creating the chains -/

/-- `Dft` -/
structure Dft where
  name : Text
  status : Text
  maglevTable : Option MaglevTable
  table : List Slot
  numchains : ℤ
  numchainreplicas : ℤ

/-- `Dft(name, obj_api, store, spec)` -/
def Dft.ofSpec (name : Text) (spec : Dft) : Dft := { spec with name := name, maglevTable := none }

/-- `Chain`, without its name. -/
structure Chain where
  status : Text
  head : Text
  tail : Text
  dft : Text
  size : ℤ
  ftns : List Text

/-- Chains in Kubernetes and in `OprStore`, and the DFT that is created. -/
structure DftCreation where
  kube : Store Text Chain
  stored : Text → Option Chain
  dft : Dft

/-- The exceptions of the workflow function. -/
inductive DftError
  | apiException
  | attributeError
  | maglev (e : MaglevError)

/-- A part of the workflow function. -/
abbrev DftTask := Prog DftError DftCreation

/-- Which chains Kubernetes lets the operator read and create. -/
structure KubeAnswers where
  reads : Text → Bool
  creates : Text → Bool

/-- `update_obj` of the store, for a chain -/
def storeUpdateChain (name : Text) (chain : Chain) : DftTask Unit :=
  modifyState fun s => { s with stored := fun n => if n = name then some chain else s.stored n }

/-- `create_obj` of a chain: one that can be read is taken over. -/
def Chain.createObj (kube : KubeAnswers) (name : Text) (chain : Chain) : DftTask Unit := do
  let s ← getState
  match if kube.reads name then s.kube.get? name else none with
  | some o => storeUpdateChain name o.body
  | none =>
    match if kube.creates name then s.kube.create name chain else none with
    | none => raise .apiException
    | some kube => do
      modifyState fun s => { s with kube := kube }
      storeUpdateChain name chain

/-- A call on the Maglev table of the DFT. -/
def onMaglevTable (call : Maglev Unit) : DftTask Unit := do
  let s ← getState
  match s.dft.maglevTable with
  | none => raise .attributeError
  | some table => do
    modifyState fun s => { s with dft := { s.dft with maglevTable := some (call table).2 } }
    match (call table).1 with
    | .ok () => pure ()
    | .error e => raise (.maglev e)

/-- The name of a chain of a DFT. -/
def chainName (dft : Text) (i : ℕ) : Text := dft ++ "-chain-".toList ++ pyStr i

/-- One round of `create_n_chains`. -/
def createChain (kube : KubeAnswers) (dft : Dft) (i : ℕ) : DftTask Unit := do
  Chain.createObj kube (chainName dft.name i) ⟨objStatusInit, [], [], dft.name, dft.numchainreplicas, []⟩
  onMaglevTable (MaglevTable.add (chainName dft.name i))

/-- `create_n_chains` -/
def createNChains (kube : KubeAnswers) : DftTask Unit := do
  let s ← getState
  forEach (createChain kube s.dft) (List.range s.dft.numchains.toNat)
  let s ← getState
  match s.dft.maglevTable with
  | none => raise .attributeError
  | some table => modifyState fun s => { s with dft := { s.dft with table := table.table } }

/-- `dft_create` -/
def dftCreate (kube : KubeAnswers) (dft : Option Dft) (name : Text) (spec : Dft) : DftTask Dft := do
  modifyState fun s => { s with dft := dft.getD (.ofSpec name spec) }
  createNChains kube
  let s ← getState
  pure s.dft

/-! ## The names of the chains -/

/-- The chains that `create_n_chains` creates. -/
def Dft.chainNames (dft : Dft) : List Text := (List.range dft.numchains.toNat).map (chainName dft.name)

theorem chainName_injective (dft : Text) : Function.Injective (chainName dft) := by
  intro i j h
  have hdigits : Nat.toDigits 10 i = Nat.toDigits 10 j := List.append_cancel_left h
  rw [← Nat.ofDigitChars_ten_toDigits (n := i), hdigits, Nat.ofDigitChars_ten_toDigits]

theorem Dft.nodup_chainNames (dft : Dft) : dft.chainNames.Nodup :=
  List.nodup_range.map (chainName_injective dft.name)

theorem Dft.length_chainNames (dft : Dft) : dft.chainNames.length = dft.numchains.toNat := by
  rw [chainNames, List.length_map, List.length_range]

/-! ## The table -/

section Table

variable (kube : KubeAnswers) (dft : Dft) (table : List Slot)

/-- The DFT as it was, with a Maglev table that has been altered at most. -/
def ChainsAdded (s : DftCreation) : Prop :=
  ∃ t : MaglevTable, t.table = table ∧ s.dft = { dft with maglevTable := some t }

theorem keeps_storeUpdateChain (name : Text) (chain : Chain) :
    Keeps (ChainsAdded dft table) (storeUpdateChain name chain) := fun _ hs => hs

theorem keeps_createObj (name : Text) (chain : Chain) :
    Keeps (ChainsAdded dft table) (Chain.createObj kube name chain) := by
  refine Keeps.bind Keeps.getState fun s => ?_
  cases if kube.reads name then s.kube.get? name else none with
  | some o => exact keeps_storeUpdateChain dft table name o.body
  | none =>
    dsimp only
    cases if kube.creates name then s.kube.create name chain else none with
    | none => exact Keeps.raise _
    | some _ =>
      refine Keeps.bind (Keeps.modifyState fun _ hs => hs) fun _ => ?_
      exact keeps_storeUpdateChain dft table name chain

/-- A call on the Maglev table keeps `ChainsAdded`, which is not about the attribute. -/
theorem keeps_onMaglevTable (e : ElementName) :
    Keeps (ChainsAdded dft table) (onMaglevTable (MaglevTable.add e)) := by
  refine Triple.bind Triple.getState fun s => ?_
  cases hm : s.dft.maglevTable with
  | none => exact Triple.raise fun _ hs => hs.2
  | some t =>
    refine Triple.bind (Q := fun _ => ChainsAdded dft table) (Triple.modifyState ?_) fun _ => ?_
    · rintro _ ⟨rfl, t', ht', hdft⟩
      rw [hdft] at hm
      obtain rfl := Option.some.inj hm
      refine ⟨(MaglevTable.add e t').2, ?_, by rw [hdft]⟩
      rw [← ht']
      exact run_table (show MaglevOp.add e ≠ .getTable from nofun)
    · cases (MaglevTable.add e t).1 with
      | ok _ => exact Triple.pure fun _ hs => hs
      | error _ => exact Triple.raise fun _ hs => hs

/-- **The DFT has the attribute of before**: the chains are created and added, but the table is not asked
for. -/
theorem dftCreate_table {t : MaglevTable} (ht : dft.maglevTable = some t) (name : Text) (spec : Dft) :
    Triple (fun _ => True) (dftCreate kube (some dft) name spec) (fun d _ => d.table = t.table)
      fun _ _ => True := by
  have hloop : Keeps (ChainsAdded dft t.table) (forEach (createChain kube dft)
      (List.range dft.numchains.toNat)) := by
    refine Keeps.forEach (fun i => ?_) _
    exact Keeps.bind (keeps_createObj kube dft t.table _ _) fun _ =>
      keeps_onMaglevTable dft t.table _
  refine Triple.bind (Q := fun _ s => s.dft = dft) (Triple.modifyState fun s _ => rfl) fun _ => ?_
  refine Triple.bind (Q := fun _ s => s.dft.table = t.table) ?_ fun _ => ?_
  · refine Triple.bind Triple.getState fun s => Triple.assume (fun s' hs => hs.1 ▸ hs.2) fun hdft => ?_
    rw [hdft]
    refine Triple.bind (Q := fun _ => ChainsAdded dft t.table) ?_ fun _ => ?_
    · refine hloop.conseq ?_ (fun _ _ hs => hs) fun _ _ _ => True.intro
      rintro _ ⟨rfl, h⟩
      exact ⟨t, rfl, by rw [h, ← ht]⟩
    · refine Triple.bind Triple.getState fun s' => ?_
      cases hm : s'.dft.maglevTable with
      | none => exact Triple.raise fun _ _ => True.intro
      | some t' =>
        refine Triple.modifyState ?_
        rintro _ ⟨rfl, t'', ht'', hd⟩
        rw [hd] at hm
        obtain rfl := Option.some.inj hm
        exact ht''
  · refine Triple.bind Triple.getState fun s => Triple.pure ?_
    rintro _ ⟨rfl, hs⟩
    exact hs

end Table

/-- **When a provisioned DFT has its lookup table.** A DFT with at least one chain, whose Maglev table has a
prime size and any history, is given a table over the chains it has created if and only if the elements that
the Maglev table had at the last `get_table`, as far as there were slots, were names of these chains, and as
many as can have a slot. A Maglev table that has never been asked for has none. -/
theorem dft_table_iff {M : ℕ} (hM : M.Prime) {ops : List MaglevOp} (hops : PermittedCalls ops) {dft : Dft}
    (hchains : 1 ≤ dft.numchains) (hmaglev : dft.maglevTable = some (runMaglevOps ops (.new M)))
    {kube : KubeAnswers} {name : Text} {spec : Dft} {s t : DftCreation} {d : Dft}
    (hrun : dftCreate kube (some dft) name spec s = (.ok d, t)) :
    Spread M dft.chainNames d.table ↔
      (∀ e ∈ ((shownAfter ops).sort (· ≤ ·)).take M, e ∈ dft.chainNames) ∧
      (((shownAfter ops).sort (· ≤ ·)).take M).length = min M dft.chainNames.length := by
  have htable := dftCreate_table kube dft hmaglev name spec s True.intro
  rw [hrun] at htable
  dsimp only at htable
  rw [htable]
  refine table_spread_iff hM hops dft.nodup_chainNames fun hc => ?_
  have hlen := dft.length_chainNames
  rw [hc, List.length_nil] at hlen
  omega

/-- Kubernetes without chains, which answers everything. -/
def DftCreation.empty (dft : Dft) : DftCreation := ⟨Store.empty, fun _ => none, dft⟩

/-- Kubernetes reads and creates whatever it is asked for. -/
def KubeAnswers.all : KubeAnswers := ⟨fun _ => true, fun _ => true⟩

/-- A result of `dft_create` -/
theorem exists_dft {r : Except DftError Dft × DftCreation} {p : Dft → Bool}
    (h : r.1.toOption.any p = true) : ∃ d t, r = (.ok d, t) ∧ p d = true := by
  obtain ⟨d, hd, hp⟩ := (Option.any_eq_true ..).1 h
  obtain ⟨_ | d', t⟩ := r
  · cases hd
  · obtain rfl := Option.some.inj hd
    exact ⟨_, t, rfl, hp⟩

/-- A DFT of three chains, which have been in its Maglev table before. -/
theorem dft_table_iff_sample :
    let ops := (Dft.mk defaultDft objStatusInit none [] 3 3).chainNames.map .add ++ [.getTable] ++
      (Dft.mk defaultDft objStatusInit none [] 3 3).chainNames.map .remove
    let dft : Dft := ⟨defaultDft, objStatusInit, some (runMaglevOps ops (.new 7)), [], 3, 3⟩
    ∃ d t, dftCreate .all (some dft) defaultDft dft (.empty dft) = (.ok d, t) ∧
      (Spread 7 dft.chainNames d.table ↔
        (∀ e ∈ ((shownAfter ops).sort (· ≤ ·)).take 7, e ∈ dft.chainNames) ∧
        (((shownAfter ops).sort (· ≤ ·)).take 7).length = min 7 dft.chainNames.length) := by
  intro ops dft
  obtain ⟨d, t, hrun, -⟩ := exists_dft (p := fun _ => true)
    (r := dftCreate .all (some dft) defaultDft dft (.empty dft)) (by decide +kernel)
  exact ⟨d, t, hrun, dft_table_iff (by decide) (by decide +kernel) (by decide) rfl hrun⟩

/-- `default_n_chains` -/
def defaultNChains : ℕ := 3

/-- `default_maglev_table_size` -/
def defaultMaglevTableSize : ℕ := 307

/-- The DFT of `create_default_dft` -/
def defaultDftObj : Dft :=
  { name := defaultDft, status := objStatusInit, maglevTable := some (.new defaultMaglevTableSize)
    table := [], numchains := defaultNChains, numchainreplicas := defaultNReplicas }

/-- The three chains of the default DFT are created, but its table is empty. -/
theorem default_dft_without_table : ∃ d t,
    dftCreate .all (some defaultDftObj) defaultDft defaultDftObj (.empty defaultDftObj) = (.ok d, t) ∧
      d.table = [] ∧ ¬ Spread defaultMaglevTableSize defaultDftObj.chainNames d.table := by
  obtain ⟨d, t, hrun, hd⟩ := exists_dft (p := fun d => d.table = [])
    (r := dftCreate .all (some defaultDftObj) defaultDft defaultDftObj (.empty defaultDftObj))
    (by decide +kernel)
  have hnil : d.table = [] := of_decide_eq_true hd
  refine ⟨d, t, hrun, hnil, fun h => ?_⟩
  have hlen := h.length
  rw [hnil] at hlen
  cases hlen

end ArionDp
